/-
The two spellings of an option. An option is a flag with its value behind
it, or both in one argument with `=` between them. Wherever it stands,
one spelling does what the other does: the same options are returned, or
the same error.

# Why the place does not matter

Between items both spellings are read as the same item, or refused for
the same value (`readAll_of_flag`). Behind a flag that still waits the
first argument of either is taken for the value of that flag, and since
every flag of a setting opens with a dash, either is refused there, with
nothing of the value looked at. So the answer is that of the arguments
before the option if they are refused, else that of the option, else
that of the arguments behind it (`readFrom_append_option`): a law in
which the spelling does not occur.

The dash is what it rests on. A reserved word has none, and behind a flag
that waits it is a value when it stands alone.
-/
import Mathlib.Logic.Relation
import Runsheet.Proofs.CommandLine.Usage

namespace Runsheet

namespace Item

variable {s : Setting} {flag : Text}

-- ======================================================= the two spellings

/-- The ways to spell an option: apart, and joined. -/
def spellings (flag v : Text) : List (List Text) := [[flag, v], [flag ++ '=' :: v]]

/-- Every flag of a setting opens with a dash. -/
theorem head?_of_mem_flags (h : flag ∈ s.flags) : flag.head? = some '-' := by
  have hall : ∀ f ∈ s.flags, f.head? = some '-' := by cases s <;> decide
  exact hall flag h

/-- Nothing that opens with a dash is taken for a value. -/
theorem withValue_of_dash {p : Pending} {v : Text} (h : v.head? = some '-') :
    withValue p v = .error (.missingValue p.flag) :=
  if_neg fun hv => (isValue_iff.1 hv).2 h

/-- Either spelling opens with the flag, and so with a dash. -/
theorem exists_cons_of_mem_spellings (hflag : flag ∈ s.flags) {v : Text} {words : List Text}
    (h : words ∈ spellings flag v) :
    ∃ word rest, words = word :: rest ∧ word.head? = some '-' := by
  have hdash := head?_of_mem_flags hflag
  rcases List.mem_cons.1 h with rfl | h
  · exact ⟨flag, [v], rfl, hdash⟩
  · obtain ⟨tail, rfl⟩ := List.head?_eq_some_iff.1 hdash
    exact ⟨_, [], List.mem_singleton.1 h, rfl⟩

-- ================================================= one option among others

/-- Between items either spelling is the one item, with what stands behind
it read alone. -/
theorem readFrom_none_option (hflag : flag ∈ s.flags) {v : Text} {words : List Text}
    (h : words ∈ spellings flag v) (behind : List Text) :
    readFrom none (words ++ behind)
      = (withValue ⟨flag, .setting s⟩ v).bind fun item => (readAll behind).map (item :: ·) := by
  have hkey := ofFlag?_eq_setting_iff.2 hflag
  rcases List.mem_cons.1 h with rfl | h
  · simp only [List.cons_append, List.nil_append, readFrom, readWord_of_flag hkey]
    cases withValue ⟨flag, .setting s⟩ v <;> rfl
  · rw [List.mem_singleton.1 h]
    simp only [List.cons_append, List.nil_append, readFrom, readWord_of_joined hkey]
    cases withValue ⟨flag, .setting s⟩ v <;> rfl

/-- What is read before an option, the option, and what is read behind it,
put together: the first that is refused decides. -/
def around (before : Except UsageError (List Item)) (item : Except UsageError Item)
    (behind : Except UsageError (List Item)) : Except UsageError (List Item) :=
  before.bind fun items => item.bind fun item => behind.map fun rest => items ++ item :: rest

/-- One more item before an option is one more item of the whole. -/
theorem around_map_cons (first : Item) (before : Except UsageError (List Item))
    (item : Except UsageError Item) (behind : Except UsageError (List Item)) :
    around (before.map (first :: ·)) item behind = (around before item behind).map (first :: ·) := by
  cases before with
  | error e => rfl
  | ok items =>
      cases item with
      | error e => rfl
      | ok item => cases behind <;> rfl

/-- The reader's answer around an option does not depend on how the option
is spelled. -/
theorem readFrom_append_option (hflag : flag ∈ s.flags) {v : Text} {words : List Text}
    (h : words ∈ spellings flag v) (pending : Option Pending) (before behind : List Text) :
    readFrom pending (before ++ (words ++ behind))
      = around (readFrom pending before) (withValue ⟨flag, .setting s⟩ v) (readAll behind) := by
  fun_induction readFrom pending before with
  | case1 => exact readFrom_none_option hflag h behind
  | case2 p =>
      -- the flag that waits gets the option's first argument for a value
      obtain ⟨word, rest, rfl, hdash⟩ := exists_cons_of_mem_spellings hflag h
      simp only [List.nil_append, List.cons_append, readFrom, withValue_of_dash hdash]
      rfl
  | case3 p v' before e hv => simp only [List.cons_append, readFrom, hv]; rfl
  | case4 p v' before item hv ih =>
      simp only [List.cons_append, readFrom, hv, ih, around_map_cons]
  | case5 arg before e hw => simp only [List.cons_append, readFrom, hw]; rfl
  | case6 arg before item hw ih =>
      simp only [List.cons_append, readFrom, hw, ih, around_map_cons]
  | case7 arg before p hw ih => simp only [List.cons_append, readFrom, hw, ih]

end Item

namespace Options

open Item (spellings around readFrom_append_option)

variable {s : Setting} {flag v : Text}

-- ================================================== options and their answer

/-- The answer around an option: of the arguments before it, its value and
the arguments behind it the first that is refused decides. If none is, the
option gives its setting the value unless a later one does, and all else
is as the other arguments have it. -/
structure AnswersAround (s : Setting) (flag v : Text) (before behind : List Text)
    (answer : Except UsageError Options) : Prop where
  before_refused : ∀ e, parse before = .error e → answer = .error e
  value_refused : ∀ first, parse before = .ok first → Item.isValue v = false →
    answer = .error (.missingValue flag)
  behind_refused : ∀ first e, parse before = .ok first → Item.isValue v = true →
    parse behind = .error e → answer = .error e
  accepted : ∀ first second, parse before = .ok first → Item.isValue v = true →
    parse behind = .ok second → ∃ o, answer = .ok o
      ∧ o.help = (first.help || second.help) ∧ o.list = (first.list || second.list)
      ∧ ∀ key, o.get? key
          = (second.get? key).or (if key = .setting s then some v else first.get? key)

/-- A value among other items. -/
theorem get?_ofItems_append_cons (items rest : List Item) (key : Key) (v : Text) (key' : Key) :
    (ofItems (items ++ .value key v :: rest)).get? key'
      = ((ofItems rest).get? key').or
          (if key' = key then some v else (ofItems items).get? key') := by
  rw [get?_ofItems_append, ← List.singleton_append, get?_ofItems_append, Option.or_assoc]
  by_cases hkey : key' = key
  · have hsome : (ofItems [.value key v]).get? key' = some v :=
      get?_ofItems_singleton_eq_some_iff.2 (by rw [hkey])
    rw [if_pos hkey, hsome, Option.some_or]
  · have hnone : (ofItems [.value key v]).get? key' = none :=
      get?_ofItems_eq_none_iff.2 fun w hw => hkey (by cases List.mem_singleton.1 hw; rfl)
    rw [if_neg hkey, hnone, Option.none_or]

/-- The answer in a form in which the spelling does not occur. -/
theorem parse_append_option (hflag : flag ∈ s.flags) {words : List Text}
    (h : words ∈ spellings flag v) (before behind : List Text) :
    parse (before ++ words ++ behind)
      = (around (Item.readAll before) (Item.withValue ⟨flag, .setting s⟩ v)
          (Item.readAll behind)).map ofItems := by
  rw [parse, List.append_assoc, Item.readAll, readFrom_append_option hflag h]
  rfl

/-- For either spelling the answer is told by the other arguments and the
value. -/
theorem answersAround_of_mem_spellings (hflag : flag ∈ s.flags) {words : List Text}
    (h : words ∈ spellings flag v) (before behind : List Text) :
    AnswersAround s flag v before behind (parse (before ++ words ++ behind)) := by
  rw [parse_append_option hflag h]
  constructor
  case before_refused =>
    intro e hbefore
    rw [Item.map_eq_error_iff.1 hbefore]
    rfl
  case value_refused =>
    intro first hbefore hv
    obtain ⟨items, hitems, -⟩ := Item.map_eq_ok_iff.1 hbefore
    have hvalue : Item.withValue ⟨flag, .setting s⟩ v = .error (.missingValue flag) :=
      if_neg (Bool.eq_false_iff.1 hv)
    rw [hitems, hvalue]
    rfl
  case behind_refused =>
    intro first e hbefore hv hbehind
    obtain ⟨items, hitems, -⟩ := Item.map_eq_ok_iff.1 hbefore
    rw [hitems, Item.withValue_eq_ok_iff.2 ⟨rfl, hv⟩, Item.map_eq_error_iff.1 hbehind]
    rfl
  case accepted =>
    intro first second hbefore hv hbehind
    obtain ⟨items, hitems, rfl⟩ := Item.map_eq_ok_iff.1 hbefore
    obtain ⟨rest, hrest, rfl⟩ := Item.map_eq_ok_iff.1 hbehind
    rw [hitems, Item.withValue_eq_ok_iff.2 ⟨rfl, hv⟩, hrest]
    refine ⟨_, rfl, ?_, ?_, get?_ofItems_append_cons items rest _ v⟩
    · simp [ofItems]
    · simp [ofItems]

-- ================================================ options spelled otherwise

/-- Two argument lists that spell one option in the two ways and are the
same around it. -/
inductive Respelled : List Text → List Text → Prop
  | join {s : Setting} {flag : Text} (hflag : flag ∈ s.flags) (v : Text)
      (before behind : List Text) :
      Respelled (before ++ [flag, v] ++ behind) (before ++ [flag ++ '=' :: v] ++ behind)

/-- The two spellings of an option have one answer. -/
theorem parse_apart_eq_joined (hflag : flag ∈ s.flags) (v : Text) (before behind : List Text) :
    parse (before ++ [flag, v] ++ behind) = parse (before ++ [flag ++ '=' :: v] ++ behind) := by
  have hapart : [flag, v] ∈ spellings flag v := List.mem_cons_self
  have hjoined : [flag ++ '=' :: v] ∈ spellings flag v := List.mem_cons_of_mem _ List.mem_cons_self
  rw [parse_append_option hflag hapart, parse_append_option hflag hjoined]

/-- Any number of options may be spelled otherwise, each wherever it stands. -/
theorem parse_eq_of_respelled {args args' : List Text}
    (h : Relation.EqvGen Respelled args args') : parse args = parse args' := by
  induction h with
  | rel _ _ h =>
      cases h with
      | join hflag v before behind => exact parse_apart_eq_joined hflag v before behind
  | refl _ => rfl
  | symm _ _ _ ih => exact ih.symm
  | trans _ _ _ _ _ ih ih' => exact ih.trans ih'

/-- The two spellings of an option are interchangeable, whatever its value
is and whatever stands before and behind it: the options returned are the
same, or else the errors are. Which of the two it is depends on the
arguments before it, its value and the arguments behind it alone. So
argument lists in which any options are spelled otherwise have one
answer. -/
theorem option_spelled_either_way (hflag : flag ∈ s.flags) (v : Text)
    (before behind : List Text) :
    parse (before ++ [flag, v] ++ behind) = parse (before ++ [flag ++ '=' :: v] ++ behind)
      ∧ (∀ words ∈ spellings flag v,
          AnswersAround s flag v before behind (parse (before ++ words ++ behind)))
      ∧ ∀ args, Relation.EqvGen Respelled (before ++ [flag, v] ++ behind) args →
          parse args = parse (before ++ [flag, v] ++ behind) := by
  refine ⟨parse_apart_eq_joined hflag v before behind, fun words hwords => ?_, fun args h => ?_⟩
  · exact answersAround_of_mem_spellings hflag hwords before behind
  · exact (parse_eq_of_respelled h).symm

/-- A value that opens with `=` and looks like an option behind it, between
a request for the list and one for help. -/
theorem option_spelled_either_way_equals :
    "-n".toList ∈ Setting.name.flags
      ∧ parse ["--list".toList, "-n".toList, "=-s=".toList, "-h".toList]
        = parse ["--list".toList, "-n==-s=".toList, "-h".toList]
      ∧ ∃ o, parse ["--list".toList, "-n==-s=".toList, "-h".toList] = .ok o
          ∧ o.setting? .name = some "=-s=".toList := by
  have hflag : "-n".toList ∈ Setting.name.flags := by decide
  have hspelling : ["-n".toList ++ '=' :: "=-s=".toList] ∈ spellings "-n".toList "=-s=".toList := by
    decide
  obtain ⟨hsame, hanswers, -⟩ :=
    option_spelled_either_way hflag "=-s=".toList ["--list".toList] ["-h".toList]
  obtain ⟨o, ho, -, -, hget⟩ := (hanswers _ hspelling).accepted _ _ rfl rfl rfl
  exact ⟨hflag, hsame, o, ho, (hget (.setting .name)).trans rfl⟩

/-- Behind a flag that waits, a reserved word and its value are not what they
are when joined. -/
example : parse ["-n".toList, "toString".toList, ['x']] = .error (.unknown ['x'])
    ∧ (parse ["-n".toList, "toString".toList ++ '=' :: ['x']]).toOption.bind (·.setting? .name)
      = some "toString=x".toList := by
  decide +kernel

end Options

end Runsheet
