/-
Usage. What may be given on the command line is a row of items: a
request for help or for the list, or one of the eleven flags with a
value, apart from it or joined by `=`; a value is not empty and does not
open with a dash. `UsageAll` says so and knows of nothing else.

# What is accepted

Every such row is accepted, and the options say of it what they should:
what was asked for, and of each key the last value
(`collects_ofItems`). But more is accepted than the usage allows. A
reserved word takes a value like a flag, wherever a flag may stand, and
the options keep that value although nothing asks for it.

The grammar that is read is `SpellsAll`, which counts reserved words as
flags. An item of it is one of the usage exactly if it is no value of a
reserved word (`usage_iff`), and the options keep no such value exactly
if no item is one (`onlySettings_ofItems_iff`). So the usage is what is
accepted without leaving one behind (`usage_accepted_iff`).
-/
import Mathlib.Data.List.Forall2
import Runsheet.CommandLine.Grammar
import Runsheet.CommandLine.Options

namespace Runsheet

namespace Item

-- ============================================================= the usage

/-- The arguments that the usage allows for one item. -/
inductive Usage : Item → List Text → Prop where
  | help {flag : Text} (hflag : flag ∈ helpFlags) : Usage .help [flag]
  | list : Usage .list [listFlag]
  | apart {s : Setting} {flag v : Text} (hflag : flag ∈ s.flags) (hne : v ≠ [])
      (hdash : v.head? ≠ some '-') : Usage (.value (.setting s) v) [flag, v]
  | joined {s : Setting} {flag v : Text} (hflag : flag ∈ s.flags) (hne : v ≠ [])
      (hdash : v.head? ≠ some '-') : Usage (.value (.setting s) v) [flag ++ '=' :: v]

/-- Arguments that fall into items of the usage, from left to right. -/
def UsageAll (items : List Item) (args : List Text) : Prop :=
  ∃ words : List (List Text), args = words.flatten ∧ List.Forall₂ Usage items words

/-- No value of a reserved word. -/
def Plain : Item → Prop
  | .value (.reserved _) _ => False
  | _ => True

/-- A value is not empty and opens with no dash. -/
theorem isValue_iff {v : Text} : isValue v = true ↔ v ≠ [] ∧ v.head? ≠ some '-' := by
  simp [isValue]

/-- A flag spells the setting that lists it. -/
theorem ofFlag?_eq_setting_iff {flag : Text} {s : Setting} :
    Key.ofFlag? flag = some (.setting s) ↔ flag ∈ s.flags := by
  refine ⟨fun h => ?_, fun h => ?_⟩
  · have hflag := List.find?_some h
    exact of_decide_eq_true hflag
  · have hall : ∀ flag ∈ s.flags, Key.ofFlag? flag = some (.setting s) := by
      cases s <;> decide +kernel
    exact hall flag h

/-- The usage is what is understood, less the reserved words. -/
theorem usage_iff {item : Item} {words : List Text} :
    Usage item words ↔ Spells item words ∧ item.Plain := by
  refine ⟨fun h => ?_, fun h => ?_⟩
  · cases h with
    | help hflag => exact ⟨.help hflag, trivial⟩
    | list => exact ⟨.list, trivial⟩
    | apart hflag hne hdash =>
        exact ⟨.apart (ofFlag?_eq_setting_iff.2 hflag) (isValue_iff.2 ⟨hne, hdash⟩), trivial⟩
    | joined hflag hne hdash =>
        exact ⟨.joined (ofFlag?_eq_setting_iff.2 hflag) (isValue_iff.2 ⟨hne, hdash⟩), trivial⟩
  · obtain ⟨hspells, hplain⟩ := h
    cases hspells with
    | help hflag => exact .help hflag
    | list => exact .list
    | @apart key flag v hkey hv =>
        obtain ⟨hne, hdash⟩ := isValue_iff.1 hv
        cases key with
        | setting s => exact .apart (ofFlag?_eq_setting_iff.1 hkey) hne hdash
        | reserved word => exact hplain.elim
    | @joined key flag v hkey hv =>
        obtain ⟨hne, hdash⟩ := isValue_iff.1 hv
        cases key with
        | setting s => exact .joined (ofFlag?_eq_setting_iff.1 hkey) hne hdash
        | reserved word => exact hplain.elim

/-- Arguments spell items one behind the other. -/
theorem spellsAll_iff {items : List Item} {args : List Text} :
    SpellsAll items args
      ↔ ∃ words : List (List Text), args = words.flatten ∧ List.Forall₂ Spells items words := by
  refine ⟨fun h => ?_, fun h => ?_⟩
  · induction h with
    | nil => exact ⟨[], rfl, .nil⟩
    | cons hspells _ ih =>
        obtain ⟨words, rfl, hall⟩ := ih
        exact ⟨_ :: words, rfl, .cons hspells hall⟩
  · obtain ⟨words, rfl, hall⟩ := h
    induction hall with
    | nil => exact .nil
    | cons hspells _ ih => exact .cons hspells ih

/-- Arguments keep to the usage exactly if they spell items and none of these is
a value of a reserved word. -/
theorem usageAll_iff {items : List Item} {args : List Text} :
    UsageAll items args ↔ SpellsAll items args ∧ ∀ item ∈ items, item.Plain := by
  have husage : Usage = fun item words => item.Plain ∧ Spells item words := by
    funext item words
    exact propext (usage_iff.trans and_comm)
  rw [spellsAll_iff, UsageAll, husage, ← exists_and_right]
  refine exists_congr fun words => ?_
  rw [List.forall₂_and_left, and_assoc, and_comm (a := ∀ item ∈ items, item.Plain)]

end Item

namespace Options

open Item (SpellsAll UsageAll)

-- ================================================== what options collect

/-- The last value that some items give a key. -/
def LastValue (items : List Item) (key : Key) (v : Text) : Prop :=
  ∃ before behind, items = before ++ .value key v :: behind ∧ ∀ w, .value key w ∉ behind

/-- Options that say of some items whether help or the list is among
them, and of each key the last value. -/
structure Collects (o : Options) (items : List Item) : Prop where
  help : o.help = true ↔ .help ∈ items
  list : o.list = true ↔ .list ∈ items
  value : ∀ key v, o.get? key = some v ↔ LastValue items key v

/-- Options that keep no value of a reserved word. -/
def OnlySettings (o : Options) : Prop := ∀ word, o.get? (.reserved word) = none

/-- One item gives one value to one key. -/
theorem get?_ofItems_singleton_eq_some_iff {item : Item} {key : Key} {v : Text} :
    (ofItems [item]).get? key = some v ↔ item = .value key v := by
  cases item with
  | help => exact iff_of_false nofun nofun
  | list => exact iff_of_false nofun nofun
  | value key' v' =>
      by_cases hkey : key = key'
      · subst hkey
        simp [get?, ofItems]
      · have hbeq : (key == key') = false := beq_eq_false_iff_ne.2 hkey
        simp [get?, ofItems, List.lookup_cons, hbeq, Ne.symm hkey]

/-- A key has no value exactly if no item gives it one. -/
theorem get?_ofItems_eq_none_iff {items : List Item} {key : Key} :
    (ofItems items).get? key = none ↔ ∀ v, .value key v ∉ items := by
  induction items with
  | nil => exact iff_of_true rfl fun _ => List.not_mem_nil
  | cons item items ih =>
      have hitem : (ofItems [item]).get? key = none ↔ ∀ v, item ≠ .value key v := by
        rw [Option.eq_none_iff_forall_ne_some]
        exact forall_congr' fun v => not_congr get?_ofItems_singleton_eq_some_iff
      rw [← List.singleton_append, get?_ofItems_append, Option.or_eq_none_iff, ih, hitem]
      simp only [List.singleton_append, List.mem_cons, not_or, forall_and, ne_eq, eq_comm,
        and_comm]

/-- The value of a key is the last one that it is given. -/
theorem get?_ofItems_eq_some_iff {items : List Item} {key : Key} {v : Text} :
    (ofItems items).get? key = some v ↔ LastValue items key v := by
  refine ⟨fun h => ?_, fun h => ?_⟩
  · -- over the items from the left: a value behind the first one counts before it
    induction items with
    | nil => cases h
    | cons item items ih =>
        rw [← List.singleton_append, get?_ofItems_append, Option.or_eq_some_iff] at h
        rcases h with h | ⟨hnone, h⟩
        · obtain ⟨before, behind, rfl, hbehind⟩ := ih h
          exact ⟨item :: before, behind, rfl, hbehind⟩
        · rw [get?_ofItems_singleton_eq_some_iff] at h
          subst h
          exact ⟨[], items, rfl, get?_ofItems_eq_none_iff.1 hnone⟩
  · obtain ⟨before, behind, rfl, hbehind⟩ := h
    rw [get?_ofItems_append, ← List.singleton_append, get?_ofItems_append,
      get?_ofItems_eq_none_iff.2 hbehind, get?_ofItems_singleton_eq_some_iff.2 rfl]
    rfl

/-- Options collect what their items say. -/
theorem collects_ofItems (items : List Item) : (ofItems items).Collects items where
  help := by simp [ofItems]
  list := by simp [ofItems]
  value := fun _ _ => get?_ofItems_eq_some_iff

/-- No reserved word has a value exactly if none is among the items. -/
theorem onlySettings_ofItems_iff {items : List Item} :
    (ofItems items).OnlySettings ↔ ∀ item ∈ items, item.Plain := by
  have hnone : (ofItems items).OnlySettings
      ↔ ∀ word v, .value (.reserved word) v ∉ items :=
    forall_congr' fun word => get?_ofItems_eq_none_iff
  rw [hnone]
  refine ⟨fun h item hitem => ?_, fun h word v hmem => h _ hmem⟩
  cases item with
  | help => trivial
  | list => trivial
  | value key v =>
      cases key with
      | setting s => trivial
      | reserved word => exact h word v hitem

-- ====================================================== what is accepted

/-- Arguments are accepted exactly if they spell items, and the options are
theirs. -/
theorem parse_eq_ok_iff {args : List Text} {o : Options} :
    parse args = .ok o ↔ ∃ items, SpellsAll items args ∧ ofItems items = o := by
  rw [parse, Item.map_eq_ok_iff]
  exact exists_congr fun items => and_congr_left' Item.readAll_eq_ok_iff

/-- What spells items is accepted. -/
theorem parse_of_spellsAll {items : List Item} {args : List Text}
    (h : SpellsAll items args) : parse args = .ok (ofItems items) :=
  parse_eq_ok_iff.2 ⟨items, h, rfl⟩

/-- Arguments are as the usage has them exactly if they are accepted and
no reserved word is given a value. Then the options say what the items
ask for. What else is accepted are rows of items in which reserved words
stand for flags, and all other arguments are refused. -/
theorem usage_accepted_iff (args : List Text) :
    ((∃ items, UsageAll items args) ↔ ∃ o, parse args = .ok o ∧ o.OnlySettings)
      ∧ (∀ items, UsageAll items args → ∀ o, parse args = .ok o → o.Collects items)
      ∧ ((∃ e, parse args = .error e) ↔ ¬ ∃ items, SpellsAll items args) := by
  refine ⟨⟨fun h => ?_, fun h => ?_⟩, fun items h o ho => ?_, ?_⟩
  · obtain ⟨items, hitems⟩ := h
    obtain ⟨hspells, hplain⟩ := Item.usageAll_iff.1 hitems
    exact ⟨ofItems items, parse_of_spellsAll hspells, onlySettings_ofItems_iff.2 hplain⟩
  · obtain ⟨o, ho, honly⟩ := h
    obtain ⟨items, hspells, rfl⟩ := parse_eq_ok_iff.1 ho
    exact ⟨items, Item.usageAll_iff.2 ⟨hspells, onlySettings_ofItems_iff.1 honly⟩⟩
  · -- arguments are read as what they spell, so `o` is made of these items
    rw [parse_of_spellsAll (Item.usageAll_iff.1 h).1] at ho
    cases ho
    exact collects_ofItems items
  · cases hparse : parse args with
    | error e =>
        refine iff_of_true ⟨e, rfl⟩ fun h => ?_
        obtain ⟨items, hspells⟩ := h
        rw [parse_of_spellsAll hspells] at hparse
        cases hparse
    | ok o =>
        obtain ⟨items, hspells, -⟩ := parse_eq_ok_iff.1 hparse
        exact iff_of_false nofun (not_not_intro ⟨items, hspells⟩)

/-- A name given twice, the second time joined to its flag and holding
`=` itself, with a request for the list between the two. -/
theorem usage_accepted_iff_twice :
    UsageAll
        [.value (.setting .name) ['t'], .list, .value (.setting .name) ['u', '=', 'v']]
        ["-n".toList, ['t'], "--list".toList, "--name".toList ++ '=' :: ['u', '=', 'v']]
      ∧ ∃ o, parse ["-n".toList, ['t'], "--list".toList,
            "--name".toList ++ '=' :: ['u', '=', 'v']] = .ok o
          ∧ o.setting? .name = some ['u', '=', 'v'] := by
  have h : UsageAll
      [.value (.setting .name) ['t'], .list, .value (.setting .name) ['u', '=', 'v']]
      ["-n".toList, ['t'], "--list".toList, "--name".toList ++ '=' :: ['u', '=', 'v']] := by
    refine ⟨[["-n".toList, ['t']], ["--list".toList],
      ["--name".toList ++ '=' :: ['u', '=', 'v']]], rfl, ?_⟩
    exact .cons (.apart (by decide) (by decide) (by decide)) <| .cons .list <|
      .cons (.joined (by decide) (by decide) (by decide)) .nil
  obtain ⟨o, ho, -⟩ := (usage_accepted_iff _).1.1 ⟨_, h⟩
  have hcollects := (usage_accepted_iff _).2.1 _ h o ho
  refine ⟨h, o, ho, (hcollects.value _ _).2 ⟨[.value (.setting .name) ['t'], .list], [], rfl, ?_⟩⟩
  exact fun _ => List.not_mem_nil

/-- A reserved word with a value is accepted, and the usage does not
allow it. -/
theorem reserved_word_accepted :
    parse ["toString".toList, ['x']]
        = .ok ⟨false, false, [(.reserved "toString".toList, ['x'])]⟩
      ∧ ¬ ∃ items, UsageAll items ["toString".toList, ['x']] := by
  have hread : Item.readAll ["toString".toList, ['x']]
      = .ok [.value (.reserved "toString".toList) ['x']] := by decide +kernel
  refine ⟨by decide +kernel, fun h => ?_⟩
  obtain ⟨items, hitems⟩ := h
  obtain ⟨hspells, hplain⟩ := Item.usageAll_iff.1 hitems
  rw [Item.readAll_eq_ok_iff.2 hspells] at hread
  cases hread
  exact hplain _ List.mem_cons_self

end Options

end Runsheet
