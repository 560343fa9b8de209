/-
Argument lists one behind the other. Whatever stands behind arguments
that are accepted is read as if it stood alone. If it is refused, then
the whole is, for the same reason; otherwise the whole asks for what
either part asks for, and gives every key the value that the second part
gives it, or else the first.

The reader is between items when it starts. Behind accepted arguments it
is between items again: a flag that still waited for its value would have
been refused at their end. So no argument of the second part is ever
taken for a value of the first (`Item.readFrom_append`), and what the
first part leaves behind are its items and nothing else. Items that are
put one behind the other keep all that was asked for, and of the values
of a key the last one counts (`get?_ofItems_append`).
-/
import Runsheet.Proofs.CommandLine.Usage

namespace Runsheet.Options

/-- Options that ask for what either of two ask for, and give a key the
value of the second, or of the first where the second give it none. -/
structure Joins (first second o : Options) : Prop where
  help : o.help = true ↔ first.help = true ∨ second.help = true
  list : o.list = true ↔ first.list = true ∨ second.list = true
  given : ∀ key v, second.get? key = some v → o.get? key = some v
  left : ∀ key, second.get? key = none → o.get? key = first.get? key

/-- The options of two rows of items, one behind the other, join the options
of each. -/
theorem joins_ofItems_append (items items' : List Item) :
    Joins (ofItems items) (ofItems items') (ofItems (items ++ items')) where
  help := by rw [help_ofItems_append, Bool.or_eq_true]
  list := by rw [list_ofItems_append, Bool.or_eq_true]
  given key v h := by rw [get?_ofItems_append, h, Option.some_or]
  left key h := by rw [get?_ofItems_append, h, Option.none_or]

/-- Behind accepted arguments the rest is parsed as if it stood alone. -/
theorem parse_append_of_spellsAll {items : List Item} {args : List Text}
    (h : Item.SpellsAll items args) (rest : List Text) :
    parse (args ++ rest) = (Item.readAll rest).map fun items' => ofItems (items ++ items') := by
  have hread : Item.readAll (args ++ rest) = (Item.readAll rest).map (items ++ ·) :=
    Item.readFrom_append (Item.readAll_eq_ok_iff.2 h) rest
  rw [parse, hread]
  cases Item.readAll rest <;> rfl

/-- Argument lists compose. If the first part is accepted, then the whole is
refused exactly if the second part is, for the same reason; and else both
say together what the whole says, the second having the last word. -/
theorem accepted_arguments_compose {args : List Text} {first : Options}
    (h : parse args = .ok first) (rest : List Text) :
    (∀ e, parse (args ++ rest) = .error e ↔ parse rest = .error e)
      ∧ ∀ second, parse rest = .ok second →
          ∃ o, parse (args ++ rest) = .ok o ∧ Joins first second o := by
  obtain ⟨items, hspells, rfl⟩ := parse_eq_ok_iff.1 h
  rw [parse_append_of_spellsAll hspells, parse]
  cases Item.readAll rest with
  | error e =>
      refine ⟨fun e' => Iff.rfl, fun second hsecond => ?_⟩
      cases hsecond
  | ok items' =>
      refine ⟨fun e => ?_, fun second hsecond => ?_⟩
      · constructor
        · intro herror
          cases herror
        · intro herror
          cases herror
      · cases hsecond
        exact ⟨_, rfl, joins_ofItems_append items items'⟩

/-- A name and a reserved word with their values and a request for the list;
behind them a flag without a value, and the name once more. -/
theorem accepted_arguments_compose_twice :
    let args := ["toString".toList, ['x'], "-n".toList, ['t'], "--list".toList]
    (∃ first, parse args = .ok first)
      ∧ parse (args ++ ["--status".toList]) = .error (.missingValue "--status".toList)
      ∧ ∃ o, parse (args ++ ["--name=u".toList, "-h".toList]) = .ok o
          ∧ o.help = true ∧ o.list = true ∧ o.setting? .name = some ['u']
          ∧ o.get? (.reserved "toString".toList) = some ['x'] := by
  intro args
  obtain ⟨first, hfirst⟩ : ∃ first, parse args = .ok first := ⟨_, rfl⟩
  have hcompose := accepted_arguments_compose hfirst
  have hrefused : parse ["--status".toList] = .error (.missingValue "--status".toList) := by
    decide +kernel
  obtain ⟨second, hsecond⟩ : ∃ second, parse ["--name=u".toList, "-h".toList] = .ok second :=
    ⟨_, rfl⟩
  obtain ⟨o, ho, hjoins⟩ := (hcompose _).2 second hsecond
  cases hfirst
  cases hsecond
  refine ⟨⟨_, rfl⟩, ((hcompose _).1 _).2 hrefused, o, ho, hjoins.help.2 (.inr rfl),
    hjoins.list.2 (.inl rfl), hjoins.given _ _ rfl, ?_⟩
  exact (hjoins.left _ rfl).trans rfl

end Runsheet.Options
