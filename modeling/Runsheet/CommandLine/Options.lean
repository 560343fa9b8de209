/-
Options. What an argument list asks for, whatever the order of its
items: whether help or the list is wanted, and the values given. Where
a key is given more than once the last value counts.
-/
import Runsheet.CommandLine.Item

namespace Runsheet

/-- What the arguments ask for; values in the order given. -/
structure Options where
  help : Bool
  list : Bool
  values : List (Key × Text)
  deriving DecidableEq, Repr

namespace Options

/-- The options that items make up. -/
def ofItems (items : List Item) : Options where
  help := items.any (· = .help)
  list := items.any (· = .list)
  values := items.filterMap fun
    | .value key text => some (key, text)
    | _ => none

/-- The last value of a key. -/
def get? (o : Options) (key : Key) : Option Text := o.values.reverse.lookup key

/-- The last value of a setting. -/
def setting? (o : Options) (s : Setting) : Option Text := o.get? (.setting s)

/-- The options that an argument list asks for. -/
def parse (args : List Text) : Except UsageError Options :=
  (Item.readAll args).map ofItems

/-- A later part of the items decides, an earlier one fills in. -/
theorem get?_ofItems_append (a b : List Item) (key : Key) :
    (ofItems (a ++ b)).get? key = ((ofItems b).get? key).or ((ofItems a).get? key) := by
  simp [get?, ofItems, List.lookup_append]

/-- Help is asked for if it is anywhere; so is the list. -/
theorem help_ofItems_append (a b : List Item) :
    (ofItems (a ++ b)).help = ((ofItems a).help || (ofItems b).help) := by
  simp [ofItems]

theorem list_ofItems_append (a b : List Item) :
    (ofItems (a ++ b)).list = ((ofItems a).list || (ofItems b).list) := by
  simp [ofItems]

end Options

end Runsheet
