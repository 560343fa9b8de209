/-
Arguments. An argument list is a row of items: a request for help, a
request for the list of sequences, or a flag with its value. A flag
and its value are two arguments, or one with `=` between them; the
value may hold `=` itself, but it is never empty and never opens with
a dash.

The reader takes one argument at a time and is in one of two states:
between items, or behind a flag that still waits for its value
(`Pending`). It stops at the first argument that fits no item.

Besides the flags of the six settings, twelve words are reserved: each
takes a value as a flag does, but no part of the program looks at it.
-/
import Runsheet.Text.Span

namespace Runsheet

-- ================================================================= keys

/-- What the program can be told. -/
inductive Setting where
  | sequences
  | record
  | name
  | status
  | results
  | out
  deriving DecidableEq, Repr

namespace Setting

/-- Every setting. -/
def all : List Setting := [.sequences, .record, .name, .status, .results, .out]

/-- The flags of a setting. -/
def flags : Setting → List Text
  | .sequences => ["--sequences".toList, "-s".toList]
  | .record => ["--actual".toList, "-a".toList]
  | .name => ["--name".toList, "-n".toList]
  | .status => ["--status".toList]
  | .results => ["--results".toList, "-r".toList]
  | .out => ["--out".toList, "-o".toList]

end Setting

/-- Words that take a value as a flag does and set nothing. -/
def reservedWords : List Text :=
  ["constructor".toList, "__defineGetter__".toList, "__defineSetter__".toList,
   "hasOwnProperty".toList, "__lookupGetter__".toList, "__lookupSetter__".toList,
   "isPrototypeOf".toList, "propertyIsEnumerable".toList, "toString".toList,
   "valueOf".toList, "__proto__".toList, "toLocaleString".toList]

/-- What a value belongs to. -/
inductive Key where
  | setting (s : Setting)
  | reserved (word : Text)
  deriving DecidableEq, Repr

namespace Key

/-- All keys there are. -/
def all : List Key := Setting.all.map .setting ++ reservedWords.map .reserved

/-- Every spelling of a key. -/
def flags : Key → List Text
  | .setting s => s.flags
  | .reserved word => [word]

/-- The key that a flag spells. -/
def ofFlag? (flag : Text) : Option Key := all.find? (flag ∈ ·.flags)

end Key

-- ================================================================ items

/-- One item of an argument list. -/
inductive Item where
  | help
  | list
  | value (key : Key) (text : Text)
  deriving DecidableEq, Repr

/-- What is wrong with an argument list. -/
inductive UsageError where
  | unknown (arg : Text)
  | missingValue (flag : Text)
  | missingName
  | missingRecord
  deriving DecidableEq, Repr

/-- What is said about the error. -/
def UsageError.message : UsageError → Text
  | .unknown arg => "Unknown argument: ".toList ++ arg
  | .missingValue flag => "Missing value for ".toList ++ flag
  | .missingName => "Missing --name".toList
  | .missingRecord => "Missing --actual".toList

namespace Item

/-- The flags that ask for help. -/
def helpFlags : List Text := ["--help".toList, "-h".toList]

/-- The flag that asks for the list of sequences. -/
def listFlag : Text := "--list".toList

/-- Whether a text can be a value. -/
def isValue (t : Text) : Bool := !t.isEmpty && t.head? != some '-'

-- ============================================================== reading

/-- A flag that waits for its value, and the key it spells. -/
structure Pending where
  flag : Text
  key : Key
  deriving DecidableEq, Repr

/-- The flag of an argument and the value joined to it, if one is. An
argument that opens with `=` has no flag in front of it and is taken
whole. -/
def splitJoined (arg : Text) : Text × Option Text :=
  match Text.span? (· ≠ '=') arg with
  | some (flag, '=' :: v) => (flag, some v)
  | _ => (arg, none)

/-- The item that a flag makes with a value. -/
def withValue (p : Pending) (v : Text) : Except UsageError Item :=
  if isValue v then .ok (.value p.key v) else .error (.missingValue p.flag)

/-- What one argument is between items. -/
inductive Word where
  | whole (item : Item)
  | flag (p : Pending)

/-- Reads one argument between items. -/
def readWord (arg : Text) : Except UsageError Word :=
  if arg ∈ helpFlags then .ok (.whole .help)
  else if arg = listFlag then .ok (.whole .list)
  else
    match splitJoined arg with
    | (flag, joined) =>
      match Key.ofFlag? flag, joined with
      | none, _ => .error (.unknown arg)
      | some key, none => .ok (.flag ⟨flag, key⟩)
      | some key, some v => (withValue ⟨flag, key⟩ v).map .whole

/-- The items of an argument list, behind a flag that still waits or
between items. -/
def readFrom : Option Pending → List Text → Except UsageError (List Item)
  | none, [] => .ok []
  | some p, [] => .error (.missingValue p.flag)
  | some p, v :: args =>
    match withValue p v with
    | .error e => .error e
    | .ok item => (readFrom none args).map (item :: ·)
  | none, arg :: args =>
    match readWord arg with
    | .error e => .error e
    | .ok (.whole item) => (readFrom none args).map (item :: ·)
    | .ok (.flag p) => readFrom (some p) args

/-- The items of an argument list. -/
def readAll (args : List Text) : Except UsageError (List Item) := readFrom none args

/-- What stands behind complete items is read on its own. -/
theorem readFrom_append {pending : Option Pending} {a : List Text} {items : List Item}
    (h : readFrom pending a = .ok items) (b : List Text) :
    readFrom pending (a ++ b) = (readAll b).map (items ++ ·) := by
  -- along the reader of `a`; no flag waits at its end, or `a` would be an error
  fun_induction readFrom pending a generalizing items with
  | case1 =>
    cases h
    cases hb : readAll b <;> simp_all [readAll, Except.map]
  | case2 => cases h
  | case3 => cases h
  | case4 p v args item hv ih =>
    cases ha : readFrom none args with
    | error e => rw [ha] at h; cases h
    | ok rest =>
      rw [ha] at h
      cases h
      simp only [List.cons_append, readFrom, hv, ih ha]
      cases readAll b <;> rfl
  | case5 => cases h
  | case6 arg args item hw ih =>
    cases ha : readFrom none args with
    | error e => rw [ha] at h; cases h
    | ok rest =>
      rw [ha] at h
      cases h
      simp only [List.cons_append, readFrom, hw, ih ha]
      cases readAll b <;> rfl
  | case7 arg args p hw ih =>
    simp only [List.cons_append, readFrom, hw]
    exact ih h

end Item

end Runsheet
