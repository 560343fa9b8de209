/-
Steps. A sequence is written as a numbered list: a line that opens with
a numeral, a point and a blank is the header of a step, and every line
behind it up to the next header belongs to that step, verbatim.

Reading is one pass from the right over the lines (`Step.group`): a
header takes the lines gathered so far as its body, any other line is
gathered. What is left over at the front belongs to no step. Blank
lines at the end of the text are dropped before the pass, so they are
no part of the last step; blank lines anywhere else stay.

The pass loses nothing: gathered lines and steps, put together again,
are the lines that went in (`append_flatMap_group`).
-/
import Runsheet.Text.Lines
import Runsheet.Text.Span

namespace Runsheet

-- ============================================================== headers

/-- What stands behind the numeral, the point and one blank that open a
header; nothing if the line opens otherwise. -/
def afterNumeral? (line : Text) : Option Text :=
  match Text.span? Char.isDigit line with
  | some (_, '.' :: b :: rest) => if isBlank b then some rest else none
  | _ => none

/-- Whether a line is the header of a step. -/
def opensStep (line : Text) : Bool := (afterNumeral? line).isSome

/-- A step: its header, and the lines behind it that are part of it. -/
structure Step where
  header : Text
  body : List Text
  deriving DecidableEq, Repr

namespace Step

/-- All lines of a step, header first. -/
def lines (s : Step) : List Text := s.header :: s.body

/-- Steps are the same exactly if they are line by line. -/
theorem lines_inj {s s' : Step} : s.lines = s'.lines ↔ s = s' := by
  cases s
  cases s'
  simp [lines]

/-- The header without its numeral and the blanks behind it. -/
def title (s : Step) : Text :=
  ((afterNumeral? s.header).getD s.header).trimStart

/-- A step as reading produces it: its header is one, and no line of its
body is. -/
structure WellFormed (s : Step) : Prop where
  header_opens : opensStep s.header = true
  body_continues : ∀ l ∈ s.body, opensStep l = false

-- ============================================================== reading

/-- Puts one more line in front: a header becomes a step with the
gathered lines as its body, any other line is gathered. -/
def place (line : Text) (r : List Text × List Step) : List Text × List Step :=
  if opensStep line then ([], ⟨line, r.1⟩ :: r.2) else (line :: r.1, r.2)

/-- The lines in front of the first header, and the steps. -/
def group (ls : List Text) : List Text × List Step := ls.foldr place ([], [])

/-- The steps of a text. -/
def readAll (t : Text) : List Step :=
  (group (dropEndWhile Text.allBlank t.lines)).2

/-- Text before the first header and blank lines at the end are left out,
and numerals are kept as they are written. -/
example : readAll "intro\n1. Open\n   * wait\n\n7.  Close\n\n".toList
    = [⟨"1. Open".toList, ["   * wait".toList, []]⟩, ⟨"7.  Close".toList, []⟩] := by
  decide +kernel

-- ============================================================ the pass

@[simp] theorem group_nil : group [] = ([], []) := rfl

/-- A header takes what was gathered behind it for its body. -/
theorem group_cons_of_opens {line : Text} (h : opensStep line = true) (ls : List Text) :
    group (line :: ls) = ([], ⟨line, (group ls).1⟩ :: (group ls).2) := by
  simp [group, place, h]

/-- A line that is no header is gathered. -/
theorem group_cons_of_not_opens {line : Text} (h : opensStep line = false)
    (ls : List Text) : group (line :: ls) = (line :: (group ls).1, (group ls).2) := by
  simp [group, place, h]

/-- Every line ends up in exactly one place, in order. -/
theorem append_flatMap_group (ls : List Text) :
    (group ls).1 ++ (group ls).2.flatMap Step.lines = ls := by
  induction ls with
  | nil => rfl
  | cons l ls ih =>
    cases h : opensStep l with
    | true => simp [group_cons_of_opens h, Step.lines, ih]
    | false => simp [group_cons_of_not_opens h, ih]

/-- No header is left in front of the first step. -/
theorem opensStep_of_mem_group_fst {ls : List Text} :
    ∀ l ∈ (group ls).1, opensStep l = false := by
  induction ls with
  | nil => simp
  | cons l ls ih =>
    cases h : opensStep l with
    | true => simp [group_cons_of_opens h]
    | false => simpa [group_cons_of_not_opens h, h] using ih

/-- Every step read is well formed. -/
theorem wellFormed_of_mem_group {ls : List Text} :
    ∀ s ∈ (group ls).2, s.WellFormed := by
  induction ls with
  | nil => simp
  | cons l ls ih =>
    cases h : opensStep l with
    | true =>
      rw [group_cons_of_opens h]
      intro s hs
      rcases List.mem_cons.1 hs with rfl | hs
      · exact ⟨h, opensStep_of_mem_group_fst⟩
      · exact ih s hs
    | false => rw [group_cons_of_not_opens h]; exact ih

/-- Every step of a text is well formed. -/
theorem wellFormed_of_mem_readAll {t : Text} {s : Step} (h : s ∈ readAll t) :
    s.WellFormed :=
  wellFormed_of_mem_group s h

end Step

end Runsheet
