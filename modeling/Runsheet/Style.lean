/-
Styles. A styled text stands between the codes that turn its styles on
and those that turn them off: `ESC [ n m`, with one pair of numbers per
style. Styles are listed from the outermost in; they are turned off in
the opposite order. An empty text takes no codes.

Two rules keep a style whole where the text has codes or breaks of its
own. A code inside the text that turns a style off would end it early,
so each such code is followed by one that turns it on again. And no
style reaches across a line break: all of them are turned off before
it and on again behind it.

`unstyled` is what remains when the codes are taken out, in one pass
from the left.
-/
import Runsheet.Text.Span

namespace Runsheet

/-- A property of characters on a terminal. -/
inductive Style where
  | green
  | red
  | blue
  | yellow
  | bold
  | dim
  deriving DecidableEq, Repr

/-- The character that opens a code. -/
def escape : Char := '\x1b'

/-- The code with a number. -/
def code (n : Nat) : Text := escape :: '[' :: Nat.toDigits 10 n ++ ['m']

namespace Style

/-- The numbers that turn a style on and off. -/
def numbers : Style → Nat × Nat
  | .green => (32, 39)
  | .red => (31, 39)
  | .blue => (34, 39)
  | .yellow => (33, 39)
  | .bold => (1, 22)
  | .dim => (2, 22)

/-- The code that turns a style on. -/
def on (s : Style) : Text := code s.numbers.1

/-- The code that turns a style off. -/
def off (s : Style) : Text := code s.numbers.2

/-- The codes that turn styles on, outermost first. -/
def allOn (styles : List Style) : Text := styles.flatMap on

/-- The codes that turn styles off, innermost first. -/
def allOff (styles : List Style) : Text := styles.reverse.flatMap off

-- ====================================================== codes and breaks

/-- A piece that stood behind an escape character, with `s` turned on
again if the two begin with the code that turns `s` off. -/
def reopenPiece (s : Style) (piece : Text) : Text :=
  match s.off.isPrefixOf? (escape :: piece) with
  | some rest => s.off ++ s.on ++ rest
  | none => escape :: piece

/-- The text with a style turned on again wherever it turns it off. A
code has one escape character, at its front, so its occurrences are
found among the pieces that escape characters cut the text into. -/
def reopen (s : Style) (t : Text) : Text :=
  match t.splitOn escape with
  | [] => []
  | first :: pieces => first ++ pieces.flatMap (reopenPiece s)

/-- A line and the break behind it, with `before` in front of the break
and `behind` after it. -/
def aroundBreak (before behind line : Text) : Text :=
  if line.getLast? = some '\r' then
    line.dropLast ++ before ++ '\r' :: '\n' :: behind
  else line ++ before ++ '\n' :: behind

/-- The text with `before` in front of every line break and `behind`
after it. -/
def aroundBreaks (before behind t : Text) : Text :=
  let pieces := t.splitOn '\n'
  pieces.dropLast.flatMap (aroundBreak before behind) ++ pieces.getLast?.getD []

/-- A text in some styles, outermost first. -/
def paint (styles : List Style) (t : Text) : Text :=
  if t.isEmpty then []
  else
    let inner := if escape ∈ t then styles.foldr reopen t else t
    allOn styles ++ aroundBreaks (allOff styles) (allOn styles) inner ++ allOff styles

theorem reopen_of_not_mem (s : Style) {t : Text} (h : escape ∉ t) : reopen s t = t := by
  rw [reopen, List.splitOn_eq_singleton h]
  simp

/-- What stands in front of the first escape character stays as it is. -/
theorem reopen_append_cons (s : Style) {a : Text} (h : escape ∉ a) (b : Text) :
    reopen s (a ++ escape :: b)
      = a ++ (b.splitOn escape).flatMap (reopenPiece s) := by
  rw [reopen, List.splitOn_append_cons_self, List.splitOn_eq_singleton h]
  rfl

theorem aroundBreaks_of_not_mem (before behind : Text) {t : Text} (h : '\n' ∉ t) :
    aroundBreaks before behind t = t := by
  simp [aroundBreaks, List.splitOn_eq_singleton h]

/-- Something is put around the first break, and then around those behind it.
-/
theorem aroundBreaks_append_cons (before behind : Text) {a : Text} (h : '\n' ∉ a)
    (b : Text) :
    aroundBreaks before behind (a ++ '\n' :: b)
      = aroundBreak before behind a ++ aroundBreaks before behind b := by
  have hs : (a ++ '\n' :: b).splitOn '\n' = a :: b.splitOn '\n' := by
    rw [List.splitOn_append_cons_self, List.splitOn_eq_singleton h]
    rfl
  obtain ⟨x, r, hr⟩ := List.exists_cons_of_ne_nil (List.splitOn_ne_nil '\n' b)
  simp [aroundBreaks, hs, hr]

end Style

-- ======================================================== without codes

/-- What stands behind the code at the front; nothing if there is no
code. -/
def afterCode? : Text → Option Text
  | c :: '[' :: t =>
    if c = escape then
      match Text.span? Char.isDigit t with
      | some (_, 'm' :: rest) => some rest
      | _ => none
    else none
  | _ => none

/-- A text behind a code is shorter than the text with it. -/
theorem length_lt_of_afterCode? {t rest : Text} (h : afterCode? t = some rest) :
    rest.length < t.length := by
  unfold afterCode? at h
  split at h
  · next c t =>
    split at h
    · split at h
      · next w r hr =>
        cases h
        obtain ⟨ht, -⟩ := Text.span?_eq_some_iff.1 hr
        simp [ht]
        omega
      · cases h
    · cases h
  · cases h

/-- The text without its codes, taken out in one pass from the left. -/
def unstyled : Text → Text
  | [] => []
  | c :: t =>
    match h : afterCode? (c :: t) with
    | some rest =>
      have := length_lt_of_afterCode? h
      unstyled rest
    | none => c :: unstyled t
termination_by t => t.length
decreasing_by
  · exact this
  · simp

end Runsheet
