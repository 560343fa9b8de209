/-
Blank characters. One table says which code points are blank; trimming
a text, testing a line for emptiness and the gaps between the fields of
a line all consult it.

The table is wider than ASCII: it holds the tab-to-return block, the
space, the no-break space, the space separators of Unicode, the two
separators U+2028 and U+2029, and the byte order mark U+FEFF. It does
not hold U+0085, U+180E or U+200B.
-/
import Runsheet.Text.Basic

namespace Runsheet

-- ============================================================ the table

/-- The blank code points, as inclusive ranges in ascending order. -/
def blankRanges : List (Nat × Nat) :=
  [(0x0009, 0x000D), (0x0020, 0x0020), (0x00A0, 0x00A0), (0x1680, 0x1680),
   (0x2000, 0x200A), (0x2028, 0x2029), (0x202F, 0x202F), (0x205F, 0x205F),
   (0x3000, 0x3000), (0xFEFF, 0xFEFF)]

/-- Whether a character is blank. -/
def isBlank (c : Char) : Bool :=
  blankRanges.any fun r => r.1 ≤ c.toNat && c.toNat ≤ r.2

/-- A decimal digit is not blank. -/
theorem isBlank_eq_false_of_isDigit {c : Char} (h : c.isDigit = true) :
    isBlank c = false := by
  obtain ⟨lo, hi⟩ : 48 ≤ c.toNat ∧ c.toNat ≤ 57 := by
    simp only [Char.isDigit, Bool.and_eq_true, decide_eq_true_eq,
      UInt32.le_iff_toNat_le] at h
    exact h
  rw [Bool.eq_false_iff]
  simp only [isBlank, blankRanges, List.any_cons, List.any_nil, Bool.or_eq_true,
    Bool.and_eq_true, decide_eq_true_eq, ne_eq, Bool.false_eq_true, or_false]
  omega

namespace Text

-- ============================================================= trimming

/-- The text from its first character that is not blank. -/
def trimStart (t : Text) : Text := t.dropWhile isBlank

theorem isSuffix_trimStart (t : Text) : trimStart t <:+ t :=
  List.dropWhile_suffix isBlank

/-- The text up to its last character that is not blank. -/
def trimEnd (t : Text) : Text := dropEndWhile isBlank t

/-- The text between its first and its last character that is not
blank. -/
def trim (t : Text) : Text := trimEnd (trimStart t)

/-- Whether every character is blank; so the empty text is. -/
def allBlank (t : Text) : Bool := t.all isBlank

theorem allBlank_iff {t : Text} :
    t.allBlank = true ↔ ∀ c ∈ t, isBlank c = true :=
  List.all_eq_true

end Text

end Runsheet
