/-
Letter case of statuses. A status is read without the blanks around it
and whatever the case of its letters. So a text is read as a status if it
writes the word letter by letter, each small or capital, with blanks
around it; and there is one more way to write a `k`, the Kelvin sign.

# The whole of Unicode

What has to be known is every character whose lower case can be a part of
a status. The table of lower case has three kinds of rows
(`Capitals.row_cases`): that of the capitals of ASCII, that of the Kelvin
sign, and rows that lead from characters beyond ASCII to characters beyond
ASCII, with no blank among either. What the two characters with a rule of
their own become is not all ASCII, either. So a text goes to one of ASCII
letters and blanks only if folding its case, which knows the first two
kinds of rows and nothing else, does the same (`Text.lower_eq_iff`).

A status word with blanks around it is such a text. That is why statuses
may be read by folding (`read?_eq_ofWord?_lower`), and why two texts of
the same lower case are the same status (`read?_eq_some_iff_lower`): it is
the lower case of the text before trimming that tells the status, too.
-/
import Mathlib
import Runsheet.Proofs.Text.Ends
import Runsheet.Result.Line
import Runsheet.Text.LowerCase

namespace Runsheet

-- ========================================================= folding of case

theorem isUpper_iff {c : Char} : c.isUpper = true ↔ 65 ≤ c.toNat ∧ c.toNat ≤ 90 := by
  simp only [Char.isUpper, ge_iff_le, decide_eq_true_eq, UInt32.le_iff_toNat_le]
  exact Iff.rfl

/-- Folding leaves alone what is neither a capital of ASCII nor the Kelvin
sign. -/
theorem foldCase_of_not_isUpper {c : Char} (hkelvin : c ≠ '\u212A')
    (h : c.isUpper = false) : foldCase c = c := by
  rw [foldCase, if_neg hkelvin, Char.toLower_eq_of_not_isUpper (Bool.eq_false_iff.1 h)]

/-- A capital of ASCII goes to its small letter. -/
theorem toNat_foldCase_of_isUpper {c : Char} (h : c.isUpper = true) :
    (foldCase c).toNat = c.toNat + 32 := by
  obtain ⟨-, hhigh⟩ := isUpper_iff.1 h
  have hkelvin : c ≠ '\u212A' := by
    intro hc
    rw [hc] at h
    cases h
  have hvalid : (c.toNat + 32).isValidChar := Or.inl (by omega)
  rw [foldCase, if_neg hkelvin, Char.toLower_eq_of_isUpper h, Char.toNat_ofNat, if_pos hvalid]

/-- Nothing is blank between the space and the end of ASCII. -/
theorem isBlank_eq_false_of_printable {c : Char} (hlow : 33 ≤ c.toNat) (hhigh : c.toNat ≤ 126) :
    isBlank c = false := by
  rw [Bool.eq_false_iff]
  simp only [isBlank, blankRanges, List.any_cons, List.any_nil, Bool.or_eq_true,
    Bool.and_eq_true, decide_eq_true_eq, ne_eq, Bool.false_eq_true, or_false]
  omega

/-- Folding makes no blank and takes none away. -/
theorem isBlank_foldCase (c : Char) : isBlank (foldCase c) = isBlank c := by
  by_cases hkelvin : c = '\u212A'
  · subst hkelvin
    decide
  · cases h : c.isUpper with
    | false => rw [foldCase_of_not_isUpper hkelvin h]
    | true =>
        have hfold := toNat_foldCase_of_isUpper h
        obtain ⟨hlow, hhigh⟩ := isUpper_iff.1 h
        rw [isBlank_eq_false_of_printable (by omega) (by omega),
          isBlank_eq_false_of_printable (by omega) (by omega)]

/-- A text is blank or not, whatever its case. -/
theorem allBlank_map_foldCase {t : Text} : Text.allBlank (t.map foldCase) = t.allBlank := by
  rw [Text.allBlank, Text.allBlank, List.all_map]
  exact congrArg (t.all ·) (funext isBlank_foldCase)

/-- It does not matter whether a text is trimmed or folded first. -/
theorem trim_map_foldCase (t : Text) : Text.trim (t.map foldCase) = t.trim.map foldCase := by
  have hfold : isBlank ∘ foldCase = isBlank := funext isBlank_foldCase
  simp only [Text.trim, Text.trimEnd, Text.trimStart, dropEndWhile, List.dropWhile_map, hfold,
    ← List.map_reverse]

-- ================================================================= letters

namespace Status

/-- The characters that write a letter of a status: the letter itself, its
capital, and for a `k` the Kelvin sign. -/
def Writes (c letter : Char) : Prop :=
  c = letter ∨ c = letter.toUpper ∨ letter = 'k' ∧ c = '\u212A'

/-- A text that writes the word of a status letter by letter. -/
def WrittenAs (s : Status) (t : Text) : Prop := List.Forall₂ Writes t s.word

/-- Status words are written in small letters. -/
theorem isLower_of_mem_word {s : Status} {l : Char} (h : l ∈ s.word) : l.isLower = true := by
  have hall : s.word.all Char.isLower = true := by cases s <;> rfl
  exact List.all_eq_true.1 hall l h

/-- What folds to a small letter is what writes it. -/
theorem foldCase_eq_iff {c l : Char} (hl : l.isLower = true) : foldCase c = l ↔ Writes c l := by
  have hnot : ¬ l.isUpper = true := Char.not_isUpper_of_isLower hl
  have hsmall : l.toLower = l := Char.toLower_eq_of_not_isUpper hnot
  by_cases hkelvin : c = '\u212A'
  · -- no letter of ASCII, small or capital, is the Kelvin sign
    subst hkelvin
    have halpha : l.toUpper.isAlpha = true := by
      rw [Char.isAlpha_toUpper_eq_isAlpha, Char.isAlpha, hl, Bool.or_true]
    have hfold : foldCase '\u212A' = 'k' := by decide
    rw [hfold]
    constructor
    · intro h
      exact Or.inr (Or.inr ⟨h.symm, rfl⟩)
    · intro h
      rcases h with h | h | ⟨h, -⟩
      · rw [← h] at hl
        cases hl
      · rw [← h] at halpha
        cases halpha
      · exact h.symm
  · -- any other character is folded as ASCII has it
    rw [foldCase, if_neg hkelvin]
    constructor
    · intro h
      rw [← h]
      by_cases hc : c.isUpper = true
      · have hcapital : c.toUpper = c :=
          Char.toUpper_eq_of_not_isLower fun hlow => Char.not_isUpper_of_isLower hlow hc
        exact Or.inr (Or.inl (by rw [Char.toUpper_toLower_eq_toUpper, hcapital]))
      · exact Or.inl (Char.toLower_eq_of_not_isUpper hc).symm
    · intro h
      rcases h with h | h | ⟨-, h⟩
      · rw [h, hsmall]
      · rw [h, Char.toLower_toUpper_eq_toLower, hsmall]
      · exact absurd h hkelvin

/-- Letter by letter, so it is for a word. -/
theorem map_foldCase_eq_iff {t word : Text} (hword : ∀ l ∈ word, l.isLower = true) :
    t.map foldCase = word ↔ List.Forall₂ Writes t word := by
  induction word generalizing t with
  | nil => rw [List.map_eq_nil_iff, List.forall₂_nil_right_iff]
  | cons l word ih =>
      obtain ⟨hl, hword⟩ := List.forall_mem_cons.1 hword
      cases t with
      | nil => exact iff_of_false nofun nofun
      | cons c t =>
          rw [List.map_cons, List.cons.injEq, List.forall₂_cons, foldCase_eq_iff hl, ih hword]

end Status

-- ============================================================== the table

/-- A character of ASCII or a blank: what a status and the blanks around it
are made of. -/
def Plain (c : Char) : Prop := c.toNat < 128 ∨ isBlank c = true

instance (c : Char) : Decidable (Plain c) := inferInstanceAs (Decidable (_ ∨ _))

/-- Code points from one to another, no plain character among them. -/
def Beyond (low high : Nat) : Prop :=
  128 ≤ low ∧ ∀ r ∈ blankRanges, high < r.1 ∨ r.2 < low

instance (low high : Nat) : Decidable (Beyond low high) :=
  inferInstanceAs (Decidable (_ ∧ _))

/-- No character among such code points is plain. -/
theorem Beyond.not_plain {low high : Nat} (h : Beyond low high) {c : Char}
    (hlow : low ≤ c.toNat) (hhigh : c.toNat ≤ high) : ¬ Plain c := by
  obtain ⟨hascii, hblank⟩ := h
  intro hc
  rcases hc with hc | hc
  · omega
  · obtain ⟨r, hr, hc⟩ := List.any_eq_true.1 hc
    simp only [Bool.and_eq_true, decide_eq_true_eq] at hc
    rcases hblank r hr with hr | hr <;> omega

namespace Capitals

/-- The capitals of ASCII. -/
def ascii : Capitals := ⟨0x41, 0x5A, 1, 0x61⟩

/-- The Kelvin sign. -/
def kelvin : Capitals := ⟨0x212A, 0x212A, 1, 0x6B⟩

/-- A row that leads from beyond the plain characters to beyond them. -/
@[mk_iff] structure IsBeyond (r : Capitals) : Prop where
  source : Beyond r.first r.last
  target : Beyond r.lower (r.image r.last)
  valid : r.image r.last < 0xD800 ∨ 0xE000 ≤ r.lower ∧ r.image r.last < 0x110000
  ne_kelvin : r.last < 0x212A ∨ 0x212A < r.first

instance (r : Capitals) : Decidable r.IsBeyond := decidable_of_iff _ (isBeyond_iff r).symm

/-- The table holds three kinds of rows. That all its other rows are beyond
is looked up row by row. -/
theorem row_cases {r : Capitals} (h : r ∈ all) : r = ascii ∨ r = kelvin ∨ r.IsBeyond := by
  have hall : ∀ r ∈ all, r = ascii ∨ r = kelvin ∨ r.IsBeyond := by decide +kernel
  exact hall r h

theorem of_holds {r : Capitals} {n : Nat} (h : r.holds n = true) : r.first ≤ n ∧ n ≤ r.last := by
  simp only [holds, Bool.and_eq_true, decide_eq_true_eq] at h
  exact h.1

/-- What such a row makes of its characters is not plain. -/
theorem IsBeyond.not_plain_image {r : Capitals} (hr : r.IsBeyond) {n : Nat}
    (h : r.holds n = true) : ¬ Plain (Char.ofNat (r.image n)) := by
  obtain ⟨hfirst, hlast⟩ := of_holds h
  have himage : r.lower ≤ r.image n ∧ r.image n ≤ r.image r.last := by
    simp only [image]
    omega
  have hvalid : (r.image n).isValidChar := by
    rcases hr.valid with hv | hv
    · exact Or.inl (by omega)
    · exact Or.inr (by omega)
  have hnat : (Char.ofNat (r.image n)).toNat = r.image n := by
    rw [Char.toNat_ofNat, if_pos hvalid]
  exact hr.target.not_plain (by omega) (by omega)

end Capitals

-- ========================================================== one character

namespace Text

open Capitals (row_cases of_holds)

/-- The capitals of ASCII and the Kelvin sign have rows. -/
theorem foldCase_of_find?_eq_none {c : Char}
    (h : Capitals.all.find? (·.holds c.toNat) = none) : foldCase c = c := by
  have hrow := List.find?_eq_none.1 h
  have hascii := hrow Capitals.ascii (by decide +kernel)
  have hkelvin := hrow Capitals.kelvin (by decide +kernel)
  refine foldCase_of_not_isUpper ?_ ?_
  · intro hc
    rw [hc] at hkelvin
    exact hkelvin rfl
  · rw [Bool.eq_false_iff, ne_eq, isUpper_iff]
    intro hc
    exact hascii (by simp [Capitals.holds, Capitals.ascii, hc.1, hc.2, Nat.mod_one])

/-- By the table a character goes where folding its case takes it, or
neither it nor what it goes to is plain. -/
theorem lowerOne_cases (c : Char) :
    lowerOne c = foldCase c ∨ foldCase c = c ∧ ¬ Plain c ∧ ¬ Plain (lowerOne c) := by
  cases hfind : Capitals.all.find? (·.holds c.toNat) with
  | none =>
      rw [lowerOne, hfind]
      exact Or.inl (foldCase_of_find?_eq_none hfind).symm
  | some r =>
      have hlower : lowerOne c = Char.ofNat (r.image c.toNat) := by rw [lowerOne, hfind]
      have hholds : r.holds c.toNat = true := by simpa using List.find?_some hfind
      obtain ⟨hfirst, hlast⟩ := of_holds hholds
      rw [hlower]
      -- two rows have images in ASCII, the others lead from signs that are not
      -- plain to such signs
      rcases row_cases (List.mem_of_find?_eq_some hfind) with rfl | rfl | hr
      · left
        have hupper : c.isUpper = true := isUpper_iff.2 ⟨hfirst, hlast⟩
        have hvalid : (Capitals.ascii.image c.toNat).isValidChar :=
          Or.inl (by simp only [Capitals.image, Capitals.ascii] at *; omega)
        rw [← Char.toNat_inj, toNat_foldCase_of_isUpper hupper, Char.toNat_ofNat, if_pos hvalid]
        simp only [Capitals.image, Capitals.ascii] at *
        omega
      · left
        have hc : c = '\u212A' := Char.toNat_inj.1 (Nat.le_antisymm hlast hfirst)
        subst hc
        decide
      · right
        have hplain : ¬ Plain c := hr.source.not_plain hfirst hlast
        refine ⟨foldCase_of_not_isUpper ?_ ?_, hplain, hr.not_plain_image hholds⟩
        · intro hc
          have hkelvin : c.toNat = 0x212A := congrArg Char.toNat hc
          rcases hr.ne_kelvin with h | h <;> omega
        · rw [Bool.eq_false_iff, ne_eq, isUpper_iff]
          intro hc
          exact hplain (Or.inl (by omega))

/-- Within a word a character goes where folding its case takes it, or
neither it nor all of what it goes to is plain. -/
theorem lowerWithin_cases (c : Char) :
    lowerWithin c = [foldCase c]
      ∨ foldCase c = c ∧ ¬ Plain c ∧ ∃ d ∈ lowerWithin c, ¬ Plain d := by
  by_cases hdotted : c = '\u0130'
  · subst hdotted
    have hdot : '\u0307' ∈ lowerWithin '\u0130' := List.mem_cons_of_mem _ List.mem_cons_self
    exact Or.inr ⟨by decide, by decide, '\u0307', hdot, by decide⟩
  · rw [lowerWithin, if_neg hdotted]
    rcases lowerOne_cases c with h | ⟨hfold, hplain, hlower⟩
    · exact Or.inl (congrArg ([·]) h)
    · exact Or.inr ⟨hfold, hplain, _, List.mem_singleton_self _, hlower⟩

/-- Where folding gives something plain, lower case gives the same. -/
theorem lowerWithin_of_plain_foldCase {c : Char} (h : Plain (foldCase c)) :
    lowerWithin c = [foldCase c] := by
  rcases lowerWithin_cases c with hc | ⟨hfold, hplain, -⟩
  · exact hc
  · exact absurd (hfold ▸ h) hplain

/-- Where lower case gives nothing but what is plain, it is what folding
gives. -/
theorem lowerWithin_of_forall_plain {c : Char} (h : ∀ d ∈ lowerWithin c, Plain d) :
    lowerWithin c = [foldCase c] := by
  rcases lowerWithin_cases c with hc | ⟨-, -, d, hd, hplain⟩
  · exact hc
  · exact absurd (h d hd) hplain

-- =================================================================== texts

variable {endsWord : Text → Text → Bool}

/-- A text that folds to plain characters has no capital sigma, so that ends
of words do not matter. -/
theorem lowerBehind_of_plain_map {before t : Text} (h : ∀ d ∈ t.map foldCase, Plain d) :
    lowerBehind endsWord before t = t.map foldCase := by
  induction t generalizing before with
  | nil => rfl
  | cons c t ih =>
      obtain ⟨hc, ht⟩ := List.forall_mem_cons.1 h
      have hsigma : c ≠ '\u03A3' := by
        intro hsigma
        rw [hsigma] at hc
        exact absurd hc (by decide)
      rw [lowerBehind, if_neg fun hfinal => hsigma hfinal.1, lowerWithin_of_plain_foldCase hc,
        ih ht]
      rfl

/-- A text whose lower case is plain is only folded by it. -/
theorem lowerBehind_of_forall_plain {before t : Text}
    (h : ∀ d ∈ lowerBehind endsWord before t, Plain d) :
    lowerBehind endsWord before t = t.map foldCase := by
  induction t generalizing before with
  | nil => rfl
  | cons c t ih =>
      rw [lowerBehind] at h ⊢
      obtain ⟨hc, ht⟩ := List.forall_mem_append.1 h
      by_cases hfinal : c = '\u03A3' ∧ endsWord before t = true
      · rw [if_pos hfinal] at hc
        exact absurd (hc _ List.mem_cons_self) (by decide)
      · rw [if_neg hfinal] at hc ⊢
        rw [lowerWithin_of_forall_plain hc, ih ht]
        rfl

/-- A text of plain characters is the lower case of the texts that fold to
it and of no others. -/
theorem lower_eq_iff {t u : Text} (hu : ∀ d ∈ u, Plain d) :
    lower endsWord t = u ↔ t.map foldCase = u := by
  constructor
  · intro h
    rw [← h] at hu ⊢
    exact (lowerBehind_of_forall_plain hu).symm
  · intro h
    rw [← h] at hu ⊢
    exact lowerBehind_of_plain_map hu

end Text

namespace Status

-- ================================================================= statuses

/-- The letters of a status are plain. -/
theorem plain_of_mem_word {s : Status} {l : Char} (h : l ∈ s.word) : Plain l := by
  have hl := isLower_of_mem_word h
  simp only [Char.isLower, Bool.and_eq_true, decide_eq_true_eq, UInt32.le_iff_toNat_le] at hl
  have hz : l.toNat ≤ 122 := hl.2
  exact Or.inl (by omega)

/-- The word of a status with blanks around it is plain. -/
theorem plain_of_mem_padded {s : Status} {a b : Text} (ha : a.allBlank = true)
    (hb : b.allBlank = true) {c : Char} (h : c ∈ a ++ s.word ++ b) : Plain c := by
  rcases List.mem_append.1 h with h | h
  · rcases List.mem_append.1 h with h | h
    · exact Or.inr (Text.allBlank_iff.1 ha c h)
    · exact plain_of_mem_word h
  · exact Or.inr (Text.allBlank_iff.1 hb c h)

theorem trim_word (s : Status) : Text.trim s.word = s.word := by
  cases s <;> rfl

/-- A text is read as a status if what is left without the blanks writes the
word. -/
theorem read?_eq_some_iff_writtenAs {t : Text} {s : Status} :
    read? t = some s ↔ s.WrittenAs t.trim := by
  rw [read?, ofWord?_eq_some_iff, map_foldCase_eq_iff fun _ => isLower_of_mem_word]
  rfl

/-- Statuses may be read by folding instead of by lower case. -/
theorem read?_eq_ofWord?_lower (endsWord : Text → Text → Bool) (t : Text) :
    read? t = ofWord? (t.trim.lower endsWord) := by
  refine Option.ext fun s => ?_
  have hplain : ∀ l ∈ s.word, Plain l := fun l hl => plain_of_mem_word hl
  rw [read?, ofWord?_eq_some_iff, ofWord?_eq_some_iff, Text.lower_eq_iff hplain]

/-- The lower case of a text tells the status that it is read as: the word
with blanks around it. -/
theorem read?_eq_some_iff_lower (endsWord : Text → Text → Bool) {t : Text} {s : Status} :
    read? t = some s ↔ ∃ a b : Text, a.allBlank = true ∧ b.allBlank = true
      ∧ t.lower endsWord = a ++ s.word ++ b := by
  rw [read?, ofWord?_eq_some_iff]
  constructor
  · intro h
    obtain ⟨a, b, ht, ha, hb⟩ := t.exists_eq_append_trim
    have ha' : Text.allBlank (a.map foldCase) = true := allBlank_map_foldCase.trans ha
    have hb' : Text.allBlank (b.map foldCase) = true := allBlank_map_foldCase.trans hb
    refine ⟨a.map foldCase, b.map foldCase, ha', hb', ?_⟩
    refine (Text.lower_eq_iff fun _ => plain_of_mem_padded ha' hb').2 ?_
    rw [ht, List.map_append, List.map_append, h]
  · intro h
    obtain ⟨a, b, ha, hb, hlower⟩ := h
    have hfold : t.map foldCase = a ++ s.word ++ b :=
      (Text.lower_eq_iff fun _ => plain_of_mem_padded ha hb).1 hlower
    rw [← trim_map_foldCase, hfold, Text.trim_append_append ha hb, trim_word]

/-- Statuses are read letter by letter. A text is read as a status exactly
if, the blanks around it aside, it writes the word with each letter small
or capital or, for a `k`, as the Kelvin sign; and any other text is an
error that names it as it was given. So at most one status fits, and
neither blanks around a text nor the case of its letters count: what is
looked at is no more than the lower case of what is left without the
blanks, and texts of the same lower case are the same status. -/
theorem parse_by_letters (t : Text) :
    (∀ s, parse t = .ok s ↔ s.WrittenAs t.trim)
      ∧ ((∀ s : Status, ¬ s.WrittenAs t.trim) → ∃ e, parse t = .error e ∧ e.culprit = t)
      ∧ (∀ s s' : Status, s.WrittenAs t.trim → s'.WrittenAs t.trim → s = s')
      ∧ (∀ a b : Text, a.allBlank = true → b.allBlank = true →
          ∀ s, parse (a ++ t ++ b) = .ok s ↔ parse t = .ok s)
      ∧ ∀ endsWord, (∀ s, parse t = .ok s ↔ t.trim.lower endsWord = s.word)
          ∧ ∀ u : Text, u.lower endsWord = t.lower endsWord →
              ∀ s, parse u = .ok s ↔ parse t = .ok s := by
  refine ⟨?letters, ?other, ?unique, ?blanks, fun endsWord => ⟨?lower, ?case⟩⟩
  case letters =>
    intro s
    rw [parse_eq_ok_iff, read?_eq_some_iff_writtenAs]
  case other =>
    intro h
    refine ⟨_, parse_eq_error fun s hs => h s ?_, rfl⟩
    exact read?_eq_some_iff_writtenAs.1 (parse_eq_ok_iff.1 hs)
  case unique =>
    intro s s' hs hs'
    have hread := read?_eq_some_iff_writtenAs.2 hs
    rw [read?_eq_some_iff_writtenAs.2 hs'] at hread
    exact (Option.some.inj hread).symm
  case blanks =>
    intro a b ha hb s
    rw [parse_eq_ok_iff, parse_eq_ok_iff, read?, read?, Text.trim_append_append ha hb]
  case lower =>
    intro s
    rw [parse_eq_ok_iff, read?_eq_ofWord?_lower endsWord, ofWord?_eq_some_iff]
  case case =>
    intro u hu s
    rw [parse_eq_ok_iff, parse_eq_ok_iff, read?_eq_some_iff_lower endsWord,
      read?_eq_some_iff_lower endsWord, hu]

/-- A status with a capital and a Kelvin sign, in another case and with
blanks around it; and one with a letter that has the capital `I` and is no
letter of a status. -/
theorem parse_by_letters_kelvin :
    (Text.allBlank "\uFEFF ".toList = true ∧ Text.allBlank "\n".toList = true
        ∧ parse ("\uFEFF ".toList ++ "S\u212Aip".toList ++ "\n".toList) = .ok .skip)
      ∧ (Text.lower (fun _ _ => true) "sKIP".toList
            = Text.lower (fun _ _ => true) "S\u212Aip".toList
          ∧ parse "sKIP".toList = .ok .skip)
      ∧ (∀ s : Status, ¬ s.WrittenAs (Text.trim "sk\u0131p".toList))
      ∧ ∃ e, parse "sk\u0131p".toList = .error e ∧ e.culprit = "sk\u0131p".toList := by
  obtain ⟨hletters, -, -, hblanks, hlower⟩ := parse_by_letters "S\u212Aip".toList
  obtain ⟨hword, hcase⟩ := hlower fun _ _ => true
  have hskip : parse "S\u212Aip".toList = .ok .skip := (hword .skip).2 (by decide +kernel)
  have hfront : Text.allBlank "\uFEFF ".toList = true := rfl
  have hback : Text.allBlank "\n".toList = true := rfl
  have hsame : Text.lower (fun _ _ => true) "sKIP".toList
      = Text.lower (fun _ _ => true) "S\u212Aip".toList := by decide +kernel
  obtain ⟨hletters', hother, -⟩ := parse_by_letters "sk\u0131p".toList
  have hnone : ∀ s : Status, ¬ s.WrittenAs (Text.trim "sk\u0131p".toList) := by
    intro s hs
    cases (hletters' s).2 hs
  exact ⟨⟨hfront, hback, (hblanks _ _ hfront hback .skip).2 hskip⟩,
    ⟨hsame, (hcase _ hsame .skip).2 hskip⟩, hnone, hother hnone⟩

end Status

end Runsheet
