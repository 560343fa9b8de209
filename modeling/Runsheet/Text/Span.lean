/-
Spans. The formats here are read from the left, one span of characters
at a time: a gap of blanks, a word, a numeral. A span is as long as it
can be and never empty, which is why a text splits into spans in one
way only: `span?_eq_some_iff` says of the split that nothing is lost,
that the span holds what it should, and that what follows cannot
extend it. Put the other way round, two texts that are put together from
spans and rests of this kind are the same only if their parts are
(`append_inj_of_not_opensWith`, and `GapWord.append_inj` for a gap and a
word at once).
-/
import Runsheet.Text.Blank

namespace Runsheet.Text

/-- The longest span of characters that `p` accepts at the front, and
what stands behind it; nothing if that span is empty. -/
def span? (p : Char → Bool) (t : Text) : Option (Text × Text) :=
  if (t.takeWhile p).isEmpty then none else some (t.takeWhile p, t.dropWhile p)

/-- The word at the front, up to the next blank. -/
def word? (t : Text) : Option (Text × Text) := span? (! isBlank ·) t

/-- What stands behind the gap at the front; nothing if there is no
gap. -/
def afterGap? (t : Text) : Option Text := (span? isBlank t).map Prod.snd

/-- The word behind the gap at the front. -/
def nextWord? (t : Text) : Option (Text × Text) := (afterGap? t).bind word?

/-- Whether a text opens with a character that `p` accepts. -/
def opensWith (p : Char → Bool) (t : Text) : Bool := t.head?.any p

/-- A span: not empty, and of nothing but what `p` accepts. -/
structure IsSpan (p : Char → Bool) (w : Text) : Prop where
  ne_nil : w ≠ []
  all_mem : ∀ c ∈ w, p c = true

/-- Spans can be told by evaluation. -/
theorem isSpan_iff {p : Char → Bool} {w : Text} :
    IsSpan p w ↔ w.isEmpty = false ∧ w.all p = true := by
  rw [List.isEmpty_eq_false_iff, List.all_eq_true]
  constructor
  · intro h
    exact ⟨h.ne_nil, h.all_mem⟩
  · intro h
    exact ⟨h.1, h.2⟩

instance (p : Char → Bool) (w : Text) : Decidable (IsSpan p w) :=
  decidable_of_iff _ isSpan_iff.symm

/-- A span of blanks. -/
abbrev IsGap (g : Text) : Prop := IsSpan isBlank g

/-- A span of characters that are not blank. -/
abbrev IsWord (w : Text) : Prop := IsSpan (! isBlank ·) w

/-- A span of decimal digits. -/
abbrev IsNumeral (n : Text) : Prop := IsSpan Char.isDigit n

-- ====================================================== what a split says

theorem IsSpan.opensWith_append {p : Char → Bool} {w : Text} (h : IsSpan p w) (r : Text) :
    opensWith p (w ++ r) = true := by
  obtain ⟨c, w, rfl⟩ := List.exists_cons_of_ne_nil h.ne_nil
  simpa [opensWith] using h.all_mem c List.mem_cons_self

/-- A text opens with one class of characters, not with two that
exclude each other. -/
theorem opensWith_eq_false_of_imp {p q : Char → Bool} {t : Text}
    (hpq : ∀ c, p c = true → q c = false) (h : opensWith p t = true) :
    opensWith q t = false := by
  cases t with
  | nil => rfl
  | cons c t =>
    have hc : p c = true := by simpa [opensWith] using h
    simpa [opensWith] using hpq c hc

/-- A gap ends a word. -/
theorem IsGap.not_opensWith_word {g : Text} (h : IsGap g) (r : Text) :
    opensWith (! isBlank ·) (g ++ r) = false :=
  opensWith_eq_false_of_imp (by simp) (IsSpan.opensWith_append h r)

/-- A gap ends a numeral. -/
theorem IsGap.not_opensWith_isDigit {g : Text} (h : IsGap g) (r : Text) :
    opensWith Char.isDigit (g ++ r) = false := by
  refine opensWith_eq_false_of_imp (fun c hc => ?_) (IsSpan.opensWith_append h r)
  cases hd : c.isDigit with
  | false => rfl
  | true => rw [isBlank_eq_false_of_isDigit hd] at hc; cases hc

/-- A word ends a gap. -/
theorem IsWord.not_opensWith_isBlank {w : Text} (h : IsWord w) (r : Text) :
    opensWith isBlank (w ++ r) = false :=
  opensWith_eq_false_of_imp (by simp) (IsSpan.opensWith_append h r)

/-- A numeral ends a gap. -/
theorem IsNumeral.not_opensWith_isBlank {n : Text} (h : IsNumeral n) (r : Text) :
    opensWith isBlank (n ++ r) = false :=
  opensWith_eq_false_of_imp (fun _ => isBlank_eq_false_of_isDigit)
    (IsSpan.opensWith_append h r)

theorem opensWith_iff {p : Char → Bool} {t : Text} :
    opensWith p t = true ↔ ∃ c rest, t = c :: rest ∧ p c = true := by
  cases t <;> simp [opensWith]

/-- A text does not open with a class if it is empty, or its first character
is not of it. -/
theorem opensWith_eq_false_iff {p : Char → Bool} {t : Text} :
    opensWith p t = false ↔ ∀ c ∈ t.head?, p c = false := by
  cases t <;> simp [opensWith]

/-- Two texts put together open with a class only if one of them does. -/
theorem opensWith_append_eq_false {p : Char → Bool} {t u : Text}
    (ht : opensWith p t = false) (hu : opensWith p u = false) :
    opensWith p (t ++ u) = false := by
  cases t with
  | nil => exact hu
  | cons c t => exact ht

/-- Any number of texts put together do not open with a class if none of them
does. -/
theorem opensWith_flatMap_eq_false {p : Char → Bool} {f : Text → Text}
    (hf : ∀ t, opensWith p (f t) = false) (ts : List Text) :
    opensWith p (ts.flatMap f) = false := by
  induction ts with
  | nil => rfl
  | cons t ts ih =>
    rw [List.flatMap_cons]
    exact opensWith_append_eq_false (hf t) ih

/-- A text of one class is found again in front of what does not open with
it. -/
theorem takeWhile_append_of_not_opensWith {p : Char → Bool} {w r : Text}
    (hw : ∀ c ∈ w, p c = true) (hr : opensWith p r = false) :
    (w ++ r).takeWhile p = w ∧ (w ++ r).dropWhile p = r :=
  cut_iff.2 ⟨rfl, hw, opensWith_eq_false_iff.1 hr⟩

/-- A text splits into a span and a rest in at most one way. -/
theorem span?_eq_some_iff {p : Char → Bool} {t w r : Text} :
    span? p t = some (w, r) ↔ t = w ++ r ∧ IsSpan p w ∧ opensWith p r = false := by
  constructor
  · intro h
    rw [span?] at h
    split at h
    · cases h
    · next hne =>
      obtain ⟨rfl, rfl⟩ := Prod.mk.inj (Option.some.inj h)
      obtain ⟨ht, hw, hr⟩ := cut_iff.1 ⟨rfl, rfl⟩
      exact ⟨ht, ⟨by simpa using hne, hw⟩, opensWith_eq_false_iff.2 hr⟩
  · rintro ⟨rfl, hw, hr⟩
    obtain ⟨ht, hd⟩ := takeWhile_append_of_not_opensWith hw.all_mem hr
    rw [span?, ht, hd, if_neg (by simpa using hw.ne_nil)]

theorem word?_eq_some_iff {t w r : Text} :
    word? t = some (w, r) ↔ t = w ++ r ∧ IsWord w ∧ opensWith (! isBlank ·) r = false :=
  span?_eq_some_iff

/-- A gap is skipped whole. -/
theorem afterGap?_eq_some_iff {t r : Text} :
    afterGap? t = some r ↔ ∃ g, t = g ++ r ∧ IsGap g ∧ opensWith isBlank r = false := by
  rw [afterGap?, Option.map_eq_some_iff]
  constructor
  · rintro ⟨⟨g, r'⟩, h, rfl⟩
    exact ⟨g, span?_eq_some_iff.1 h⟩
  · rintro ⟨g, h⟩
    exact ⟨(g, r), span?_eq_some_iff.2 h, rfl⟩

/-- A word behind a gap is read in one way. -/
theorem nextWord?_eq_some_iff {t w r : Text} :
    nextWord? t = some (w, r)
      ↔ ∃ g, t = g ++ (w ++ r) ∧ IsGap g ∧ IsWord w
          ∧ opensWith (! isBlank ·) r = false := by
  simp only [nextWord?, Option.bind_eq_some_iff, afterGap?_eq_some_iff, word?_eq_some_iff]
  constructor
  · rintro ⟨u, ⟨g, rfl, hg, -⟩, rfl, hw, hr⟩
    exact ⟨g, rfl, hg, hw, hr⟩
  · rintro ⟨g, rfl, hg, hw, hr⟩
    exact ⟨w ++ r, ⟨g, rfl, hg, IsWord.not_opensWith_isBlank hw r⟩,
      rfl, hw, hr⟩

-- ======================================================= one way to split

/-- At the front of a text one span of a class is as long as can be. -/
theorem append_inj_of_not_opensWith {p : Char → Bool} {w w' r r' : Text}
    (hw : ∀ c ∈ w, p c = true) (hw' : ∀ c ∈ w', p c = true)
    (hr : opensWith p r = false) (hr' : opensWith p r' = false)
    (h : w ++ r = w' ++ r') : w = w' ∧ r = r' := by
  obtain ⟨ht, hd⟩ := takeWhile_append_of_not_opensWith hw hr
  obtain ⟨ht', hd'⟩ := takeWhile_append_of_not_opensWith hw' hr'
  exact ⟨by rw [← ht, ← ht', h], by rw [← hd, ← hd', h]⟩

/-- A word and the gap in front of it. -/
@[ext] structure GapWord where
  gap : Text
  word : Text
  gap_isGap : IsGap gap
  word_isWord : IsWord word

/-- The gap, then the word. -/
def GapWord.text (w : GapWord) : Text := w.gap ++ w.word

theorem GapWord.text_append (w : GapWord) (r : Text) :
    w.text ++ r = w.gap ++ (w.word ++ r) :=
  List.append_assoc w.gap w.word r

/-- What opens with a gap and a word cannot extend a word. -/
theorem GapWord.not_opensWith_word (w : GapWord) (r : Text) :
    opensWith (! isBlank ·) (w.text ++ r) = false := by
  rw [w.text_append]
  exact w.gap_isGap.not_opensWith_word _

/-- A text opens with one gap and word, if what follows cannot extend
the word. -/
theorem GapWord.append_inj {w w' : GapWord} {r r' : Text}
    (hr : opensWith (! isBlank ·) r = false) (hr' : opensWith (! isBlank ·) r' = false)
    (h : w.text ++ r = w'.text ++ r') : w = w' ∧ r = r' := by
  rw [w.text_append, w'.text_append] at h
  obtain ⟨hgap, hrest⟩ := append_inj_of_not_opensWith w.gap_isGap.all_mem
    w'.gap_isGap.all_mem (w.word_isWord.not_opensWith_isBlank r)
    (w'.word_isWord.not_opensWith_isBlank r') h
  obtain ⟨hword, htail⟩ := append_inj_of_not_opensWith w.word_isWord.all_mem
    w'.word_isWord.all_mem hr hr' hrest
  exact ⟨GapWord.ext hgap hword, htail⟩

end Runsheet.Text
