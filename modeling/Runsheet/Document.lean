/-
Documents. A sequences document holds one section per sequence. A
section opens with a heading of level 2 that carries the sequence's
name and, in parentheses, perhaps a stage; it reaches to the next
heading of level 1 or 2.

# Headings

A heading is two number signs, a gap, the name, and then nothing but
blanks, or a gap, a stage in parentheses and nothing but blanks. The
name is the whole first word behind the signs, so at most one name can
be read off a line. A stage may hold anything but a closing
parenthesis. A line such as `## name rest` has a heading's opening and
more words behind it: it names no sequence, and yet it ends the section
before it, because one or two number signs and a blank are enough for
that (`closesSection_of_headingName?`).

# Lookup

The section of a name opens at the first heading with that name. Its
body is cut out of the lines of the document and joined by line feeds.
-/
import Runsheet.Text.Lines
import Runsheet.Text.Span

namespace Runsheet.Document

-- ============================================================= headings

/-- What may stand behind the name in a heading: blanks, or a gap, a
stage in parentheses and blanks. -/
def isHeadingTail (rest : Text) : Bool :=
  Text.allBlank rest ||
    match Text.afterGap? rest with
    | some ('(' :: stage) =>
      match stage.dropWhile (· ≠ ')') with
      | ')' :: blanks => Text.allBlank blanks
      | _ => false
    | _ => false

/-- The name in a heading of level 2; nothing if the line is none. -/
def headingName? : Text → Option Text
  | '#' :: '#' :: line =>
    match Text.nextWord? line with
    | some (name, rest) => if isHeadingTail rest then some name else none
    | none => none
  | _ => none

/-- Whether a line ends the section before it: one or two number signs
and a blank. -/
def closesSection : Text → Bool
  | '#' :: '#' :: line => Text.opensWith isBlank line
  | '#' :: line => Text.opensWith isBlank line
  | _ => false

-- ============================================================== grammar

/-- The grammar of what stands behind the name. -/
def HeadingTail (tail : Text) : Prop :=
  tail.allBlank = true
    ∨ ∃ gap stage blanks : Text, tail = gap ++ '(' :: (stage ++ ')' :: blanks)
        ∧ Text.IsGap gap ∧ ')' ∉ stage ∧ blanks.allBlank = true

/-- The grammar of headings: a line that opens the section of a name. -/
def Heading (name line : Text) : Prop :=
  ∃ gap tail : Text, line = '#' :: '#' :: (gap ++ (name ++ tail))
    ∧ Text.IsGap gap ∧ Text.IsWord name ∧ HeadingTail tail

/-- The test of what stands behind a name follows the rule for it. -/
theorem isHeadingTail_iff {tail : Text} : isHeadingTail tail = true ↔ HeadingTail tail := by
  rw [isHeadingTail, HeadingTail, Bool.or_eq_true]
  refine or_congr_right ?_
  constructor
  · intro h
    split at h
    · next stage hg =>
      obtain ⟨gap, rfl, hgap, -⟩ := Text.afterGap?_eq_some_iff.1 hg
      split at h
      · next blanks hd =>
        -- a stage ends at the first closing bracket, so it holds none
        refine ⟨gap, stage.takeWhile (· ≠ ')'), blanks, ?_, hgap, ?_, h⟩
        · rw [← hd, List.takeWhile_append_dropWhile]
        · intro hm
          have := List.all_eq_true.1 List.all_takeWhile _ hm
          simp at this
      · cases h
    · cases h
  · rintro ⟨gap, stage, blanks, rfl, hg, hs, hb⟩
    have h1 : Text.afterGap? (gap ++ '(' :: (stage ++ ')' :: blanks))
        = some ('(' :: (stage ++ ')' :: blanks)) :=
      Text.afterGap?_eq_some_iff.2 ⟨gap, rfl, hg, rfl⟩
    have h2 : (stage ++ ')' :: blanks).dropWhile (· ≠ ')') = ')' :: blanks := by
      refine (Text.takeWhile_append_of_not_opensWith (fun c hc => ?_) rfl).2
      simp only [decide_not, Bool.not_eq_true', decide_eq_false_iff_not]
      rintro rfl
      exact hs hc
    simp only [h1, h2]
    exact hb

/-- What may stand behind a name does not make the name longer. -/
theorem HeadingTail.not_opensWith_word {tail : Text} (h : HeadingTail tail) :
    Text.opensWith (! isBlank ·) tail = false := by
  rcases h with h | ⟨gap, stage, blanks, rfl, hg, -⟩
  · cases tail with
    | nil => rfl
    | cons c tail =>
      have := Text.allBlank_iff.1 h c List.mem_cons_self
      simp [Text.opensWith, this]
  · exact Text.IsGap.not_opensWith_word hg _

/-- The reader follows the grammar, and no line has two names. -/
theorem headingName?_eq_some_iff {line name : Text} :
    headingName? line = some name ↔ Heading name line := by
  constructor
  · intro h
    unfold headingName? at h
    split at h
    · next rest =>
      split at h
      · next w tail hw =>
        split at h
        · next ht =>
          cases h
          obtain ⟨gap, rfl, hg, hn, -⟩ := Text.nextWord?_eq_some_iff.1 hw
          exact ⟨gap, tail, rfl, hg, hn, isHeadingTail_iff.1 ht⟩
        · cases h
      · cases h
    · cases h
  · rintro ⟨gap, tail, rfl, hg, hn, ht⟩
    have hw : Text.nextWord? (gap ++ (name ++ tail)) = some (name, tail) :=
      Text.nextWord?_eq_some_iff.2 ⟨gap, rfl, hg, hn, ht.not_opensWith_word⟩
    simp only [headingName?, hw, isHeadingTail_iff.2 ht, if_true]

/-- Every heading of level 2 ends the section before it. -/
theorem closesSection_of_headingName? {line name : Text}
    (h : headingName? line = some name) : closesSection line = true := by
  obtain ⟨gap, tail, rfl, hg, -⟩ := headingName?_eq_some_iff.1 h
  exact Text.IsSpan.opensWith_append hg _

/-- A stage is no part of the name, and a second word is no stage. -/
example : headingName? "## extra_config (BETA)".toList = some "extra_config".toList
    ∧ headingName? "## extra config".toList = none
    ∧ closesSection "## extra config".toList = true := by decide

-- =============================================================== lookup

/-- The names of all sections, in order; a name may occur more than
once. -/
def names (doc : Text) : List Text := doc.lines.filterMap headingName?

/-- The body of the first section with a name, without its heading. -/
def body? (doc name : Text) : Option Text :=
  match doc.lines.dropWhile (headingName? · ≠ some name) with
  | [] => none
  | _ :: rest => some (Text.joinLines (rest.takeWhile (! closesSection ·)))

/-- A section is found exactly if its name is listed. -/
theorem isSome_body?_iff {doc name : Text} :
    (body? doc name).isSome = true ↔ name ∈ names doc := by
  rw [names, List.mem_filterMap, body?]
  generalize doc.lines = ls
  induction ls with
  | nil => simp
  | cons l ls ih =>
    by_cases h : headingName? l = some name
    · simp [h]
    · simpa [h] using ih

end Runsheet.Document
