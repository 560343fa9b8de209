/-
Headings and their readings. A reading is everything there is to a
heading: the name and the gap in front of it, the stage if there is one,
and the blanks around them. `text` puts the parts together again, so a
line has a reading exactly if it is a heading.

# No line has two readings

Every part ends where the next one begins, because what follows cannot
extend it, and a text opens with one such part only.

- The name ends at the first blank; behind it stand blanks, or a gap in
  front of a parenthesis. A name may hold parentheses of its own.
- The gap in front of a stage ends at the opening parenthesis.
- The stage ends at the first closing parenthesis, and may hold blanks,
  returns and further opening ones.
- Where there is no stage all the rest is blank, and a parenthesis is
  not; so one line is not read with a stage and without.

# What follows

A line of its own lists the one name of its reading, or nothing. In a
document it ends whatever section is open in front of it, its own name
and that section's aside.
-/
import Runsheet.Proofs.Document.Section

namespace Runsheet.Document

-- ============================================================== readings

/-- A stage in parentheses, and the gap in front of it. -/
@[ext] structure Stage where
  gap : Text
  inner : Text
  gap_isGap : Text.IsGap gap
  not_mem_inner : ')' ∉ inner

/-- The parts of a heading, all blanks included. -/
@[ext] structure Reading where
  name : Text.GapWord
  stage : Option Stage
  blanks : Text
  blanks_allBlank : blanks.allBlank = true

namespace Stage

/-- The gap, then the stage between its parentheses. -/
def text (s : Stage) : Text := s.gap ++ '(' :: (s.inner ++ [')'])

theorem text_append (s : Stage) (r : Text) :
    s.text ++ r = s.gap ++ '(' :: (s.inner ++ ')' :: r) := by
  simp [text]

/-- A text opens with one stage. -/
theorem append_inj {s s' : Stage} {r r' : Text} (h : s.text ++ r = s'.text ++ r') :
    s = s' ∧ r = r' := by
  have hopen : ∀ t : Text, Text.opensWith isBlank ('(' :: t) = false := fun _ => rfl
  have hinner : ∀ s : Stage, ∀ c ∈ s.inner, decide (c ≠ ')') = true := by
    intro s c hc
    apply decide_eq_true
    rintro rfl
    exact s.not_mem_inner hc
  have hclose : ∀ t : Text, Text.opensWith (· ≠ ')') (')' :: t) = false := fun _ => rfl
  rw [s.text_append, s'.text_append] at h
  obtain ⟨hgap, hrest⟩ := Text.append_inj_of_not_opensWith s.gap_isGap.all_mem
    s'.gap_isGap.all_mem (hopen _) (hopen _) h
  obtain ⟨hin, htail⟩ := Text.append_inj_of_not_opensWith (hinner s) (hinner s')
    (hclose r) (hclose r') (List.cons.inj hrest).2
  exact ⟨Stage.ext hgap hin, (List.cons.inj htail).2⟩

/-- A stage opens with a parenthesis, so what holds one is not all
blank. -/
theorem allBlank_text_append_eq_false (s : Stage) (r : Text) :
    (s.text ++ r).allBlank = false := by
  rw [Bool.eq_false_iff, ne_eq, Text.allBlank_iff]
  intro h
  have hmem : '(' ∈ s.text ++ r := by simp [s.text_append]
  exact absurd (h '(' hmem) (by decide)

end Stage

namespace Reading

/-- What stands behind the name. -/
def tail (r : Reading) : Text := (r.stage.map Stage.text).getD [] ++ r.blanks

/-- The heading that is read so. -/
def text (r : Reading) : Text := '#' :: '#' :: (r.name.text ++ r.tail)

/-- What a reading puts behind the name may stand there. -/
theorem headingTail_tail (r : Reading) : HeadingTail r.tail := by
  unfold tail
  cases r.stage with
  | none => exact Or.inl r.blanks_allBlank
  | some s =>
      exact Or.inr ⟨s.gap, s.inner, r.blanks, s.text_append r.blanks, s.gap_isGap,
        s.not_mem_inner, r.blanks_allBlank⟩

/-- A heading of a name is what some reading with that name puts
together. -/
theorem heading_iff {name line : Text} :
    Heading name line ↔ ∃ r : Reading, r.text = line ∧ r.name.word = name := by
  constructor
  · intro h
    obtain ⟨gap, tail, rfl, hgap, hname, htail⟩ := h
    have hw : ∀ t, Text.GapWord.text ⟨gap, name, hgap, hname⟩ ++ t = gap ++ (name ++ t) :=
      Text.GapWord.text_append _
    rcases htail with hblanks | ⟨sgap, inner, blanks, rfl, hsgap, hinner, hblanks⟩
    · refine ⟨⟨⟨gap, name, hgap, hname⟩, none, tail, hblanks⟩, ?_, rfl⟩
      rw [text, hw]
      rfl
    · refine ⟨⟨⟨gap, name, hgap, hname⟩, some ⟨sgap, inner, hsgap, hinner⟩, blanks,
        hblanks⟩, ?_, rfl⟩
      rw [text, hw]
      show _ = '#' :: '#' :: (gap ++ (name ++ _))
      rw [← Stage.text_append ⟨sgap, inner, hsgap, hinner⟩ blanks]
      rfl
  · intro h
    obtain ⟨r, rfl, rfl⟩ := h
    refine ⟨r.name.gap, r.tail, ?_, r.name.gap_isGap, r.name.word_isWord,
      r.headingTail_tail⟩
    rw [text, r.name.text_append]

/-- What stands behind a name is read in one way. -/
theorem tail_inj {r r' : Reading} (h : r.tail = r'.tail) :
    r.stage = r'.stage ∧ r.blanks = r'.blanks := by
  have hblank := r.blanks_allBlank
  have hblank' := r'.blanks_allBlank
  unfold tail at h
  -- a stage is not blank, so blanks alone are never the text of one
  cases hs : r.stage with
  | none =>
      cases hs' : r'.stage with
      | none =>
          rw [hs, hs'] at h
          exact ⟨rfl, h⟩
      | some s' =>
          rw [hs, hs'] at h
          rw [show r.blanks = s'.text ++ r'.blanks from h,
            s'.allBlank_text_append_eq_false] at hblank
          cases hblank
  | some s =>
      cases hs' : r'.stage with
      | none =>
          rw [hs, hs'] at h
          rw [← show s.text ++ r.blanks = r'.blanks from h,
            s.allBlank_text_append_eq_false] at hblank'
          cases hblank'
      | some s' =>
          rw [hs, hs'] at h
          obtain ⟨rfl, hb⟩ := Stage.append_inj h
          exact ⟨rfl, hb⟩

/-- No line has two readings. -/
theorem text_injective {r r' : Reading} (h : r.text = r'.text) : r = r' := by
  have hrest : r.name.text ++ r.tail = r'.name.text ++ r'.tail :=
    (List.cons.inj (List.cons.inj h).2).2
  obtain ⟨hname, htail⟩ := Text.GapWord.append_inj
    r.headingTail_tail.not_opensWith_word r'.headingTail_tail.not_opensWith_word hrest
  obtain ⟨hstage, hblanks⟩ := tail_inj htail
  exact Reading.ext hname hstage hblanks

/-- The name is the whole first word behind the two signs. -/
theorem name_eq_first_word (r : Reading) :
    r.name.word = ((r.text.drop 2).dropWhile isBlank).takeWhile (! isBlank ·) := by
  have htext : r.text.drop 2 = r.name.gap ++ (r.name.word ++ r.tail) :=
    r.name.text_append r.tail
  have hgap := (Text.takeWhile_append_of_not_opensWith r.name.gap_isGap.all_mem
    (r.name.word_isWord.not_opensWith_isBlank r.tail)).2
  have hword := (Text.takeWhile_append_of_not_opensWith r.name.word_isWord.all_mem
    r.headingTail_tail.not_opensWith_word).1
  rw [htext, hgap, hword]

end Reading

-- ============================================================== sections

/-- Whatever section is open where the line stands ends there: the lines
up to it would be a section that runs to the end, and its body is what is
looked up. -/
def EndsSection (line : Text) : Prop :=
  ∀ doc name before heading body behind,
    SectionAt name (before ++ heading :: body) before heading body [] →
    doc.lines = before ++ heading :: (body ++ line :: behind) →
    body? doc name = some (Text.joinLines body)

/-- A line that closes a section ends it, whatever else it is. -/
theorem Closing.endsSection {line : Text} (h : Closing line) : EndsSection line := by
  intro doc name before heading body behind hopen hlines
  refine body?_eq_some_iff.2 ⟨before, heading, body, line :: behind, ?_, rfl⟩
  refine ⟨hlines, hopen.opens, hopen.not_before, hopen.not_within, fun l hl => ?_⟩
  obtain rfl : line = l := Option.some.inj hl
  exact h

-- ================================================================ names

/-- A text of one line lists the name on that line, if there is one. -/
theorem names_of_not_mem {line : Text} (h : '\n' ∉ line) :
    names line = (headingName? line).toList := by
  rw [names, Text.lines_of_not_mem h, List.filterMap_cons, List.filterMap_nil]
  cases headingName? line <;> rfl

/-- A line that the grammar of headings reads lists one name, the whole
first word behind its signs, is read in no other way, and ends the section
in front of it. A line that it does not read lists none. -/
theorem names_of_readings {line : Text} (h : '\n' ∉ line) :
    (∀ r : Reading, r.text = line →
        names line = [r.name.word]
          ∧ r.name.word = ((line.drop 2).dropWhile isBlank).takeWhile (! isBlank ·)
          ∧ (∀ r' : Reading, r'.text = line → r' = r)
          ∧ EndsSection line)
      ∧ ((∀ r : Reading, r.text ≠ line) → names line = []) := by
  rw [names_of_not_mem h]
  constructor
  · intro r hr
    have hheading : Heading r.name.word line := Reading.heading_iff.2 ⟨r, hr, rfl⟩
    -- the line has no other reading: a reading can be told from its text
    refine ⟨?_, ?_, fun r' hr' => ?_, hheading.closing.endsSection⟩
    · rw [headingName?_eq_some_iff.2 hheading]
      rfl
    · rw [← hr]
      exact r.name_eq_first_word
    · exact Reading.text_injective (hr'.trans hr.symm)
  · intro hnone
    cases hname : headingName? line with
    | none => rfl
    | some name =>
        obtain ⟨r, hr, -⟩ := Reading.heading_iff.1 (headingName?_eq_some_iff.1 hname)
        exact absurd hr (hnone r)

/-- A name with parentheses, a stage with blanks and one more opening
parenthesis, and a return at the end. -/
theorem names_of_readings_parentheses :
    '\n' ∉ "##\tt(1)  (a (b\r)\r".toList
      ∧ names "##\tt(1)  (a (b\r)\r".toList = ["t(1)".toList]
      ∧ EndsSection "##\tt(1)  (a (b\r)\r".toList := by
  have hlf : '\n' ∉ "##\tt(1)  (a (b\r)\r".toList := by decide
  obtain ⟨hnames, -, -, hends⟩ := (names_of_readings hlf).1
    ⟨⟨['\t'], "t(1)".toList, by decide, by decide⟩,
      some ⟨"  ".toList, "a (b\r".toList, by decide, by decide⟩, ['\r'], by decide⟩ rfl
  exact ⟨hlf, hnames, hends⟩

end Runsheet.Document
