/-
Sections. Where the section of a name stands among the lines of a
document, said without the two searches that find it: lines that do not
name it, its heading, its body, and what stands behind the body.

# One place at most

`SectionAt` lists what is asked of the four parts. Two of its clauses
are about the first line that is not accepted any more, once in front
of the heading and once behind the body, and a list is cut at such a
line in one way only (`cut_iff`). So the clauses are the two searches
in other words (`sectionAt_iff`), a section has one place or none, and
what is looked up is the body at that place (`body?_eq_some_iff`).

# What a section does not depend on

The place says of the lines in front of the heading that none of them
names the section, and of those behind the body that the first of them
ends it, and nothing more. Two documents in which the section of a name
has the same body there give the same text and the same steps for it,
however they differ elsewhere.

A heading of the same level that names no sequence ends a section all
the same: `Closing` asks less of a line than `Heading` does
(`Heading.closing`).
-/
import Runsheet.Source

namespace Runsheet.Document

-- ============================================================== closing

/-- A line that ends the section before it: one or two number signs and
a blank open it. -/
def Closing (line : Text) : Prop :=
  ∃ b rest, isBlank b = true ∧ (line = '#' :: b :: rest ∨ line = '#' :: '#' :: b :: rest)

/-- The test of closing lines is the rule for them. -/
theorem closesSection_iff {line : Text} : closesSection line = true ↔ Closing line := by
  unfold closesSection Closing
  split
  · next rest =>
    rw [Text.opensWith_iff]
    refine ⟨fun h => ?_, fun h => ?_⟩
    · obtain ⟨b, rest', rfl, hb⟩ := h
      exact ⟨b, rest', hb, Or.inr rfl⟩
    · -- a sign is not blank, so the blank stands behind both of them
      obtain ⟨b, rest', hb, hline | hline⟩ := h
      · cases hline
        exact absurd hb (by decide)
      · cases hline
        exact ⟨b, rest', rfl, hb⟩
  · next rest hrest =>
    rw [Text.opensWith_iff]
    refine ⟨fun h => ?_, fun h => ?_⟩
    · obtain ⟨b, rest', rfl, hb⟩ := h
      exact ⟨b, rest', hb, Or.inl rfl⟩
    · obtain ⟨b, rest', hb, hline | hline⟩ := h
      · cases hline
        exact ⟨b, rest', rfl, hb⟩
      · cases hline
        exact absurd rfl (hrest _)
  · next hone =>
    refine iff_of_false Bool.false_ne_true fun h => ?_
    obtain ⟨b, rest, -, hline | hline⟩ := h
    · exact hone _ hline
    · exact hone _ hline

instance (line : Text) : Decidable (Closing line) :=
  decidable_of_iff _ closesSection_iff

instance (name line : Text) : Decidable (Heading name line) :=
  decidable_of_iff _ headingName?_eq_some_iff

/-- A heading ends the section before it. -/
theorem Heading.closing {name line : Text} (h : Heading name line) : Closing line :=
  closesSection_iff.1 (closesSection_of_headingName? (headingName?_eq_some_iff.2 h))

-- ============================================================ the place

/-- The place of a section: the lines of a document in four parts. -/
structure SectionAt (name : Text) (ls before : List Text) (heading : Text)
    (body behind : List Text) : Prop where
  lines_eq : ls = before ++ heading :: (body ++ behind)
  opens : Heading name heading
  not_before : ∀ l ∈ before, ¬ Heading name l
  not_within : ∀ l ∈ body, ¬ Closing l
  closes : ∀ l ∈ behind.head?, Closing l

/-- The place of a section is where two searches in a row stop. -/
theorem sectionAt_iff {name heading : Text} {ls before body behind : List Text} :
    SectionAt name ls before heading body behind
      ↔ (ls.takeWhile (headingName? · ≠ some name) = before
          ∧ ls.dropWhile (headingName? · ≠ some name) = heading :: (body ++ behind))
        ∧ (body ++ behind).takeWhile (! closesSection ·) = body
        ∧ (body ++ behind).dropWhile (! closesSection ·) = behind := by
  have hnames (l : Text) : decide (headingName? l ≠ some name) = ! decide (Heading name l) := by
    simp [headingName?_eq_some_iff]
  have hcloses (l : Text) : closesSection l = decide (Closing l) := by
    simp [← closesSection_iff]
  -- the heading is one cut of the lines and the end of the section another
  rw [cut_iff, cut_iff]
  simp only [hnames, hcloses, Bool.not_eq_true', Bool.not_eq_false', decide_eq_true_eq,
    decide_eq_false_iff_not, List.head?_cons, Option.mem_def, Option.some.injEq, forall_eq',
    true_and]
  refine ⟨fun h => ?_, fun h => ?_⟩
  · exact ⟨⟨h.lines_eq, h.not_before, h.opens⟩, h.not_within, h.closes⟩
  · obtain ⟨⟨hlines, hbefore, hopens⟩, hwithin, hcloses⟩ := h
    exact ⟨hlines, hopens, hbefore, hwithin, hcloses⟩

instance (name heading : Text) (ls before body behind : List Text) :
    Decidable (SectionAt name ls before heading body behind) :=
  decidable_of_iff _ sectionAt_iff.symm

-- =============================================================== lookup

/-- What is looked up is the body at the place of the section. -/
theorem body?_eq_some_iff {doc name text : Text} :
    body? doc name = some text
      ↔ ∃ before heading body behind,
          SectionAt name doc.lines before heading body behind
            ∧ text = Text.joinLines body := by
  unfold body?
  refine ⟨fun h => ?_, fun h => ?_⟩
  · split at h
    · cases h
    · next heading rest hrest =>
      have hat : SectionAt name doc.lines (doc.lines.takeWhile (headingName? · ≠ some name))
          heading (rest.takeWhile (! closesSection ·)) (rest.dropWhile (! closesSection ·)) := by
        rw [sectionAt_iff, List.takeWhile_append_dropWhile]
        exact ⟨⟨rfl, hrest⟩, rfl, rfl⟩
      exact ⟨_, _, _, _, hat, (Option.some.inj h).symm⟩
  · obtain ⟨before, heading, body, behind, hat, rfl⟩ := h
    obtain ⟨⟨-, hrest⟩, hbody, -⟩ := sectionAt_iff.1 hat
    rw [hrest]
    show some (Text.joinLines ((body ++ behind).takeWhile (! closesSection ·))) = _
    rw [hbody]

/-- Lines of which none is a heading of level 1 or 2 name no section. -/
theorem names_eq_nil_of_not_closing {doc : Text} (h : ∀ l ∈ doc.lines, ¬ Closing l) :
    names doc = [] := by
  refine List.filterMap_eq_nil_iff.2 fun l hl => Option.eq_none_iff_forall_ne_some.2 ?_
  intro name hname
  exact h l hl (headingName?_eq_some_iff.1 hname).closing

/-- Lines of which none is a heading of level 1 or 2 hold no section. -/
theorem body?_eq_none_of_not_closing {doc : Text} (h : ∀ l ∈ doc.lines, ¬ Closing l)
    (name : Text) : body? doc name = none := by
  rw [← Option.not_isSome_iff_eq_none, isSome_body?_iff, names_eq_nil_of_not_closing h]
  exact List.not_mem_nil

/-- The steps of a section are those of its body. -/
theorem steps_of_body? {t : FileTree} {path doc name body : Text}
    (hread : t.readText path = .ok doc) (hbody : body? doc name = some body) :
    Source.steps t path (some name) = .ok (Step.readAll body) := by
  unfold Source.steps Source.document
  rw [hread]
  simp only [hbody]

/-- A tree whose one file is a document, at the path `r`. -/
def treeOf (doc : Text) : FileTree := ⟨[], [([['r']], .file (Utf8.encode doc))]⟩

/-- In a tree of one document that document is read. -/
theorem readText_treeOf (doc : Text) : (treeOf doc).readText ['r'] = .ok doc := by
  have hbytes : (treeOf doc).readBytes ['r'] = .ok (Utf8.encode doc) := rfl
  rw [FileTree.readText, hbytes]
  exact congrArg Except.ok (Utf8.decode_encode doc)

/-- A section is looked up exactly: a text is found for a name if and
only if the document has a place for the section of that name, whose
body is that text. And it is looked up locally: a document with the same
body at the place of that section, whatever else it holds, gives the
same text for the name, and the same steps when it is read from a
file. -/
theorem section_exact_and_local (name : Text) :
    (∀ doc text, body? doc name = some text
        ↔ ∃ before heading body behind,
            SectionAt name doc.lines before heading body behind
              ∧ text = Text.joinLines body)
      ∧ ∀ doc doc' before before' heading heading' body behind behind',
          SectionAt name doc.lines before heading body behind →
          SectionAt name doc'.lines before' heading' body behind' →
          body? doc' name = body? doc name
            ∧ ∀ t t' path path', t.readText path = .ok doc → t'.readText path' = .ok doc' →
                Source.steps t' path' (some name) = Source.steps t path (some name) := by
  refine ⟨fun doc text => body?_eq_some_iff, ?_⟩
  intro doc doc' before before' heading heading' body behind behind' hat hat'
  -- both documents find the one body, whatever stands around it
  have hbody : body? doc name = some (Text.joinLines body) :=
    body?_eq_some_iff.2 ⟨before, heading, body, behind, hat, rfl⟩
  have hbody' : body? doc' name = some (Text.joinLines body) :=
    body?_eq_some_iff.2 ⟨before', heading', body, behind', hat', rfl⟩
  refine ⟨hbody'.trans hbody.symm, ?_⟩
  intro t t' path path' hread hread'
  rw [steps_of_body? hread hbody, steps_of_body? hread' hbody']

/-- Another document before it and behind it, with other breaks, and a
stage in its heading: the section and its steps stay what they are. -/
theorem body?_among_others :
    SectionAt "t".toList (Text.lines "## t\n1. Open\n\n# End".toList) [] "## t".toList
        ["1. Open".toList, []] ["# End".toList]
      ∧ SectionAt "t".toList
          (Text.lines "## tt\n1. Wait\n##  t (BETA)\r\n1. Open\r\n\n## u v\n## t".toList)
          ["## tt".toList, "1. Wait".toList] "##  t (BETA)".toList
          ["1. Open".toList, []] ["## u v".toList, "## t".toList]
      ∧ body? "## tt\n1. Wait\n##  t (BETA)\r\n1. Open\r\n\n## u v\n## t".toList "t".toList
          = body? "## t\n1. Open\n\n# End".toList "t".toList
      ∧ Source.steps
            (treeOf "## tt\n1. Wait\n##  t (BETA)\r\n1. Open\r\n\n## u v\n## t".toList) ['r']
            (some "t".toList)
          = Source.steps (treeOf "## t\n1. Open\n\n# End".toList) ['r'] (some "t".toList) := by
  refine ⟨?here, ?there,
    ((section_exact_and_local "t".toList).2 _ _ _ _ _ _ _ _ _ ?here ?there).imp_right
      fun hsteps => hsteps _ _ _ _ (readText_treeOf _) (readText_treeOf _)⟩
  case here => decide +kernel
  case there => decide +kernel

end Runsheet.Document
