/-
Listing. What a document lists is what can be looked up in it, and its
sections are apart: each line is part of one of them at most, and what
is looked up holds no section of its own.

# The argument

That a name is listed exactly if it is found is one induction over the
lines (`isSome_body?_iff`). The rest is in the two clauses of
`SectionAt` on headings. A heading of any name ends a section
(`Heading.closing`), and no line of a body does that. So the heading of
another section cannot stand in a body, and of two sections one begins
behind the end of the other; two of different names cannot share a
heading either, because a line has one name (`Heading.name_eq`).

A body is put together again before it is looked at, and lines read
from it may have given up a return. That makes no heading: what ends a
section does so by how it opens, and a line without its return opens as
before, or is shorter than a heading (`Closing.append`).
-/
import Runsheet.Proofs.Document.Section
import Runsheet.Proofs.Step.Lines

namespace Runsheet.Document

variable {name name' : Text}

-- ============================================================= headings

/-- What stands behind a heading's opening does not matter. -/
theorem Closing.append {line : Text} (h : Closing line) (t : Text) :
    Closing (line ++ t) := by
  obtain ⟨b, rest, hb, rfl | rfl⟩ := h
  · exact ⟨b, rest ++ t, hb, Or.inl rfl⟩
  · exact ⟨b, rest ++ t, hb, Or.inr rfl⟩

/-- The empty line closes nothing. -/
theorem not_closing_nil : ¬ Closing [] := by
  intro h
  obtain ⟨b, rest, -, hline | hline⟩ := h
  · cases hline
  · cases hline

/-- A line has one name. -/
theorem Heading.name_eq {line : Text} (h : Heading name line) (h' : Heading name' line) :
    name = name' := by
  rw [← headingName?_eq_some_iff] at h h'
  exact Option.some.inj (h.symm.trans h')

-- =============================================================== bodies

/-- No line of a body ends a section, as it stands in the document or as
it is read again. -/
theorem not_closing_of_mem_lines_body {doc text : Text} (h : body? doc name = some text) :
    ∀ l ∈ text.lines, ¬ Closing l := by
  obtain ⟨before, heading, body, behind, hat, rfl⟩ := body?_eq_some_iff.1 h
  have hlf : ∀ l ∈ body, '\n' ∉ l := by
    intro l hl
    apply Text.not_mem_of_mem_lines (t := doc)
    rw [hat.lines_eq]
    exact List.mem_append_right _ (List.mem_cons_of_mem _ (List.mem_append_left _ hl))
  intro l hl hclosing
  rcases Text.exists_isPrefix_of_mem_lines_joinLines hlf hl with rfl | ⟨m, hm, t, rfl⟩
  · exact not_closing_nil hclosing
  · exact hat.not_within _ hm (hclosing.append t)

-- ====================================================== lines of sections

section

variable {ls before before' body body' behind behind' : List Text} {heading heading' : Text}

/-- The heading is the line behind those before the section. -/
theorem SectionAt.getElem?_heading (h : SectionAt name ls before heading body behind) :
    ls[before.length]? = some heading := by
  rw [h.lines_eq, List.getElem?_append_right (Nat.le_refl _), Nat.sub_self]
  rfl

/-- No line between the heading and the end of its section closes it. -/
theorem SectionAt.not_closing_of_getElem? (h : SectionAt name ls before heading body behind)
    {i : Nat} (hlo : before.length < i) (hhi : i ≤ before.length + body.length) {l : Text}
    (hl : ls[i]? = some l) : ¬ Closing l := by
  obtain ⟨j, rfl⟩ : ∃ j, i = before.length + (j + 1) := ⟨i - before.length - 1, by omega⟩
  rw [h.lines_eq, List.getElem?_append_right (by omega), Nat.add_sub_cancel_left,
    List.getElem?_cons_succ, List.getElem?_append_left (by omega)] at hl
  exact h.not_within l (List.mem_of_getElem? hl)

/-- A section that begins behind the heading of another begins behind its
end. -/
theorem SectionAt.end_lt (h : SectionAt name ls before heading body behind)
    (h' : SectionAt name' ls before' heading' body' behind')
    (hlt : before.length < before'.length) :
    before.length + body.length < before'.length := by
  rw [← Nat.not_le]
  intro hle
  exact h.not_closing_of_getElem? hlt hle h'.getElem?_heading h'.opens.closing

/-- Two sections with one heading are sections of one name. -/
theorem SectionAt.name_eq (h : SectionAt name ls before heading body behind)
    (h' : SectionAt name' ls before' heading' body' behind')
    (hlen : before.length = before'.length) : name = name' := by
  have hheading := h.getElem?_heading
  rw [hlen, h'.getElem?_heading] at hheading
  cases hheading
  exact h.opens.name_eq h'.opens

end

/-- Line `i` of a document is part of the section of a name: its heading,
or a line of its body. -/
def PartOf (doc name : Text) (i : Nat) : Prop :=
  ∃ before heading body behind, SectionAt name doc.lines before heading body behind
    ∧ before.length ≤ i ∧ i ≤ before.length + body.length

/-- A line is part of one section at most. -/
theorem PartOf.name_eq {doc : Text} {i : Nat} (h : PartOf doc name i)
    (h' : PartOf doc name' i) : name = name' := by
  obtain ⟨before, heading, body, behind, hat, hlo, hhi⟩ := h
  obtain ⟨before', heading', body', behind', hat', hlo', hhi'⟩ := h'
  rcases Nat.lt_trichotomy before.length before'.length with hlt | heq | hlt
  · have := hat.end_lt hat' hlt
    omega
  · exact hat.name_eq hat' heq
  · have := hat'.end_lt hat hlt
    omega

-- ====================================================== listed and found

/-- Listing and lookup agree: a section is found exactly for the names
that are listed. What is found lists no name and holds no section, and
no line of the document is part of the sections of two names. -/
theorem found_iff_listed_and_apart (doc : Text) :
    (∀ name, (body? doc name).isSome = true ↔ name ∈ names doc)
      ∧ (∀ name text, body? doc name = some text →
          names text = [] ∧ ∀ name', body? text name' = none)
      ∧ ∀ name name' i, PartOf doc name i → PartOf doc name' i → name = name' := by
  refine ⟨fun name => isSome_body?_iff, fun name text h => ?_, fun name name' i h h' => ?_⟩
  · have hclosing := not_closing_of_mem_lines_body h
    exact ⟨names_eq_nil_of_not_closing hclosing, body?_eq_none_of_not_closing hclosing⟩
  · exact h.name_eq h'

/-- Two number signs alone end no section. They stay in the body behind a
line that gives up its return when the body is read again. -/
theorem found_iff_listed_and_apart_returns :
    body? "## t (A)\r\n1. Open\r\r\n##\r\n## u\n".toList "t".toList
        = some "1. Open\r\n##".toList
      ∧ names "1. Open\r\n##".toList = []
      ∧ body? "1. Open\r\n##".toList "u".toList = none := by
  have h : body? "## t (A)\r\n1. Open\r\r\n##\r\n## u\n".toList "t".toList
      = some "1. Open\r\n##".toList := by decide +kernel
  obtain ⟨hnames, hbody⟩ := (found_iff_listed_and_apart _).2.1 _ _ h
  exact ⟨h, hnames, hbody "u".toList⟩

end Runsheet.Document
