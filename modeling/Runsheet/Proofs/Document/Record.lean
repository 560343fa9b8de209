/-
The two forms of a record. A run may leave its bare steps behind, or
the same text as a section, under a heading with the sequence's name.
Reading treats the two differently. Bare steps are cut into lines once.
A section is found among the lines of the record, its body is put
together again, and that text is cut into lines a second time.

# What the second cut changes

To put lines together makes all their breaks alike. A line that ends in
a return of its own (the text has two returns before the line feed)
then stands before a break that takes the return with it. If such a
line belongs to a step, the step changes; it may even cease to be one,
if the return was the only blank behind its numeral. In front of the
first header and behind the last step there is nothing to change.

So the two forms are read alike exactly if no line of a step with a
break behind it ends in a return (`readAll_joinLines_lines_iff`). That
the heading names the section and closes nothing (`sectionAt_asSection`)
is all that the form of a heading has to do with it.
-/
import Runsheet.Proofs.Document.Section
import Runsheet.Proofs.Step.Lines

namespace Runsheet.Document

-- ============================================================ the forms

/-- The heading of a section, with its stage if it has one. -/
def headingLine (name : Text) : Option Text → Text
  | none => '#' :: '#' :: ' ' :: name
  | some stage => '#' :: '#' :: ' ' :: (name ++ ' ' :: '(' :: (stage ++ [')']))

/-- A text as the section of a name. -/
def asSection (name : Text) (stage? : Option Text) (body : Text) : Text :=
  headingLine name stage? ++ '\n' :: body

section

variable {name : Text} {stage? : Option Text}

/-- The line that is written for a name is a heading of that name. -/
theorem heading_headingLine (hname : Text.IsWord name) (hstage : ∀ s ∈ stage?, ')' ∉ s) :
    Heading name (headingLine name stage?) := by
  have hgap : Text.IsGap [' '] := ⟨List.cons_ne_nil _ _, List.all_eq_true.1 rfl⟩
  cases stage? with
  | none =>
      refine ⟨[' '], [], ?_, hgap, hname, Or.inl rfl⟩
      rw [List.append_nil]
      rfl
  | some stage =>
      refine ⟨[' '], ' ' :: '(' :: (stage ++ [')']), rfl, hgap, hname, Or.inr ?_⟩
      exact ⟨[' '], stage, [], rfl, hgap, hstage stage rfl, rfl⟩

/-- The line that is written for a name is one line. -/
theorem not_mem_headingLine (hname : Text.IsWord name) (hstage : ∀ s ∈ stage?, '\n' ∉ s) :
    '\n' ∉ headingLine name stage? := by
  have hword : '\n' ∉ name := fun h => absurd (hname.all_mem _ h) (by decide)
  cases stage? with
  | none => simp [headingLine, hword]
  | some stage => simp [headingLine, hword, hstage stage rfl]

/-- A heading line ends in its name or in the parenthesis, neither of
which is a return. -/
theorem withoutReturn_headingLine (hname : Text.IsWord name) :
    (headingLine name stage?).withoutReturn = headingLine name stage? := by
  apply Text.withoutReturn_of_getLast?_ne
  cases stage? with
  | none =>
      intro h
      have hlast : name.getLast? = some '\r' := by
        rw [← h]
        simp [headingLine, List.getLast?_cons, List.getLast?_eq_some_getLast hname.ne_nil]
      exact absurd (hname.all_mem _ (List.mem_of_getLast? hlast)) (by decide)
  | some stage => simp [headingLine, List.getLast?_cons]

/-- A section is its heading and the lines of its body. -/
theorem lines_asSection (hname : Text.IsWord name) (hstage : ∀ s ∈ stage?, '\n' ∉ s)
    (body : Text) :
    (asSection name stage? body).lines = headingLine name stage? :: body.lines := by
  rw [asSection, Text.lines_append_cons (not_mem_headingLine hname hstage),
    withoutReturn_headingLine hname]

-- ========================================================== read as such

/-- Without a heading in it, a text under a heading is all of the
section. -/
theorem sectionAt_asSection (hname : Text.IsWord name)
    (hstage : ∀ s ∈ stage?, ')' ∉ s ∧ '\n' ∉ s) {body : Text}
    (hbody : ∀ l ∈ body.lines, ¬ Closing l) :
    SectionAt name (asSection name stage? body).lines [] (headingLine name stage?)
      body.lines [] where
  lines_eq := by
    rw [List.append_nil]
    exact lines_asSection hname (fun s hs => (hstage s hs).2) body
  opens := heading_headingLine hname fun s hs => (hstage s hs).1
  not_before := nofun
  not_within := hbody
  closes := nofun

/-- A record that is a section is read by the lines of its body, joined
again. -/
theorem stepsOfRecord_asSection (hname : Text.IsWord name)
    (hstage : ∀ s ∈ stage?, ')' ∉ s ∧ '\n' ∉ s) {body : Text}
    (hbody : ∀ l ∈ body.lines, ¬ Closing l) :
    Source.stepsOfRecord (asSection name stage? body) name
      = Step.readAll (Text.joinLines body.lines) := by
  have hfound : body? (asSection name stage? body) name
      = some (Text.joinLines body.lines) :=
    body?_eq_some_iff.2 ⟨_, _, _, _, sectionAt_asSection hname hstage hbody, rfl⟩
  rw [Source.stepsOfRecord, hfound, Option.getD_some]

/-- A record without a section is read as it is. -/
theorem stepsOfRecord_bare {body : Text} (hbody : ∀ l ∈ body.lines, ¬ Closing l) :
    Source.stepsOfRecord body name = Step.readAll body := by
  rw [Source.stepsOfRecord, body?_eq_none_of_not_closing hbody, Option.getD_none]

/-- The record is that of the text in the file. -/
theorem record_of_readText {t : FileTree} {path doc : Text} (h : t.readText path = .ok doc) :
    Source.record t path name = .ok (Source.stepsOfRecord doc name) := by
  unfold Source.record Source.document
  rw [h]

-- =================================================== the forms compared

/-- A record that is a section and one that is its bare body, none of
whose lines is a heading of level 1 or 2, are read as the same steps
exactly if no line of a step with a break behind it ends in a return. -/
theorem record_eq_record_iff {body : Text} (hbody : ∀ l ∈ body.lines, ¬ Closing l)
    (hname : Text.IsWord name) (hstage : ∀ s ∈ stage?, ')' ∉ s ∧ '\n' ∉ s)
    {t t' : FileTree} {path path' : Text} (hbare : t.readText path = .ok body)
    (hsection : t'.readText path' = .ok (asSection name stage? body)) :
    Source.record t' path' name = Source.record t path name
      ↔ ∀ l ∈ Step.brokenLines body, l.getLast? ≠ some '\r' := by
  rw [record_of_readText hbare, record_of_readText hsection, Except.ok.injEq,
    stepsOfRecord_asSection hname hstage hbody, stepsOfRecord_bare hbody]
  exact Step.readAll_joinLines_lines_iff body

end

/-- Returns in front of the first header and behind the last step do no
harm. -/
theorem record_eq_record_returns_outside :
    (∀ l ∈ Text.lines "Intro\r\r\n1. Open\r\n2. Close\n\r\r\n".toList, ¬ Closing l)
      ∧ Text.IsWord "t".toList
      ∧ Source.record (treeOf (asSection "t".toList (some "A (B".toList)
            "Intro\r\r\n1. Open\r\n2. Close\n\r\r\n".toList)) ['r'] "t".toList
        = Source.record (treeOf "Intro\r\r\n1. Open\r\n2. Close\n\r\r\n".toList) ['r']
            "t".toList := by
  have hname : Text.IsWord "t".toList := ⟨by decide, List.all_eq_true.1 rfl⟩
  refine ⟨?body, hname, (record_eq_record_iff ?body hname ?stage (readText_treeOf _)
    (readText_treeOf _)).2 ?broken⟩
  case body => decide +kernel
  case stage => decide +kernel
  case broken => decide +kernel

/-- A return that ends a line of a step goes when its record is read as a
section, so the same text is read as other steps. -/
theorem record_ne_record_return_inside :
    (∀ l ∈ Text.lines "1. Open\r\r\n2. Close".toList, ¬ Closing l)
      ∧ Text.IsWord "t".toList
      ∧ Source.record (treeOf (asSection "t".toList none "1. Open\r\r\n2. Close".toList)) ['r']
            "t".toList
        ≠ Source.record (treeOf "1. Open\r\r\n2. Close".toList) ['r'] "t".toList := by
  refine ⟨by decide +kernel, ⟨by decide, List.all_eq_true.1 rfl⟩, ?_⟩
  rw [record_of_readText (readText_treeOf _), record_of_readText (readText_treeOf _), ne_eq,
    Except.ok.injEq]
  decide +kernel

end Runsheet.Document
