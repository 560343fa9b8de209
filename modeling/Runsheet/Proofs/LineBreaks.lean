/-
Line breaks. A line feed and a return with a line feed behind it break
a line alike. So a text whose line feeds stand alone may be given
returns in front of some of them, or all, and nothing that is read from
it changes: not its steps, not its sections, not its results or the
error that stands for them, and not what a run says and delivers.

# The argument

All readers here cut a text into lines first and look at nothing else,
so everything follows from one fact: the two texts have the same lines
(`Rebroken.lines_eq`). It is an induction over the characters that the
texts share. A character in front of a text goes to its first line
(`exists_lines_cons`), with one exception: a return in front of a line
feed is part of the break. The text that is given returns must have no
such place, or else the return that it has would stop being part of a
break as soon as another stands behind it.

A run reads files, up to three of them. Two trees of one shape whose
files hold such texts give every source the same lines
(`FileTree.Rebroken.readText`), so the same case is loaded; and its
delivery is decided by the case and the shape alone (`deliver_congr`).
-/
import Runsheet.Proofs.Case.Complete
import Runsheet.Proofs.Document.Section

namespace Runsheet

-- ================================================================ breaks

namespace Text

/-- A text, and the same text with a return put in front of some of its
line feeds. -/
inductive Returned : Text → Text → Prop
  | nil : Returned [] []
  | keep (c : Char) {t t' : Text} (h : Returned t t') : Returned (c :: t) (c :: t')
  | put {t t' : Text} (h : Returned t t') : Returned ('\n' :: t) ('\r' :: '\n' :: t')

/-- No return stands directly in front of a line feed. -/
def BareFeeds (t : Text) : Prop := ¬ ['\r', '\n'] <:+: t

instance (t : Text) : Decidable (BareFeeds t) :=
  inferInstanceAs (Decidable (¬ ['\r', '\n'] <:+: t))

/-- A text whose line feeds stand alone, and the same text with returns
in front of some of them. -/
structure Rebroken (t t' : Text) : Prop where
  bare : BareFeeds t
  returned : Returned t t'

theorem BareFeeds.of_cons {c : Char} {t : Text} (h : BareFeeds (c :: t)) : BareFeeds t :=
  fun hin => h (List.infix_cons hin)

/-- No line feed stands behind a return. -/
theorem BareFeeds.head?_ne {t : Text} (h : BareFeeds ('\r' :: t)) : t.head? ≠ some '\n' := by
  intro hhead
  obtain ⟨rest, rfl⟩ := List.head?_eq_some_iff.1 hhead
  exact h (List.prefix_append ['\r', '\n'] rest).isInfix

/-- Where the text with returns opens with a line feed, so does the text
without. -/
theorem Returned.head?_eq {t t' : Text} (h : Returned t t') (hhead : t'.head? = some '\n') :
    t.head? = some '\n' := by
  cases h with
  | nil => exact hhead
  | keep c h => exact hhead
  | put h => rfl

-- ================================================================= lines

/-- A line gives up a return at its end, not at its front. -/
theorem withoutReturn_cons {c : Char} {a : Text} (h : c = '\r' → a ≠ []) :
    withoutReturn (c :: a) = c :: withoutReturn a := by
  cases a with
  | nil =>
      have hc : c ≠ '\r' := fun hc => h hc rfl
      simp [withoutReturn, hc]
  | cons x a =>
      rw [withoutReturn, withoutReturn, List.getLast?_cons_cons, List.dropLast_cons_cons]
      split <;> rfl

theorem lines_feed_cons (t : Text) : lines ('\n' :: t) = [] :: lines t :=
  lines_append_cons List.not_mem_nil t

theorem lines_return_feed_cons (t : Text) : lines ('\r' :: '\n' :: t) = [] :: lines t :=
  lines_append_cons (a := ['\r']) (by decide) t

/-- A character in front is in front of the first line, unless it is part
of a break. -/
theorem exists_lines_cons {c : Char} {t : Text} (hc : c ≠ '\n')
    (hr : c = '\r' → t.head? ≠ some '\n') :
    ∃ first rest, lines t = first :: rest ∧ lines (c :: t) = (c :: first) :: rest := by
  by_cases h : '\n' ∈ t
  · obtain ⟨a, b, rfl, ha⟩ := List.eq_append_cons_of_mem h
    have hmem : '\n' ∉ c :: a := List.not_mem_cons_of_ne_of_not_mem hc.symm ha
    have hne : c = '\r' → a ≠ [] := by
      rintro hcr rfl
      exact hr hcr rfl
    refine ⟨_, _, lines_append_cons ha b, ?_⟩
    rw [← List.cons_append, lines_append_cons hmem, withoutReturn_cons hne]
  · have hmem : '\n' ∉ c :: t := List.not_mem_cons_of_ne_of_not_mem hc.symm h
    exact ⟨t, [], lines_of_not_mem h, lines_of_not_mem hmem⟩

/-- Returns in front of line feeds do not show in the lines. -/
theorem Rebroken.lines_eq {t t' : Text} (h : Rebroken t t') : t'.lines = t.lines := by
  obtain ⟨hbare, hreturned⟩ := h
  -- over the replacement: what goes in front of a line feed is lost with it
  induction hreturned with
  | nil => rfl
  | @keep c t t' hrest ih =>
      have hlines := ih hbare.of_cons
      by_cases hc : c = '\n'
      · subst hc
        rw [lines_feed_cons, lines_feed_cons, hlines]
      · have hr : c = '\r' → t.head? ≠ some '\n' := by
          rintro rfl
          exact hbare.head?_ne
        have hr' : c = '\r' → t'.head? ≠ some '\n' := fun hcr => mt hrest.head?_eq (hr hcr)
        obtain ⟨first, rest, ht, hct⟩ := exists_lines_cons hc hr
        obtain ⟨first', rest', ht', hct'⟩ := exists_lines_cons hc hr'
        rw [ht, ht'] at hlines
        cases hlines
        rw [hct, hct']
  | put hrest ih =>
      rw [lines_feed_cons, lines_return_feed_cons, ih hbare.of_cons]

end Text

-- =============================================================== readers

section

variable {doc doc' : Text} (h : doc'.lines = doc.lines)
include h

/-- Steps, names, sections and results are read from lines. -/
theorem Step.readAll_congr : Step.readAll doc' = Step.readAll doc := by
  unfold Step.readAll
  rw [h]

theorem Document.names_congr : Document.names doc' = Document.names doc := by
  unfold Document.names
  rw [h]

theorem Document.body?_congr (name : Text) :
    Document.body? doc' name = Document.body? doc name := by
  unfold Document.body?
  rw [h]

theorem Result.readLog_congr : Result.readLog doc' = Result.readLog doc := by
  unfold Result.readLog
  rw [h]

/-- The steps of a record are read from lines, with a section of its own or
without. -/
theorem Source.stepsOfRecord_congr (name : Text) :
    Source.stepsOfRecord doc' name = Source.stepsOfRecord doc name := by
  unfold Source.stepsOfRecord
  rw [Document.body?_congr h]
  cases Document.body? doc name with
  | none => exact Step.readAll_congr h
  | some body => rfl

end

-- ================================================================= files

namespace FileTree

/-- Two trees of one shape. Each file holds the same bytes in both, or a
text and that text with returns in front of some of its line feeds. -/
structure Rebroken (t t' : FileTree) : Prop extends SameShape t t' where
  files : ∀ p bytes bytes', t.get? p = some (.file bytes) → t'.get? p = some (.file bytes') →
    bytes' = bytes ∨ (Utf8.decode bytes).Rebroken (Utf8.decode bytes')

/-- A reading ends the same way twice: in one error, or in texts with the
same lines. -/
inductive SameLines {ε : Type} : Except ε Text → Except ε Text → Prop where
  | error (e : ε) : SameLines (.error e) (.error e)
  | ok {x x' : Text} (h : x'.lines = x.lines) : SameLines (.ok x) (.ok x')

/-- One file may be given returns. -/
theorem Rebroken.set {t : FileTree} {p : Place} {bytes bytes' : List UInt8}
    (hp : t.get? p = some (.file bytes))
    (h : (Utf8.decode bytes).Rebroken (Utf8.decode bytes')) :
    t.Rebroken (t.set p (.file bytes')) where
  toSameShape := sameShape_set hp bytes'
  files := by
    intro q b b' hq hq'
    rw [get?_set (ne_nil_of_get?_eq_file hp)] at hq'
    -- the written file was rebroken, every other file is the same
    split at hq'
    · next hqp =>
      cases hq'
      rw [hqp, hp] at hq
      cases hq
      exact Or.inr h
    · rw [hq] at hq'
      cases hq'
      exact Or.inl rfl

/-- Every file is read with the same lines, or not at all. -/
theorem Rebroken.readText {t t' : FileTree} (h : t.Rebroken t') (path : Text) :
    SameLines (t.readText path) (t'.readText path) := by
  unfold FileTree.readText FileTree.readBytes
  rw [h.locate]
  cases t.locate path with
  | error f => exact .error _
  | ok p =>
      simp only
      rcases h.get? p with ⟨hp, hp'⟩ | ⟨hp, hp'⟩ | ⟨bytes, bytes', hp, hp'⟩
      · rw [hp, hp']
        exact .error _
      · rw [hp, hp']
        exact .error _
      · rw [hp, hp']
        rcases h.files p bytes bytes' hp hp' with rfl | hbytes
        · exact .ok rfl
        · exact .ok hbytes.lines_eq

end FileTree

-- =============================================================== sources

namespace Source

variable {t t' : FileTree} (h : t.Rebroken t')
include h

/-- Every document is read with the same lines, or not at all. -/
theorem document_rebroken (path : Text) :
    FileTree.SameLines (document t path) (document t' path) := by
  unfold document
  have hread := h.readText path
  generalize t.readText path = r, t'.readText path = r' at hread
  cases hread with
  | error e => exact .error _
  | ok hlines => exact .ok hlines

/-- The steps of a document are the same. -/
theorem steps_rebroken (path : Text) (name? : Option Text) :
    steps t' path name? = steps t path name? := by
  unfold steps
  have hdoc := document_rebroken h path
  generalize document t path = r, document t' path = r' at hdoc
  cases hdoc with
  | error e => rfl
  | ok hlines =>
      cases name? with
      | none => exact congrArg Except.ok (Step.readAll_congr hlines)
      | some name =>
          simp only
          -- the names stand in the error for a section that is not found
          rw [Document.body?_congr hlines, Document.names_congr hlines]

/-- The steps of a record are the same. -/
theorem record_rebroken (path name : Text) : record t' path name = record t path name := by
  unfold record
  have hdoc := document_rebroken h path
  generalize document t path = r, document t' path = r' at hdoc
  cases hdoc with
  | error e => rfl
  | ok hlines => exact congrArg Except.ok (stepsOfRecord_congr hlines name)

theorem outcome_rebroken (log name : Text) : outcome t' log name = outcome t log name := by
  unfold outcome
  have hdoc := document_rebroken h log
  generalize document t log = r, document t' log = r' at hdoc
  cases hdoc with
  | error e => rfl
  | ok hlines =>
      simp only
      rw [Result.readLog_congr hlines]

end Source

-- ================================================================== runs

namespace Request

variable {t t' : FileTree} (h : t.Rebroken t')
include h

theorem outcome_rebroken (q : Request) : q.outcome t' = q.outcome t := by
  unfold outcome
  cases q.status with
  | some s => rfl
  | none =>
      cases q.results.filter (! List.isEmpty ·) with
      | none => rfl
      | some log => exact Source.outcome_rebroken h log q.name

theorem load_rebroken (q : Request) : q.load t' = q.load t := by
  unfold load
  rw [Source.steps_rebroken h, Source.record_rebroken h, q.outcome_rebroken h]

/-- What a run says is what it loads and how it delivers, and both are the
same. -/
theorem saysTheSame_rebroken (q : Request) : SaysTheSame (q.run t) (q.run t') :=
  run_congr (q.load_rebroken h) fun c => deliver_congr q c h.toSameShape

end Request

-- ========================================================= the main result

/-- Line breaks never matter. A text whose line feeds stand alone is read
the same with returns in front of any of them: the same steps, names and
bodies, and the same results or the same error. And a run says the same,
comes to the same and delivers the same report when files are changed in
that way, whichever of its sources they are. -/
theorem returns_never_matter :
    (∀ t t' : Text, t.Rebroken t' →
        Step.readAll t' = Step.readAll t ∧ Document.names t' = Document.names t
          ∧ (∀ name, Document.body? t' name = Document.body? t name)
          ∧ Result.readLog t' = Result.readLog t)
      ∧ ∀ (q : Request) (u u' : FileTree), u.Rebroken u' →
          Request.SaysTheSame (q.run u) (q.run u')
            ∧ ∀ c path, (q.run u).result = .ok c → q.output? = some path →
                Source.document (q.run u).tree path = .ok c.report
                  ∧ Source.document (q.run u').tree path = .ok c.report := by
  refine ⟨fun t t' h => ?_, fun q u u' h => ?_⟩
  · have hlines := h.lines_eq
    exact ⟨Step.readAll_congr hlines, Document.names_congr hlines,
      Document.body?_congr hlines, Result.readLog_congr hlines⟩
  · have hsame := q.saysTheSame_rebroken h
    refine ⟨hsame, fun c path hrun hout => ?_⟩
    have hrun' : (q.run u').result = .ok c := hsame.2.trans hrun
    exact ⟨Request.document_output_of_run_ok hrun hout,
      Request.document_output_of_run_ok hrun' hout⟩

/-- A return behind the heading of a section, in a file that is the
sequences document and the record at once. -/
theorem returns_never_matter_heading :
    Text.Rebroken ['#', '#', ' ', 't', '\n', '1', '.', ' ', 'A']
        ['#', '#', ' ', 't', '\r', '\n', '1', '.', ' ', 'A']
      ∧ Document.body? ['#', '#', ' ', 't', '\r', '\n', '1', '.', ' ', 'A'] ['t']
          = Document.body? ['#', '#', ' ', 't', '\n', '1', '.', ' ', 'A'] ['t']
      ∧ Request.SaysTheSame
          (Request.run ⟨['r'], ['r'], ['t'], some .fail, none, none⟩
            (Document.treeOf ['#', '#', ' ', 't', '\n', '1', '.', ' ', 'A']))
          (Request.run ⟨['r'], ['r'], ['t'], some .fail, none, none⟩
            ((Document.treeOf ['#', '#', ' ', 't', '\n', '1', '.', ' ', 'A']).set [['r']]
              (.file (Utf8.encode ['#', '#', ' ', 't', '\r', '\n', '1', '.', ' ', 'A'])))) := by
  have h : Text.Rebroken ['#', '#', ' ', 't', '\n', '1', '.', ' ', 'A']
      ['#', '#', ' ', 't', '\r', '\n', '1', '.', ' ', 'A'] :=
    ⟨by decide, .keep _ (.keep _ (.keep _ (.keep _ (.put
      (.keep _ (.keep _ (.keep _ (.keep _ .nil))))))))⟩
  refine ⟨h, (returns_never_matter.1 _ _ h).2.2.1 _,
    (returns_never_matter.2 _ _ _ (FileTree.Rebroken.set rfl ?_)).1⟩
  rw [Utf8.decode_encode, Utf8.decode_encode]
  exact h

end Runsheet
