/-
Loading. A request asks several things of its sources, one after the
other, and loading succeeds exactly if all of them are met. The first
that is not met decides the error.

# What is asked

The sequences document can be read; it has a section of the wanted
name; the record can be read. If no status is given, there is also a
result log to be named and read, each of its lines to be understood,
and a result of that name among them. `Request.demands` lists these in
order, `Met` says of each what it means, by itself and without regard
to the others, and `Refused` which error stands for it when it fails.

# The argument

`Checked` ties a result to a list of demands: it is there if all are
met, and it is the error of the first that is not. A demand that is met
may be put in front (`Checked.met`), and one that is not ends the list
wherever it stands (`Checked.unmet`). Loading is these two, once for
each file it opens and each thing it looks for there.
-/
import Runsheet.Case

namespace Runsheet

namespace Request

-- ============================================================== demands

/-- What a request may ask of its sources. -/
inductive Demand where
  | sequences
  | section
  | record
  | log
  | logText
  | logLines
  | result
  deriving DecidableEq, Repr

/-- What a request asks of a result log. -/
def logDemands (q : Request) : List Demand :=
  if q.status.isSome then [] else [.log, .logText, .logLines, .result]

/-- What a request asks, in order. -/
def demands (q : Request) : List Demand :=
  .sequences :: .section :: .record :: q.logDemands

/-- The result log of a request; an empty path names none. -/
def log? (q : Request) : Option Text := q.results.filter (! List.isEmpty ·)

namespace Demand

/-- What it means that a demand is met. -/
def Met (q : Request) (t : FileTree) : Demand → Prop
  | .sequences => ∃ doc, t.readText q.sequences = .ok doc
  | .section => ∃ doc, t.readText q.sequences = .ok doc ∧ q.name ∈ Document.names doc
  | .record => ∃ doc, t.readText q.record = .ok doc
  | .log => ∃ log, q.log? = some log
  | .logText => ∃ log text, q.log? = some log ∧ t.readText log = .ok text
  | .logLines => ∃ log text rs, q.log? = some log ∧ t.readText log = .ok text
      ∧ Result.readLog text = .ok rs
  | .result => ∃ log text rs, q.log? = some log ∧ t.readText log = .ok text
      ∧ Result.readLog text = .ok rs ∧ ∃ r ∈ rs, r.name = q.name

/-- The error that stands for a demand when it is not met. -/
def Refused (q : Request) (t : FileTree) : Demand → Failure → Prop
  | .sequences, f => ∃ cause, t.readText q.sequences = .error cause
      ∧ f = .document (.unreadable q.sequences cause)
  | .section, f => ∃ doc, t.readText q.sequences = .ok doc
      ∧ f = .document (.noSection q.name q.sequences (Document.names doc))
  | .record, f => ∃ cause, t.readText q.record = .error cause
      ∧ f = .document (.unreadable q.record cause)
  | .log, f => f = .document (.noStatus q.name)
  | .logText, f => ∃ log cause, q.log? = some log ∧ t.readText log = .error cause
      ∧ f = .document (.unreadable log cause)
  | .logLines, f => ∃ log text e, q.log? = some log ∧ t.readText log = .ok text
      ∧ Result.readLog text = .error e ∧ f = .result e
  | .result, f => ∃ log, q.log? = some log ∧ f = .document (.noResult q.name log)

/-- Only a log that cannot be understood is an error in a result. -/
theorem Refused.kind {q : Request} {t : FileTree} {d : Demand} {f : Failure}
    (h : d.Refused q t f) :
    if d = .logLines then ∃ e, f = .result e else ∃ e, f = .document e := by
  cases d with
  | sequences => obtain ⟨_, _, hf⟩ := h; exact ⟨_, hf⟩
  | «section» => obtain ⟨_, _, hf⟩ := h; exact ⟨_, hf⟩
  | record => obtain ⟨_, _, hf⟩ := h; exact ⟨_, hf⟩
  | log => exact ⟨_, h⟩
  | logText => obtain ⟨_, _, _, _, hf⟩ := h; exact ⟨_, hf⟩
  | logLines => obtain ⟨_, _, _, _, _, _, hf⟩ := h; exact ⟨_, hf⟩
  | result => obtain ⟨_, _, hf⟩ := h; exact ⟨_, hf⟩

end Demand

/-- A demand that is not met, while all before it are. -/
def FirstUnmet (q : Request) (t : FileTree) (ds : List Demand) (d : Demand) : Prop :=
  ∃ before behind, ds = before ++ d :: behind
    ∧ (∀ e ∈ before, e.Met q t) ∧ ¬ d.Met q t

-- ============================================================= checking

/-- What comes of checking demands one after the other: something if
all are met, and else the error of the first that is not. -/
def Checked {α : Type} (q : Request) (t : FileTree) (ds : List Demand) :
    Except Failure α → Prop
  | .ok _ => ∀ d ∈ ds, d.Met q t
  | .error f => ∃ d, FirstUnmet q t ds d ∧ d.Refused q t f

namespace Checked

variable {α : Type} {q : Request} {t : FileTree} {ds : List Demand} {d : Demand}

theorem nil (a : α) : Checked q t [] (.ok a : Except Failure α) := nofun

/-- A demand that is met leaves the answer to those behind it. -/
theorem met {r : Except Failure α} (hd : d.Met q t) (h : Checked q t ds r) :
    Checked q t (d :: ds) r := by
  cases r with
  | ok a =>
      intro e he
      rcases List.mem_cons.1 he with rfl | he
      · exact hd
      · exact h e he
  | error f =>
      obtain ⟨d', ⟨before, behind, rfl, hbefore, hd'⟩, hf⟩ := h
      refine ⟨d', ⟨d :: before, behind, rfl, fun e he => ?_, hd'⟩, hf⟩
      rcases List.mem_cons.1 he with rfl | he
      · exact hd
      · exact hbefore e he

/-- A demand that is not met is the answer. -/
theorem unmet {f : Failure} (hd : ¬ d.Met q t) (hf : d.Refused q t f) :
    Checked q t (d :: ds) (.error f : Except Failure α) :=
  ⟨d, ⟨[], ds, rfl, nofun, hd⟩, hf⟩

/-- An answer comes exactly if every demand is met. -/
theorem isOk_iff {r : Except Failure α} (h : Checked q t ds r) :
    (∃ a, r = .ok a) ↔ ∀ d ∈ ds, d.Met q t := by
  cases r with
  | ok a => exact iff_of_true ⟨a, rfl⟩ h
  | error f =>
      obtain ⟨d, ⟨before, behind, rfl, _, hd⟩, _⟩ := h
      refine iff_of_false nofun fun hall => hd (hall d ?_)
      exact List.mem_append_right before List.mem_cons_self

end Checked

-- ========================================================== the outcome

section

variable {q : Request}

/-- A status that is given is the outcome. -/
theorem outcome_of_status {s : Status} (h : q.status = some s) (t : FileTree) :
    q.outcome t = .ok ⟨s, q.name⟩ := by
  unfold outcome
  rw [h]

/-- Without a status there must be a log. -/
theorem outcome_of_no_log (hs : q.status = none) (hl : q.log? = none) (t : FileTree) :
    q.outcome t = .error (.document (.noStatus q.name)) := by
  unfold outcome
  rw [log?] at hl
  rw [hs, hl]

/-- Then the outcome is looked up there. -/
theorem outcome_of_log {log : Text} (hs : q.status = none) (hl : q.log? = some log)
    (t : FileTree) : q.outcome t = Source.outcome t log q.name := by
  unfold outcome
  rw [log?] at hl
  rw [hs, hl]

end

/-- A result log that is named is checked against the rest. -/
theorem log_checked {q : Request} {log : Text} (hl : q.log? = some log) (t : FileTree) :
    Checked q t [.logText, .logLines, .result] (Source.outcome t log q.name) := by
  -- one case for each demand on the log, in the order they are made
  unfold Source.outcome Source.document
  cases ht : t.readText log with
  | error cause => exact Checked.unmet (by simp [Demand.Met, hl, ht]) ⟨log, cause, hl, ht, rfl⟩
  | ok text =>
      refine Checked.met ⟨log, text, hl, ht⟩ ?_
      simp only
      cases hrs : Result.readLog text with
      | error e =>
          exact Checked.unmet (by simp [Demand.Met, hl, ht, hrs])
            ⟨log, text, e, hl, ht, hrs, rfl⟩
      | ok rs =>
          refine Checked.met ⟨log, text, rs, hl, ht, hrs⟩ ?_
          simp only
          cases hr : Result.latest? rs q.name with
          | none =>
              have hnone := Result.latest?_eq_none_iff.1 hr
              exact Checked.unmet (by simpa [Demand.Met, hl, ht, hrs] using hnone) ⟨log, hl, rfl⟩
          | some r =>
              obtain ⟨hname, before, behind, hsplit, _⟩ := Result.latest?_eq_some_iff.1 hr
              have hmem : r ∈ rs := by
                rw [hsplit]
                exact List.mem_append_right before List.mem_cons_self
              exact Checked.met ⟨log, text, rs, hl, ht, hrs, r, hmem, hname⟩ (Checked.nil _)

/-- The outcome is checked against what is asked of the log. -/
theorem outcome_checked (q : Request) (t : FileTree) :
    Checked q t q.logDemands (q.outcome t) := by
  unfold logDemands
  cases hs : q.status with
  | some s =>
      rw [outcome_of_status hs]
      exact Checked.nil _
  | none =>
      show Checked q t [.log, .logText, .logLines, .result] (q.outcome t)
      cases hl : q.log? with
      | none =>
          rw [outcome_of_no_log hs hl]
          exact Checked.unmet (by simp [Demand.Met, hl]) rfl
      | some log =>
          rw [outcome_of_log hs hl]
          exact Checked.met ⟨log, hl⟩ (log_checked hl t)

-- ============================================================== loading

/-- A case is loaded exactly if it holds what the three sources hold. -/
theorem load_eq_ok_iff {q : Request} {t : FileTree} {c : Case} :
    (q.load t).2 = .ok c
      ↔ Source.steps t q.sequences (some q.name) = .ok c.reference
        ∧ Source.record t q.record q.name = .ok c.record
        ∧ q.outcome t = .ok c.outcome := by
  unfold load
  cases hs : Source.steps t q.sequences (some q.name) with
  | error e => exact iff_of_false nofun fun h => nomatch h.1
  | ok reference =>
      cases hr : Source.record t q.record q.name with
      | error e => exact iff_of_false nofun fun h => nomatch h.2.1
      | ok record =>
          cases ho : q.outcome t with
          | error e => exact iff_of_false nofun fun h => nomatch h.2.2
          | ok o =>
              cases c with
              | mk reference' record' o' => simp

/-- Loading is checked against all that is asked. -/
theorem load_checked (q : Request) (t : FileTree) :
    Checked q t q.demands (q.load t).2 := by
  -- one case for each demand, in the order they are made; the last ones are those
  -- on the status
  unfold load demands Source.steps Source.record Source.document
  cases hdoc : t.readText q.sequences with
  | error cause => exact Checked.unmet (by simp [Demand.Met, hdoc]) ⟨cause, hdoc, rfl⟩
  | ok doc =>
      refine Checked.met ⟨doc, hdoc⟩ ?_
      simp only
      cases hbody : Document.body? doc q.name with
      | none =>
          have hname : q.name ∉ Document.names doc := by
            rw [← Document.isSome_body?_iff, hbody]
            exact Bool.false_ne_true
          exact Checked.unmet (by simp [Demand.Met, hdoc, hname]) ⟨doc, hdoc, rfl⟩
      | some body =>
          have hname : q.name ∈ Document.names doc := by
            rw [← Document.isSome_body?_iff, hbody]
            rfl
          refine Checked.met ⟨doc, hdoc, hname⟩ ?_
          simp only
          cases hrecord : t.readText q.record with
          | error cause =>
              exact Checked.unmet (by simp [Demand.Met, hrecord]) ⟨cause, hrecord, rfl⟩
          | ok record =>
              refine Checked.met ⟨record, hrecord⟩ ?_
              simp only
              have ho := outcome_checked q t
              cases hout : q.outcome t with
              | error f => rw [hout] at ho; exact ho
              | ok o => rw [hout] at ho; exact ho

end Request

end Runsheet
