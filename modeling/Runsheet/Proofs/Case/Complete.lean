/-
Complete requests. A run gets past loading exactly if all that its
request asks of the sources is met; otherwise it ends with the error of
the first demand that is not. What it then takes for the outcome is
decided by the request, or by the last result of that name in the log.

# The log is not looked at

A status that is given decides alone. Then the result log is neither
read nor even looked for: naming another changes nothing, and another
content of any file that is not one of the two other sources changes
nothing that is said and nothing that comes of the run. For loading
this is plain, since it reads only those two. Delivering reads nothing,
but it walks to the output and may make directories there, and all of
that is decided by the shape of the tree, which another content leaves
as it is (`sameShape_set`). The output itself may well be the file that
has changed.
-/
import Runsheet.Proofs.Delivery
import Runsheet.Proofs.FileTree.Shape

namespace Runsheet

-- ========================================================== the outcome

namespace Source

/-- An outcome that a log tells is that of a result in it. -/
theorem outcome_eq_ok {t : FileTree} {log name : Text} {o : Outcome}
    (h : outcome t log name = .ok o) :
    ∃ text rs r, t.readText log = .ok text ∧ Result.readLog text = .ok rs
      ∧ Result.latest? rs name = some r ∧ r.outcome = o := by
  unfold outcome document at h
  cases ht : t.readText log with
  | error cause => rw [ht] at h; cases h
  | ok text =>
      rw [ht] at h
      simp only at h
      cases hrs : Result.readLog text with
      | error e => rw [hrs] at h; cases h
      | ok rs =>
          rw [hrs] at h
          simp only at h
          cases hr : Result.latest? rs name with
          | none => rw [hr] at h; cases h
          | some r =>
              rw [hr] at h
              exact ⟨text, rs, r, rfl, hrs, hr, Except.ok.inj h⟩

end Source

namespace Request

/-- The status of the last result of the wanted name in the log. -/
def ToldByLog (q : Request) (t : FileTree) (s : Status) : Prop :=
  ∃ log text before r behind, q.log? = some log ∧ t.readText log = .ok text
    ∧ Result.readLog text = .ok (before ++ r :: behind)
    ∧ r.name = q.name ∧ (∀ r' ∈ behind, r'.name ≠ q.name) ∧ r.status = s

/-- Where the outcome of a request comes from. -/
def Decided (q : Request) (t : FileTree) (o : Outcome) : Prop :=
  o.name = q.name ∧
    match q.status with
    | some s => o.status = s
    | none => ToldByLog q t o.status

/-- What is answered for an outcome is what decides it: the status given, or
the last result in the log. -/
theorem outcome_decided {q : Request} {t : FileTree} {o : Outcome}
    (h : q.outcome t = .ok o) : Decided q t o := by
  unfold Decided
  cases hs : q.status with
  | some s =>
      rw [outcome_of_status hs] at h
      cases h
      exact ⟨rfl, rfl⟩
  | none =>
      cases hl : q.log? with
      | none =>
          rw [outcome_of_no_log hs hl] at h
          cases h
      | some log =>
          rw [outcome_of_log hs hl] at h
          obtain ⟨text, rs, r, ht, hrs, hr, rfl⟩ := Source.outcome_eq_ok h
          obtain ⟨hname, before, behind, rfl, hbehind⟩ := Result.latest?_eq_some_iff.1 hr
          exact ⟨hname, log, text, before, r, behind, hl, ht, hrs, hname, hbehind, rfl⟩

-- ====================================================== the log unread

/-- Two runs say the same, and the same comes of them. -/
def SaysTheSame (r r' : Run) : Prop := r'.notices = r.notices ∧ r'.result = r.result

/-- With a status given, loading reads two sources and no third. -/
theorem load_congr {q : Request} {s : Status} (hstatus : q.status = some s)
    {t t' : FileTree} (hs : t'.readText q.sequences = t.readText q.sequences)
    (hr : t'.readText q.record = t.readText q.record) (results : Option Text) :
    { q with results := results }.load t' = q.load t := by
  unfold load Source.steps Source.record Source.document
  rw [outcome_of_status hstatus t,
    outcome_of_status (q := { q with results := results }) hstatus t', hs, hr]

/-- What comes of a delivery is decided by the shape of the tree. -/
theorem deliver_congr (q : Request) (c : Case) {t t' : FileTree}
    (h : t.SameShape t') : (q.deliver c t').2 = (q.deliver c t).2 := by
  unfold deliver
  cases q.out.filter (! List.isEmpty ·) with
  | none => rfl
  | some path =>
      have hdirs := h.makeDirs false (Path.parent path)
      simp only
      cases hmake : t.makeDirs false (Path.parent path) with
      | mk u e =>
          cases hmake' : t'.makeDirs false (Path.parent path) with
          | mk u' e' =>
              rw [hmake, hmake'] at hdirs
              obtain ⟨he, hshape⟩ := hdirs
              cases he
              cases e with
              | some e => rfl
              | none =>
                  have hwrite := hshape.write path (Utf8.encode c.report)
                  simp only [FileTree.writeText]
                  -- How the writes end is all that is looked at.
                  generalize u.write path (Utf8.encode c.report) = w at hwrite
                  generalize u'.write path (Utf8.encode c.report) = w' at hwrite
                  cases hwrite with
                  | error e => rfl
                  | ok _ => rfl

/-- Runs that load the same and deliver alike say the same. -/
theorem run_congr {q q' : Request} {t t' : FileTree} (hload : q'.load t' = q.load t)
    (hdeliver : ∀ c, (q'.deliver c t').2 = (q.deliver c t).2) :
    SaysTheSame (q.run t) (q'.run t') := by
  cases hl : (q.load t).2 with
  | error e =>
      rw [run_eq_of_load_error hl, run_eq_of_load_error (by rw [hload]; exact hl), hload]
      exact ⟨rfl, rfl⟩
  | ok c =>
      have hl' : (q'.load t').2 = .ok c := by rw [hload]; exact hl
      -- the two runs load one case; only the trees they leave can differ
      have hsame := hdeliver c
      cases hd : q.deliver c t with
      | mk u r =>
          cases hd' : q'.deliver c t' with
          | mk u' r' =>
              rw [hd, hd'] at hsame
              cases hsame
              cases r with
              | error e =>
                  rw [run_eq_of_deliver_error hl hd, run_eq_of_deliver_error hl' hd', hload]
                  exact ⟨rfl, rfl⟩
              | ok n =>
                  rw [run_eq_of_deliver_ok hl hd, run_eq_of_deliver_ok hl' hd', hload]
                  exact ⟨rfl, rfl⟩

/-- A run is the same whatever log is named, and says the same whatever
a file holds that is not one of the two other sources. -/
def LogUnread (q : Request) (t : FileTree) : Prop :=
  ∀ results : Option Text, { q with results := results }.run t = q.run t
    ∧ ∀ p bytes bytes', t.get? p = some (.file bytes)
      → t.locate q.sequences ≠ .ok p → t.locate q.record ≠ .ok p
      → SaysTheSame (q.run t) ({ q with results := results }.run (t.set p (.file bytes')))

/-- Where a status is given, the log is not looked at. -/
theorem logUnread_of_status {q : Request} {s : Status} (hstatus : q.status = some s)
    (t : FileTree) : LogUnread q t := by
  intro results
  refine ⟨?_, fun p bytes bytes' hp hsequences hrecord => ?_⟩
  · unfold run
    rw [load_congr hstatus rfl rfl]
    rfl
  · have hshape := FileTree.sameShape_set hp bytes'
    have hne := FileTree.ne_nil_of_get?_eq_file hp
    -- the two documents are at other places, so writing to the log leaves them as
    -- they are
    have hread : ∀ path, t.locate path ≠ .ok p →
        (t.set p (.file bytes')).readText path = t.readText path := by
      intro path hpath
      refine hshape.readText fun p' hp' => ?_
      have hpp' : p' ≠ p := by
        intro heq
        rw [heq] at hp'
        exact hpath hp'
      rw [FileTree.get?_set hne, if_neg hpp']
    exact run_congr (load_congr hstatus (hread _ hsequences) (hread _ hrecord) results)
      fun c => deliver_congr q c hshape

-- ==================================================== complete requests

/-- A run gets past loading exactly if its request is complete, and else
ends with the error of the first demand that is not met. A status that
is given is the outcome's, and the result log is not looked at; with
none given it is that of the last result of the name. -/
theorem run_loads_iff_complete (q : Request) (t : FileTree) :
    ((∃ c, (q.load t).2 = .ok c) ↔ ∀ d ∈ q.demands, d.Met q t)
      ∧ (∀ f, (q.load t).2 = .error f → (q.run t).result = .error f
        ∧ ∃ d, FirstUnmet q t q.demands d ∧ d.Refused q t f
          ∧ if d = .logLines then ∃ e, f = .result e else ∃ e, f = .document e)
      ∧ (∀ c, (q.load t).2 = .ok c → Decided q t c.outcome
        ∧ ((q.run t).result = .ok c ∨ ∃ e, (q.run t).result = .error (.file e)))
      ∧ (q.status ≠ none → LogUnread q t) := by
  have hchecked := load_checked q t
  refine ⟨hchecked.isOk_iff, fun f hf => ?_, fun c hc => ⟨?_, ?_⟩, fun hstatus => ?_⟩
  · rw [hf] at hchecked
    obtain ⟨d, hfirst, hd⟩ := hchecked
    rw [run_eq_of_load_error hf]
    exact ⟨rfl, d, hfirst, hd, hd.kind⟩
  · exact outcome_decided (load_eq_ok_iff.1 hc).2.2
  · cases hd : q.deliver c t with
    | mk t' r =>
        cases r with
        | error e => rw [run_eq_of_deliver_error hc hd]; exact Or.inr ⟨e, rfl⟩
        | ok n => rw [run_eq_of_deliver_ok hc hd]; exact Or.inl rfl
  · obtain ⟨s, hs⟩ := Option.ne_none_iff_exists'.1 hstatus
    exact logUnread_of_status hs t

end Request

end Runsheet
