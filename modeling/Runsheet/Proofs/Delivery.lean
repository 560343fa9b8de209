/-
All or nothing. A run that fails has delivered nothing: it has said
nothing that hands over a report or claims a success, and it has
changed no file. A run that succeeds has delivered its report once, in
the file that was asked for or on the console.

# The argument

Loading looks at the files and does not touch them, and all it says is
what it found. What can fail behind it is making the output's
directory and opening the output, and both come before the one thing
that counts: making directories only adds directories
(`grown_makeDirs`), and a write either fails and changes nothing or
puts the whole report at the place that the path names
(`sameFilesBut_write`). So there are two ways through `deliver`, and each
is told apart (`deliver_of_no_output`, `deliver_ok_of_output`).

The case is loaded before anything changes. That the output may be one
of the sources makes no difference to it.
-/
import Runsheet.Delivery
import Runsheet.Proofs.Case.Load
import Runsheet.Proofs.FileTree.Frame

namespace Runsheet

-- ========================================================= what is said

namespace Notice

/-- Whether a notice hands over a text on the console. -/
def isWrite : Notice → Bool
  | .write _ => true
  | _ => false

/-- Whether a notice tells a success. -/
def isSuccess : Notice → Bool
  | .success _ => true
  | _ => false

/-- Notices that hand nothing over and tell no success. -/
def Quiet (ns : List Notice) : Prop :=
  ∀ n ∈ ns, n.isWrite = false ∧ n.isSuccess = false

theorem Quiet.nil : Quiet [] := nofun

theorem Quiet.cons {n : Notice} {ns : List Notice}
    (hn : n.isWrite = false ∧ n.isSuccess = false) (h : Quiet ns) : Quiet (n :: ns) := by
  intro m hm
  rcases List.mem_cons.1 hm with rfl | hm
  · exact hn
  · exact h m hm

/-- Quiet notices behind quiet ones are quiet. -/
theorem Quiet.append {ns ns' : List Notice} (h : Quiet ns) (h' : Quiet ns') :
    Quiet (ns ++ ns') := by
  intro n hn
  rcases List.mem_append.1 hn with hn | hn
  · exact h n hn
  · exact h' n hn

/-- Quiet notices hand nothing over. -/
theorem Quiet.filter_isWrite {ns : List Notice} (h : Quiet ns) :
    ns.filter isWrite = [] := by
  refine List.filter_eq_nil_iff.2 fun n hn => ?_
  rw [(h n hn).1]
  exact Bool.false_ne_true

end Notice

theorem Case.isWrite_summary (c : Case) : c.summary.isWrite = false := by
  unfold Case.summary
  split <;> rfl

namespace Request

open Notice (Quiet)

/-- What is said of the reference hands nothing over and reports no success.
-/
theorem quiet_referenceNotices (name : Text) (reference : List Step) :
    Quiet (referenceNotices name reference) := by
  refine Quiet.cons ⟨rfl, rfl⟩ ?_
  split
  · exact Quiet.cons ⟨rfl, rfl⟩ Quiet.nil
  · exact Quiet.nil

/-- What is said of the record hands nothing over and reports no success. -/
theorem quiet_recordNotices (reference record : List Step) :
    Quiet (recordNotices reference record) := by
  refine Quiet.cons ⟨rfl, rfl⟩ ?_
  split
  · exact Quiet.cons ⟨rfl, rfl⟩ Quiet.nil
  · exact Quiet.nil

/-- Loading is quiet, whether it ends well or not. -/
theorem quiet_load (q : Request) (t : FileTree) : Quiet (q.load t).1 := by
  have hquiet := fun reference record =>
    (quiet_referenceNotices q.name reference).append (quiet_recordNotices reference record)
  unfold load
  split
  · exact Quiet.nil
  · split
    · exact quiet_referenceNotices _ _
    · split
      · exact hquiet _ _
      · exact hquiet _ _

-- ============================================================ delivering

/-- The file that is to hold the report; an empty path names none. -/
def output? (q : Request) : Option Text := q.out.filter (! List.isEmpty ·)

/-- What delivers nothing changes no file. -/
theorem sameFiles_of_deliver_error {q : Request} {c : Case} {t t' : FileTree}
    {e : FileError} (h : q.deliver c t = (t', .error e)) : t.SameFiles t' := by
  unfold deliver at h
  split at h
  · cases h
  · next path _ =>
    -- directories made on the way stay, and they leave every file as it was
    have hgrown := FileTree.grown_makeDirs t false (Path.parent path)
    split at h
    · next hmake =>
      cases h
      rw [hmake] at hgrown
      exact hgrown.sameFiles
    · next hmake =>
      rw [hmake] at hgrown
      split at h
      · cases h
        exact hgrown.sameFiles
      · cases h

/-- Without an output the report is handed over and no file changes. -/
theorem deliver_of_no_output {q : Request} (c : Case) (t : FileTree)
    (hout : q.output? = none) : q.deliver c t = (t, .ok (.write c.report)) := by
  unfold deliver
  rw [output?] at hout
  rw [hout]

/-- With an output, what is said after the delivery is a success; the
file holds the report, and no other has changed. -/
theorem deliver_ok_of_output {q : Request} {c : Case} {t t' : FileTree} {n : Notice}
    {path : Text} (hout : q.output? = some path) (h : q.deliver c t = (t', .ok n)) :
    n.isWrite = false
      ∧ Source.document t' path = .ok c.report
      ∧ ∃ place, t'.locate path = .ok place ∧ t.SameFilesBut place t' := by
  unfold deliver at h
  rw [output?] at hout
  rw [hout] at h
  have hgrown := FileTree.grown_makeDirs t false (Path.parent path)
  simp only at h
  split at h
  · cases h
  · next hmake =>
    rw [hmake] at hgrown
    split at h
    · cases h
    · next hwrite =>
      cases h
      obtain ⟨place, hplace, hrest⟩ := FileTree.sameFilesBut_write hwrite
      refine ⟨rfl, ?_, place, hplace, hgrown.sameFiles.trans_but hrest⟩
      rw [Source.document, FileTree.readText_writeText hwrite]

-- =============================================================== running

/-- What is not loaded is not delivered. -/
theorem run_eq_of_load_error {q : Request} {t : FileTree} {e : Failure}
    (h : (q.load t).2 = .error e) : q.run t = ⟨(q.load t).1, .error e, t⟩ := by
  have hload : q.load t = ((q.load t).1, .error e) := Prod.ext rfl h
  unfold run
  rw [hload]

/-- A failed delivery is the failure of the run. -/
theorem run_eq_of_deliver_error {q : Request} {t t' : FileTree} {c : Case} {e : FileError}
    (h : (q.load t).2 = .ok c) (hd : q.deliver c t = (t', .error e)) :
    q.run t = ⟨(q.load t).1, .error (.file e), t'⟩ := by
  have hload : q.load t = ((q.load t).1, .ok c) := Prod.ext rfl h
  unfold run
  rw [hload]
  simp only [hd]

/-- Behind a delivery nothing can fail. -/
theorem run_eq_of_deliver_ok {q : Request} {t t' : FileTree} {c : Case} {n : Notice}
    (h : (q.load t).2 = .ok c) (hd : q.deliver c t = (t', .ok n)) :
    q.run t = ⟨(q.load t).1 ++ [n, c.summary], .ok c, t'⟩ := by
  have hload : q.load t = ((q.load t).1, .ok c) := Prod.ext rfl h
  unfold run
  rw [hload]
  simp only [hd]

/-- There are three ways through a run: nothing is loaded, what is loaded
is not delivered, or the run comes to its end. -/
theorem run_cases (q : Request) (t : FileTree) :
    (∃ e, (q.load t).2 = .error e ∧ q.run t = ⟨(q.load t).1, .error e, t⟩)
      ∨ (∃ c t' e, (q.load t).2 = .ok c ∧ q.deliver c t = (t', .error e)
          ∧ q.run t = ⟨(q.load t).1, .error (.file e), t'⟩)
      ∨ ∃ c t' n, (q.load t).2 = .ok c ∧ q.deliver c t = (t', .ok n)
          ∧ q.run t = ⟨(q.load t).1 ++ [n, c.summary], .ok c, t'⟩ := by
  cases hload : (q.load t).2 with
  | error e => exact Or.inl ⟨e, rfl, run_eq_of_load_error hload⟩
  | ok c =>
      cases hdeliver : q.deliver c t with
      | mk t' r =>
          cases r with
          | error e =>
              exact Or.inr (Or.inl ⟨c, t', e, rfl, hdeliver,
                run_eq_of_deliver_error hload hdeliver⟩)
          | ok n =>
              exact Or.inr (Or.inr ⟨c, t', n, rfl, hdeliver,
                run_eq_of_deliver_ok hload hdeliver⟩)

/-- A run that came to its end has loaded its case and delivered it. -/
theorem exists_deliver_of_run_ok {q : Request} {t : FileTree} {c : Case}
    (hrun : (q.run t).result = .ok c) :
    (q.load t).2 = .ok c ∧ ∃ t' n, q.deliver c t = (t', .ok n) := by
  rcases q.run_cases t with ⟨e, -, hr⟩ | ⟨c', t', e, -, -, hr⟩ | ⟨c', t', n, hload, hdeliver, hr⟩
  · rw [hr] at hrun
    cases hrun
  · rw [hr] at hrun
    cases hrun
  · rw [hr] at hrun
    cases hrun
    exact ⟨hload, t', n, hdeliver⟩

/-- Behind a run that came to its end the output holds its report. -/
theorem document_output_of_run_ok {q : Request} {t : FileTree} {c : Case} {path : Text}
    (hrun : (q.run t).result = .ok c) (hout : q.output? = some path) :
    Source.document (q.run t).tree path = .ok c.report := by
  obtain ⟨hload, t', n, hdeliver⟩ := exists_deliver_of_run_ok hrun
  rw [run_eq_of_deliver_ok hload hdeliver]
  exact (deliver_ok_of_output hout hdeliver).2.1

/-- A run that did not come to its end changed no file. -/
theorem sameFiles_of_run_error {q : Request} {t : FileTree} {e : Failure}
    (hrun : (q.run t).result = .error e) : t.SameFiles (q.run t).tree := by
  rcases q.run_cases t with ⟨e', -, hr⟩ | ⟨c, t', e', -, hdeliver, hr⟩ | ⟨c, t', n, -, -, hr⟩
  · rw [hr]
    exact FileTree.SameFiles.refl t
  · rw [hr]
    exact sameFiles_of_deliver_error hdeliver
  · rw [hr] at hrun
    cases hrun

end Request

-- ======================================================== all or nothing

/-- What a run leaves when it has delivered nothing. -/
structure Undelivered (t : FileTree) (r : Run) : Prop where
  quiet : Notice.Quiet r.notices
  files : t.SameFiles r.tree

/-- What a run leaves when it has delivered a report once: in the output
that was named, or else on the console. -/
def DeliveredOnce (q : Request) (t : FileTree) (text : Text) (r : Run) : Prop :=
  match q.output? with
  | none => r.notices.filter Notice.isWrite = [.write text] ∧ r.tree = t
  | some path => r.notices.filter Notice.isWrite = []
      ∧ Source.document r.tree path = .ok text
      ∧ ∃ place, r.tree.locate path = .ok place ∧ t.SameFilesBut place r.tree

/-- A case has its outcome, its partition and its report from what the
sources of a request hold in a tree. -/
def Case.Loaded (q : Request) (t : FileTree) (c : Case) : Prop :=
  ∃ reference record o, Source.steps t q.sequences (some q.name) = .ok reference
    ∧ Source.record t q.record q.name = .ok record
    ∧ q.outcome t = .ok o
    ∧ c.outcome = o
    ∧ c.partition = Partition.ofRun reference record o.status
    ∧ c.report = Runsheet.report reference record o.status

namespace Request

/-- A case that was loaded is put together from the files that there were. -/
theorem loaded_of_load {q : Request} {t : FileTree} {c : Case}
    (h : (q.load t).2 = .ok c) : c.Loaded q t := by
  obtain ⟨hs, hr, ho⟩ := load_eq_ok_iff.1 h
  exact ⟨c.reference, c.record, c.outcome, hs, hr, ho, rfl, rfl, rfl⟩

/-- A delivery that succeeds happens once, and the summary behind it is no
second one. -/
theorem deliveredOnce_of_deliver {q : Request} {c : Case} {t t' : FileTree} {n : Notice}
    {said : List Notice} (hsaid : Notice.Quiet said) (h : q.deliver c t = (t', .ok n)) :
    DeliveredOnce q t c.report ⟨said ++ [n, c.summary], .ok c, t'⟩ := by
  -- of all that is said the delivery alone can be a write
  have hwrites : (said ++ [n, c.summary]).filter Notice.isWrite
      = if n.isWrite then [n] else [] := by
    rw [List.filter_append, hsaid.filter_isWrite, List.nil_append, List.filter_cons,
      List.filter_cons_of_neg (by rw [c.isWrite_summary]; exact Bool.false_ne_true),
      List.filter_nil]
  unfold DeliveredOnce
  cases hout : q.output? with
  | none =>
      rw [deliver_of_no_output c t hout] at h
      cases h
      exact ⟨hwrites, rfl⟩
  | some path =>
      obtain ⟨hn, htext, hplace⟩ := deliver_ok_of_output hout h
      rw [hn] at hwrites
      exact ⟨hwrites, htext, hplace⟩

/-- A run delivers all or nothing, for whatever files it is given and
whatever is asked of it. -/
theorem run_delivers_all_or_nothing (q : Request) (t : FileTree) :
    match (q.run t).result with
    | .error _ => Undelivered t (q.run t)
    | .ok c => c.Loaded q t ∧ DeliveredOnce q t c.report (q.run t) := by
  have hquiet := quiet_load q t
  cases hload : (q.load t).2 with
  | error e =>
      rw [run_eq_of_load_error hload]
      exact ⟨hquiet, (FileTree.Grown.refl t).sameFiles⟩
  | ok c =>
      cases hdeliver : q.deliver c t with
      | mk t' delivered =>
          cases delivered with
          | error e =>
              rw [run_eq_of_deliver_error hload hdeliver]
              exact ⟨hquiet, sameFiles_of_deliver_error hdeliver⟩
          | ok n =>
              rw [run_eq_of_deliver_ok hload hdeliver]
              exact ⟨loaded_of_load hload, deliveredOnce_of_deliver hquiet hdeliver⟩

end Request

end Runsheet
