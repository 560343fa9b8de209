/-
The exit code. It tells what became of a run: 2 stands for arguments
that cannot be used, 1 for a run that did not come to its end, and 0
for one that did, however the test ended.

# The order of the checks

Arguments come first, then help, then the list; only a run that asks
for neither needs the name of a sequence and a record of it
(`Unusable`). Only then the status is read, and the report is made
last. So a status that is none has opened no source, and arguments that
cannot be used are told from everything that may be wrong with files.

# The host

What is said here is said of every host. What its libraries make of the
environment and of colour is the session, and the program sees no more
of either. A host one of whose libraries does not load runs no program,
and one whose libraries talk puts their lines in front of the program's;
with both ruled out a run is that of its session (`runOn_eq_runIn`).

# The argument

Arguments are used in three ways or not at all (`unusable_or_usable`),
and for each a lemma says what the program does. What options ask for
is one request or none (`request_eq_ok_iff`). An exit tells whether
something holds if it is 0 where it does and 1 where it does not
(`Exit.Tells`); the list tells whether the document can be read, an
answer whether the request is met, and neither has a use for 2. A
request that fails changed no file (`Request.sameFiles_of_run_error`):
the write is the last thing in it that can fail.
-/
import Runsheet.Program
import Runsheet.Proofs.Delivery

namespace Runsheet.Program

-- ================================================ what arguments ask for

/-- Options that ask for neither help nor the list. -/
def AsksReport (o : Options) : Prop := o.help = false ∧ o.list = false

/-- Why arguments cannot be used: they are not understood, or they ask
for a report and do not say of what. -/
inductive Unusable (args : List Text) : UsageError → Prop where
  | unread {e : UsageError} (hparse : Options.parse args = .error e) : Unusable args e
  | unnamed {o : Options} (hparse : Options.parse args = .ok o) (hreport : AsksReport o)
      (hname : o.setting? .name = none) : Unusable args .missingName
  | unrecorded {o : Options} {name : Text} (hparse : Options.parse args = .ok o)
      (hreport : AsksReport o) (hname : o.setting? .name = some name)
      (hrecord : o.setting? .record = none) : Unusable args .missingRecord

/-- The request that options make on top of defaults. If they give a
status, it is one. -/
structure Asks (o : Options) (d : Defaults) (q : Request) : Prop where
  sequences : q.sequences = (o.setting? .sequences).getD d.sequences
  record : o.setting? .record = some q.record
  name : o.setting? .name = some q.name
  status : (o.setting? .status).map Status.parse = q.status.map .ok
  results : q.results = (o.setting? .results).or d.results
  out : q.out = o.setting? .out

/-- An exit that tells whether something holds. -/
def Exit.Tells (x : Exit) (p : Prop) : Prop := (p → x.code = 0) ∧ (¬ p → x.code = 1)

/-- An exit as it should be for some arguments, a session and a tree. The
session has its say in the defaults and in the colour of messages, and
nowhere else. -/
structure Classified (args : List Text) (s : Session) (t : FileTree) (x : Exit) : Prop where
  unusable : x.code = 2 ↔ ∃ e, Unusable args e
  message : ∀ e, Unusable args e → x.printed.stdout = []
    ∧ x.printed.stderr
      = Console.paint s.colour [.red] ("[error] ".toList ++ e.message)
        ++ '\n' :: '\n' :: (helpText ++ ['\n'])
  help : ∀ o, Options.parse args = .ok o → o.help = true →
    x.code = 0 ∧ x.printed = .outLine helpText
  list : ∀ o, Options.parse args = .ok o → o.help = false → o.list = true →
    x.Tells (∃ doc, t.readText (sequences o (.ofEnvironment s.env)) = .ok doc)
  report : ∀ o name record, Options.parse args = .ok o → AsksReport o →
    o.setting? .name = some name → o.setting? .record = some record →
    x.Tells (∃ q, Asks o (.ofEnvironment s.env) q ∧ ∃ c, (q.run t).result = .ok c)
  unchanged : x.code ≠ 0 → t.SameFiles x.tree

/-- Arguments are of no use, or ask for help, for the list, or for a
report on a record that they name. -/
theorem unusable_or_usable (args : List Text) :
    (∃ e, Unusable args e) ∨ ∃ o, Options.parse args = .ok o
      ∧ (o.help = true ∨ (o.help = false ∧ o.list = true)
        ∨ (AsksReport o ∧ ∃ name record, o.setting? .name = some name
            ∧ o.setting? .record = some record)) := by
  -- in the order of the checks: each branch is one way to be unusable, or goes on
  cases hparse : Options.parse args with
  | error e => exact .inl ⟨e, .unread hparse⟩
  | ok o =>
      cases hhelp : o.help with
      | true => exact .inr ⟨o, rfl, .inl hhelp⟩
      | false =>
          cases hlist : o.list with
          | true => exact .inr ⟨o, rfl, .inr (.inl ⟨hhelp, hlist⟩)⟩
          | false =>
              have hreport : AsksReport o := ⟨hhelp, hlist⟩
              cases hname : o.setting? .name with
              | none => exact .inl ⟨_, .unnamed hparse hreport hname⟩
              | some name =>
                  cases hrecord : o.setting? .record with
                  | none => exact .inl ⟨_, .unrecorded hparse hreport hname hrecord⟩
                  | some record =>
                      exact .inr ⟨o, rfl, .inr (.inr ⟨hreport, name, record, hname, hrecord⟩)⟩

-- ============================================================ requests

section

variable {o : Options} {d : Defaults} {q : Request}

/-- Options make the request that they ask for, and make one only if they ask
for one. -/
theorem request_eq_ok_iff : request o d = .ok q ↔ Asks o d q := by
  refine ⟨fun h => ?_, fun h => ?_⟩
  · unfold request at h
    -- a status that is given has to be a known word; without one the log decides
    split at h
    · cases h
    · cases h
    · next name record hname hrecord =>
      simp only at h
      split at h
      · next hstatus =>
        cases h
        exact ⟨rfl, hrecord, hname, by rw [hstatus]; rfl, rfl, rfl⟩
      · next word hstatus =>
        split at h
        · cases h
        · next status hword =>
          cases h
          refine ⟨rfl, hrecord, hname, ?_, rfl, rfl⟩
          rw [hstatus]
          exact congrArg some hword
  · cases q with
    | mk sequences record name status results out =>
        obtain ⟨rfl, hrecord, hname, hstatus, rfl, rfl⟩ := h
        unfold request
        rw [hname, hrecord]
        cases hword : o.setting? .status with
        | none =>
            rw [hword] at hstatus
            cases status with
            | none => rfl
            | some s => cases hstatus
        | some word =>
            rw [hword] at hstatus
            cases status with
            | none => cases hstatus
            | some s =>
                have hparse : Status.parse word = .ok s := Option.some.inj hstatus
                simp only [hparse]
                rfl

/-- Without a name the name is what is missing, record or not. -/
theorem request_of_unnamed (d : Defaults) (hname : o.setting? .name = none) :
    request o d = .error (.usage .missingName) := by
  unfold request
  rw [hname]

/-- With a name the record is. -/
theorem request_of_unrecorded {name : Text} (d : Defaults)
    (hname : o.setting? .name = some name) (hrecord : o.setting? .record = none) :
    request o d = .error (.usage .missingRecord) := by
  unfold request
  rw [hname, hrecord]

/-- What has a name and a record can only be refused for its status. -/
theorem exists_failure_of_request_eq_error {name record : Text} {e : Trouble}
    (hname : o.setting? .name = some name) (hrecord : o.setting? .record = some record)
    (h : request o d = .error e) : ∃ f, e = .failure f := by
  unfold request at h
  rw [hname, hrecord] at h
  simp only at h
  split at h
  · cases h
  · split at h
    · cases h
      exact ⟨_, rfl⟩
    · cases h

end

-- =============================================================== exits

namespace Exit

variable {x : Exit} {p p' : Prop}

/-- What holds is told by 0. -/
theorem Tells.of_code_eq_zero (hp : p) (h : x.code = 0) : x.Tells p :=
  ⟨fun _ => h, fun hnot => absurd hp hnot⟩

/-- What does not hold is told by 1. -/
theorem Tells.of_code_eq_one (hnot : ¬ p) (h : x.code = 1) : x.Tells p :=
  ⟨fun hp => absurd hp hnot, fun _ => h⟩

/-- What is told of one thing is told of what is the same. -/
theorem Tells.of_iff (h : x.Tells p) (hiff : p' ↔ p) : x.Tells p' :=
  ⟨fun hp => h.1 (hiff.1 hp), fun hnot => h.2 fun hp => hnot (hiff.2 hp)⟩

/-- What tells something does not speak of arguments. -/
theorem Tells.code_ne_two (h : x.Tells p) : x.code ≠ 2 := by
  by_cases hp : p
  · rw [h.1 hp]
    decide
  · rw [h.2 hp]
    decide

end Exit

/-- The list tells whether its document can be read. -/
theorem tells_list (colour : Bool) (path : Text) (t : FileTree) :
    (list colour path t).Tells (∃ doc, t.readText path = .ok doc) := by
  unfold list Source.document
  cases t.readText path with
  | ok doc => exact Exit.Tells.of_code_eq_zero ⟨doc, rfl⟩ rfl
  | error cause => exact Exit.Tells.of_code_eq_one (fun ⟨_, h⟩ => nomatch h) rfl

/-- The list changes nothing. -/
theorem tree_list (colour : Bool) (path : Text) (t : FileTree) :
    (list colour path t).tree = t := by
  unfold list
  split <;> rfl

theorem tree_answer (colour : Bool) (q : Request) (t : FileTree) :
    (answer colour q t).tree = (q.run t).tree := by
  unfold answer
  dsimp only
  split <;> rfl

/-- An answer tells whether its request is met. -/
theorem tells_answer (colour : Bool) (q : Request) (t : FileTree) :
    (answer colour q t).Tells (∃ c, (q.run t).result = .ok c) := by
  unfold answer
  dsimp only
  cases (q.run t).result with
  | ok c => exact Exit.Tells.of_code_eq_zero ⟨c, rfl⟩ rfl
  | error e => exact Exit.Tells.of_code_eq_one (fun ⟨_, h⟩ => nomatch h) rfl

/-- Where an answer is not 0, no file has changed. -/
theorem sameFiles_answer {colour : Bool} {q : Request} {t : FileTree}
    (h : (answer colour q t).code ≠ 0) : t.SameFiles (answer colour q t).tree := by
  rw [tree_answer]
  cases hrun : (q.run t).result with
  | ok c => exact absurd ((tells_answer colour q t).1 ⟨c, hrun⟩) h
  | error e => exact Request.sameFiles_of_run_error hrun

-- ================================================================ runs

section

variable {args : List Text} {o : Options}

/-- What cannot be used is refused with the message and the help text, before
any file is opened. -/
theorem runIn_of_unusable {e : UsageError} (h : Unusable args e) (s : Session)
    (t : FileTree) :
    runIn s args t = fail s.colour .empty t (.usage e) := by
  unfold runIn
  cases h with
  | unread hparse => rw [hparse]
  | unnamed hparse hreport hname =>
      simp only [hparse, hreport.1, hreport.2, request_of_unnamed _ hname]
      rfl
  | unrecorded hparse hreport hname hrecord =>
      simp only [hparse, hreport.1, hreport.2, request_of_unrecorded _ hname hrecord]
      rfl

/-- Help comes before the list and before the report. -/
theorem runIn_of_help (hparse : Options.parse args = .ok o) (hhelp : o.help = true)
    (s : Session) (t : FileTree) : runIn s args t = ⟨0, .outLine helpText, t⟩ := by
  unfold runIn
  simp only [hparse, hhelp]
  rfl

/-- The list comes before the report. -/
theorem runIn_of_list (hparse : Options.parse args = .ok o) (hhelp : o.help = false)
    (hlist : o.list = true) (s : Session) (t : FileTree) :
    runIn s args t = list s.colour
      (sequences o (.ofEnvironment s.env)) t := by
  unfold runIn
  simp only [hparse, hhelp, hlist]
  rfl

/-- A request is answered. -/
theorem runIn_of_request_eq_ok {q : Request} {s : Session} {t : FileTree}
    (hparse : Options.parse args = .ok o) (hreport : AsksReport o)
    (hq : request o (.ofEnvironment s.env) = .ok q) :
    runIn s args t = answer s.colour q t := by
  unfold runIn
  simp only [hparse, hreport.1, hreport.2, hq]
  rfl

/-- Where there is none, that is the trouble. -/
theorem runIn_of_request_eq_error {e : Trouble} {s : Session} {t : FileTree}
    (hparse : Options.parse args = .ok o) (hreport : AsksReport o)
    (hq : request o (.ofEnvironment s.env) = .error e) :
    runIn s args t = fail s.colour .empty t e := by
  unfold runIn
  simp only [hparse, hreport.1, hreport.2, hq]
  rfl

/-- A run that may ask for a report tells whether it asks for one and
gets it. -/
theorem tells_runIn_of_report {name record : Text} (hparse : Options.parse args = .ok o)
    (hreport : AsksReport o) (hname : o.setting? .name = some name)
    (hrecord : o.setting? .record = some record) (s : Session) (t : FileTree) :
    (runIn s args t).Tells
      (∃ q, Asks o (.ofEnvironment s.env) q ∧ ∃ c, (q.run t).result = .ok c) := by
  -- the settings ask for one request at most, the one that is made of them here
  cases hq : request o (.ofEnvironment s.env) with
  | error e =>
      obtain ⟨f, rfl⟩ := exists_failure_of_request_eq_error hname hrecord hq
      rw [runIn_of_request_eq_error hparse hreport hq]
      refine Exit.Tells.of_code_eq_one (fun h => ?_) rfl
      obtain ⟨q, hasks, -⟩ := h
      rw [request_eq_ok_iff.2 hasks] at hq
      cases hq
  | ok q =>
      rw [runIn_of_request_eq_ok hparse hreport hq]
      refine (tells_answer _ q t).of_iff ⟨fun h => ?_, fun h => ⟨q, request_eq_ok_iff.1 hq, h⟩⟩
      obtain ⟨q', hasks, hrun⟩ := h
      rw [request_eq_ok_iff.2 hasks] at hq
      cases hq
      exact hrun

/-- A report that comes to nothing leaves the files as they were. -/
theorem sameFiles_runIn_of_report {s : Session} {t : FileTree}
    (hparse : Options.parse args = .ok o) (hreport : AsksReport o)
    (h : (runIn s args t).code ≠ 0) : t.SameFiles (runIn s args t).tree := by
  cases hq : request o (.ofEnvironment s.env) with
  | error e =>
      rw [runIn_of_request_eq_error hparse hreport hq]
      cases e <;> exact FileTree.SameFiles.refl t
  | ok q =>
      rw [runIn_of_request_eq_ok hparse hreport hq] at h ⊢
      exact sameFiles_answer h

end

/-- Only arguments that cannot be used end in 2. -/
theorem exists_unusable_of_code_eq_two {args : List Text} {s : Session} {t : FileTree}
    (h : (runIn s args t).code = 2) : ∃ e, Unusable args e := by
  rcases unusable_or_usable args with hunusable | ⟨o, hparse, huse⟩
  · exact hunusable
  · rcases huse with hhelp | ⟨hhelp, hlist⟩ | ⟨hreport, name, record, hname, hrecord⟩
    · rw [runIn_of_help hparse hhelp] at h
      cases h
    · rw [runIn_of_list hparse hhelp hlist] at h
      exact absurd h (tells_list _ _ t).code_ne_two
    · exact absurd h (tells_runIn_of_report hparse hreport hname hrecord s t).code_ne_two

/-- Whatever goes wrong, no file has changed. -/
theorem sameFiles_runIn {args : List Text} {s : Session} {t : FileTree}
    (h : (runIn s args t).code ≠ 0) : t.SameFiles (runIn s args t).tree := by
  rcases unusable_or_usable args with ⟨e, hunusable⟩ | ⟨o, hparse, huse⟩
  · rw [runIn_of_unusable hunusable]
    exact FileTree.SameFiles.refl t
  · rcases huse with hhelp | ⟨hhelp, hlist⟩ | ⟨hreport, -⟩
    · rw [runIn_of_help hparse hhelp]
      exact FileTree.SameFiles.refl t
    · rw [runIn_of_list hparse hhelp hlist, tree_list]
      exact FileTree.SameFiles.refl t
    · exact sameFiles_runIn_of_report hparse hreport h

-- ============================================================== hosts

/-- A host that starts the program and says nothing of its own leaves no
trace but the session. -/
theorem runOn_eq_runIn {host : Host} {args : List Text} {env : Environment} {t : FileTree}
    {s : Session} (hstart : host.StartsIn args env t s) (hquiet : host.Quiet args env t) :
    runOn host args env t = runIn s args t := by
  have hsession : (host args env t).session? = some s := hstart
  have hprinted : (host args env t).printed = .empty := hquiet
  have hnothing : Printed.empty ++ (runIn s args t).printed = (runIn s args t).printed := rfl
  simp only [runOn, hsession, hprinted, hnothing]

/-- The exit code classifies a run, on every host and whatever the
arguments, the environment and the files are, if the host's libraries
load and say nothing of their own; and where it is not 0, no file has
changed. -/
theorem classified_run (host : Host) (args : List Text) (env : Environment) (t : FileTree)
    {s : Session} (hstart : host.StartsIn args env t s) (hquiet : host.Quiet args env t) :
    Classified args s t (runOn host args env t) := by
  rw [runOn_eq_runIn hstart hquiet]
  refine ⟨?unusable, ?message, ?help, ?list, ?report, sameFiles_runIn⟩
  case unusable =>
    refine ⟨exists_unusable_of_code_eq_two, fun h => ?_⟩
    obtain ⟨e, he⟩ := h
    rw [runIn_of_unusable he]
    rfl
  case message =>
    intro e he
    rw [runIn_of_unusable he]
    refine ⟨rfl, ?_⟩
    show [] ++ (_ ++ ['\n']) ++ ('\n' :: helpText ++ ['\n']) = _
    rw [List.nil_append, List.append_assoc]
    rfl
  case help =>
    intro o hparse hhelp
    rw [runIn_of_help hparse hhelp]
    exact ⟨rfl, rfl⟩
  case list =>
    intro o hparse hhelp hlist
    rw [runIn_of_list hparse hhelp hlist]
    exact tells_list _ _ t
  case report =>
    intro o name record hparse hreport hname hrecord
    exact tells_runIn_of_report hparse hreport hname hrecord s t

/-- On the plain host, where there is no file and no variable at all: a
name without a record ends in 2, the list in 1, and help in 0. -/
theorem classified_run_without_files :
    (∀ args ∈ [["-n".toList, ['t']], ["--list".toList], ["-h".toList]],
        Host.plain.StartsIn args [] ⟨[], []⟩ ⟨[], false⟩ ∧ Host.plain.Quiet args [] ⟨[], []⟩)
      ∧ (runOn .plain ["-n".toList, ['t']] [] ⟨[], []⟩).code = 2
      ∧ (runOn .plain ["--list".toList] [] ⟨[], []⟩).code = 1
      ∧ (runOn .plain ["-h".toList] [] ⟨[], []⟩).code = 0 := by
  have hname : Options.parse ["-n".toList, ['t']]
      = .ok ⟨false, false, [(.setting .name, ['t'])]⟩ := rfl
  have hlist : Options.parse ["--list".toList] = .ok ⟨false, true, []⟩ := rfl
  have hhelp : Options.parse ["-h".toList] = .ok ⟨true, false, []⟩ := rfl
  have hunusable : Unusable ["-n".toList, ['t']] .missingRecord :=
    .unrecorded hname ⟨rfl, rfl⟩ rfl rfl
  have hread : FileTree.readText ⟨[], []⟩ Defaults.defaultSequences
      = .error ⟨.missing, .opening Defaults.defaultSequences⟩ := rfl
  refine ⟨fun _ _ => ⟨rfl, rfl⟩, ?named, ?listed, ?helped⟩
  case named =>
    exact (classified_run .plain _ [] ⟨[], []⟩ (s := ⟨[], false⟩) rfl rfl).unusable.2
      ⟨_, hunusable⟩
  case listed =>
    have hclassified := classified_run .plain ["--list".toList] [] ⟨[], []⟩
      (s := ⟨[], false⟩) rfl rfl
    refine (hclassified.list _ hlist rfl rfl).2 fun h => ?_
    obtain ⟨doc, hdoc⟩ := h
    exact nomatch hread.symm.trans hdoc
  case helped =>
    exact ((classified_run .plain _ [] ⟨[], []⟩ (s := ⟨[], false⟩) rfl rfl).help _ hhelp rfl).1

end Runsheet.Program
