/-
Growing logs. A sequencer appends to its result log, run after run.
Reading such a log is reading its parts: it is understood exactly if
both are, it holds the results of the one and then of the other, and
the last entry of a test counts, from whichever part it is. So lines
that say nothing of a test may come and go, wherever in the log they
stand, and the result found for that test stays.

# The argument

Line by line, reading distributes over an append by its three equations
(`ofLines_append_eq_ok_iff`). What is left is the break between the
parts: it takes a return from the last line before it, if there is one
(`exists_lines_append_break`). A result line is read without the blanks
around it, and a return is blank, so nothing depends on that return but
the text of an error (`ofLine_withoutReturn_eq_ok_iff`). This is why the
laws below say when a log is understood, and not which error it gives
when it is not.

`Inserted` puts one text of lines into a log: in front, behind, or at a
break inside. One such step keeps what is found (`Inserted.finds_iff`),
and so does any number of them.
-/
import Mathlib.Logic.Relation
import Runsheet.Proofs.Text.Ends
import Runsheet.Result.Log

namespace Runsheet

namespace Result

-- =================================================================== lines

/-- A carriage return at its end changes nothing in what a line comes to. -/
theorem ofLine_withoutReturn_eq_ok_iff {l : Text} {r? : Option Result} :
    ofLine l.withoutReturn = .ok r? ↔ ofLine l = .ok r? := by
  unfold ofLine
  rw [Text.trim_withoutReturn]
  split
  · split
    · exact Iff.rfl
    · -- the two errors differ, but neither line is understood
      exact iff_of_false nofun nofun
  · exact Iff.rfl

/-- Lines are read one by one, and every one has to be read. -/
theorem ofLines_cons_eq_ok_iff {l : Text} {ls : List Text} {rs : List Result} :
    ofLines (l :: ls) = .ok rs
      ↔ ∃ r? rest, ofLine l = .ok r? ∧ ofLines ls = .ok rest ∧ rs = r?.toList ++ rest := by
  cases hl : ofLine l with
  | error e =>
      rw [ofLines_cons_of_error hl]
      apply iff_of_false
      · exact nofun
      · intro h
        obtain ⟨_, _, hr, -⟩ := h
        cases hr
  | ok r? =>
      cases r? with
      | none =>
          rw [ofLines_cons_of_none hl]
          simp
      | some r =>
          rw [ofLines_cons_of_some hl]
          cases ofLines ls with
          | error e => simp [Except.map]
          | ok rest => simp [Except.map, eq_comm]

/-- Lines that are read in two parts give the results of both, in order. -/
theorem ofLines_append_eq_ok_iff {ls ms : List Text} {rs : List Result} :
    ofLines (ls ++ ms) = .ok rs
      ↔ ∃ rs₁ rs₂, ofLines ls = .ok rs₁ ∧ ofLines ms = .ok rs₂ ∧ rs = rs₁ ++ rs₂ := by
  -- over the lines of the first part
  induction ls generalizing rs with
  | nil => simp
  | cons l ls ih =>
      rw [List.cons_append, ofLines_cons_eq_ok_iff]
      constructor
      · intro h
        obtain ⟨r?, rest, hl, hrest, rfl⟩ := h
        obtain ⟨rs₁, rs₂, h₁, h₂, rfl⟩ := ih.1 hrest
        refine ⟨r?.toList ++ rs₁, rs₂, ?_, h₂, (List.append_assoc _ _ _).symm⟩
        exact ofLines_cons_eq_ok_iff.2 ⟨r?, rs₁, hl, h₁, rfl⟩
      · intro h
        obtain ⟨rs₁, rs₂, h₁, h₂, rfl⟩ := h
        obtain ⟨r?, rest, hl, hrest, rfl⟩ := ofLines_cons_eq_ok_iff.1 h₁
        refine ⟨r?, rest ++ rs₂, hl, ?_, List.append_assoc _ _ _⟩
        exact ih.2 ⟨rest, rs₂, hrest, h₂, rfl⟩

-- ==================================================================== logs

/-- Two logs with a break between them are understood exactly if both
are, and hold the results of the first and then of the second. -/
theorem readLog_append_eq_ok_iff {a b : Text} {rs : List Result} :
    readLog (a ++ '\n' :: b) = .ok rs
      ↔ ∃ rs₁ rs₂, readLog a = .ok rs₁ ∧ readLog b = .ok rs₂ ∧ rs = rs₁ ++ rs₂ := by
  obtain ⟨before, last, hlines, happend⟩ := Text.exists_lines_append_break a
  -- the last line of `a` may lose a carriage return when the other part is put
  -- behind it
  have hlast : ∀ rs, ofLines [last.withoutReturn] = .ok rs ↔ ofLines [last] = .ok rs := by
    intro rs
    rw [ofLines_cons_eq_ok_iff, ofLines_cons_eq_ok_iff]
    simp only [ofLine_withoutReturn_eq_ok_iff]
  have hbefore : ∀ rs, ofLines (before ++ [last.withoutReturn]) = .ok rs
      ↔ ofLines (before ++ [last]) = .ok rs := by
    intro rs
    rw [ofLines_append_eq_ok_iff, ofLines_append_eq_ok_iff]
    simp only [hlast]
  have hsplit : before ++ last.withoutReturn :: b.lines
      = before ++ [last.withoutReturn] ++ b.lines := by
    rw [List.append_assoc, List.singleton_append]
  rw [readLog, readLog, readLog, hlines, happend, hsplit, ofLines_append_eq_ok_iff]
  simp only [hbefore]

/-- A log fails exactly if a part of it does. -/
theorem readLog_append_eq_error_iff {a b : Text} :
    (∃ e, readLog (a ++ '\n' :: b) = .error e)
      ↔ (∃ e, readLog a = .error e) ∨ ∃ e, readLog b = .error e := by
  -- an answer is an error exactly if it is no result
  have herror : ∀ log, (∃ e, readLog log = .error e) ↔ ¬ ∃ rs, readLog log = .ok rs := by
    intro log
    cases readLog log with
    | error e => exact iff_of_true ⟨e, rfl⟩ (fun h => nomatch h.choose_spec)
    | ok rs => exact iff_of_false (fun h => nomatch h.choose_spec) (not_not_intro ⟨rs, rfl⟩)
  rw [herror, herror, herror, ← Classical.not_and_iff_not_or_not]
  apply not_congr
  constructor
  · intro h
    obtain ⟨rs, hrs⟩ := h
    obtain ⟨rs₁, rs₂, h₁, h₂, -⟩ := readLog_append_eq_ok_iff.1 hrs
    exact ⟨⟨rs₁, h₁⟩, rs₂, h₂⟩
  · intro h
    obtain ⟨⟨rs₁, h₁⟩, rs₂, h₂⟩ := h
    exact ⟨rs₁ ++ rs₂, readLog_append_eq_ok_iff.2 ⟨rs₁, rs₂, h₁, h₂, rfl⟩⟩

-- =========================================================== what is found

/-- The log is understood, and this is the result found for a test, if
any. -/
def Finds (log name : Text) (r? : Option Result) : Prop :=
  ∃ rs, readLog log = .ok rs ∧ latest? rs name = r?

/-- What is found in a log is what its later part has, or else what its
earlier part has. -/
theorem finds_append_iff {a b name : Text} {r? : Option Result} :
    Finds (a ++ '\n' :: b) name r?
      ↔ ∃ x y, Finds a name x ∧ Finds b name y ∧ r? = y.or x := by
  constructor
  · intro h
    obtain ⟨rs, hrs, hfound⟩ := h
    obtain ⟨rs₁, rs₂, h₁, h₂, rfl⟩ := readLog_append_eq_ok_iff.1 hrs
    rw [latest?_append] at hfound
    exact ⟨_, _, ⟨rs₁, h₁, rfl⟩, ⟨rs₂, h₂, rfl⟩, hfound.symm⟩
  · intro h
    obtain ⟨x, y, ⟨rs₁, h₁, hx⟩, ⟨rs₂, h₂, hy⟩, hr⟩ := h
    refine ⟨rs₁ ++ rs₂, readLog_append_eq_ok_iff.2 ⟨rs₁, rs₂, h₁, h₂, rfl⟩, ?_⟩
    rw [latest?_append, hx, hy, hr]

/-- A line that says nothing of a test: no result line, or the result
line of another test. -/
def SilentLine (name l : Text) : Prop :=
  ofLine l = .ok none ∨ ∃ r, ofLine l = .ok (some r) ∧ r.name ≠ name

/-- Lines that say nothing of a test. -/
def SilentOn (name x : Text) : Prop := ∀ l ∈ x.lines, SilentLine name l

/-- Lines that say nothing of a name are all read, and give no result of that
name. -/
theorem exists_ofLines_of_silent {name : Text} {ls : List Text}
    (h : ∀ l ∈ ls, SilentLine name l) :
    ∃ rs, ofLines ls = .ok rs ∧ ∀ r ∈ rs, r.name ≠ name := by
  induction ls with
  | nil => exact ⟨[], rfl, nofun⟩
  | cons l ls ih =>
      obtain ⟨rest, hrest, hname⟩ := ih fun m hm => h m (List.mem_cons_of_mem l hm)
      rcases h l List.mem_cons_self with hl | ⟨r, hl, hr⟩
      · exact ⟨rest, (ofLines_cons_of_none hl ls).trans hrest, hname⟩
      · refine ⟨r :: rest, ?_, List.forall_mem_cons.2 ⟨hr, hname⟩⟩
        rw [ofLines_cons_of_some hl, hrest]
        rfl

/-- In lines that say nothing of a name nothing is found under it. -/
theorem SilentOn.finds_iff {name x : Text} (h : SilentOn name x) {r? : Option Result} :
    Finds x name r? ↔ r? = none := by
  obtain ⟨rs, hrs, hname⟩ := exists_ofLines_of_silent h
  have hnone : latest? rs name = none := latest?_eq_none_iff.2 hname
  constructor
  · intro hfinds
    obtain ⟨rs', hrs', hfound⟩ := hfinds
    rw [readLog, hrs] at hrs'
    cases hrs'
    exact hfound.symm.trans hnone
  · intro hr
    exact ⟨rs, hrs, hnone.trans hr.symm⟩

-- =============================================================== insertion

/-- A log, and the same log with some lines put in between its own that
say nothing of a test. -/
inductive Inserted (name : Text) : Text → Text → Prop
  | front (log : Text) {x : Text} (hx : SilentOn name x) :
      Inserted name log (x ++ '\n' :: log)
  | between (a b : Text) {x : Text} (hx : SilentOn name x) :
      Inserted name (a ++ '\n' :: b) (a ++ '\n' :: (x ++ '\n' :: b))
  | behind (log : Text) {x : Text} (hx : SilentOn name x) :
      Inserted name log (log ++ '\n' :: x)

/-- Lines that say nothing of a name change nothing in front of a log. -/
theorem finds_silentOn_append_iff {name x log : Text} (hx : SilentOn name x)
    {r? : Option Result} : Finds (x ++ '\n' :: log) name r? ↔ Finds log name r? := by
  simp [finds_append_iff, hx.finds_iff]

/-- Lines that say nothing of a name change nothing behind a log. -/
theorem finds_append_silentOn_iff {name x log : Text} (hx : SilentOn name x)
    {r? : Option Result} : Finds (log ++ '\n' :: x) name r? ↔ Finds log name r? := by
  simp [finds_append_iff, hx.finds_iff]

/-- What was put in does not change what is found. -/
theorem Inserted.finds_iff {name log log' : Text} (h : Inserted name log log')
    {r? : Option Result} : Finds log' name r? ↔ Finds log name r? := by
  cases h with
  | front _ hx => exact finds_silentOn_append_iff hx
  | between a b hx =>
      rw [finds_append_iff, finds_append_iff]
      simp only [finds_silentOn_append_iff hx]
  | behind _ hx => exact finds_append_silentOn_iff hx

/-- However often lines are put in that say nothing of a name, the same is
found. -/
theorem finds_iff_of_insertions {name log log' : Text}
    (h : Relation.ReflTransGen (Inserted name) log log') {r? : Option Result} :
    Finds log' name r? ↔ Finds log name r? := by
  -- over the insertions, the last one first
  induction h with
  | refl => exact Iff.rfl
  | tail _ hlast ih => exact hlast.finds_iff.trans ih

/-- The last entry of a test counts. A log behind another is understood
exactly if both are; then their results stand one behind the other, and
what the second finds for a test is found, or else what the first does.
And lines put in anywhere that say nothing of a test change nothing of
what is found for it. -/
theorem last_entry_counts (a b : Text) :
    ((∃ e, readLog (a ++ '\n' :: b) = .error e)
        ↔ (∃ e, readLog a = .error e) ∨ ∃ e, readLog b = .error e)
      ∧ (∀ rs rs', readLog a = .ok rs → readLog b = .ok rs' →
          readLog (a ++ '\n' :: b) = .ok (rs ++ rs')
            ∧ ∀ name, latest? (rs ++ rs') name = (latest? rs' name).or (latest? rs name))
      ∧ ∀ name log log', Relation.ReflTransGen (Inserted name) log log' →
          ∀ r?, Finds log' name r? ↔ Finds log name r? := by
  refine ⟨readLog_append_eq_error_iff, ?_, ?_⟩
  · intro rs rs' ha hb
    refine ⟨readLog_append_eq_ok_iff.2 ⟨rs, rs', ha, hb, rfl⟩, ?_⟩
    intro name
    exact latest?_append rs rs' name
  · intro name log log' h r?
    exact finds_iff_of_insertions h

end Result

end Runsheet
