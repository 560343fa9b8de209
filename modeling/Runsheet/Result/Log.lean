/-
Result logs. A log is a text with result lines among other lines. It
is read line by line, and the first line in error is the error of the
log. A test that ran more than once has several results, of which the
last counts.
-/
import Runsheet.Result.Line
import Runsheet.Text.Lines

namespace Runsheet.Result

/-- The results on some lines, in order. -/
def ofLines (ls : List Text) : Except ResultError (List Result) :=
  (ls.mapM ofLine).map (List.filterMap id)

/-- The results in a log, in order. -/
def readLog (log : Text) : Except ResultError (List Result) := ofLines log.lines

/-- The last result of a test. -/
def latest? (rs : List Result) (name : Text) : Option Result :=
  rs.reverse.find? (·.name = name)

@[simp] theorem ofLines_nil : ofLines [] = .ok [] := rfl

theorem ofLines_cons_of_none {l : Text} (h : ofLine l = .ok none) (ls : List Text) :
    ofLines (l :: ls) = ofLines ls := by
  simp only [ofLines, List.mapM_cons, h]
  cases ls.mapM ofLine <;> rfl

theorem ofLines_cons_of_some {l : Text} {r : Result} (h : ofLine l = .ok (some r))
    (ls : List Text) : ofLines (l :: ls) = (ofLines ls).map (r :: ·) := by
  simp only [ofLines, List.mapM_cons, h]
  cases ls.mapM ofLine <;> rfl

theorem ofLines_cons_of_error {l : Text} {e : ResultError} (h : ofLine l = .error e)
    (ls : List Text) : ofLines (l :: ls) = .error e := by
  simp only [ofLines, List.mapM_cons, h]
  rfl

/-- A result is taken if none of the same name comes behind it. -/
theorem latest?_eq_some_iff {rs : List Result} {name : Text} {r : Result} :
    latest? rs name = some r ↔ r.name = name
      ∧ ∃ before behind, rs = before ++ r :: behind ∧ ∀ r' ∈ behind, r'.name ≠ name := by
  rw [latest?, List.find?_eq_some_iff_append]
  simp only [decide_eq_true_eq, Bool.not_eq_true', decide_eq_false_iff_not]
  refine and_congr_right fun _ => ⟨?_, ?_⟩
  · intro ⟨behind, before, hrs, hbehind⟩
    refine ⟨before.reverse, behind.reverse, ?_, fun r' hr' => ?_⟩
    · rw [← List.reverse_reverse rs, hrs]
      simp
    · exact hbehind r' (List.mem_reverse.1 hr')
  · intro ⟨before, behind, hrs, hbehind⟩
    refine ⟨behind.reverse, before.reverse, ?_, fun r' hr' => ?_⟩
    · rw [hrs]
      simp
    · exact hbehind r' (List.mem_reverse.1 hr')

/-- There is no last result exactly of a test that has none. -/
theorem latest?_eq_none_iff {rs : List Result} {name : Text} :
    latest? rs name = none ↔ ∀ r ∈ rs, r.name ≠ name := by
  simp [latest?]

/-- The later results decide, the earlier ones fill in. -/
theorem latest?_append (rs rs' : List Result) (name : Text) :
    latest? (rs ++ rs') name = (latest? rs' name).or (latest? rs name) := by
  simp [latest?, List.find?_append]

end Runsheet.Result
