/-
Which lines of a log are reported. Two tests stand between a line and a
result. The first looks at how the line begins, and a line that fails
it is passed over; the second is the grammar, and a line that fails it
is an error. So a log that is understood reports every line that passes
the first test, in order, each with what it says, and no other line
(`readLog_eq_ok_iff`).

# Where the two tests part

The grammar lets any gap stand behind the keyword. The first test wants
a space there (`isTaken_iff_of_isEntry`). A line that has another blank
in that place, a tab say, is an entry by the grammar and is passed over
all the same, and nothing tells so. Those lines are all that is lost:
with none of them in a log, its results are its entries, one for one
(`forall₂_filter_isEntry_iff`). A rerun counts if it is not one of them.
-/
import Mathlib.Data.List.Forall2
import Runsheet.Proofs.Result.Fields
import Runsheet.Proofs.Result.Growth

namespace Runsheet.Result

-- ============================================================== entries

/-- Whether a line follows the grammar of result lines, the blanks
around it aside. -/
def isEntry (l : Text) : Bool := (Fields.read? l.trim).isSome

/-- Whether a line, the blanks around it aside, is taken for a result
line. -/
def isTaken (l : Text) : Bool := isMarked l.trim

/-- A result says what a line says. -/
def Carries (l : Text) (r : Result) : Prop :=
  ∃ f : Fields, ∃ s, f.Written l.trim ∧ Status.read? f.status = some s
    ∧ r = ⟨s, f.bucket, f.name, f.stage, .ofDigits f.score, .ofDigits f.total, f.message⟩

theorem isEntry_iff {l : Text} : isEntry l = true ↔ ∃ f : Fields, f.Written l.trim := by
  rw [isEntry, Option.isSome_iff_exists]
  exact exists_congr fun f => Fields.read?_eq_some_iff

theorem Carries.isEntry {l : Text} {r : Result} (h : Carries l r) : isEntry l = true := by
  obtain ⟨f, s, hf, -⟩ := h
  exact isEntry_iff.2 ⟨f, hf⟩

/-- A line whose keyword has a blank behind it that is not a space. -/
def OtherBlank (l : Text) : Prop :=
  ∃ b rest, l.trim = keyword ++ b :: rest ∧ isBlank b = true ∧ b ≠ ' '

/-- An entry has a blank behind the keyword, and it is taken if that is a
space. -/
theorem isTaken_iff_of_isEntry {l : Text} (h : isEntry l = true) :
    isTaken l = true ↔ ¬ OtherBlank l := by
  obtain ⟨f, gap, g₂, g₃, g₄, g₅, tail, hline, hgap, -⟩ := isEntry_iff.1 h
  obtain ⟨b, gap, rfl⟩ := List.exists_cons_of_ne_nil hgap.ne_nil
  have hb : isBlank b = true := hgap.all_mem b List.mem_cons_self
  have htaken : isTaken l = true ↔ b = ' ' := by
    rw [isTaken, isMarked, hline, List.isPrefixOf_iff_prefix, List.prefix_append_right_inj,
      List.cons_append, List.cons_prefix_cons, eq_comm]
    exact and_iff_left List.nil_prefix
  have hother : OtherBlank l ↔ b ≠ ' ' := by
    refine ⟨fun ho => ?_, fun hne => ⟨b, _, hline, hb, hne⟩⟩
    obtain ⟨c, rest, hline', -, hc⟩ := ho
    have hcons := List.append_cancel_left (hline.symm.trans hline')
    rw [List.cons_append, List.cons.injEq] at hcons
    exact hcons.1 ▸ hc
  rw [htaken, hother, ne_eq, Decidable.not_not]

-- ================================================================ lines

/-- Fields come to a result if their status word is one of the known ones. -/
theorem ofFields_eq_ok_iff {f : Fields} {r : Result} :
    ofFields f = .ok r ↔ ∃ s, Status.read? f.status = some s
      ∧ r = ⟨s, f.bucket, f.name, f.stage, .ofDigits f.score, .ofDigits f.total, f.message⟩ := by
  unfold ofFields Status.parse
  cases Status.read? f.status with
  | none => simp [Except.map]
  | some s => simp [Except.map, eq_comm]

/-- A line is passed over exactly when it is not taken. -/
theorem ofLine_eq_ok_none_iff {l : Text} : ofLine l = .ok none ↔ isTaken l = false := by
  unfold ofLine isTaken
  by_cases hm : isMarked l.trim = true
  · rw [if_pos hm, hm]
    refine iff_of_false ?_ Bool.noConfusion
    cases Fields.read? l.trim with
    | none => exact nofun
    | some f =>
        simp only
        cases ofFields f <;> exact nofun
  · rw [if_neg hm]
    exact iff_of_true rfl (Bool.eq_false_iff.2 hm)

/-- A line gives a result exactly when it is taken and carries that result.
-/
theorem ofLine_eq_ok_some_iff {l : Text} {r : Result} :
    ofLine l = .ok (some r) ↔ isTaken l = true ∧ Carries l r := by
  unfold ofLine isTaken
  by_cases hm : isMarked l.trim = true
  · rw [if_pos hm, and_iff_right hm]
    cases hf : Fields.read? l.trim with
    | none =>
        refine iff_of_false nofun fun hc => ?_
        have he := hc.isEntry
        rw [isEntry, hf] at he
        cases he
    | some f =>
        have hcarries : Carries l r ↔ ofFields f = .ok r := by
          rw [ofFields_eq_ok_iff]
          refine ⟨fun hc => ?_, fun hs => ?_⟩
          · -- the line says one thing only
            obtain ⟨f', s, hw, hs⟩ := hc
            rw [Fields.read?_eq_some_iff.2 hw] at hf
            cases hf
            exact ⟨s, hs⟩
          · obtain ⟨s, hs⟩ := hs
            exact ⟨f, s, Fields.read?_eq_some_iff.1 hf, hs⟩
        rw [hcarries]
        simp only
        cases ofFields f <;> simp [Except.map]
  · rw [if_neg hm]
    exact iff_of_false nofun fun h => hm h.1

-- ================================================================= logs

/-- What is reported are the lines that are taken, in order. -/
theorem ofLines_eq_ok_iff {ls : List Text} {rs : List Result} :
    ofLines ls = .ok rs ↔ List.Forall₂ Carries (ls.filter isTaken) rs := by
  induction ls generalizing rs with
  | nil =>
      rw [ofLines_nil, List.filter_nil, List.forall₂_nil_left_iff, Except.ok.injEq, eq_comm]
  | cons l ls ih =>
      rw [ofLines_cons_eq_ok_iff]
      by_cases hm : isTaken l = true
      · rw [List.filter_cons_of_pos hm, List.forall₂_cons_left_iff]
        refine ⟨fun h => ?_, fun h => ?_⟩
        · obtain ⟨r?, rest, hl, hrest, hrs⟩ := h
          cases r? with
          | none =>
              rw [ofLine_eq_ok_none_iff.1 hl] at hm
              cases hm
          | some r => exact ⟨r, rest, (ofLine_eq_ok_some_iff.1 hl).2, ih.1 hrest, hrs⟩
        · obtain ⟨r, rest, hr, hrest, hrs⟩ := h
          exact ⟨some r, rest, ofLine_eq_ok_some_iff.2 ⟨hm, hr⟩, ih.2 hrest, hrs⟩
      · rw [List.filter_cons_of_neg hm, ← ih]
        have hl := ofLine_eq_ok_none_iff.2 (Bool.eq_false_iff.2 hm)
        refine ⟨fun h => ?_, fun h => ⟨none, rs, hl, h, rfl⟩⟩
        obtain ⟨r?, rest, hl', hrest, rfl⟩ := h
        rw [hl] at hl'
        cases hl'
        exact hrest

/-- A log is read exactly when every taken line carries a result, and then it
gives those, in order. -/
theorem readLog_eq_ok_iff {log : Text} {rs : List Result} :
    readLog log = .ok rs
      ↔ List.Forall₂ Carries (log.lines.filter isTaken) rs :=
  ofLines_eq_ok_iff

/-- The entries among the lines of a log are reported one for one exactly
if no line that is passed over is one. -/
theorem forall₂_filter_isEntry_iff {log : Text} {rs : List Result}
    (h : readLog log = .ok rs) :
    List.Forall₂ Carries (log.lines.filter isEntry) rs
      ↔ ∀ l ∈ log.lines, isEntry l = true → isTaken l = true := by
  have htaken := readLog_eq_ok_iff.1 h
  have hentry : ∀ l ∈ log.lines.filter isTaken, isEntry l = true :=
    ((List.forall₂_and_left _ _).1 (htaken.imp fun _ _ hc => ⟨hc.isEntry, hc⟩)).1
  have hsub : log.lines.filter isTaken = (log.lines.filter isEntry).filter isTaken := by
    rw [List.filter_filter]
    refine List.filter_congr fun l hl => ?_
    by_cases ht : isTaken l = true
    · rw [ht, hentry l (List.mem_filter.2 ⟨hl, ht⟩)]
      rfl
    · rw [Bool.eq_false_iff.2 ht, Bool.false_and]
  refine ⟨fun hall l hl he => ?_, fun hall => ?_⟩
  · -- as many entries as results, and so as many as lines that are taken
    have hlen : ((log.lines.filter isEntry).filter isTaken).length
        = (log.lines.filter isEntry).length := by
      rw [← hsub, htaken.length_eq, hall.length_eq]
    exact List.length_filter_eq_length_iff.1 hlen l (List.mem_filter.2 ⟨hl, he⟩)
  · have hsame : (log.lines.filter isEntry).filter isTaken = log.lines.filter isEntry := by
      refine List.filter_eq_self.2 fun l hl => ?_
      obtain ⟨hmem, he⟩ := List.mem_filter.1 hl
      exact hall l hmem he
    rw [← hsame, ← hsub]
    exact htaken

/-- The last line that is taken and names a test counts for it. -/
theorem latest?_of_isTaken {before behind : List Text} {l : Text} {r : Result}
    {rs : List Result} (h : ofLines (before ++ l :: behind) = .ok rs)
    (ht : isTaken l = true) (hr : Carries l r)
    (hbehind : ∀ l' ∈ behind, ∀ r', isTaken l' = true → Carries l' r' → r'.name ≠ r.name) :
    latest? rs r.name = some r := by
  obtain ⟨rs₁, rs₂, -, h₂, rfl⟩ := ofLines_append_eq_ok_iff.1 h
  obtain ⟨r?, rest, hl, hrest, rfl⟩ := ofLines_cons_eq_ok_iff.1 h₂
  rw [ofLine_eq_ok_some_iff.2 ⟨ht, hr⟩] at hl
  cases hl
  -- whatever is reported behind the line is reported of a line behind it
  have hpairs := (List.forall₂_and_left _ _).2
    ⟨fun l' hl' => List.mem_filter.1 hl', ofLines_eq_ok_iff.1 hrest⟩
  have hnames : List.Forall₂ (fun r' (_ : Text) => r'.name ≠ r.name ∧ True) rest
      (behind.filter isTaken) := by
    refine List.Forall₂.flip (hpairs.imp fun l' r' hp => ⟨?_, trivial⟩)
    exact hbehind l' hp.1.1 r' hp.1.2 hp.2
  have hother := ((List.forall₂_and_left _ _).1 hnames).1
  exact latest?_eq_some_iff.2 ⟨rfl, rs₁, rest, rfl, hother⟩

/-- A log that is understood reports the lines that are taken, one for
one and in order, each with what it says, and the last of a test counts.
All its entries are reported so exactly if none of them has another
blank than a space behind the keyword. -/
theorem entries_reported_iff {log : Text} {rs : List Result} (h : readLog log = .ok rs) :
    (List.Forall₂ Carries (log.lines.filter isTaken) rs
      ∧ ∀ before l behind r, log.lines = before ++ l :: behind →
          isTaken l = true → Carries l r →
          (∀ l' ∈ behind, ∀ r', isTaken l' = true → Carries l' r' → r'.name ≠ r.name) →
          latest? rs r.name = some r)
      ∧ (List.Forall₂ Carries (log.lines.filter isEntry) rs
          ↔ ∀ l ∈ log.lines, isEntry l = true → ¬ OtherBlank l) := by
  refine ⟨⟨readLog_eq_ok_iff.1 h, ?_⟩, ?_⟩
  · intro before l behind r hlines ht hr hbehind
    rw [readLog, hlines] at h
    exact latest?_of_isTaken h ht hr hbehind
  · rw [forall₂_filter_isEntry_iff h]
    refine forall₂_congr fun l _ => ?_
    exact forall_congr' fun he => isTaken_iff_of_isEntry he

/-- With a space behind the keyword the other gaps may be any blanks, and
both runs of a test are reported. -/
theorem entries_reported_rerun :
    readLog "RESULT fail system t BETA 2/5 late\r\nwait\n\tRESULT \tPASS\tsystem t BETA 5/5".toList
        = .ok [⟨.fail, "system".toList, "t".toList, "BETA".toList, .ofDigits ['2'],
            .ofDigits ['5'], "late".toList⟩,
          ⟨.pass, "system".toList, "t".toList, "BETA".toList, .ofDigits ['5'],
            .ofDigits ['5'], []⟩]
      ∧ List.Forall₂ Carries
          ["RESULT fail system t BETA 2/5 late".toList,
            "\tRESULT \tPASS\tsystem t BETA 5/5".toList]
          [⟨.fail, "system".toList, "t".toList, "BETA".toList, .ofDigits ['2'],
            .ofDigits ['5'], "late".toList⟩,
          ⟨.pass, "system".toList, "t".toList, "BETA".toList, .ofDigits ['5'],
            .ofDigits ['5'], []⟩] := by
  refine ⟨?read, (entries_reported_iff ?read).2.2
    fun l hl he => (isTaken_iff_of_isEntry he).1 ?taken⟩
  case read => rfl
  case taken =>
    revert he l
    decide +kernel

/-- A rerun whose line has a tab behind the keyword is an entry like the
line before it, and is passed over: the log reports one result for two
entries, and what it finds for the test is stale. -/
theorem entry_passed_over :
    readLog "RESULT pass system t BETA 5/5\nRESULT\tfail system t BETA 2/5".toList
        = .ok [⟨.pass, "system".toList, "t".toList, "BETA".toList, .ofDigits ['5'],
            .ofDigits ['5'], []⟩]
      ∧ ((Text.lines "RESULT pass system t BETA 5/5\nRESULT\tfail system t BETA 2/5".toList).filter
          isEntry).length = 2
      ∧ Carries "RESULT\tfail system t BETA 2/5".toList
          ⟨.fail, "system".toList, "t".toList, "BETA".toList, .ofDigits ['2'],
            .ofDigits ['5'], []⟩ := by
  refine ⟨rfl, by decide +kernel, ?_⟩
  refine ⟨⟨"fail".toList, "system".toList, "t".toList, "BETA".toList, ['2'], ['5'], []⟩, .fail,
    Fields.read?_eq_some_iff.1 ?_, by decide +kernel, rfl⟩
  decide +kernel

end Runsheet.Result
