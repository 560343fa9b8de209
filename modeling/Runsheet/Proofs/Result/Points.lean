/-
Points. A line that is accepted writes a numeral for its score and one for
its total, each of any number of digits, and reports for either the score
that the number is rounded to. So the two have one rule, and that rule is
all there is to say about them: what the digits around it are, or the
words before them, does not count.

That there is such a line for any two numerals shows that nothing here
is said of short ones only.
-/
import Runsheet.Proofs.Result.Grammar
import Runsheet.Proofs.Score.Rounding

namespace Runsheet

namespace Result

open Score (Rounds numeral overflow)

/-- A line that is accepted writes a numeral for its score or its total, and
reports a score for it. -/
def ReportsPoints (l p : Text) (s : Score) : Prop :=
  ∃ r, ofLine l = .ok (some r) ∧ ∃ e : Entry, e.text = l.trim
    ∧ (p = e.score ∧ s = r.score ∨ p = e.total ∧ s = r.total)

/-- The points of a line are those of the number its digits write. -/
theorem ReportsPoints.eq_ofNat {l p : Text} {s : Score} (h : ReportsPoints l p s) :
    s = .ofNat (numeral p) := by
  obtain ⟨r, hr, e, he, hpoints⟩ := h
  obtain ⟨e', he', s', -, rfl⟩ := carries_iff_entry.1 (ofLine_eq_ok_some_iff.1 hr).2
  cases Entry.text_injective (he'.trans he.symm)
  rcases hpoints with ⟨hp, hs⟩ | ⟨hp, hs⟩
  · rw [hs, hp, ← Score.ofDigits_eq]
  · rw [hs, hp, ← Score.ofDigits_eq]

/-- A line with nothing out of the ordinary but its points. -/
def Entry.ofPoints (p q : Text) (hp : Text.IsNumeral p) (hq : Text.IsNumeral q) : Entry where
  status := ⟨" ".toList, "pass".toList, by decide, by decide⟩
  bucket := ⟨" ".toList, "system".toList, by decide, by decide⟩
  name := ⟨" ".toList, "t".toList, by decide, by decide⟩
  stage := ⟨" ".toList, "BETA".toList, by decide, by decide⟩
  gap := " ".toList
  score := p
  total := q
  remark := none
  gap_isGap := by decide
  score_isNumeral := hp
  total_isNumeral := hq

theorem Entry.text_ofPoints {p q : Text} (hp : Text.IsNumeral p) (hq : Text.IsNumeral q) :
    (Entry.ofPoints p q hp hq).text = "RESULT pass system t BETA ".toList ++ p ++ '/' :: q := by
  have htext : (Entry.ofPoints p q hp hq).text
      = "RESULT pass system t BETA ".toList ++ (p ++ '/' :: (q ++ [])) := rfl
  rw [htext, List.append_nil, List.append_assoc]

/-- The sample entry has no outer blanks: it ends in a digit. -/
theorem Entry.trim_text_ofPoints {p q : Text} (hp : Text.IsNumeral p) (hq : Text.IsNumeral q) :
    (Entry.ofPoints p q hp hq).text.trim = (Entry.ofPoints p q hp hq).text := by
  rw [Entry.text_ofPoints]
  refine Text.trim_eq_self (fun c hc => ?_) (fun c hc => ?_)
  · cases hc
    decide
  · -- the line ends in the last digit of the total
    have hlast : ("RESULT pass system t BETA ".toList ++ p ++ '/' :: q).getLast?
        = q.getLast? := by
      rw [List.getLast?_append_cons, List.getLast?_cons_of_ne_nil hq.ne_nil]
    rw [hlast] at hc
    exact isBlank_eq_false_of_isDigit (hq.all_mem c (List.mem_of_getLast? hc))

/-- Any two numerals are the points of a line that is accepted. -/
theorem exists_reportsPoints {p q : Text} (hp : Text.IsNumeral p) (hq : Text.IsNumeral q) :
    ∃ l s s', ReportsPoints l p s ∧ ReportsPoints l q s' := by
  have htrim := Entry.trim_text_ofPoints hp hq
  have hopen : Opening (Entry.ofPoints p q hp hq).text := by
    rw [Opening, htrim, Entry.text_ofPoints, List.append_assoc]
    exact ⟨"pass system t BETA ".toList ++ (p ++ '/' :: q), rfl⟩
  have hcarries := carries_iff_entry.2 ⟨_, htrim.symm, .pass, rfl, rfl⟩
  have hline := ofLine_eq_ok_some_iff.2 ⟨isTaken_iff.2 hopen, hcarries⟩
  exact ⟨_, _, _, ⟨_, hline, _, htrim.symm, Or.inl ⟨rfl, rfl⟩⟩,
    ⟨_, hline, _, htrim.symm, Or.inr ⟨rfl, rfl⟩⟩⟩

/-- Points are rounded correctly, however many digits write them. What an
accepted line reports for a numeral is the double nearest to the number it
writes, of two equally near ones the even one, and infinity exactly from
2^1024 - 2^970 on; and there is one such score only. So numbers up to 2^53
are reported as they are, zeros in front change nothing, larger numbers
are not reported as smaller ones, and the digits of a finite score are
reported as that score. Any numerals may stand on such a line. -/
theorem points_rounded_to_nearest :
    (∀ l p s, ReportsPoints l p s →
      (∀ t, Rounds (numeral p) t ↔ t = s)
        ∧ (s = .infinity ↔ overflow ≤ numeral p)
        ∧ (numeral p ≤ 2 ^ 53 → s = .finite (numeral p))
        ∧ ∀ l' p' s', ReportsPoints l' p' s' →
            (∀ k, p' = List.replicate k '0' ++ p → s' = s)
              ∧ (numeral p ≤ numeral p' → s.value ≤ s'.value)
              ∧ ∀ n, s = .finite n → p' = Nat.toDigits 10 n → s' = s)
      ∧ ∀ p q, Text.IsNumeral p → Text.IsNumeral q →
          ∃ l s s', ReportsPoints l p s ∧ ReportsPoints l q s' := by
  refine ⟨fun l p s h => ?_, fun p q => exists_reportsPoints⟩
  have hs := h.eq_ofNat
  refine ⟨?correct, ?infinite, ?exact, fun l' p' s' h' => ?other⟩
  case correct =>
    intro t
    rw [hs, Score.rounds_iff]
  case infinite =>
    rw [hs, eq_comm, ← Score.rounds_iff]
    rfl
  case exact =>
    intro hsmall
    rw [hs, Score.ofNat_of_le hsmall]
  case other =>
    have hs' := h'.eq_ofNat
    refine ⟨fun k hp => ?zeros, fun hle => ?larger, fun n hn hp => ?again⟩
    case zeros => rw [hs', hs, hp, Score.numeral_zeros_append]
    case larger =>
      rw [hs', hs]
      exact Score.value_ofNat_mono hle
    case again =>
      rw [hs] at hn
      rw [hs', hs, hp, Score.numeral_toDigits, Score.ofNat_of_ofNat_eq hn, hn]

/-- The first number that no double is, half way between two doubles, for a
score; and with zeros in front for a total. -/
theorem points_rounded_to_nearest_tie :
    let l := "RESULT pass system t BETA 9007199254740993/009007199254740993".toList
    (ReportsPoints l "9007199254740993".toList (.finite 9007199254740992)
        ∧ Rounds 9007199254740993 (.finite 9007199254740992)
        ∧ ¬ Rounds 9007199254740993 (.finite 9007199254740994))
      ∧ Text.IsNumeral "009007199254740993".toList
      ∧ ∀ s, ReportsPoints l "009007199254740993".toList s → s = .finite 9007199254740992 := by
  intro l
  have hp : Text.IsNumeral "9007199254740993".toList := by decide
  have hq : Text.IsNumeral "009007199254740993".toList := by decide
  have hline : ofLine l = .ok (some ⟨.pass, "system".toList, "t".toList, "BETA".toList,
      .finite 9007199254740992, .finite 9007199254740992, []⟩) := by decide +kernel
  have hpoints : ReportsPoints l "9007199254740993".toList (.finite 9007199254740992) :=
    ⟨_, hline, .ofPoints _ _ hp hq, Entry.text_ofPoints hp hq, Or.inl ⟨rfl, rfl⟩⟩
  obtain ⟨hrounds, -, -, hothers⟩ := points_rounded_to_nearest.1 _ _ _ hpoints
  refine ⟨⟨hpoints, (hrounds _).2 rfl, fun h => ?_⟩, hq, fun s hs => ?_⟩
  · cases (hrounds _).1 h
  · exact (hothers _ _ _ hs).1 2 rfl

end Result

end Runsheet
