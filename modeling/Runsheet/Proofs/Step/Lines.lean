/-
Steps and their lines: when the lines of some steps, joined into one
text, are read back as those steps.

# Where reading differs from writing

Two things stand between a list of steps and its lines read again.

- A line that ends in a return gives it up as soon as a line feed
  stands behind it: return and line feed are one break. So every line
  but the last must not end in one (`rejoined_eq_self_iff`).
- Blank lines at the end of a text are no part of its last step. So
  the last step must not end in one (`EndsSolid`).

`readAll_joinLines_iff` says that nothing else does: under these two
conditions the steps come back, and if either fails they do not. Lines
in front of the first header change nothing, whatever they hold; blank
lines behind the last step change one thing, that the break behind it
takes a return from its last line too (`readAll_joinLines_blanks_iff`).

A text whose lines are joined again has all its breaks alike. Its lines
are lines in front of the first header, those of its steps, and blank
ones, so the two laws say when it is read as before
(`readAll_joinLines_lines_iff`).

# The argument

Both directions read the pass of `Step.group` backwards. It loses no
line (`append_flatMap_group`), so steps that come back put their own
lines at the end of what was read, and what was read is the joined
lines less returns and blank ends. Comparing lengths leaves nothing
that could have been taken away (`group_dropEndWhile_eq_iff`).
-/
import Runsheet.Proofs.Text.Ends
import Runsheet.Step

namespace Runsheet

-- ============================================================== headers

/-- A header is a numeral, a point and a blank, and then the rest. -/
theorem afterNumeral?_eq_some_iff {line rest : Text} :
    afterNumeral? line = some rest
      ↔ ∃ n b, line = n ++ '.' :: b :: rest ∧ Text.IsNumeral n ∧ isBlank b = true := by
  unfold afterNumeral?
  constructor
  · intro h
    split at h
    · next n b r hs =>
      split at h
      · next hb =>
        obtain ⟨hl, hn, -⟩ := Text.span?_eq_some_iff.1 hs
        cases h
        exact ⟨n, b, hl, hn, hb⟩
      · cases h
    · cases h
  · intro h
    obtain ⟨n, b, hl, hn, hb⟩ := h
    have hs : Text.span? Char.isDigit line = some (n, '.' :: b :: rest) :=
      Text.span?_eq_some_iff.2 ⟨hl, hn, rfl⟩
    rw [hs]
    exact if_pos hb

/-- A header has a numeral, a point and a blank in front of its title. -/
theorem opensStep_iff {line : Text} :
    opensStep line = true ↔ ∃ rest, afterNumeral? line = some rest := by
  rw [opensStep, Option.isSome_iff_exists]

/-- What stands behind a header's opening does not matter. -/
theorem opensStep_append {line : Text} (h : opensStep line = true) (t : Text) :
    opensStep (line ++ t) = true := by
  obtain ⟨rest, hr⟩ := opensStep_iff.1 h
  obtain ⟨n, b, hl, hn, hb⟩ := afterNumeral?_eq_some_iff.1 hr
  refine opensStep_iff.2 ⟨rest ++ t, afterNumeral?_eq_some_iff.2 ⟨n, b, ?_, hn, hb⟩⟩
  rw [hl, List.append_assoc, List.cons_append, List.cons_append]

/-- A header is not blank: it opens with a digit. -/
theorem allBlank_eq_false_of_opensStep {line : Text} (h : opensStep line = true) :
    line.allBlank = false := by
  obtain ⟨rest, hr⟩ := opensStep_iff.1 h
  obtain ⟨n, b, hl, hn, -⟩ := afterNumeral?_eq_some_iff.1 hr
  obtain ⟨d, n, rfl⟩ := List.exists_cons_of_ne_nil hn.ne_nil
  have hd := isBlank_eq_false_of_isDigit (hn.all_mem d List.mem_cons_self)
  rw [hl, Text.allBlank, List.cons_append, List.all_cons, hd, Bool.false_and]

/-- No blank line is a header. -/
theorem opensStep_eq_false_of_allBlank {line : Text} (h : line.allBlank = true) :
    opensStep line = false := by
  rw [Bool.eq_false_iff]
  intro ho
  rw [allBlank_eq_false_of_opensStep ho] at h
  cases h

/-- A line that is no header does not become one by losing a carriage return.
-/
theorem opensStep_withoutReturn {line : Text} (h : opensStep line = false) :
    opensStep line.withoutReturn = false := by
  obtain ⟨t, ht⟩ := Text.isPrefix_withoutReturn line
  rw [Bool.eq_false_iff] at h ⊢
  intro hw
  rw [← ht] at h
  exact h (opensStep_append hw t)

-- ================================================= lines joined and read

namespace Text

/-- What becomes of some lines when they are joined and read again. -/
def rejoined (ls : List Text) : List Text :=
  ls.dropLast.map withoutReturn ++ ls.getLast?.toList

/-- Lines that are joined and taken apart again lose a carriage return each,
the last line aside. -/
theorem lines_joinLines_eq_rejoined {ls : List Text} (hne : ls ≠ [])
    (hlf : ∀ l ∈ ls, '\n' ∉ l) : lines (joinLines ls) = rejoined ls := by
  rw [lines, joinLines, List.splitOn_intercalate '\n' hlf hne, rejoined]

/-- Only the last of all lines keeps a return at its end. -/
theorem rejoined_append {ls ms : List Text} (hne : ms ≠ []) :
    rejoined (ls ++ ms) = ls.map withoutReturn ++ rejoined ms := by
  rw [rejoined, rejoined, List.dropLast_append_of_ne_nil hne, List.map_append,
    List.getLast?_append, List.getLast?_eq_some_getLast hne, List.append_assoc,
    Option.some_or]

theorem length_rejoined (ls : List Text) : (rejoined ls).length = ls.length := by
  cases ls with
  | nil => rfl
  | cons l ls => simp [rejoined, List.getLast?_cons]

/-- The last line is as it was. -/
theorem getLast?_rejoined (ls : List Text) : (rejoined ls).getLast? = ls.getLast? := by
  cases ls with
  | nil => rfl
  | cons l ls => simp [rejoined, List.getLast?_cons]

/-- A line that is read again is the front of one that was joined, or
empty where there was none. -/
theorem exists_isPrefix_of_mem_lines_joinLines {ls : List Text} (hlf : ∀ l ∈ ls, '\n' ∉ l)
    {l : Text} (h : l ∈ lines (joinLines ls)) : l = [] ∨ ∃ m ∈ ls, l <+: m := by
  by_cases hne : ls = []
  · subst hne
    exact Or.inl (List.mem_singleton.1 h)
  · right
    rw [lines_joinLines_eq_rejoined hne hlf, rejoined, List.mem_append] at h
    rcases h with h | h
    · obtain ⟨m, hm, rfl⟩ := List.mem_map.1 h
      exact ⟨m, List.dropLast_subset ls hm, isPrefix_withoutReturn m⟩
    · rw [Option.mem_toList] at h
      exact ⟨l, List.mem_of_getLast? h, List.prefix_refl l⟩

/-- A line stays as it is exactly if it does not end in a return. -/
theorem withoutReturn_eq_self_iff {l : Text} :
    withoutReturn l = l ↔ l.getLast? ≠ some '\r' := by
  constructor
  · intro h hr
    have hne : l ≠ [] := by
      intro hn
      rw [hn] at hr
      cases hr
    have hlen := congrArg List.length h
    rw [withoutReturn, if_pos hr, List.length_dropLast] at hlen
    have := List.length_pos_iff.2 hne
    omega
  · exact withoutReturn_of_getLast?_ne

/-- Lines stay as they are exactly if none ends in a carriage return. -/
theorem map_withoutReturn_eq_self_iff {ls : List Text} :
    ls.map withoutReturn = ls ↔ ∀ l ∈ ls, l.getLast? ≠ some '\r' := by
  have hid : ls.map withoutReturn = ls ↔ ls.map withoutReturn = ls.map id := by
    rw [List.map_id]
  rw [hid, List.map_inj_left]
  exact forall₂_congr fun l _ => withoutReturn_eq_self_iff

/-- Lines survive exactly if none but the last ends in a return. -/
theorem rejoined_eq_self_iff {ls : List Text} :
    rejoined ls = ls ↔ ∀ l ∈ ls.dropLast, l.getLast? ≠ some '\r' := by
  rw [← map_withoutReturn_eq_self_iff]
  by_cases hne : ls = []
  · subst hne
    simp [rejoined]
  · have hs : ls.dropLast ++ ls.getLast?.toList = ls := by
      rw [List.getLast?_eq_some_getLast hne]
      exact List.dropLast_concat_getLast hne
    refine ⟨fun h => ?_, fun h => ?_⟩
    · rw [rejoined] at h
      exact (List.append_inj (h.trans hs.symm) (List.length_map _)).1
    · rw [rejoined, h, hs]

/-- Blank lines stay blank. -/
theorem allBlank_of_mem_rejoined {ls : List Text} (h : ∀ l ∈ ls, l.allBlank = true) {l : Text}
    (hl : l ∈ rejoined ls) : l.allBlank = true := by
  rw [rejoined, List.mem_append] at hl
  rcases hl with hl | hl
  · obtain ⟨m, hm, rfl⟩ := List.mem_map.1 hl
    rw [allBlank_withoutReturn]
    exact h m ((List.dropLast_subset ls) hm)
  · rw [Option.mem_toList] at hl
    exact h l (List.mem_of_getLast? hl)

end Text

namespace Step

-- ================================================ the pass, read backwards

/-- A step as lines of a text can hold it: well formed, and no line of
it holds a line feed. -/
structure Legible (s : Step) : Prop extends s.WellFormed where
  not_mem_lines : ∀ l ∈ s.lines, '\n' ∉ l

instance (s : Step) : Decidable s.Legible :=
  decidable_of_iff (opensStep s.header = true ∧ (∀ l ∈ s.body, opensStep l = false)
      ∧ ∀ l ∈ s.lines, '\n' ∉ l)
    ⟨fun h => ⟨⟨h.1, h.2.1⟩, h.2.2⟩,
      fun h => ⟨h.header_opens, h.body_continues, h.not_mem_lines⟩⟩

/-- Lines that open no step are gathered in front. -/
theorem group_append_of_not_opens {pre : List Text}
    (hpre : ∀ l ∈ pre, opensStep l = false) (ls : List Text) :
    group (pre ++ ls) = (pre ++ (group ls).1, (group ls).2) := by
  induction pre with
  | nil => rfl
  | cons l pre ih =>
      have hl := hpre l List.mem_cons_self
      rw [List.cons_append, group_cons_of_not_opens hl,
        ih fun m hm => hpre m (List.mem_cons_of_mem l hm)]
      rfl

/-- The lines of a step are read as that step, with what is gathered
behind them. -/
theorem group_lines_append {s : Step} (hs : s.WellFormed) (ls : List Text) :
    group (s.lines ++ ls)
      = ([], ⟨s.header, s.body ++ (group ls).1⟩ :: (group ls).2) := by
  rw [Step.lines, List.cons_append, group_cons_of_opens hs.header_opens,
    group_append_of_not_opens hs.body_continues]

/-- The lines of well-formed steps are read as those steps. -/
theorem group_flatMap_lines {steps : List Step} (h : ∀ s ∈ steps, s.WellFormed) :
    group (steps.flatMap Step.lines) = ([], steps) := by
  induction steps with
  | nil => rfl
  | cons s steps ih =>
      rw [List.flatMap_cons, group_lines_append (h s List.mem_cons_self),
        ih fun t ht => h t (List.mem_cons_of_mem s ht), List.append_nil]

/-- Lines between some that open no step and blank ones, as many as the
lines of some steps and the last of them not blank, are read as those
steps only if they are theirs. -/
theorem group_dropEndWhile_eq_iff {pre ls blanks : List Text} {steps : List Step} {l : Text}
    (hpre : ∀ l ∈ pre, opensStep l = false) (hblanks : ∀ l ∈ blanks, l.allBlank = true)
    (hlast : ls.getLast? = some l) (hsolid : l.allBlank = false)
    (hsteps : ∀ s ∈ steps, s.WellFormed)
    (hlen : ls.length = (steps.flatMap Step.lines).length) :
    (group (dropEndWhile Text.allBlank (pre ++ ls ++ blanks))).2 = steps
      ↔ ls = steps.flatMap Step.lines := by
  have hwhole : dropEndWhile Text.allBlank (pre ++ ls ++ blanks) = pre ++ ls := by
    rw [dropEndWhile_append_of_pos hblanks]
    refine dropEndWhile_of_getLast? ?_ hsolid
    rw [List.getLast?_append, hlast, Option.some_or]
  rw [hwhole]
  refine ⟨fun h => ?_, fun h => ?_⟩
  · -- the step lines make up the end of the lines, and `hlen` says where it begins
    have happ := append_flatMap_group (pre ++ ls)
    rw [h] at happ
    exact (List.append_inj' happ hlen.symm).2.symm
  · rw [h, group_append_of_not_opens hpre, group_flatMap_lines hsteps]

/-- There are as many steps as headers. -/
theorem length_group (ls : List Text) :
    (group ls).2.length = ls.countP opensStep := by
  induction ls with
  | nil => rfl
  | cons l ls ih =>
      cases h : opensStep l with
      | true =>
          rw [group_cons_of_opens h, List.countP_cons_of_pos h, List.length_cons, ih]
      | false =>
          have hn : ¬ opensStep l = true := by rw [h]; exact Bool.false_ne_true
          rw [group_cons_of_not_opens h, List.countP_cons_of_neg hn, ih]

/-- Every step read from a text is legible. -/
theorem legible_of_mem_readAll {t : Text} {s : Step} (h : s ∈ readAll t) :
    s.Legible := by
  refine ⟨wellFormed_of_mem_readAll h, fun l hl => ?_⟩
  have hmem : l ∈ dropEndWhile Text.allBlank t.lines := by
    rw [← append_flatMap_group (dropEndWhile Text.allBlank t.lines)]
    exact List.mem_append_right _ (List.mem_flatMap_of_mem h hl)
  exact Text.not_mem_of_mem_lines ((isPrefix_dropEndWhile _ _).subset hmem)

-- ============================================================ round trip

/-- The last of some steps is a header alone or does not end in a blank
line. -/
def EndsSolid (steps : List Step) : Prop :=
  ∀ s ∈ steps.getLast?, ∀ l ∈ s.body.getLast?, l.allBlank = false

instance (steps : List Step) : Decidable (EndsSolid steps) :=
  inferInstanceAs (Decidable
    (∀ s ∈ steps.getLast?, ∀ l ∈ s.body.getLast?, l.allBlank = false))

/-- Headers are not blank, so it is the last line of all that counts. -/
theorem endsSolid_iff {steps : List Step} (h : ∀ s ∈ steps, s.WellFormed) :
    EndsSolid steps
      ↔ ∀ l ∈ (steps.flatMap Step.lines).getLast?, l.allBlank = false := by
  by_cases hne : steps = []
  · subst hne
    simp [EndsSolid]
  · obtain ⟨init, s, rfl⟩ : ∃ init s, steps = init ++ [s] :=
      ⟨_, _, (List.dropLast_concat_getLast hne).symm⟩
    have hs := allBlank_eq_false_of_opensStep (h s (by simp)).header_opens
    have hlast : ((init ++ [s]).flatMap Step.lines).getLast?
        = some (s.body.getLast?.getD s.header) := by
      simp [Step.lines, List.getLast?_cons]
    rw [hlast]
    cases hb : s.body.getLast? with
    | none => simpa [EndsSolid, hb] using hs
    | some l => simp [EndsSolid, hb]

/-- Steps read from some lines own the last of them, so no step ends in
a line that was dropped as blank. -/
theorem endsSolid_readAll (t : Text) : EndsSolid (readAll t) := by
  refine (endsSolid_iff fun s hs => wellFormed_of_mem_readAll hs).2 fun l hl => ?_
  refine neg_of_getLast?_dropEndWhile (l := t.lines) ?_
  rw [← append_flatMap_group (dropEndWhile Text.allBlank t.lines),
    List.getLast?_append]
  exact Option.or_eq_some_iff.2 (Or.inl hl)

/-- Every step has a line, its header. -/
theorem flatMap_lines_eq_nil_iff {steps : List Step} :
    steps.flatMap Step.lines = [] ↔ steps = [] := by
  cases steps with
  | nil => simp
  | cons s steps => simp [Step.lines]

/-- Joining lines and reading them again makes no new headers. -/
theorem countP_rejoined_le (ls : List Text) :
    (Text.rejoined ls).countP opensStep ≤ ls.countP opensStep := by
  by_cases hne : ls = []
  · subst hne
    exact Nat.le_refl _
  · obtain ⟨init, l, rfl⟩ : ∃ init l, ls = init ++ [l] :=
      ⟨_, _, (List.dropLast_concat_getLast hne).symm⟩
    have hinit : (init.map Text.withoutReturn).countP opensStep ≤ init.countP opensStep := by
      rw [List.countP_map]
      refine List.countP_mono_left fun m _ hm => ?_
      obtain ⟨t, ht⟩ := Text.isPrefix_withoutReturn m
      rw [← ht]
      exact opensStep_append hm t
    rw [Text.rejoined_append (List.cons_ne_nil l []), List.countP_append,
      List.countP_append]
    exact Nat.add_le_add_right hinit _

/-- Joined lines hold at most as many steps as headers. -/
theorem length_readAll_joinLines_le {ls : List Text} (hlf : ∀ l ∈ ls, '\n' ∉ l) :
    (readAll (Text.joinLines ls)).length ≤ ls.countP opensStep := by
  by_cases hne : ls = []
  · subst hne
    exact Nat.le_refl 0
  · rw [readAll, length_group, Text.lines_joinLines_eq_rejoined hne hlf]
    exact Nat.le_trans (isPrefix_dropEndWhile _ _).sublist.countP_le
      (countP_rejoined_le ls)

/-- Lines of which none is a header hold no step, joined or not. -/
theorem readAll_joinLines_eq_nil {ls : List Text}
    (h : ∀ l ∈ ls, opensStep l = false ∧ '\n' ∉ l) : readAll (Text.joinLines ls) = [] := by
  have hlen := length_readAll_joinLines_le fun l hl => (h l hl).2
  have h0 : ls.countP opensStep = 0 :=
    List.countP_eq_zero.2 fun l hl => by rw [(h l hl).1]; exact Bool.false_ne_true
  rw [h0, Nat.le_zero, List.length_eq_zero_iff] at hlen
  exact hlen

section

variable {pre : List Text} {steps : List Step}

/-- Lines in front of the first header stay in front of it. -/
theorem opensStep_of_mem_map_withoutReturn
    (hpre : ∀ l ∈ pre, opensStep l = false ∧ '\n' ∉ l) :
    ∀ l ∈ pre.map Text.withoutReturn, opensStep l = false := by
  intro l hl
  obtain ⟨m, hm, rfl⟩ := List.mem_map.1 hl
  exact opensStep_withoutReturn (hpre m hm).1

/-- All lines of a text of legible steps are free of line feeds. -/
theorem not_mem_of_mem_append_lines (hpre : ∀ l ∈ pre, opensStep l = false ∧ '\n' ∉ l)
    (hsteps : ∀ s ∈ steps, s.Legible) :
    ∀ l ∈ pre ++ steps.flatMap Step.lines, '\n' ∉ l := by
  intro l hl
  rcases List.mem_append.1 hl with hl | hl
  · exact (hpre l hl).2
  · obtain ⟨s, hs, hls⟩ := List.mem_flatMap.1 hl
    exact (hsteps s hs).not_mem_lines l hls

/-- Steps that end solid end in a line that is not blank. -/
theorem EndsSolid.exists_getLast? (h : EndsSolid steps) (hsteps : ∀ s ∈ steps, s.WellFormed)
    (hne : steps ≠ []) :
    ∃ l, (steps.flatMap Step.lines).getLast? = some l ∧ l.allBlank = false := by
  have hlast := List.getLast?_eq_some_getLast (mt flatMap_lines_eq_nil_iff.1 hne)
  exact ⟨_, hlast, (endsSolid_iff hsteps).1 h _ hlast⟩

/-- Lines in front of the first header, with the lines of some steps
behind them, are read back as those steps exactly if the last step does
not end in a blank line and no line of a step, but for the very last,
ends in a return. -/
theorem readAll_joinLines_iff (hpre : ∀ l ∈ pre, opensStep l = false ∧ '\n' ∉ l)
    (hsteps : ∀ s ∈ steps, s.Legible) :
    readAll (Text.joinLines (pre ++ steps.flatMap Step.lines)) = steps
      ↔ EndsSolid steps
        ∧ ∀ l ∈ (steps.flatMap Step.lines).dropLast, l.getLast? ≠ some '\r' := by
  have hwf : ∀ s ∈ steps, s.WellFormed := fun s hs => (hsteps s hs).toWellFormed
  by_cases hne : steps = []
  · subst hne
    simp [EndsSolid, readAll_joinLines_eq_nil hpre]
  have hF : steps.flatMap Step.lines ≠ [] := mt flatMap_lines_eq_nil_iff.1 hne
  have hlines := Text.lines_joinLines_eq_rejoined
    (List.append_ne_nil_of_right_ne_nil pre hF) (not_mem_of_mem_append_lines hpre hsteps)
  rw [Text.rejoined_append hF] at hlines
  -- Steps that come back are steps that were read, and those end solid.
  have hsolid : readAll (Text.joinLines (pre ++ steps.flatMap Step.lines)) = steps →
      EndsSolid steps := fun h => h ▸ endsSolid_readAll _
  rw [← and_iff_right_of_imp hsolid, ← Text.rejoined_eq_self_iff]
  refine and_congr_right fun hs => ?_
  obtain ⟨l, hlast, hl⟩ := hs.exists_getLast? hwf hne
  rw [readAll, hlines, ← List.append_nil (pre.map Text.withoutReturn ++ _)]
  exact group_dropEndWhile_eq_iff (opensStep_of_mem_map_withoutReturn hpre) (by simp)
    ((Text.getLast?_rejoined _).trans hlast) hl hwf (Text.length_rejoined _)

/-- With blank lines behind them there is a break behind every line of
the steps, and then none of these may end in a return. -/
theorem readAll_joinLines_blanks_iff {blanks : List Text}
    (hpre : ∀ l ∈ pre, opensStep l = false ∧ '\n' ∉ l)
    (hsteps : ∀ s ∈ steps, s.Legible) (hne : blanks ≠ [])
    (hblanks : ∀ l ∈ blanks, l.allBlank = true ∧ '\n' ∉ l) :
    readAll (Text.joinLines (pre ++ steps.flatMap Step.lines ++ blanks)) = steps
      ↔ EndsSolid steps ∧ ∀ l ∈ steps.flatMap Step.lines, l.getLast? ≠ some '\r' := by
  have hwf : ∀ s ∈ steps, s.WellFormed := fun s hs => (hsteps s hs).toWellFormed
  have hlf : ∀ l ∈ pre ++ steps.flatMap Step.lines ++ blanks, '\n' ∉ l :=
    List.forall_mem_append.2 ⟨not_mem_of_mem_append_lines hpre hsteps, fun l hl => (hblanks l hl).2⟩
  by_cases hnil : steps = []
  · subst hnil
    have hopens : ∀ l ∈ pre ++ blanks, opensStep l = false ∧ '\n' ∉ l := by
      refine List.forall_mem_append.2 ⟨hpre, fun l hl => ⟨?_, (hblanks l hl).2⟩⟩
      exact opensStep_eq_false_of_allBlank (hblanks l hl).1
    simp [EndsSolid, readAll_joinLines_eq_nil hopens]
  have hlines := Text.lines_joinLines_eq_rejoined
    (List.append_ne_nil_of_right_ne_nil (pre ++ steps.flatMap Step.lines) hne) hlf
  rw [Text.rejoined_append hne, List.map_append] at hlines
  have hsolid : readAll (Text.joinLines (pre ++ steps.flatMap Step.lines ++ blanks)) = steps →
      EndsSolid steps := fun h => h ▸ endsSolid_readAll _
  rw [← and_iff_right_of_imp hsolid, ← Text.map_withoutReturn_eq_self_iff]
  refine and_congr_right fun hs => ?_
  obtain ⟨l, hlast, hl⟩ := hs.exists_getLast? hwf hnil
  rw [readAll, hlines]
  -- here the last line of the steps is followed by a break as well, so it loses its
  -- return
  refine group_dropEndWhile_eq_iff (l := l.withoutReturn)
    (opensStep_of_mem_map_withoutReturn hpre) ?_ ?_ ?_ hwf (List.length_map _)
  · exact fun l hl => Text.allBlank_of_mem_rejoined (fun l hl => (hblanks l hl).1) hl
  · rw [List.getLast?_map, hlast]
    rfl
  · rw [Text.allBlank_withoutReturn, hl]

end

/-- Legible steps written below each other come back if and only if none
of their lines but the very last ends in a return, and the last of the
steps ends solid. Steps that stand next to each other in a text are
legible. -/
theorem legible_steps_read_back :
    (∀ steps : List Step, (∀ s ∈ steps, s.Legible) →
        (readAll (Text.joinLines (steps.flatMap Step.lines)) = steps
          ↔ (∀ l ∈ (steps.flatMap Step.lines).dropLast, l.getLast? ≠ some '\r')
            ∧ EndsSolid steps))
      ∧ ∀ (t : Text) (part : List Step), part <:+: readAll t → ∀ s ∈ part, s.Legible := by
  refine ⟨fun steps hsteps => ?_, fun t part hpart s hs => ?_⟩
  · have hback := readAll_joinLines_iff (List.forall_mem_nil _) hsteps
    rw [List.nil_append] at hback
    exact hback.trans and_comm
  · exact legible_of_mem_readAll (hpart.subset hs)

/-- A header whose one blank is a return comes back where no line stands
behind it, and nowhere else. -/
theorem readAll_joinLines_bare_headers :
    (∀ s ∈ [⟨"1. Open".toList, [[]]⟩, ⟨"2.\r".toList, []⟩], Step.Legible s)
      ∧ readAll (Text.joinLines ["1. Open".toList, [], "2.\r".toList])
          = [⟨"1. Open".toList, [[]]⟩, ⟨"2.\r".toList, []⟩]
      ∧ (∀ s ∈ [⟨"2.\r".toList, []⟩, ⟨"1. Open".toList, []⟩], Step.Legible s)
      ∧ readAll (Text.joinLines ["2.\r".toList, "1. Open".toList])
          ≠ [⟨"2.\r".toList, []⟩, ⟨"1. Open".toList, []⟩] := by
  refine ⟨?last, (legible_steps_read_back.1 _ ?last).2 ?_, ?first,
    fun h => absurd ((legible_steps_read_back.1 _ ?first).1 h).1 ?_⟩
  case last => decide +kernel
  case first => decide +kernel
  · decide +kernel
  · decide +kernel

-- ======================================================= texts, in parts

/-- The lines of a text are some in front of its first header, those of
its steps, and blank ones. -/
theorem exists_lines_eq (t : Text) :
    ∃ pre blanks, t.lines = pre ++ (readAll t).flatMap Step.lines ++ blanks
      ∧ (∀ l ∈ pre, opensStep l = false ∧ '\n' ∉ l)
      ∧ ∀ l ∈ blanks, l.allBlank = true ∧ '\n' ∉ l := by
  obtain ⟨blanks, hsplit, hblanks⟩ := exists_append_dropEndWhile Text.allBlank t.lines
  have happ := append_flatMap_group (dropEndWhile Text.allBlank t.lines)
  have hlines : t.lines
      = (group (dropEndWhile Text.allBlank t.lines)).1 ++ (readAll t).flatMap Step.lines
        ++ blanks := by
    rw [readAll, happ]
    exact hsplit
  -- line by line nothing is lost, so each part is free of line feeds with the whole
  have hlf : ∀ l ∈ t.lines, '\n' ∉ l := fun l hl => Text.not_mem_of_mem_lines hl
  rw [hlines] at hlf
  refine ⟨_, blanks, hlines, fun l hl => ⟨opensStep_of_mem_group_fst l hl, ?_⟩,
    fun l hl => ⟨hblanks l hl, ?_⟩⟩
  · exact hlf l (List.mem_append_left _ (List.mem_append_left _ hl))
  · exact hlf l (List.mem_append_right _ hl)

/-- The lines of the steps of a text that have a break behind them: all
of them, but for the last line of the text. -/
def brokenLines (t : Text) : List Text :=
  let ls := (readAll t).flatMap Step.lines
  if ls.getLast? = t.lines.getLast? then ls.dropLast else ls

/-- The lines that can lose a carriage return, told from the blank lines
behind the last step. -/
theorem brokenLines_eq {t : Text} {pre blanks : List Text}
    (hlines : t.lines = pre ++ (readAll t).flatMap Step.lines ++ blanks)
    (hblanks : ∀ l ∈ blanks, l.allBlank = true) :
    brokenLines t = if blanks = [] then ((readAll t).flatMap Step.lines).dropLast
      else (readAll t).flatMap Step.lines := by
  unfold brokenLines
  cases hF : ((readAll t).flatMap Step.lines).getLast? with
  | none =>
      have hnil := List.getLast?_eq_none_iff.1 hF
      simp [hnil]
  | some l =>
      -- The last line of the steps is not blank, so it tells blank lines behind it apart.
      have hl : l.allBlank = false :=
        (endsSolid_iff fun s hs => wellFormed_of_mem_readAll hs).1 (endsSolid_readAll t) l hF
      have hlast : some l = t.lines.getLast? ↔ blanks = [] := by
        rw [hlines, List.getLast?_append, List.getLast?_append, hF]
        cases hb : blanks.getLast? with
        | none => simpa using List.getLast?_eq_none_iff.1 hb
        | some b =>
            refine iff_of_false (fun h => ?_) fun h => ?_
            · cases h
              rw [hblanks l (List.mem_of_getLast? hb)] at hl
              cases hl
            · rw [h] at hb
              cases hb
      simp only [hF, hlast]

/-- With all its breaks made alike a text is read as before exactly if
no line of a step that has a break behind it ends in a return. -/
theorem readAll_joinLines_lines_iff (t : Text) :
    readAll (Text.joinLines t.lines) = readAll t
      ↔ ∀ l ∈ brokenLines t, l.getLast? ≠ some '\r' := by
  obtain ⟨pre, blanks, hlines, hpre, hblanks⟩ := exists_lines_eq t
  have hsteps : ∀ s ∈ readAll t, s.Legible := fun s hs => legible_of_mem_readAll hs
  rw [brokenLines_eq hlines fun l hl => (hblanks l hl).1, hlines]
  by_cases hnil : blanks = []
  · rw [if_pos hnil, hnil, List.append_nil, readAll_joinLines_iff hpre hsteps]
    exact and_iff_right (endsSolid_readAll t)
  · rw [if_neg hnil, readAll_joinLines_blanks_iff hpre hsteps hnil hblanks]
    exact and_iff_right (endsSolid_readAll t)

end Step

end Runsheet
