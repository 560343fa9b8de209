/-
Colour. With colour on, the console prints what it prints with colour
off, and codes besides: take the codes out of both, in one pass from the
left, and the same text remains. That is so whatever is printed, also
where the text has codes of its own or ends in the middle of one.

# Where codes may be put

A code is an escape character, a bracket, a numeral and an `m`. A code
put into the middle of another breaks it, and one put between two texts
may keep them from making a code together. But behind its escape
character a code goes on with a bracket, a digit or an `m` only. So a
text that opens with anything else, or holds nothing, is apart from
whatever stands in front of it, and the pass goes through the two as it
goes through each (`unstyled_append`). In front of such a text codes may
be put, and nothing remains of them (`unstyled_insert`); and in front of
any text, if nothing stands before them (`Codes.unstyled_append`).

# Where codes are put

At both ends of a text; in front of a line break, which opens with a
return or a line feed, and behind it, where the line feed has ended what
was before (`Style.unstyled_aroundBreaks`); and inside the text behind a
code that turns a style off, which the pass has taken out by then as a
whole (`Style.unstyled_reopen`). None of these leaves anything behind,
so neither does a style (`Style.unstyled_paint`), and a notice or a line
of a report is a text in some styles.
-/
import Mathlib.Data.List.Basic
import Runsheet.Console

namespace Runsheet

-- ============================================================ the pass

/-- A code at the front: an escape character, a bracket, a numeral and an
`m`. -/
theorem afterCode?_eq_some_iff {t rest : Text} :
    afterCode? t = some rest
      ↔ ∃ n, t = escape :: '[' :: (n ++ 'm' :: rest) ∧ Text.IsNumeral n := by
  refine ⟨fun h => ?_, fun h => ?_⟩
  · unfold afterCode? at h
    split at h
    · next c t =>
      split at h
      · next hc =>
        split at h
        · next n rest hn =>
          cases h
          obtain ⟨rfl, hdigits, -⟩ := Text.span?_eq_some_iff.1 hn
          exact ⟨n, by rw [hc], hdigits⟩
        · cases h
      · cases h
    · cases h
  · obtain ⟨n, rfl, hn⟩ := h
    have hspan : Text.span? Char.isDigit (n ++ 'm' :: rest) = some (n, 'm' :: rest) :=
      Text.span?_eq_some_iff.2 ⟨rfl, hn, rfl⟩
    simp only [afterCode?, hspan]
    rfl

/-- A code at the front goes. -/
theorem unstyled_of_code {t rest : Text} (h : afterCode? t = some rest) :
    unstyled t = unstyled rest := by
  obtain ⟨n, rfl, -⟩ := afterCode?_eq_some_iff.1 h
  rw [unstyled]
  split
  · next rest' h' =>
    rw [h] at h'
    cases h'
    rfl
  · next h' =>
    rw [h] at h'
    cases h'

/-- Where no code is at the front, the first character stays. -/
theorem unstyled_cons_of_no_code {c : Char} {t : Text} (h : afterCode? (c :: t) = none) :
    unstyled (c :: t) = c :: unstyled t := by
  rw [unstyled]
  split
  · next rest h' =>
    rw [h] at h'
    cases h'
  · rfl

@[simp] theorem unstyled_nil : unstyled [] = [] := by
  rw [unstyled]

/-- Only an escape character opens a code. -/
theorem unstyled_cons_of_ne {c : Char} (hc : c ≠ escape) (t : Text) :
    unstyled (c :: t) = c :: unstyled t := by
  refine unstyled_cons_of_no_code (Option.eq_none_iff_forall_ne_some.2 fun rest h => hc ?_)
  obtain ⟨n, ht, -⟩ := afterCode?_eq_some_iff.1 h
  exact (List.cons.inj ht).1

/-- A text without an escape character is left as it is. -/
theorem unstyled_of_not_mem {t : Text} (h : escape ∉ t) : unstyled t = t := by
  induction t with
  | nil => exact unstyled_nil
  | cons c t ih =>
      rw [List.mem_cons, not_or] at h
      rw [unstyled_cons_of_ne (Ne.symm h.1), ih h.2]

-- ======================================================== texts apart

/-- Whether a code can go on with a character behind its escape. -/
def goesOn (c : Char) : Bool := c = '[' || c.isDigit || c = 'm'

/-- What `p` accepts throughout does not reach into a text that opens with
something else. -/
theorem exists_eq_append_of_append_eq {p : Char → Bool} {t u k rest : Text}
    (h : t ++ u = k ++ rest) (hk : ∀ c ∈ k, p c = true) (hu : Text.opensWith p u = false) :
    ∃ w, t = k ++ w ∧ rest = w ++ u := by
  rcases List.append_eq_append_iff.1 h with ⟨w, hkt, hur⟩ | hin
  · cases w with
    | nil => exact ⟨[], by rw [List.append_nil] at hkt ⊢; exact hkt.symm, hur.symm⟩
    | cons c w =>
        have hc : p c = true := hk c (by rw [hkt]; simp)
        have hc' : p c = false := by
          rw [hur] at hu
          exact hu
        rw [hc] at hc'
        cases hc'
  · exact hin

/-- A code ends before a text that no code goes on with. -/
theorem afterCode?_append {c : Char} {t u : Text} (hu : Text.opensWith goesOn u = false) :
    afterCode? (c :: (t ++ u)) = (afterCode? (c :: t)).map (· ++ u) := by
  cases hcode : afterCode? (c :: t) with
  | some rest =>
      obtain ⟨n, ht, hn⟩ := afterCode?_eq_some_iff.1 hcode
      refine afterCode?_eq_some_iff.2 ⟨n, ?_, hn⟩
      rw [← List.cons_append, ht]
      simp
  | none =>
      refine Option.eq_none_iff_forall_ne_some.2 fun rest h => ?_
      obtain ⟨n, ht, hn⟩ := afterCode?_eq_some_iff.1 h
      obtain ⟨rfl, ht⟩ := List.cons.inj ht
      -- a code that ends in `u` would have to go on into it
      have hcut : t ++ u = ('[' :: (n ++ ['m'])) ++ rest := by simpa using ht
      have hgoes : ∀ c ∈ '[' :: (n ++ ['m']), goesOn c = true :=
        List.forall_mem_cons.2 ⟨rfl, List.forall_mem_append.2
          ⟨fun c hc => by simp [goesOn, hn.all_mem c hc], List.forall_mem_singleton.2 rfl⟩⟩
      obtain ⟨w, rfl, -⟩ := exists_eq_append_of_append_eq hcut hgoes hu
      have hwhole : afterCode? (escape :: ('[' :: (n ++ ['m']) ++ w)) = some w :=
        afterCode?_eq_some_iff.2 ⟨n, by simp, hn⟩
      rw [hcode] at hwhole
      cases hwhole

/-- The pass goes through a text and what no code goes on with as it goes
through each. -/
theorem unstyled_append (t : Text) {u : Text} (hu : Text.opensWith goesOn u = false) :
    unstyled (t ++ u) = unstyled t ++ unstyled u := by
  fun_induction unstyled t with
  | case1 => rfl
  | case2 c t rest hcode _ ih =>
      have happ := afterCode?_append (c := c) (t := t) hu
      rw [hcode] at happ
      rw [List.cons_append, unstyled_of_code happ, ih]
  | case3 c t hcode ih =>
      have happ := afterCode?_append (c := c) (t := t) hu
      rw [hcode] at happ
      rw [List.cons_append, unstyled_cons_of_no_code happ, ih, List.cons_append]

theorem unstyled_append_feed (t u : Text) :
    unstyled (t ++ '\n' :: u) = unstyled t ++ '\n' :: unstyled u := by
  rw [unstyled_append t rfl, unstyled_cons_of_ne (by decide)]

-- =============================================================== codes

/-- Codes, one behind the other. -/
def Codes (k : Text) : Prop := ∃ ns : List Nat, k = ns.flatMap code

/-- Turning styles on takes codes and nothing else. -/
theorem codes_allOn (styles : List Style) : Codes (Style.allOn styles) :=
  ⟨styles.map (·.numbers.1), by rw [List.flatMap_map]; rfl⟩

theorem codes_allOff (styles : List Style) : Codes (Style.allOff styles) :=
  ⟨styles.reverse.map (·.numbers.2), by rw [List.flatMap_map]; rfl⟩

/-- One code in front makes no difference to what remains. -/
theorem unstyled_code_append (n : Nat) (t : Text) : unstyled (code n ++ t) = unstyled t := by
  refine unstyled_of_code (afterCode?_eq_some_iff.2 ⟨Nat.toDigits 10 n, ?_, ?_⟩)
  · simp [code]
  · exact ⟨Nat.toDigits_ne_nil, fun c hc =>
      Nat.isDigit_of_mem_toDigits (by decide) (by decide) hc⟩

/-- Nothing remains of codes at the front. -/
theorem Codes.unstyled_append {k : Text} (hk : Codes k) (t : Text) :
    unstyled (k ++ t) = unstyled t := by
  obtain ⟨ns, rfl⟩ := hk
  induction ns with
  | nil => rfl
  | cons n ns ih => rw [List.flatMap_cons, List.append_assoc, unstyled_code_append, ih]

/-- Codes open with an escape character, so none goes on with what stands
before them. -/
theorem Codes.not_opensWith {k : Text} (hk : Codes k) : Text.opensWith goesOn k = false := by
  obtain ⟨ns, rfl⟩ := hk
  cases ns <;> rfl

/-- Nothing remains of codes that are put in front of what no code goes
on with. -/
theorem unstyled_insert {k : Text} (hk : Codes k) (t : Text) {u : Text}
    (hu : Text.opensWith goesOn u = false) :
    unstyled (t ++ (k ++ u)) = unstyled (t ++ u) := by
  rw [unstyled_append t (Text.opensWith_append_eq_false hk.not_opensWith hu), hk.unstyled_append,
    unstyled_append t hu]

namespace Style

-- ============================================================ at breaks

section

variable {before behind : Text}

/-- Nothing remains of the codes around a break, wherever it takes a
return with it. -/
theorem unstyled_aroundBreak (hbefore : Codes before) (hbehind : Codes behind)
    (line u : Text) :
    unstyled (aroundBreak before behind line ++ u) = unstyled (line ++ '\n' :: u) := by
  have hbehind' : ∀ t, unstyled (t ++ '\n' :: (behind ++ u)) = unstyled (t ++ '\n' :: u) := by
    intro t
    rw [unstyled_append_feed, hbehind.unstyled_append, ← unstyled_append_feed]
  unfold aroundBreak
  split
  · -- the codes go in front of the whole break, so a carriage return at the end goes
    -- behind them
    next hreturn =>
    obtain ⟨init, rfl⟩ := List.getLast?_eq_some_iff.1 hreturn
    rw [List.dropLast_concat]
    calc unstyled (init ++ before ++ '\r' :: '\n' :: behind ++ u)
        = unstyled (init ++ (before ++ '\r' :: '\n' :: (behind ++ u))) := by simp
      _ = unstyled (init ++ '\r' :: '\n' :: (behind ++ u)) := unstyled_insert hbefore init rfl
      _ = unstyled (init ++ ['\r'] ++ '\n' :: (behind ++ u)) := by simp
      _ = unstyled (init ++ ['\r'] ++ '\n' :: u) := hbehind' _
  · calc unstyled (line ++ before ++ '\n' :: behind ++ u)
        = unstyled (line ++ (before ++ '\n' :: (behind ++ u))) := by simp
      _ = unstyled (line ++ '\n' :: (behind ++ u)) := unstyled_insert hbefore line rfl
      _ = unstyled (line ++ '\n' :: u) := hbehind' line

/-- Codes around line breaks go, every one of them. -/
theorem unstyled_aroundBreaks (hbefore : Codes before) (hbehind : Codes behind) (t : Text) :
    unstyled (aroundBreaks before behind t) = unstyled t := by
  induction t using Text.line_induction with
  | single t ht => rw [aroundBreaks_of_not_mem before behind ht]
  | cons a b ha ih =>
      rw [aroundBreaks_append_cons before behind ha, unstyled_aroundBreak hbefore hbehind,
        unstyled_append_feed, ih, ← unstyled_append_feed]

end

-- ============================================================= at codes

/-- Nothing remains of a code that turns a style on again. -/
theorem unstyled_reopenPiece (s : Style) (piece : Text) :
    unstyled (reopenPiece s piece) = unstyled (escape :: piece) := by
  unfold reopenPiece
  split
  · next rest hrest =>
    have hoff : ∀ t, unstyled (s.off ++ t) = unstyled t := unstyled_code_append _
    have hon : ∀ t, unstyled (s.on ++ t) = unstyled t := unstyled_code_append _
    rw [← List.isPrefixOf?_eq_some_iff_append_eq.1 hrest, List.append_assoc, hoff, hon, hoff]
  · rfl

/-- A piece begins with its escape character, turned on again or not. -/
theorem not_opensWith_reopenPiece (s : Style) (piece : Text) :
    Text.opensWith goesOn (reopenPiece s piece) = false := by
  unfold reopenPiece
  split <;> rfl

/-- Each piece opens with an escape character and is apart from the one
before it. -/
theorem unstyled_flatMap_reopenPiece (s : Style) (pieces : List Text) :
    unstyled (pieces.flatMap (reopenPiece s)) = unstyled (pieces.flatMap (escape :: ·)) := by
  induction pieces with
  | nil => rfl
  | cons piece pieces ih =>
      rw [List.flatMap_cons, List.flatMap_cons,
        unstyled_append _ (Text.opensWith_flatMap_eq_false (not_opensWith_reopenPiece s) pieces),
        unstyled_append _ (Text.opensWith_flatMap_eq_false (fun _ => rfl) pieces),
        unstyled_reopenPiece, ih]

/-- A text cut at its escape characters, with each put back in front of
its piece. -/
theorem flatMap_cons_splitOn (t : Text) :
    (t.splitOn escape).flatMap (escape :: ·) = escape :: t := by
  have hjoin : ∀ piece pieces, (piece :: pieces).flatMap (escape :: ·)
      = escape :: [escape].intercalate (piece :: pieces) := by
    intro piece pieces
    induction pieces generalizing piece with
    | nil => simp
    | cons piece' pieces ih =>
        rw [List.flatMap_cons, ih, List.intercalate_cons_cons]
        simp
  obtain ⟨piece, pieces, hpieces⟩ := List.exists_cons_of_ne_nil (List.splitOn_ne_nil escape t)
  rw [hpieces, hjoin, ← hpieces, List.intercalate_splitOn]

/-- Turning a style on again leaves nothing behind. -/
theorem unstyled_reopen (s : Style) (t : Text) : unstyled (reopen s t) = unstyled t := by
  by_cases hmem : escape ∈ t
  · obtain ⟨a, b, rfl, ha⟩ := List.eq_append_cons_of_mem hmem
    have hpieces : Text.opensWith goesOn ((b.splitOn escape).flatMap (reopenPiece s)) = false :=
      Text.opensWith_flatMap_eq_false (not_opensWith_reopenPiece s) _
    rw [reopen_append_cons s ha, unstyled_append a hpieces, unstyled_flatMap_reopenPiece,
      flatMap_cons_splitOn, ← unstyled_append a rfl]
  · rw [reopen_of_not_mem s hmem]

-- ============================================================= painting

/-- Turning any number of styles on again leaves nothing behind. -/
theorem unstyled_foldr_reopen (styles : List Style) (t : Text) :
    unstyled (styles.foldr reopen t) = unstyled t := by
  induction styles with
  | nil => rfl
  | cons s styles ih => rw [List.foldr_cons, unstyled_reopen, ih]

/-- Nothing remains of styles. -/
theorem unstyled_paint (styles : List Style) (t : Text) :
    unstyled (paint styles t) = unstyled t := by
  have hon := codes_allOn styles
  have hoff := codes_allOff styles
  -- a text that brings codes of its own has the open ones renewed behind them
  have hinner : unstyled (if escape ∈ t then styles.foldr reopen t else t) = unstyled t := by
    split
    · exact unstyled_foldr_reopen styles t
    · rfl
  unfold paint
  split
  · next h => rw [List.isEmpty_iff.1 h]
  · generalize (if escape ∈ t then styles.foldr reopen t else t) = inner at hinner
    show unstyled (allOn styles ++ aroundBreaks (allOff styles) (allOn styles) inner
      ++ allOff styles) = _
    have hend := unstyled_insert hoff
      (allOn styles ++ aroundBreaks (allOff styles) (allOn styles) inner) (u := []) rfl
    rw [List.append_nil, List.append_nil] at hend
    rw [hend, hon.unstyled_append, unstyled_aroundBreaks hoff hon, hinner]

/-- A style is turned on again behind a code that turns it off, and does
not reach across a break; the code that is cut off stays cut off. -/
example : paint [.blue] "a\x1b[39mb\r\n\x1b[3".toList
    = "\x1b[34ma\x1b[39m\x1b[34mb\x1b[39m\r\n\x1b[34m\x1b[3\x1b[39m".toList := by
  decide

end Style

-- ============================================================= printing

/-- Where output goes. -/
inductive Channel where
  | stdout
  | stderr
  deriving DecidableEq, Repr

/-- A text on one channel, and nothing on the other. -/
def Printed.on : Channel → Text → Printed
  | .stdout, t => ⟨t, []⟩
  | .stderr, t => ⟨[], t⟩

/-- The channel of a notice: errors go to standard error. -/
def Notice.channel : Notice → Channel
  | .error _ => .stderr
  | _ => .stdout

namespace Console

theorem unstyled_paint (colour : Bool) (styles : List Style) (t : Text) :
    unstyled (paint colour styles t) = unstyled t := by
  unfold paint
  split
  · exact Style.unstyled_paint styles t
  · rfl

/-- A painted line is the line, codes aside. -/
theorem unstyled_paintLine (colour : Bool) (line : Text) :
    unstyled (paintLine colour line) = unstyled line := by
  unfold paintLine
  split
  · rfl
  · exact unstyled_paint colour _ line

/-- Lines change apart from each other. -/
theorem unstyled_joinLines_map {f : Text → Text} (hf : ∀ l, unstyled (f l) = unstyled l)
    (ls : List Text) : unstyled (Text.joinLines (ls.map f)) = unstyled (Text.joinLines ls) := by
  induction ls with
  | nil => rfl
  | cons l ls ih =>
      cases ls with
      | nil => simpa [Text.joinLines] using hf l
      | cons l' ls =>
          rw [List.map_cons, List.map_cons, Text.joinLines_cons_cons, unstyled_append_feed, hf,
            ← List.map_cons, ih, Text.joinLines_cons_cons, unstyled_append_feed]

/-- A painted report is the report, codes aside. -/
theorem unstyled_paintReport (colour : Bool) (report : Text) :
    unstyled (paintReport colour report) = unstyled report := by
  rw [paintReport, unstyled_joinLines_map (unstyled_paintLine colour), Text.joinLines,
    List.intercalate_splitOn]

theorem unstyled_paint_line (styles : List Style) (t : Text) :
    unstyled (paint true styles t ++ ['\n']) = unstyled (paint false styles t ++ ['\n']) := by
  rw [unstyled_append_feed, unstyled_append_feed, unstyled_paint, unstyled_paint]

/-- Colour leaves the text as it is. What a notice prints with colour on
goes where it goes with colour off, and without their codes the two are
the same; a report that has no escape character comes back when the
codes of its colours are taken out, and without colour it is printed as
it is. -/
theorem colour_leaves_text :
    (∀ n : Notice, ∃ coloured plain,
        print true n = .on n.channel coloured ∧ print false n = .on n.channel plain
          ∧ unstyled coloured = unstyled plain)
      ∧ (∀ report, escape ∉ report → unstyled (paintReport true report) = report)
      ∧ ∀ report, paintReport false report = report := by
  refine ⟨fun n => ?_, fun report h => ?_, paintReport_off⟩
  · cases n with
    | write t =>
        refine ⟨_, _, rfl, rfl, ?_⟩
        rw [unstyled_paintReport, unstyled_paintReport]
    | info t => exact ⟨_, _, rfl, rfl, unstyled_paint_line _ _⟩
    | success t => exact ⟨_, _, rfl, rfl, unstyled_paint_line _ _⟩
    | warn t => exact ⟨_, _, rfl, rfl, unstyled_paint_line _ _⟩
    | error t => exact ⟨_, _, rfl, rfl, unstyled_paint_line _ _⟩
    | separator => exact ⟨_, _, rfl, rfl, unstyled_paint_line _ _⟩
  · rw [unstyled_paintReport, unstyled_of_not_mem h]

/-- The report on a failed run, with all its colours. -/
theorem colour_leaves_text_failed_run :
    escape ∉ "\n✓   1. Open\n\n------------\n✕   2. Close ✕\n------------\n\n".toList
      ∧ unstyled (paintReport true
          "\n✓   1. Open\n\n------------\n✕   2. Close ✕\n------------\n\n".toList)
        = "\n✓   1. Open\n\n------------\n✕   2. Close ✕\n------------\n\n".toList := by
  have hplain : escape
      ∉ "\n✓   1. Open\n\n------------\n✕   2. Close ✕\n------------\n\n".toList := by
    decide
  exact ⟨hplain, colour_leaves_text.2.1 _ hplain⟩

end Console

end Runsheet
