/-
What becomes of one line of a log, by the grammar alone. An entry is
everything there is to a result line, gaps included; `text` puts its
parts together again. A line is nothing, a result or an error, and which
of these it is can be told from its opening and from the entries that
put it together.

# No line is two entries

Every part ends where the next begins: a word at a blank, a gap at what
is not blank, a numeral at a slash, at a blank or at the end. Since no
part can be extended by what follows, a text opens with one such part
only (`GapWord.append_inj`), and the parts of an entry come apart one
after the other from the left (`Entry.text_injective`).

# Messages

A message takes all that stands behind its gap, blanks and all, but no
character that breaks a line. The grammar of fields also allows a gap
with nothing behind it. A trimmed line does not end in a gap, so there
the message is missing together with its gap, or neither is
(`written_iff_entry`).

# The errors

Only a line that opens with the keyword and a space can be in error. If
no entry puts it together it is malformed, and the error names the line
as it was given, before trimming. If one does, and so just one, the
status is all that can be wrong, and the error names the status as it is
written.
-/
import Runsheet.Proofs.Result.Entries

namespace Runsheet.Result

-- ============================================================== entries

/-- A message and the gap in front of it. -/
@[ext] structure Remark where
  gap : Text
  message : Text
  gap_isGap : Text.IsGap gap
  message_ne_nil : message ≠ []
  message_opens : Text.opensWith isBlank message = false
  message_unbroken : ∀ c ∈ ['\n', '\r', '\u2028', '\u2029'], c ∉ message

/-- The parts of a result line, all blanks included. -/
@[ext] structure Entry where
  status : Text.GapWord
  bucket : Text.GapWord
  name : Text.GapWord
  stage : Text.GapWord
  gap : Text
  score : Text
  total : Text
  remark : Option Remark
  gap_isGap : Text.IsGap gap
  score_isNumeral : Text.IsNumeral score
  total_isNumeral : Text.IsNumeral total

theorem breaksMessage_eq_true_iff {c : Char} :
    breaksMessage c = true ↔ c ∈ ['\n', '\r', '\u2028', '\u2029'] := by
  simp [breaksMessage, or_assoc]

/-- A message breaks nowhere if it holds no character of the four. -/
theorem breaksMessage_eq_false_iff {message : Text} :
    (∀ c ∈ message, breaksMessage c = false)
      ↔ ∀ c ∈ ['\n', '\r', '\u2028', '\u2029'], c ∉ message := by
  constructor
  · intro h c hc hmem
    rw [← breaksMessage_eq_true_iff, h c hmem] at hc
    cases hc
  · intro h c hmem
    rw [Bool.eq_false_iff, ne_eq, breaksMessage_eq_true_iff]
    intro hc
    exact h c hc hmem

namespace Remark

/-- The gap, then the message. -/
def text (m : Remark) : Text := m.gap ++ m.message

/-- No remark can be taken for more digits of the total. -/
theorem not_opensWith_isDigit (m : Remark) :
    Text.opensWith Char.isDigit m.text = false :=
  m.gap_isGap.not_opensWith_isDigit m.message

/-- A remark can be told from its text: the blanks come to their end where
the message begins. -/
theorem text_injective {m m' : Remark} (h : m.text = m'.text) : m = m' := by
  obtain ⟨hgap, hmessage⟩ := Text.append_inj_of_not_opensWith m.gap_isGap.all_mem
    m'.gap_isGap.all_mem m.message_opens m'.message_opens h
  exact Remark.ext hgap hmessage

theorem text_ne_nil (m : Remark) : m.text ≠ [] := by
  intro h
  exact m.gap_isGap.ne_nil (List.append_eq_nil_iff.1 h).1

end Remark

namespace Entry

/-- What stands behind the total. -/
def ending (e : Entry) : Text := (e.remark.map Remark.text).getD []

/-- The message, empty where there is none. -/
def message (e : Entry) : Text := (e.remark.map Remark.message).getD []

/-- What stands behind the stage. -/
def points (e : Entry) : Text := e.gap ++ (e.score ++ '/' :: (e.total ++ e.ending))

/-- The line that the parts put together. -/
def text (e : Entry) : Text :=
  keyword
    ++ (e.status.text ++ (e.bucket.text ++ (e.name.text ++ (e.stage.text ++ e.points))))

/-- What the parts say, without the blanks. -/
def fields (e : Entry) : Fields :=
  ⟨e.status.word, e.bucket.word, e.name.word, e.stage.word, e.score, e.total, e.message⟩

-- ====================================================== read in one way

/-- No ending can be taken for more digits of the total. -/
theorem ending_not_opensWith_isDigit (e : Entry) :
    Text.opensWith Char.isDigit e.ending = false := by
  unfold ending
  cases e.remark with
  | none => rfl
  | some m => exact m.not_opensWith_isDigit

/-- An ending has one remark. -/
theorem ending_inj {e e' : Entry} (h : e.ending = e'.ending) : e.remark = e'.remark := by
  unfold ending at h
  -- a remark has a text, so no entry without one has the same ending
  cases hm : e.remark with
  | none =>
      cases hm' : e'.remark with
      | none => rfl
      | some m' =>
          rw [hm, hm'] at h
          exact absurd h.symm m'.text_ne_nil
  | some m =>
      cases hm' : e'.remark with
      | none =>
          rw [hm, hm'] at h
          exact absurd h m.text_ne_nil
      | some m' =>
          rw [hm, hm'] at h
          exact congrArg some (Remark.text_injective h)

/-- Points stand behind a gap, and so no word runs into them. -/
theorem points_not_opensWith_word (e : Entry) :
    Text.opensWith (! isBlank ·) e.points = false :=
  e.gap_isGap.not_opensWith_word _

/-- The points of an entry and all that is behind them are told from the
text. -/
theorem points_inj {e e' : Entry} (h : e.points = e'.points) :
    e.gap = e'.gap ∧ e.score = e'.score ∧ e.total = e'.total ∧ e.remark = e'.remark := by
  have hslash : ∀ t : Text, Text.opensWith Char.isDigit ('/' :: t) = false := fun _ => rfl
  obtain ⟨hgap, hrest⟩ := Text.append_inj_of_not_opensWith e.gap_isGap.all_mem
    e'.gap_isGap.all_mem (e.score_isNumeral.not_opensWith_isBlank _)
    (e'.score_isNumeral.not_opensWith_isBlank _) h
  obtain ⟨hscore, hrest⟩ := Text.append_inj_of_not_opensWith e.score_isNumeral.all_mem
    e'.score_isNumeral.all_mem (hslash _) (hslash _) hrest
  obtain ⟨htotal, hending⟩ := Text.append_inj_of_not_opensWith e.total_isNumeral.all_mem
    e'.total_isNumeral.all_mem e.ending_not_opensWith_isDigit
    e'.ending_not_opensWith_isDigit (List.cons.inj hrest).2
  exact ⟨hgap, hscore, htotal, ending_inj hending⟩

/-- No line is two entries. -/
theorem text_injective {e e' : Entry} (h : e.text = e'.text) : e = e' := by
  have hrest := List.append_cancel_left h
  obtain ⟨hstatus, hrest⟩ := Text.GapWord.append_inj
    (e.bucket.not_opensWith_word _) (e'.bucket.not_opensWith_word _) hrest
  obtain ⟨hbucket, hrest⟩ := Text.GapWord.append_inj
    (e.name.not_opensWith_word _) (e'.name.not_opensWith_word _) hrest
  obtain ⟨hname, hrest⟩ := Text.GapWord.append_inj
    (e.stage.not_opensWith_word _) (e'.stage.not_opensWith_word _) hrest
  obtain ⟨hstage, hpoints⟩ := Text.GapWord.append_inj
    e.points_not_opensWith_word e'.points_not_opensWith_word hrest
  obtain ⟨hgap, hscore, htotal, hremark⟩ := points_inj hpoints
  exact Entry.ext hstatus hbucket hname hstage hgap hscore htotal hremark

-- ============================================================ the fields

/-- What the entry has for its message is what the grammar reads in its
ending. -/
theorem ending_message (e : Entry) : Ending e.message e.ending := by
  unfold message ending
  cases e.remark with
  | none => exact Or.inl ⟨rfl, rfl⟩
  | some m =>
      exact Or.inr ⟨m.gap, rfl, m.gap_isGap, m.message_opens,
        breaksMessage_eq_false_iff.2 m.message_unbroken⟩

/-- A text that does not end in a blank ends in a message and its gap, or
in neither. -/
theorem exists_remark {message tail : Text} (h : Ending message tail)
    (hlast : ∀ c ∈ tail.getLast?, isBlank c = false) :
    ∃ remark : Option Remark,
      tail = (remark.map Remark.text).getD []
        ∧ message = (remark.map Remark.message).getD [] := by
  rcases h with ⟨rfl, rfl⟩ | ⟨gap, rfl, hgap, hopens, hbreaks⟩
  · exact ⟨none, rfl, rfl⟩
  · have hne : message ≠ [] := by
      rintro rfl
      obtain ⟨c, hc⟩ := Option.ne_none_iff_exists'.1
        (mt List.getLast?_eq_none_iff.1 hgap.ne_nil)
      have hblank := hgap.all_mem c (List.mem_of_getLast? hc)
      rw [hlast c (by rw [List.append_nil, hc]; rfl)] at hblank
      cases hblank
    exact ⟨some ⟨gap, message, hgap, hne, hopens, breaksMessage_eq_false_iff.1 hbreaks⟩,
      rfl, rfl⟩

/-- On a line that does not end in a blank, the fields that are written are
those of its entry. -/
theorem written_iff_entry {f : Fields} {line : Text}
    (hlast : ∀ c, line.getLast? = some c → isBlank c = false) :
    f.Written line ↔ ∃ e : Entry, e.text = line ∧ e.fields = f := by
  constructor
  · intro h
    obtain ⟨g₁, g₂, g₃, g₄, g₅, tail, rfl, hg₁, hg₂, hg₃, hg₄, hg₅, hs, hb, hn, hst, hp,
      hq, hending⟩ := h
    -- an ending of blanks alone would leave the line with a blank at its end
    have htail : ∀ c ∈ tail.getLast?, isBlank c = false := by
      intro c hc
      apply hlast
      simp [List.getLast?_append, List.getLast?_cons, Option.mem_def.1 hc]
    obtain ⟨remark, rfl, hmessage⟩ := exists_remark hending htail
    refine ⟨⟨⟨g₁, f.status, hg₁, hs⟩, ⟨g₂, f.bucket, hg₂, hb⟩, ⟨g₃, f.name, hg₃, hn⟩,
      ⟨g₄, f.stage, hg₄, hst⟩, g₅, f.score, f.total, remark, hg₅, hp, hq⟩, ?_, ?_⟩
    · simp only [text, points, ending, Text.GapWord.text_append]
    · rw [fields, message, ← hmessage]
  · intro h
    obtain ⟨e, rfl, rfl⟩ := h
    refine ⟨e.status.gap, e.bucket.gap, e.name.gap, e.stage.gap, e.gap, e.ending, ?_,
      e.status.gap_isGap, e.bucket.gap_isGap, e.name.gap_isGap, e.stage.gap_isGap,
      e.gap_isGap, e.status.word_isWord, e.bucket.word_isWord, e.name.word_isWord,
      e.stage.word_isWord, e.score_isNumeral, e.total_isNumeral, e.ending_message⟩
    simp only [text, points, fields, Text.GapWord.text_append]

/-- A result says what an entry says. -/
def Reports (e : Entry) (r : Result) : Prop :=
  ∃ s, Status.parse e.status.word = .ok s
    ∧ r = ⟨s, e.bucket.word, e.name.word, e.stage.word, .ofDigits e.score,
        .ofDigits e.total, e.message⟩

end Entry

-- =================================================== what a line becomes

/-- The opening that makes a line a result line, the blanks around the
line aside. -/
def Opening (l : Text) : Prop := keyword ++ [' '] <+: l.trim

/-- A line is taken exactly if it opens like an entry. -/
theorem isTaken_iff {l : Text} : isTaken l = true ↔ Opening l :=
  List.isPrefixOf_iff_prefix

/-- Fields are written in a line exactly if an entry with those fields makes
up its text. -/
theorem written_trim_iff {f : Fields} {l : Text} :
    f.Written l.trim ↔ ∃ e : Entry, e.text = l.trim ∧ e.fields = f :=
  Entry.written_iff_entry fun _ => Text.isBlank_eq_false_of_getLast?_trim

/-- A line carries a result exactly if an entry that reports it makes up its
text. -/
theorem carries_iff_entry {l : Text} {r : Result} :
    Carries l r ↔ ∃ e : Entry, e.text = l.trim ∧ e.Reports r := by
  constructor
  · intro h
    obtain ⟨f, s, hf, hs, rfl⟩ := h
    obtain ⟨e, he, rfl⟩ := written_trim_iff.1 hf
    exact ⟨e, he, s, Status.parse_eq_ok_iff.2 hs, rfl⟩
  · intro h
    obtain ⟨e, he, s, hs, rfl⟩ := h
    have hwritten : e.fields.Written l.trim := written_trim_iff.2 ⟨e, he, rfl⟩
    exact ⟨e.fields, s, hwritten, Status.parse_eq_ok_iff.1 hs, rfl⟩

/-- A line that opens so is nothing but its fields, or an error. -/
theorem ofLine_of_opening {l : Text} (h : Opening l) :
    ofLine l = match Fields.read? l.trim with
      | some f => (ofFields f).map some
      | none => .error (.malformed l) :=
  if_pos (isTaken_iff.2 h)

/-- A line that opens like an entry and is none is malformed, and the error
has the whole line. -/
theorem ofLine_of_no_entry {l : Text} (hopen : Opening l)
    (h : ∀ e : Entry, e.text ≠ l.trim) : ofLine l = .error (.malformed l) := by
  have hnone : Fields.read? l.trim = none := by
    cases hf : Fields.read? l.trim with
    | none => rfl
    | some f =>
        obtain ⟨e, he, -⟩ := written_trim_iff.1 (Fields.read?_eq_some_iff.1 hf)
        exact absurd he (h e)
  rw [ofLine_of_opening hopen, hnone]

/-- An entry with an unknown status is refused by that word. -/
theorem ofLine_of_unknown {l : Text} {e : Entry} (hopen : Opening l)
    (he : e.text = l.trim) (h : ∀ s, Status.parse e.status.word ≠ .ok s) :
    ofLine l = .error (.unknownStatus e.status.word) := by
  have hread : Fields.read? l.trim = some e.fields :=
    Fields.read?_eq_some_iff.2 (written_trim_iff.2 ⟨e, he, rfl⟩)
  have hstatus : Status.parse e.fields.status = .error (.unknownStatus e.status.word) :=
    Status.parse_eq_error h
  rw [ofLine_of_opening hopen, hread]
  simp only [ofFields, hstatus]
  rfl

/-- Reading a line fails, and the error names a text. -/
def FailsWith (l culprit : Text) : Prop := ∃ e, ofLine l = .error e ∧ e.culprit = culprit

/-- A line is no result line exactly if it does not open like one. If it
does, it gives the results that its entries report; without an entry it
fails with the whole line, and with an entry of unknown status it fails
with that status. No line is two entries, so these are all the cases and
they exclude each other. -/
theorem ofLine_by_grammar (l : Text) :
    (ofLine l = .ok none ↔ ¬ Opening l)
      ∧ (Opening l →
          (∀ r, ofLine l = .ok (some r) ↔ ∃ e : Entry, e.text = l.trim ∧ e.Reports r)
          ∧ ((∀ e : Entry, e.text ≠ l.trim) → FailsWith l l)
          ∧ ∀ e : Entry, e.text = l.trim → (∀ s, Status.parse e.status.word ≠ .ok s) →
              FailsWith l e.status.word)
      ∧ ∀ e e' : Entry, e.text = l.trim → e'.text = l.trim → e = e' := by
  refine ⟨?opening, ?reading, ?unique⟩
  case opening =>
    rw [ofLine_eq_ok_none_iff, ← isTaken_iff, Bool.not_eq_true]
  case reading =>
    intro hopen
    refine ⟨?_, ?_, ?_⟩
    · intro r
      rw [ofLine_eq_ok_some_iff, carries_iff_entry]
      exact and_iff_right (isTaken_iff.2 hopen)
    · intro h
      exact ⟨_, ofLine_of_no_entry hopen h, rfl⟩
    · intro e he hs
      exact ⟨_, ofLine_of_unknown hopen he hs, rfl⟩
  case unique =>
    intro e e' he he'
    exact Entry.text_injective (he.trans he'.symm)

/-- A line with gaps of every kind, a leading zero and a message with
blanks inside. -/
theorem ofLine_by_grammar_gaps :
    Opening " RESULT \tPass\tsystem t  BETA 07/10 \n two  words\r".toList
      ∧ ofLine " RESULT \tPass\tsystem t  BETA 07/10 \n two  words\r".toList
        = .ok (some ⟨.pass, "system".toList, "t".toList, "BETA".toList, .ofDigits "07".toList,
            .ofDigits "10".toList, "two  words".toList⟩) := by
  have hopen : Opening " RESULT \tPass\tsystem t  BETA 07/10 \n two  words\r".toList :=
    isTaken_iff.1 (by decide)
  refine ⟨hopen, (((ofLine_by_grammar _).2.1 hopen).1 _).2
    ⟨?entry, ?text, .pass, ?status, ?result⟩⟩
  case entry =>
    exact ⟨⟨" \t".toList, "Pass".toList, by decide, by decide⟩,
      ⟨"\t".toList, "system".toList, by decide, by decide⟩,
      ⟨" ".toList, "t".toList, by decide, by decide⟩,
      ⟨"  ".toList, "BETA".toList, by decide, by decide⟩, " ".toList, "07".toList, "10".toList,
      some ⟨" \n ".toList, "two  words".toList, by decide, by decide, rfl, by simp⟩,
      by decide, by decide, by decide⟩
  case text => decide
  case status => decide
  case result => rfl

end Runsheet.Result
