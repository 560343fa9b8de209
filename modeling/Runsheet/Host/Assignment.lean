/-
Assignments. An assignment file gives variables their values, one to a
line: a name, an equals sign and the value. The word `export` may stand
before the name, and a colon with a blank behind it may stand for the
equals sign. Blanks before the name, before the sign and around the
value do not count. A number sign ends the value and opens a comment.
What assigns nothing is skipped, line by line.

A value may be quoted, with any of three quotes; then it may hold number
signs and line breaks. The closing quote ends its line, apart from
blanks and a comment. If no quote does, the value is not quoted after
all, and ends where its line or a comment does. Either way one pair of
quotes around the whole value is taken off, and a value that opens with
the double quote has `\n` and `\r` in it spelled out.

Breaks are made alike before anything is read: a return is a break, and
so is a line feed, and the two together are one. A name is read from the
start of a line only. As a value moves on to what stands behind it, and
a line to the next, the text left to read is always a suffix of the text
before (`isSuffix_of_read?`), which is why reading ends.
-/
import Runsheet.Text.Lines
import Runsheet.Text.Span

namespace Runsheet

/-- A variable and its value. -/
abbrev Assignment := Text × Text

namespace Assignment

-- ============================================================== breaks

/-- The text with every break a line feed. -/
def withPlainBreaks (t : Text) : Text :=
  Text.joinLines (t.lines.flatMap (·.splitOn '\r'))

/-- The characters behind which a line starts: the line feed and the two
separators. -/
def isBreak (c : Char) : Bool := c = '\n' || c = '\u2028' || c = '\u2029'

/-- The text from the start of the next line, if there is one. -/
def nextLine? (t : Text) : Option Text :=
  match t.dropWhile (! isBreak ·) with
  | [] => none
  | _ :: rest => some rest

-- ======================================================== quoted values

/-- The three quotes. -/
def isQuote (c : Char) : Bool := c = '\x27' || c = '\x22' || c = '\x60'

/-- The ways to close a quoted value, the longest first: what stands
between the quotes, and what stands behind them. A quote behind a
backslash may close the value or belong to it; any other closes it.
`seen` is what the value holds so far, last character first. -/
def closings (quote : Char) (seen : Text) : Text → List (Text × Text)
  | [] => []
  | c :: rest =>
    if c = quote then
      if seen.head? = some '\\' then
        closings quote (c :: seen) rest ++ [(seen.reverse, rest)]
      else [(seen.reverse, rest)]
    else closings quote (c :: seen) rest

/-- Whether a quoted value may end before this text: blanks apart, the
line, the text or a comment must. -/
def endsLine (rest : Text) : Bool :=
  (rest.takeWhile isBlank).any isBreak
    || ((rest.dropWhile isBlank).head?.all (· = '#'))

/-- The quoted value at the front, in its quotes. -/
def quoted? (t : Text) : Option (Text × Text) :=
  match t.trimStart with
  | [] => none
  | quote :: rest =>
    if isQuote quote then
      ((closings quote [] rest).find? (endsLine ·.2)).map fun (inner, rest) =>
        (quote :: inner ++ [quote], rest)
    else none

-- =============================================================== values

/-- The characters of a value that is not quoted. -/
def isValueChar (c : Char) : Bool := c ≠ '#' && c ≠ '\n'

/-- The value at the front as it is written. -/
def written (t : Text) : Text × Text :=
  (quoted? t).getD (t.takeWhile isValueChar, t.dropWhile isValueChar)

/-- The text less the pair of quotes around it, if there is one. -/
def unquoted (t : Text) : Text :=
  match t with
  | [] => []
  | quote :: rest =>
    if isQuote quote && rest.getLast? = some quote then rest.dropLast else t

/-- The text with the breaks that it spells. -/
def spelledOut : Text → Text
  | '\\' :: 'n' :: rest => '\n' :: spelledOut rest
  | '\\' :: 'r' :: rest => '\r' :: spelledOut rest
  | c :: rest => c :: spelledOut rest
  | [] => []

/-- The value that a written one stands for. -/
def value (written : Text) : Text :=
  let inner := unquoted written.trim
  if written.trim.head? = some '\x22' then spelledOut inner else inner

-- ================================================================ lines

/-- The characters of a name. -/
def isNameChar (c : Char) : Bool := c.isAlphanum || c = '_' || c = '.' || c = '-'

/-- What stands behind the sign that joins a value to its name. -/
def afterSign? (t : Text) : Option Text :=
  match t with
  | ':' :: c :: rest => if isBlank c then some rest else none
  | _ =>
    match t.trimStart with
    | '=' :: rest => some rest
    | _ => none

/-- What stands behind the word `export` and its gap. -/
def afterExport? (t : Text) : Option Text :=
  if "export".toList <+: t then Text.afterGap? (t.drop 6) else none

/-- The assignment whose name stands at the front. -/
def readNamed? (t : Text) : Option (Assignment × Text) :=
  (Text.span? isNameChar t).bind fun (name, rest) =>
    (afterSign? rest).map fun rest => ((name, value (written rest).1), (written rest).2)

/-- The assignment at the front of a line. -/
def read? (t : Text) : Option (Assignment × Text) :=
  ((afterExport? t.trimStart).bind readNamed?).or (readNamed? t.trimStart)

-- =================================================== nothing is read twice

/-- The next line is behind at least one character, so reading ends. -/
theorem length_lt_of_nextLine? {t r : Text} (h : nextLine? t = some r) :
    r.length < t.length := by
  have hs := (List.dropWhile_suffix (! isBreak ·) (l := t)).length_le
  rw [nextLine?] at h
  split at h
  · cases h
  · next hd =>
    cases h
    rw [hd] at hs
    exact hs

/-- However a quoted value is closed, the text goes on behind it. -/
theorem isSuffix_of_mem_closings {q : Char} {seen t : Text} {r : Text × Text}
    (h : r ∈ closings q seen t) : r.2 <:+ t := by
  induction t generalizing seen with
  | nil => cases h
  | cons c t ih =>
    have hc : t <:+ c :: t := List.suffix_cons c t
    rw [closings] at h
    split at h
    · split at h
      · rcases List.mem_append.1 h with h | h
        · exact (ih h).trans hc
        · exact List.mem_singleton.1 h ▸ hc
      · exact List.mem_singleton.1 h ▸ hc
    · exact (ih h).trans hc

theorem isSuffix_of_quoted? {t : Text} {r : Text × Text} (h : quoted? t = some r) :
    r.2 <:+ t := by
  rw [quoted?] at h
  split at h
  · cases h
  · next q rest ht =>
    split at h
    · obtain ⟨x, hx, rfl⟩ := Option.map_eq_some_iff.1 h
      have hrest : rest <:+ t :=
        (List.suffix_cons q rest).trans (ht ▸ Text.isSuffix_trimStart t)
      exact (isSuffix_of_mem_closings (List.mem_of_find?_eq_some hx)).trans hrest
    · cases h

/-- What stands behind a value is a suffix of the text, quotes or not. -/
theorem isSuffix_written (t : Text) : (written t).2 <:+ t := by
  rw [written]
  cases h : quoted? t with
  | none => exact List.dropWhile_suffix isValueChar
  | some r => exact isSuffix_of_quoted? h

theorem isSuffix_of_afterSign? {t r : Text} (h : afterSign? t = some r) : r <:+ t := by
  unfold afterSign? at h
  split at h
  · split at h
    · cases h
      exact (List.suffix_cons _ _).trans (List.suffix_cons _ _)
    · cases h
  · split at h
    · next ht =>
      cases h
      exact (List.suffix_cons _ _).trans (ht ▸ Text.isSuffix_trimStart t)
    · cases h

/-- What stands behind an assignment without the word `export` is a suffix of
the text. -/
theorem isSuffix_of_readNamed? {t : Text} {r : Assignment × Text}
    (h : readNamed? t = some r) : r.2 <:+ t := by
  obtain ⟨x, hx, h⟩ := Option.bind_eq_some_iff.1 h
  obtain ⟨y, hy, rfl⟩ := Option.map_eq_some_iff.1 h
  obtain ⟨ht, -, -⟩ := Text.span?_eq_some_iff.1 (show _ = some (x.1, x.2) from hx)
  exact (isSuffix_written y).trans ((isSuffix_of_afterSign? hy).trans ⟨x.1, ht.symm⟩)

theorem isSuffix_of_afterExport? {t r : Text} (h : afterExport? t = some r) :
    r <:+ t := by
  rw [afterExport?] at h
  split at h
  · obtain ⟨gap, hgap, -⟩ := Text.afterGap?_eq_some_iff.1 h
    exact (show r <:+ t.drop 6 from ⟨gap, hgap.symm⟩).trans (List.drop_suffix 6 t)
  · cases h

/-- What stands behind an assignment is a suffix of the text. -/
theorem isSuffix_of_read? {t : Text} {r : Assignment × Text} (h : read? t = some r) :
    r.2 <:+ t := by
  have hstart : t.trimStart <:+ t := Text.isSuffix_trimStart t
  rcases Option.or_eq_some_iff.1 h with h | ⟨-, h⟩
  · obtain ⟨x, hx, h⟩ := Option.bind_eq_some_iff.1 h
    exact (isSuffix_of_readNamed? h).trans ((isSuffix_of_afterExport? hx).trans hstart)
  · exact (isSuffix_of_readNamed? h).trans hstart

-- =============================================================== files

/-- What stands behind the assignment at the front of a line, if there
is one. -/
def behind (t : Text) : Text := ((read? t).map Prod.snd).getD t

theorem isSuffix_behind (t : Text) : behind t <:+ t := by
  rw [behind]
  cases h : read? t with
  | none => exact List.suffix_refl t
  | some r => exact isSuffix_of_read? h

/-- The assignments of a text that begins at the start of a line. -/
def ofLines (t : Text) : List Assignment :=
  ((read? t).map Prod.fst).toList ++
    match _next : nextLine? (behind t) with
    | none => []
    | some rest => ofLines rest
termination_by t.length
decreasing_by
  exact Nat.lt_of_lt_of_le (length_lt_of_nextLine? _next) (isSuffix_behind t).length_le

/-- The assignments of a file, in order. -/
def ofFile (file : Text) : List Assignment := ofLines (withPlainBreaks file)

end Assignment

end Runsheet
