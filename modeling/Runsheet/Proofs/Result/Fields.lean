/-
The grammar of result lines. A line says just these fields if the
keyword, the fields and the gaps before them, put together, are the line
(`Fields.Written`). The reader takes the fields off the front, each as
long as it can be; so it finds what a line says, if the line says
anything, and nothing else (`Fields.read?_eq_some_iff`).

The message needs a word of its own: it may be missing, and then so is
the gap in front of it (`Ending`).
-/
import Mathlib.Data.List.Basic
import Runsheet.Result.Line

namespace Runsheet.Result

/-- What may stand behind the total: nothing, or a gap and the message.
The gap is all the blanks there are, and the message breaks nowhere. -/
def Ending (message tail : Text) : Prop :=
  tail = [] ∧ message = []
    ∨ ∃ gap, tail = gap ++ message ∧ Text.IsGap gap
        ∧ Text.opensWith isBlank message = false ∧ ∀ c ∈ message, breaksMessage c = false

/-- The grammar of result lines: a line that says just these fields. -/
def Fields.Written (f : Fields) (line : Text) : Prop :=
  ∃ g₁ g₂ g₃ g₄ g₅ tail : Text,
    line = keyword ++ (g₁ ++ (f.status ++ (g₂ ++ (f.bucket ++ (g₃ ++ (f.name
      ++ (g₄ ++ (f.stage ++ (g₅ ++ (f.score ++ '/' :: (f.total ++ tail)))))))))))
    ∧ Text.IsGap g₁ ∧ Text.IsGap g₂ ∧ Text.IsGap g₃ ∧ Text.IsGap g₄ ∧ Text.IsGap g₅
    ∧ Text.IsWord f.status ∧ Text.IsWord f.bucket ∧ Text.IsWord f.name
    ∧ Text.IsWord f.stage ∧ Text.IsNumeral f.score ∧ Text.IsNumeral f.total
    ∧ Ending f.message tail

/-- The reader of messages against the grammar of endings. -/
theorem message?_eq_some_iff {tail message : Text} :
    message? tail = some message ↔ Ending message tail := by
  cases tail with
  | nil =>
    simp only [message?, Ending, true_and, Option.some.injEq]
    constructor
    · rintro rfl
      exact Or.inl rfl
    · rintro (rfl | ⟨gap, h, hg, -⟩)
      · rfl
      · exact absurd (List.append_eq_nil_iff.1 h.symm).1 hg.ne_nil
  | cons c tail =>
    simp only [message?, Ending, Option.filter_eq_some_iff, Text.afterGap?_eq_some_iff,
      reduceCtorEq, false_and, false_or, Bool.not_eq_true', List.any_eq_false]
    constructor
    · rintro ⟨⟨g, h, hg, ho⟩, hm⟩
      exact ⟨g, h, hg, ho, fun c hc => by simpa using hm c hc⟩
    · rintro ⟨g, h, hg, ho, hm⟩
      exact ⟨⟨g, h, hg, ho⟩, fun c hc => by simpa using hm c hc⟩

/-- Points are two numerals about a slash, and the second runs as far as
there are digits. -/
theorem points?_eq_some_iff {t score total tail : Text} :
    points? t = some (score, total, tail)
      ↔ t = score ++ '/' :: (total ++ tail) ∧ Text.IsNumeral score
        ∧ Text.IsNumeral total ∧ Text.opensWith Char.isDigit tail = false := by
  constructor
  · intro h
    rw [points?] at h
    split at h
    · next w r hr =>
      obtain ⟨rfl, hw, -⟩ := Text.span?_eq_some_iff.1 hr
      obtain ⟨⟨w', r'⟩, hr', he⟩ := Option.map_eq_some_iff.1 h
      obtain ⟨rfl, hw', ho⟩ := Text.span?_eq_some_iff.1 hr'
      cases he
      exact ⟨rfl, hw, hw', ho⟩
    · cases h
  · rintro ⟨rfl, hs, ht, ho⟩
    have h1 : Text.span? Char.isDigit (score ++ '/' :: (total ++ tail))
        = some (score, '/' :: (total ++ tail)) :=
      Text.span?_eq_some_iff.2 ⟨rfl, hs, rfl⟩
    have h2 : Text.span? Char.isDigit (total ++ tail) = some (total, tail) :=
      Text.span?_eq_some_iff.2 ⟨rfl, ht, ho⟩
    simp only [points?, h1, h2, Option.map_some]

/-- The reader follows the grammar, and no line says two things. -/
theorem Fields.read?_eq_some_iff {line : Text} {f : Fields} :
    read? line = some f ↔ f.Written line := by
  simp only [read?, bind, pure, Option.bind_eq_some_iff, Option.some.injEq, Prod.exists,
    List.isPrefixOf?_eq_some_iff_append_eq, Text.nextWord?_eq_some_iff, Text.afterGap?_eq_some_iff,
    points?_eq_some_iff, message?_eq_some_iff]
  constructor
  · rintro ⟨_, rfl, s, _, ⟨g₁, rfl, hg₁, hs, -⟩, b, _, ⟨g₂, rfl, hg₂, hb, -⟩,
      n, _, ⟨g₃, rfl, hg₃, hn, -⟩, st, _, ⟨g₄, rfl, hg₄, hst, -⟩, _, ⟨g₅, rfl, hg₅, -⟩,
      p, q, tail, ⟨rfl, hp, hq, -⟩, m, hm, rfl⟩
    exact ⟨g₁, g₂, g₃, g₄, g₅, tail, rfl, hg₁, hg₂, hg₃, hg₄, hg₅, hs, hb, hn, hst,
      hp, hq, hm⟩
  · rintro ⟨g₁, g₂, g₃, g₄, g₅, tail, rfl, hg₁, hg₂, hg₃, hg₄, hg₅, hs, hb, hn, hst,
      hp, hq, hm⟩
    -- the grammar leaves open that the total ends where its digits do; the ending
    -- says it
    have hd : Text.opensWith Char.isDigit tail = false := by
      rcases hm with ⟨rfl, -⟩ | ⟨g, rfl, hg, -⟩
      · rfl
      · exact Text.IsGap.not_opensWith_isDigit hg _
    exact ⟨_, rfl, f.status, _, ⟨g₁, rfl, hg₁, hs, Text.IsGap.not_opensWith_word hg₂ _⟩,
      f.bucket, _, ⟨g₂, rfl, hg₂, hb, Text.IsGap.not_opensWith_word hg₃ _⟩,
      f.name, _, ⟨g₃, rfl, hg₃, hn, Text.IsGap.not_opensWith_word hg₄ _⟩,
      f.stage, _, ⟨g₄, rfl, hg₄, hst, Text.IsGap.not_opensWith_word hg₅ _⟩,
      _, ⟨g₅, rfl, hg₅, Text.IsNumeral.not_opensWith_isBlank hp _⟩,
      f.score, f.total, tail, ⟨rfl, hp, hq, hd⟩, f.message, hm, rfl⟩

end Runsheet.Result
