/-
The grammar of argument lists. `Spells` says which arguments make up
one item, and `SpellsAll` puts items one behind the other; neither
knows of states or of an order of reading. The reader accepts exactly
the lists of this grammar, and what it returns is the one way to take
such a list apart (`readAll_eq_ok_iff`).

Left to right the argument is an induction over the reader, with the
waiting flag put back in front of the arguments. Right to left every
item is read alone (`readAll_of_spells`) and items are read one behind
the other (`readFrom_append`).
-/
import Runsheet.CommandLine.Item

namespace Runsheet.Item

/-- The arguments that spell one item. -/
inductive Spells : Item → List Text → Prop where
  | help {flag : Text} : flag ∈ helpFlags → Spells .help [flag]
  | list : Spells .list [listFlag]
  | apart {key : Key} {flag v : Text} :
      Key.ofFlag? flag = some key → isValue v = true → Spells (.value key v) [flag, v]
  | joined {key : Key} {flag v : Text} :
      Key.ofFlag? flag = some key → isValue v = true →
        Spells (.value key v) [flag ++ '=' :: v]

/-- The arguments that spell items one behind the other. -/
inductive SpellsAll : List Item → List Text → Prop where
  | nil : SpellsAll [] []
  | cons {item : Item} {words : List Text} {items : List Item} {args : List Text} :
      Spells item words → SpellsAll items args → SpellsAll (item :: items) (words ++ args)

-- ================================================================ flags

theorem map_eq_ok_iff {ε α β : Type _} {f : α → β} {x : Except ε α} {b : β} :
    x.map f = .ok b ↔ ∃ a, x = .ok a ∧ f a = b := by
  cases x <;> simp [Except.map]

theorem map_eq_error_iff {ε α β : Type _} {f : α → β} {x : Except ε α} {e : ε} :
    x.map f = .error e ↔ x = .error e := by
  cases x <;> simp [Except.map]

/-- No flag is empty, holds `=`, or asks for help or the list. -/
theorem of_ofFlag?_eq_some {flag : Text} {key : Key} (h : Key.ofFlag? flag = some key) :
    flag ≠ [] ∧ '=' ∉ flag ∧ flag ∉ helpFlags ∧ flag ≠ listFlag := by
  have hall : ∀ k ∈ Key.all, ∀ f ∈ k.flags,
      f ≠ [] ∧ '=' ∉ f ∧ f ∉ helpFlags ∧ f ≠ listFlag := by decide +kernel
  have hf : flag ∈ key.flags := by simpa using List.find?_some h
  exact hall key (List.mem_of_find?_eq_some h) flag hf

/-- A flag takes an argument that is a value, and no other. -/
theorem withValue_eq_ok_iff {p : Pending} {v : Text} {item : Item} :
    withValue p v = .ok item ↔ item = .value p.key v ∧ isValue v = true := by
  rw [withValue]
  split
  · next h => simp [h, eq_comm]
  · next h => simp [h]

/-- A flag without `=` is taken whole, one with `=` is cut there. -/
theorem splitJoined_of_not_mem {arg : Text} (h : '=' ∉ arg) : splitJoined arg = (arg, none) := by
  rw [splitJoined]
  split
  · next flag v hr =>
    obtain ⟨rfl, -⟩ := Text.span?_eq_some_iff.1 hr
    simp at h
  · rfl

/-- A joined argument is parted at the first sign, whatever its value holds.
-/
theorem splitJoined_append {flag : Text} (hne : flag ≠ []) (h : '=' ∉ flag) (v : Text) :
    splitJoined (flag ++ '=' :: v) = (flag, some v) := by
  have hr : Text.span? (· ≠ '=') (flag ++ '=' :: v) = some (flag, '=' :: v) := by
    refine Text.span?_eq_some_iff.2 ⟨rfl, ⟨hne, fun c hc => ?_⟩, rfl⟩
    simp only [decide_not, Bool.not_eq_true', decide_eq_false_iff_not]
    rintro rfl
    exact h hc
  simp only [splitJoined, hr]

/-- What is cut at `=` is put together again. -/
theorem eq_of_splitJoined {arg flag v : Text} (h : splitJoined arg = (flag, some v)) :
    arg = flag ++ '=' :: v := by
  rw [splitJoined] at h
  split at h
  · next hr =>
    cases h
    exact (Text.span?_eq_some_iff.1 hr).1
  · cases h

-- ================================================== one argument, one item

/-- A whole item between items is spelled by its argument. -/
theorem spells_of_readWord_whole {arg : Text} {item : Item}
    (h : readWord arg = .ok (.whole item)) : Spells item [arg] := by
  rw [readWord] at h
  split at h
  · next hh =>
    cases h
    exact .help hh
  · split at h
    · next hl =>
      cases h
      exact hl ▸ .list
    · split at h
      next flag joined hj =>
      split at h
      · cases h
      · cases h
      · next key v hk =>
        obtain ⟨item', hv, he⟩ := map_eq_ok_iff.1 h
        cases he
        obtain ⟨rfl, hv'⟩ := withValue_eq_ok_iff.1 hv
        exact eq_of_splitJoined hj ▸ .joined hk hv'

/-- A flag between items is the argument itself. -/
theorem of_readWord_flag {arg : Text} {p : Pending} (h : readWord arg = .ok (.flag p)) :
    p.flag = arg ∧ Key.ofFlag? arg = some p.key := by
  rw [readWord] at h
  split at h
  · cases h
  · split at h
    · cases h
    · split at h
      next flag joined hj =>
      split at h
      · cases h
      · next key hk =>
        cases h
        have hf : flag = arg := by
          rw [splitJoined] at hj
          split at hj
          · cases hj
          · exact (Prod.mk.inj hj).1.symm
        exact ⟨hf, hf ▸ hk⟩
      · next key v hk =>
        obtain ⟨item', -, he⟩ := map_eq_ok_iff.1 h
        cases he

/-- A flag alone waits for its value. -/
theorem readWord_of_flag {flag : Text} {key : Key} (hkey : Key.ofFlag? flag = some key) :
    readWord flag = .ok (.flag ⟨flag, key⟩) := by
  obtain ⟨-, he, hh, hl⟩ := of_ofFlag?_eq_some hkey
  simp [readWord, hh, hl, splitJoined_of_not_mem he, hkey]

/-- A flag with a value joined to it is a whole item, if the value can be
one. -/
theorem readWord_of_joined {flag : Text} {key : Key} (hkey : Key.ofFlag? flag = some key)
    (v : Text) : readWord (flag ++ '=' :: v) = (withValue ⟨flag, key⟩ v).map .whole := by
  obtain ⟨hne, he, -, -⟩ := of_ofFlag?_eq_some hkey
  have hh : flag ++ '=' :: v ∉ helpFlags := by
    intro hm
    have hall : ∀ f ∈ helpFlags, '=' ∉ f := by decide
    exact hall _ hm (by simp)
  have hl : flag ++ '=' :: v ≠ listFlag := by
    intro hm
    have hnone : '=' ∉ listFlag := by decide
    exact hnone (hm ▸ by simp)
  simp [readWord, hh, hl, splitJoined_append hne he, hkey]

/-- A flag and a value are read as one item or refused for the value,
whether they stand apart or are joined. -/
theorem readAll_of_flag {flag : Text} {key : Key} (hkey : Key.ofFlag? flag = some key)
    (v : Text) :
    readAll [flag, v] = (withValue ⟨flag, key⟩ v).map ([·])
      ∧ readAll [flag ++ '=' :: v] = (withValue ⟨flag, key⟩ v).map ([·]) := by
  have hflag := readWord_of_flag hkey
  have hjoined := readWord_of_joined hkey v
  cases hv : withValue ⟨flag, key⟩ v with
  | error e => simp [readAll, readFrom, hflag, hjoined, hv, Except.map]
  | ok item => simp [readAll, readFrom, hflag, hjoined, hv, Except.map]

/-- The arguments of one item are read as that item. -/
theorem readAll_of_spells {item : Item} {words : List Text} (h : Spells item words) :
    readAll words = .ok [item] := by
  cases h with
  | help hf => simp [readAll, readFrom, readWord, hf, Except.map]
  | list =>
    have hl : listFlag ∉ helpFlags := by decide
    simp [readAll, readFrom, readWord, hl, Except.map]
  | apart hk hv =>
    rw [(readAll_of_flag hk _).1, withValue_eq_ok_iff.2 ⟨rfl, hv⟩]
    rfl
  | joined hk hv =>
    rw [(readAll_of_flag hk _).2, withValue_eq_ok_iff.2 ⟨rfl, hv⟩]
    rfl

-- ============================================================ the grammar

/-- The arguments behind a flag that waits, with the flag in front of
them, are spelled as the reader takes them apart. -/
theorem spellsAll_of_readFrom {pending : Option Pending} {args : List Text}
    {items : List Item} (hp : ∀ p ∈ pending, Key.ofFlag? p.flag = some p.key)
    (h : readFrom pending args = .ok items) :
    SpellsAll items (pending.toList.map Pending.flag ++ args) := by
  -- along the reader: `hp` says that a flag waiting for its value was read as a
  -- flag
  fun_induction readFrom pending args generalizing items with
  | case1 => cases h; exact .nil
  | case2 => cases h
  | case3 => cases h
  | case4 p v args item hv ih =>
    obtain ⟨rest, hr, rfl⟩ := map_eq_ok_iff.1 h
    obtain ⟨rfl, hv'⟩ := withValue_eq_ok_iff.1 hv
    show SpellsAll _ ([p.flag, v] ++ args)
    exact .cons (.apart (hp p rfl) hv') (ih (by simp) hr)
  | case5 => cases h
  | case6 arg args item hw ih =>
    obtain ⟨rest, hr, rfl⟩ := map_eq_ok_iff.1 h
    show SpellsAll _ ([arg] ++ args)
    exact .cons (spells_of_readWord_whole hw) (ih (by simp) hr)
  | case7 arg args p hw ih =>
    obtain ⟨hf, hk⟩ := of_readWord_flag hw
    have := ih (fun q hq => by cases hq; exact hf ▸ hk) h
    simpa [hf] using this

/-- The reader accepts exactly the lists that the grammar spells, and
takes them apart as it does. -/
theorem readAll_eq_ok_iff {args : List Text} {items : List Item} :
    readAll args = .ok items ↔ SpellsAll items args := by
  constructor
  · exact fun h => spellsAll_of_readFrom (by simp) h
  · intro h
    induction h with
    | nil => rfl
    | cons hs _ ih =>
      rw [readAll, readFrom_append (readAll_of_spells hs), ih]
      rfl

end Runsheet.Item
