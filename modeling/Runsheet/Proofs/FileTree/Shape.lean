/-
The shape of a tree: at which places there is a directory, a file or
nothing, whatever the bytes. It decides where a path leads, which
directories can be made, and whether a file can be written. So two
trees of one shape take the same accesses to the same end, with the
same fault if there is one, and have one shape again behind them.

Only reading sees more than the shape, and it sees one file.
-/
import Runsheet.FileTree.Access

namespace Runsheet.FileTree

/-- Two trees have directories, files and nothing at the same places,
and the same place that relative paths start from. -/
structure SameShape (t t' : FileTree) : Prop where
  here : t'.here = t.here
  get? : ∀ p, t.get? p = none ∧ t'.get? p = none
    ∨ t.get? p = some .dir ∧ t'.get? p = some .dir
    ∨ ∃ bytes bytes', t.get? p = some (.file bytes) ∧ t'.get? p = some (.file bytes')

/-- An access ends the same way twice: in one fault, or in trees of one
shape. -/
inductive SameEnd {ε : Type} : Except ε FileTree → Except ε FileTree → Prop where
  | error (e : ε) : SameEnd (.error e) (.error e)
  | ok {t t' : FileTree} (h : SameShape t t') : SameEnd (.ok t) (.ok t')

/-- A fault comes up in both trees or in neither. -/
theorem SameEnd.error_iff {ε : Type} {r r' : Except ε FileTree} {e : ε} (h : SameEnd r r') :
    r = .error e ↔ r' = .error e := by
  cases h with
  | error _ => rfl
  | ok _ => exact iff_of_false nofun nofun

/-- Another content for a file leaves the shape. -/
theorem sameShape_set {t : FileTree} {p : Place} {bytes : List UInt8}
    (h : t.get? p = some (.file bytes)) (bytes' : List UInt8) :
    SameShape t (t.set p (.file bytes')) := by
  have hne := ne_nil_of_get?_eq_file h
  refine ⟨here_set t p _, fun q => ?_⟩
  rw [get?_set hne]
  split
  · next hq =>
    rw [hq]
    exact Or.inr (Or.inr ⟨bytes, bytes', h, rfl⟩)
  · cases hq : t.get? q with
    | none => exact Or.inl ⟨rfl, rfl⟩
    | some e =>
        cases e with
        | dir => exact Or.inr (Or.inl ⟨rfl, rfl⟩)
        | file b => exact Or.inr (Or.inr ⟨b, b, rfl, rfl⟩)

namespace SameShape

variable {t t' : FileTree} (h : SameShape t t')
include h

/-- One entry more, the same in both, leaves the shapes the same. -/
theorem set {p : Place} (hne : p ≠ []) (e : Entry) :
    SameShape (t.set p e) (t'.set p e) := by
  refine ⟨h.here, fun q => ?_⟩
  rw [get?_set hne, get?_set hne]
  split
  · cases e with
    | dir => exact Or.inr (Or.inl ⟨rfl, rfl⟩)
    | file b => exact Or.inr (Or.inr ⟨b, b, rfl, rfl⟩)
  · exact h.get? q

-- ============================================================ following

/-- Walking asks where the directories are, and nothing else. -/
theorem walk (p : Place) (pieces : List Text) : t'.walk p pieces = t.walk p pieces := by
  induction pieces generalizing p with
  | nil => rfl
  | cons piece rest ih =>
      unfold FileTree.walk
      rcases h.get? p with ⟨hp, hp'⟩ | ⟨hp, hp'⟩ | ⟨b, b', hp, hp'⟩
      · rw [hp, hp']
      · simp only [hp, hp', ih]
      · rw [hp, hp']

/-- Following a path asks where the directories are, and nothing else. -/
theorem follow (path : Text) (pieces : List Text) :
    t'.follow path pieces = t.follow path pieces := by
  unfold FileTree.follow
  rw [h.here, h.walk]

/-- A path leads to the same place. -/
theorem locate (path : Text) : t'.locate path = t.locate path := h.follow path _

/-- A path leads to the same place without the slashes at its end, too. -/
theorem locateTarget (path : Text) : t'.locateTarget path = t.locateTarget path :=
  h.follow path _

-- ============================================================== reading

/-- Reading sees one file more than the shape. -/
theorem readText {path : Text} (hp : ∀ p, t.locate path = .ok p → t'.get? p = t.get? p) :
    t'.readText path = t.readText path := by
  unfold FileTree.readText FileTree.readBytes
  rw [h.locate]
  cases hl : t.locate path with
  | error f => rfl
  | ok p =>
      simp only
      rw [hp p hl]

-- =================================================== making directories

/-- Making one directory ends the same way. -/
theorem makeDir (path : Text) : SameEnd (t.makeDir path) (t'.makeDir path) := by
  unfold FileTree.makeDir
  rw [h.locateTarget]
  cases t.locateTarget path with
  | error f => exact .error f
  | ok p =>
      rcases h.get? p with ⟨hp, hp'⟩ | ⟨hp, hp'⟩ | ⟨b, b', hp, hp'⟩
      · simp only [hp, hp']
        exact .ok (h.set (ne_nil_of_get?_eq_none hp) .dir)
      · simp only [hp, hp']
        exact .error Fault.exists
      · simp only [hp, hp']
        exact .error Fault.exists

/-- What a fault is taken for depends on the shape, too. -/
theorem settleDir (nested : Bool) (path : Text) {r r' : Except Fault FileTree}
    (hr : SameEnd r r') :
    (t'.settleDir nested path r').2 = (t.settleDir nested path r).2
      ∧ SameShape (t.settleDir nested path r).1 (t'.settleDir nested path r').1 := by
  -- only what exists is looked up again, and there both trees have the same kind of
  -- entry
  cases hr with
  | ok h' => exact ⟨rfl, h'⟩
  | error f =>
      unfold FileTree.settleDir FileTree.stat
      rw [h.locate]
      cases f with
      | «exists» =>
          cases t.locate path with
          | error f => exact ⟨rfl, h⟩
          | ok p =>
              simp only
              rcases h.get? p with ⟨hp, hp'⟩ | ⟨hp, hp'⟩ | ⟨b, b', hp, hp'⟩ <;> rw [hp, hp'] <;>
                exact ⟨rfl, h⟩
      | missing => exact ⟨rfl, h⟩
      | notDirectory => exact ⟨rfl, h⟩
      | isDirectory => exact ⟨rfl, h⟩
      | nameTooLong => exact ⟨rfl, h⟩

/-- Making a directory and all those above it ends alike in trees of one
shape. The recursion is that of the paths. -/
theorem makeDirs (nested : Bool) (path : Text) :
    (t'.makeDirs nested path).2 = (t.makeDirs nested path).2
      ∧ SameShape (t.makeDirs nested path).1 (t'.makeDirs nested path).1 := by
  -- Making one directory ends alike in both trees, so the second recursion
  -- takes the branch of the first at every level.
  induction nested, path using FileTree.makeDirs.induct t with
  | case1 nested path hmake hslash =>
      have hmake' := (h.makeDir path).error_iff.1 hmake
      rw [makeDirs_of_top hmake hslash, makeDirs_of_top hmake' hslash]
      exact ⟨rfl, h⟩
  | case2 nested path hmake above hslash _ u e habove ih =>
      have hmake' := (h.makeDir path).error_iff.1 hmake
      rw [makeDirs_of_above hmake hslash, makeDirs_of_above hmake' hslash, habove]
      rw [habove] at ih
      cases hdirs' : t'.makeDirs true above with
      | mk u' e' =>
          rw [hdirs'] at ih
          cases ih.1
          exact ih
  | case3 nested path hmake above hslash _ u habove ih =>
      have hmake' := (h.makeDir path).error_iff.1 hmake
      rw [makeDirs_of_above hmake hslash, makeDirs_of_above hmake' hslash, habove]
      rw [habove] at ih
      cases hdirs' : t'.makeDirs true above with
      | mk u' e' =>
          rw [hdirs'] at ih
          cases ih.1
          exact ih.2.settleDir nested path (ih.2.makeDir path)
  | case4 nested path hmake =>
      have hmake' := mt (h.makeDir path).error_iff.2 hmake
      rw [makeDirs_of_not_missing hmake, makeDirs_of_not_missing hmake']
      exact h.settleDir nested path (h.makeDir path)

-- =============================================================== writing

/-- A write ends the same way, and leaves the same bytes in both. -/
theorem write (path : Text) (bytes : List UInt8) :
    SameEnd (t.write path bytes) (t'.write path bytes) := by
  unfold FileTree.write
  rw [h.follow, h.locate]
  split
  · cases t.follow path (Path.target path).dropLast with
    | error f => exact .error _
    | ok p =>
        simp only
        rcases h.get? p with ⟨hp, hp'⟩ | ⟨hp, hp'⟩ | ⟨b, b', hp, hp'⟩ <;> rw [hp, hp'] <;>
          exact .error _
  · cases t.locate path with
    | error f => exact .error _
    | ok p =>
        rcases h.get? p with ⟨hp, hp'⟩ | ⟨hp, hp'⟩ | ⟨b, b', hp, hp'⟩
        · simp only [hp, hp']
          exact .ok (h.set (ne_nil_of_get?_eq_none hp) _)
        · simp only [hp, hp']
          exact .error _
        · simp only [hp, hp']
          exact .ok (h.set (ne_nil_of_get?_eq_file hp) _)

end SameShape

end Runsheet.FileTree
