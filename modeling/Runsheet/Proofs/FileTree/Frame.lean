/-
What an access to files leaves alone. Making directories, as far as it
comes, puts directories where nothing was and changes nothing else;
writing a file changes the place it names and nothing else, and a write
that fails changes nothing at all.

`Grown` is the invariant of making directories. One directory more
keeps it (`grown_makeDir`), so the whole recursion does
(`grown_makeDirs`), whether it ends well or not.
-/
import Runsheet.FileTree.Access

namespace Runsheet.FileTree

-- ============================================================ same files

/-- Two trees hold the same files with the same bytes, but for a place. -/
def SameFilesBut (q : Place) (t t' : FileTree) : Prop :=
  ∀ p, p ≠ q → ∀ bytes, t'.get? p = some (.file bytes) ↔ t.get? p = some (.file bytes)

/-- Two trees hold the same files with the same bytes. -/
def SameFiles (t t' : FileTree) : Prop :=
  ∀ p bytes, t'.get? p = some (.file bytes) ↔ t.get? p = some (.file bytes)

theorem SameFiles.refl (t : FileTree) : SameFiles t t := fun _ _ => Iff.rfl

-- ======================================================= more directories

/-- A tree with directories where another has nothing. -/
structure Grown (t t' : FileTree) : Prop where
  here : t'.here = t.here
  get? : ∀ p, t'.get? p = t.get? p ∨ t.get? p = none ∧ t'.get? p = some .dir

theorem Grown.refl (t : FileTree) : Grown t t := ⟨rfl, fun _ => Or.inl rfl⟩

/-- What grows twice has grown. -/
theorem Grown.trans {t t' t'' : FileTree} (h : Grown t t') (h' : Grown t' t'') :
    Grown t t'' := by
  refine ⟨h'.here.trans h.here, fun p => ?_⟩
  rcases h'.get? p with hp' | ⟨hn, hd⟩
  · rw [hp']
    exact h.get? p
  · rcases h.get? p with hp | ⟨-, hp⟩
    · rw [hp] at hn
      exact Or.inr ⟨hn, hd⟩
    · rw [hp] at hn
      cases hn

/-- Directories where there was nothing are no files. -/
theorem Grown.sameFiles {t t' : FileTree} (h : Grown t t') : SameFiles t t' := by
  intro p bytes
  rcases h.get? p with hp | ⟨hn, hd⟩
  · rw [hp]
  · rw [hn, hd]
    exact iff_of_false nofun nofun

/-- A directory where there is nothing makes a tree grow. -/
theorem grown_set {t : FileTree} {p : Place} (h : t.get? p = none) :
    Grown t (t.set p .dir) := by
  have hne := ne_nil_of_get?_eq_none h
  refine ⟨here_set t p .dir, fun q => ?_⟩
  rw [get?_set hne]
  split
  · next hq =>
    subst hq
    exact Or.inr ⟨h, rfl⟩
  · exact Or.inl rfl

/-- Making one directory adds it, or finds it there. -/
theorem grown_makeDir {t t' : FileTree} {path : Text} (h : t.makeDir path = .ok t') :
    Grown t t' := by
  unfold makeDir at h
  split at h
  · cases h
  · next p hp =>
    split at h
    · cases h
    · next hn =>
      cases h
      exact grown_set hn

/-- Settling decides on a fault; the tree is the one it was given, or
the one with the new directory. -/
theorem settleDir_fst (t : FileTree) (nested : Bool) (path : Text)
    (r : Except Fault FileTree) :
    (t.settleDir nested path r).1 = t ∨ ∃ t', r = .ok t' ∧ (t.settleDir nested path r).1 = t' := by
  unfold settleDir
  split
  · next t' => exact Or.inr ⟨t', rfl, rfl⟩
  · split <;> exact Or.inl rfl
  · exact Or.inl rfl

/-- With the fault settled a tree has still only grown. -/
theorem grown_settleDir {t : FileTree} (nested : Bool) (path : Text) :
    Grown t (t.settleDir nested path (t.makeDir path)).1 := by
  rcases settleDir_fst t nested path (t.makeDir path) with h | ⟨t', hr, h⟩
  · rw [h]
    exact Grown.refl t
  · rw [h]
    exact grown_makeDir hr

/-- However far making directories comes, it only adds directories. -/
theorem grown_makeDirs (t : FileTree) (nested : Bool) (path : Text) :
    Grown t (t.makeDirs nested path).1 := by
  -- over the directories above: each is made after those it stands in
  induction nested, path using makeDirs.induct t with
  | case1 _ _ hmake hslash =>
      rw [makeDirs_of_top hmake hslash]
      exact Grown.refl t
  | case2 _ _ hmake _ hslash _ _ _ habove ih =>
      rw [makeDirs_of_above hmake hslash, habove]
      rw [habove] at ih
      exact ih
  | case3 nested path hmake _ hslash _ _ habove ih =>
      rw [makeDirs_of_above hmake hslash, habove]
      rw [habove] at ih
      exact ih.trans (grown_settleDir nested path)
  | case4 nested path hmake =>
      rw [makeDirs_of_not_missing hmake]
      exact grown_settleDir nested path

-- =============================================================== writing

/-- After a write the path leads to the place that was written, and at
no other place has a file changed. -/
theorem sameFilesBut_write {t t' : FileTree} {path : Text} {bytes : List UInt8}
    (h : t.write path bytes = .ok t') :
    ∃ p, t'.locate path = .ok p ∧ SameFilesBut p t t' := by
  obtain ⟨p, hp, hd, rfl⟩ := write_eq_ok h
  refine ⟨p, locate_set hd hp, fun q hq bytes' => ?_⟩
  rw [get?_set (ne_nil_of_get?_ne_dir hd), if_neg hq]

/-- What holds of all files but one after a first change, holds after a
second that changes no file before it. -/
theorem SameFiles.trans_but {t t' t'' : FileTree} {q : Place} (h : SameFiles t t')
    (h' : SameFilesBut q t' t'') : SameFilesBut q t t'' :=
  fun p hp bytes => (h' p hp bytes).trans (h p bytes)

end Runsheet.FileTree
