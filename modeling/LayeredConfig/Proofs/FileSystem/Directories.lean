import LayeredConfig.FileSystem.Change
import LayeredConfig.Proofs.FileSystem.Following

/-!
# Directories on the way of a path

Making the directory of a path, with those around it that are missing, makes directories where
nothing was and changes nothing else. Each of them is where the path leads, or a path that is left
when its last parts are dropped.
-/

namespace LayeredConfig

/-- A path, and the paths of the directories around it. -/
inductive Path.Outward : Path → Path → Prop
  | here (path : Path) : Outward path path
  | around {path parent outer : Path} (h : path.parent? = some parent)
      (outward : Outward parent outer) : Outward path outer

namespace FileSystem

/-- Some places where nothing was have become directories, each on the way of a path. All else is as
it was. -/
structure DirectoriesMade (before after : FileSystem) (path : Path) : Prop where
  workingDirectory : after.workingDirectory = before.workingDirectory
  places : ∀ place, after.nodeAt place = before.nodeAt place ∨
    before.nodeAt place = none ∧ after.nodeAt place = some .directory ∧
      ∃ outer, path.Outward outer ∧ after.locate outer = .ok place

namespace DirectoriesMade

variable {before after : FileSystem} {path : Path}

/-- Nothing may be made. -/
theorem refl (fs : FileSystem) (path : Path) : fs.DirectoriesMade fs path :=
  ⟨rfl, fun _ ↦ .inl rfl⟩

/-- Nothing that was there is lost. -/
theorem grows (h : before.DirectoriesMade after path) : before.Grows after := by
  refine ⟨h.workingDirectory, fun place node hn ↦ ?_⟩
  rcases h.places place with hp | ⟨hp, -⟩
  · rw [hp, hn]
  · rw [hp] at hn
    cases hn

/-- More directories may be made. -/
theorem trans {more : FileSystem} (h : before.DirectoriesMade after path)
    (h' : after.DirectoriesMade more path) : before.DirectoriesMade more path := by
  refine ⟨h'.workingDirectory.trans h.workingDirectory, fun place ↦ ?_⟩
  rcases h.places place with hp | ⟨hnone, hdir, outer, ho, hl⟩
  · rw [← hp]
    exact h'.places place
  · exact .inr ⟨hnone, h'.grows.kept place _ hdir, outer, ho, h'.grows.locate hl⟩

private theorem of_parent {parent : Path} (hp : path.parent? = some parent)
    (h : before.DirectoriesMade after parent) : before.DirectoriesMade after path := by
  refine ⟨h.workingDirectory, fun place ↦ (h.places place).imp_right ?_⟩
  rintro ⟨hnone, hdir, outer, ho, hl⟩
  exact ⟨hnone, hdir, outer, .around hp ho, hl⟩

end DirectoriesMade

/-! ### One directory -/

/-- The parts of a path are the trimmed ones and empty ones behind them. -/
theorem exists_partsOf_eq (path : Path) :
    ∃ idle, partsOf path = trimmedParts path ++ idle ∧ ∀ part ∈ idle, part = "" := by
  refine ⟨((partsOf path).reverse.takeWhile fun part ↦ part = "").reverse, ?_, fun part hp ↦ ?_⟩
  · rw [trimmedParts, ← List.reverse_append, List.takeWhile_append_dropWhile, List.reverse_reverse]
  · simpa using List.all_eq_true.mp List.all_takeWhile part (List.mem_reverse.mp hp)

/-- The destination of parts is the place that they lead to. -/
theorem walk_of_destination {fs : FileSystem} {parts : List String} {origin parent : Location}
    {name : String} (h : fs.destination parts origin = .ok (name, parent)) :
    fs.walk parts origin = .ok (name :: parent) := by
  rw [destination] at h
  cases hr : parts.reverse with
  | nil => simp [hr] at h
  | cons last front =>
    have hparts : parts = front.reverse ++ [last] := by
      rw [← List.reverse_reverse parts, hr, List.reverse_cons]
    simp only [hr] at h
    split at h
    · cases h
    · next around hwalk =>
      split at h
      · cases h
      · next place hlast =>
        split at h
        · cases h
        · next hplain =>
          simp only [Except.ok.injEq, Prod.mk.injEq] at h
          obtain ⟨rfl, rfl⟩ := h
          simp only [not_or] at hplain
          obtain ⟨hn, next, hs, hnext⟩ := walk_cons_eq_ok_iff.mp hlast
          have hplace : next = last :: around := by
            rw [step, if_neg (by simp [hplain]), if_neg hplain.2.2] at hs
            split at hs
            · cases hs
            · exact (Except.ok.inj hs).symm
          rw [hparts]
          exact walk_append_eq_ok_iff.mpr ⟨around, hwalk,
            walk_cons_eq_ok_iff.mpr ⟨hn, next, hs, by rw [walk, hplace]⟩⟩

/-- A directory is made by putting it at the destination of its path, where nothing was. -/
theorem makeDirectory_eq_put {fs made : FileSystem} {path : Path}
    (h : fs.makeDirectory path = .ok made) :
    ∃ name parent, ∃ hp : fs.nodeAt parent = some .directory,
      ∃ hn : fs.nodeAt (name :: parent) = none,
        unusable? path = none ∧
          fs.destination (trimmedParts path) (fs.start path) = .ok (name, parent) ∧
          made = fs.put name parent .directory hp (by simp [hn]) := by
  rw [makeDirectory] at h
  split at h
  · cases h
  · next hu =>
    split at h
    · cases h
    · next part rest htrim =>
      split at h
      · cases h
      · next name parent hdest =>
        split at h
        · next hfree =>
          split at h
          · cases h
          · exact ⟨name, parent, hfree.1, hfree.2, hu, by rw [htrim, hdest],
              (Except.ok.inj h).symm⟩
        · cases h

private theorem makeDirectory_eq_ok {fs made : FileSystem} {path : Path}
    (h : fs.makeDirectory path = .ok made) :
    ∃ place, fs.nodeAt place = none ∧ made.locate path = .ok place ∧
      made.nodeAt place = some .directory ∧ made.workingDirectory = fs.workingDirectory ∧
      ∀ other, other ≠ place → made.nodeAt other = fs.nodeAt other := by
  obtain ⟨name, parent, hp, hn, hu, hdest, rfl⟩ := makeDirectory_eq_put h
  have hself := nodeAt_put_self fs name parent .directory hp (by simp [hn])
  have hothers {other : Location} (ho : other ≠ name :: parent) :=
    nodeAt_put_of_ne fs .directory hp (by simp [hn]) ho
  refine ⟨name :: parent, hn, locate_eq_ok_iff.mpr ⟨hu, ?_⟩, hself, rfl, fun other ho ↦ hothers ho⟩
  obtain ⟨idle, hparts, hidle⟩ := exists_partsOf_eq path
  have hkept (l : Location) (hl : fs.nodeAt l = some .directory) :
      (fs.put name parent .directory hp (by simp [hn])).nodeAt l = some .directory := by
    by_cases he : l = name :: parent
    · rw [he]
      exact hself
    · rw [hothers he, hl]
  rw [hparts]
  exact walk_append_eq_ok_iff.mpr
    ⟨_, walk_mono hkept (walk_of_destination hdest), walk_idle hidle hself⟩

private theorem directoriesMade_tryDirectory (fs : FileSystem) (path : Path) :
    fs.DirectoriesMade (fs.tryDirectory path) path := by
  rw [tryDirectory]
  split
  · next made hm =>
    obtain ⟨place, hnone, hl, hdir, hw, hothers⟩ := makeDirectory_eq_ok hm
    refine ⟨hw, fun other ↦ ?_⟩
    by_cases ho : other = place
    · subst ho
      exact .inr ⟨hnone, hdir, path, .here path, hl⟩
    · exact .inl (hothers other ho)
  · exact .refl fs path

/-! ### All that are missing -/

private theorem directoriesMade_makeDirectories (fuel : Nat) (path : Path) (fs : FileSystem) :
    fs.DirectoriesMade (makeDirectories fuel path fs) path := by
  induction fuel generalizing path with
  | zero => exact .refl fs path
  | succ fuel ih =>
    rw [makeDirectories]
    split
    · exact .refl fs path
    · split
      · next parent _ hp =>
        exact (DirectoriesMade.of_parent hp (ih parent)).trans (directoriesMade_tryDirectory _ path)
      · exact directoriesMade_tryDirectory fs path

/-- Making a directory with all that are missing around it makes directories on its way. -/
theorem directoriesMade_createDirectories (fs : FileSystem) (path : Path) :
    fs.DirectoriesMade (fs.createDirectories path) path :=
  directoriesMade_makeDirectories _ path fs

end FileSystem

end LayeredConfig
