import Lifecycle.Store.Staging
import Mathlib.Logic.Function.Basic

/-!
# What is read after a change

A route is followed through directories, so it leads to the same place on every disk that has those
directories (`locate_mono`). Where every step of a replacement succeeds (`Replaces`), the new bytes
stand where their route leads and every other file is as it was (`Replaces.spec`), so that they are
read back from there (`read_replace`); where one fails, all files are as they were
(`file?_of_replace_failed`).
-/

namespace Lifecycle.Disk

variable {d d' left : Disk} {path source target : Path} {route : Route} {bytes : List UInt8}


/-- Where there are more directories, names lead to the same place. -/
theorem follow_mono (h : ∀ p, d.item? p = some .directory → d'.item? p = some .directory)
    (hfollow : d.follow path route = .ok target) : d'.follow path route = .ok target := by
  induction route generalizing path with
  | nil => exact hfollow
  | cons name rest ih =>
    unfold follow at hfollow ⊢
    split at hfollow
    · rename_i hdirectory
      rw [h path hdirectory]
      split at hfollow
      · cases hfollow
      · rename_i hname
        exact (if_neg hname).trans (ih hfollow)
    · cases hfollow
    · cases hfollow

theorem locate_mono (h : ∀ p, d.item? p = some .directory → d'.item? p = some .directory)
    (hlocate : d.locate route = .ok target) : d'.locate route = .ok target := by
  unfold locate at hlocate ⊢
  split at hlocate
  · cases hlocate
  · exact follow_mono h hlocate

/-- What can be read is there. -/
theorem exists?_of_read (h : d.read route = .ok bytes) : d.exists? route = .ok true := by
  unfold read at h
  split at h
  · cases h
  · rename_i path hlocate
    rw [exists?, hlocate]
    split at h
    · rename_i hitem
      simp only [hitem, Option.isSome_some]
    · cases h
    · cases h

/-! ## Files -/

/-- The bytes of the file at a path, if there is one. -/
def file? (d : Disk) (path : Path) : Option (List UInt8) :=
  match d.item? path with
  | some (.file bytes) => some bytes
  | _ => none

theorem file?_congr (h : d'.item? path = d.item? path) : d'.file? path = d.file? path := by
  rw [file?, file?, h]

theorem file?_put (d : Disk) (h : isAround path = false) (bytes : List UInt8) :
    (d.put path (.file bytes)).file? = Function.update d.file? path (some bytes) := by
  funext other
  rcases eq_or_ne other path with rfl | hne
  · rw [Function.update_self, file?, item?_put _ _ _ h, if_pos rfl]
  · rw [Function.update_of_ne hne]
    exact file?_congr ((item?_put _ _ _ h).trans (if_neg hne))

theorem file?_remove (d : Disk) (h : isAround path = false) :
    (d.remove path).file? = Function.update d.file? path none := by
  funext other
  rcases eq_or_ne other path with rfl | hne
  · rw [Function.update_self, file?, item?_remove _ _ h, if_pos rfl]
  · rw [Function.update_of_ne hne]
    exact file?_congr ((item?_remove _ _ h).trans (if_neg hne))

/-- Making directories changes no file. -/
theorem file?_ensure (d : Disk) (route : Route) : (d.ensure route).1.file? = d.file? := by
  funext path
  rcases item?_ensureReversed d route.reverse path with hsame | ⟨hnone, hdirectory⟩
  · exact file?_congr hsame
  · rw [file?, file?, ensure, hnone, hdirectory]

/-! ## Steps of a replacement -/

theorem createTemporary_spec {created : Disk} {directory temporary : Path}
    (h : d.createTemporary directory = .ok (created, temporary)) :
    d.item? temporary = none ∧ created = d.put temporary (.file []) := by
  unfold createTemporary at h
  split at h
  · rename_i place hvacant
    split at h
    · cases h
    · obtain ⟨rfl, rfl⟩ := Prod.mk.inj (Except.ok.inj h)
      exact ⟨item?_of_vacant? hvacant, rfl⟩
  · cases h

theorem fill_spec (h : d.fill path bytes = .ok left) : left = d.put path (.file bytes) := by
  unfold fill at h
  split at h
  · cases h
  · exact (Except.ok.inj h).symm

theorem move_spec (h : d.move source target = .ok left) :
    ∃ item, d.item? source = some item ∧ d.item? target ≠ some .directory ∧
      left = (d.remove source).put target item := by
  unfold move at h
  split at h
  · cases h
  · cases h
  · rename_i item hitem hnot
    split at h
    · cases h
    · exact ⟨item, hitem, hnot, (Except.ok.inj h).symm⟩

/-- Every step succeeds by which bytes are put to where a route leads: the directory is there or is
made, a temporary file is created in it and filled, and then moved to where the route leads. -/
inductive Replaces (d : Disk) (route : Route) (bytes : List UInt8) (left : Disk) : Prop where
  | intro {ready created filled : Disk} {directory temporary target : Path}
      (directory_made : d.ensure route.dropLast = (ready, none))
      (directory_found : ready.locate route.dropLast = .ok directory)
      (file_created : ready.createTemporary directory = .ok (created, temporary))
      (file_filled : created.fill temporary bytes = .ok filled)
      (target_found : filled.locate route = .ok target)
      (file_moved : filled.move temporary target = .ok left)

theorem replace_eq_none_iff :
    d.replace route bytes = (left, none) ↔ d.Replaces route bytes left := by
  constructor
  · intro h
    unfold replace at h
    split at h
    · cases h
    rename_i ready hready
    split at h
    · cases h
    rename_i directory hdirectory
    unfold replaceIn at h
    split at h
    · cases h
    rename_i created temporary hcreated
    unfold fillAndMove at h
    split at h
    · cases h
    rename_i replaced hreplaced
    obtain rfl : replaced = left := (Prod.mk.inj h).1
    split at hreplaced
    · cases hreplaced
    rename_i filled hfilled
    split at hreplaced
    · cases hreplaced
    rename_i target htarget
    exact ⟨hready, hdirectory, hcreated, hfilled, htarget, hreplaced⟩
  · rintro ⟨hready, hdirectory, hcreated, hfilled, htarget, hmoved⟩
    rw [replace, hready]
    simp only [hdirectory, replaceIn, hcreated, fillAndMove, hfilled, htarget, hmoved]

/-- Where every step succeeds, the bytes stand where the route leads, and every other file is as it
was. -/
theorem Replaces.spec (h : d.Replaces route bytes left) :
    ∃ target, left.locate route = .ok target ∧
      left.file? = Function.update d.file? target (some bytes) := by
  obtain ⟨hready, -, hcreated, hfilled, htarget, hmoved⟩ := h
  rename_i ready created filled _ temporary target
  obtain ⟨hvacant, rfl⟩ := createTemporary_spec hcreated
  obtain rfl := fill_spec hfilled
  have htemporary := isAround_of_item?_eq_none hvacant
  have hitem : ((ready.put temporary (.file [])).put temporary (.file bytes)).item? temporary =
      some (.file bytes) := (item?_put _ _ _ htemporary).trans (if_pos rfl)
  obtain ⟨item, hsource, hdirectory, rfl⟩ := move_spec hmoved
  obtain rfl : .file bytes = item := Option.some.inj (hitem.symm.trans hsource)
  have haround : isAround target = false := by
    rw [← Bool.not_eq_true]
    exact fun haround => hdirectory (by rw [item?, if_pos haround])
  refine ⟨target, locate_mono (fun place hplace => ?_) htarget, ?_⟩
  · -- neither the temporary file nor what stands at the target is a directory
    have hne : place ≠ target := fun heq => hdirectory (heq ▸ hplace)
    have hne' : place ≠ temporary := by
      rintro rfl
      rw [hitem] at hplace
      cases hplace
    rw [item?_put _ _ _ haround, if_neg hne, item?_remove _ _ htemporary, if_neg hne', hplace]
  · have hnone : ready.file? temporary = none := by rw [file?, hvacant]
    have hfiles : ready.file? = d.file? := by
      rw [← file?_ensure d route.dropLast, hready]
    rw [file?_put _ haround, file?_remove _ htemporary, file?_put _ htemporary,
      file?_put _ htemporary, Function.update_idem, Function.update_idem, ← hnone,
      Function.update_eq_self, hfiles]

/-- **A file that is not replaced leaves no trace.** Whichever step fails, every file is as it was,
and the temporary file is gone. -/
theorem file?_of_replace_failed {error : DiskError}
    (h : d.replace route bytes = (left, some error)) : left.file? = d.file? := by
  have hready := file?_ensure d route.dropLast
  unfold replace at h
  split at h
  · rename_i hensure
    obtain rfl := (Prod.mk.inj h).1
    rwa [hensure] at hready
  rename_i ready hensure
  rw [hensure] at hready
  split at h
  · obtain rfl := (Prod.mk.inj h).1
    exact hready
  unfold replaceIn at h
  split at h
  · obtain rfl := (Prod.mk.inj h).1
    exact hready
  rename_i created temporary hcreated
  split at h
  · obtain rfl := (Prod.mk.inj h).1
    exact (funext fun path => file?_congr (item?_remove_created hcreated path)).trans hready
  · cases h

/-- A file that was replaced is read back. -/
theorem read_replace (h : d.replace route bytes = (left, none)) : left.read route = .ok bytes := by
  obtain ⟨target, hlocate, hfiles⟩ := (replace_eq_none_iff.mp h).spec
  have hfile : left.file? target = some bytes := by rw [hfiles, Function.update_self]
  rw [read, hlocate]
  unfold file? at hfile
  split at hfile
  · rename_i hitem
    obtain rfl := Option.some.inj hfile
    simp only [hitem]
  · cases hfile

end Lifecycle.Disk
