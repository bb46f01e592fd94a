import Lifecycle.Store.Disk

/-!
# Replacing files

A file is replaced as a whole or not at all: its new bytes go into a temporary file beside it, which
is then moved into its place. When a step fails, the temporary file is removed again, so that
every file is as it was before.
-/

namespace Lifecycle.Disk

/-- The names that temporary files take. -/
def temporaryName (n : Nat) : String := "leads_" ++ toString n ++ ".tmp"

/-- A path in a directory at which nothing stands. -/
def vacant? (d : Disk) (directory : Path) : Option Path :=
  ((List.range (d.items.length + 1)).map fun n => directory ++ [temporaryName n]).find?
    fun path => (d.item? path).isNone

/-- Creates an empty file in a directory under a name that is not taken. -/
def createTemporary (d : Disk) (directory : Path) : Except DiskError (Disk × Path) :=
  match d.vacant? directory with
  | some path =>
    if d.refused.contains .createFile then .error .refused
    else .ok (d.put path (.file []), path)
  | none => .error .refused

/-- Writes the bytes of a file. -/
def fill (d : Disk) (path : Path) (bytes : List UInt8) : Except DiskError Disk :=
  if d.refused.contains .fillFile then .error .refused else .ok (d.put path (.file bytes))

/-- Moves a file in the place of what stands at another path, unless that is a directory. -/
def move (d : Disk) (source target : Path) : Except DiskError Disk :=
  match d.item? source, d.item? target with
  | none, _ => .error .missing
  | some _, some .directory => .error .isDirectory
  | some item, _ =>
    if d.refused.contains .move then .error .refused else .ok ((d.remove source).put target item)

/-- Fills a temporary file and moves it to where a route leads. -/
def fillAndMove (d : Disk) (source : Path) (route : Route) (bytes : List UInt8) :
    Except DiskError Disk :=
  match d.fill source bytes with
  | .error error => .error error
  | .ok filled =>
    match filled.locate route with
    | .error error => .error error
    | .ok target => filled.move source target

/-- Puts bytes by way of a temporary file in a directory to where a route leads. -/
def replaceIn (d : Disk) (directory : Path) (route : Route) (bytes : List UInt8) :
    Disk × Option DiskError :=
  match d.createTemporary directory with
  | .error error => (d, some error)
  | .ok (created, temporary) =>
    match created.fillAndMove temporary route bytes with
    | .error error => (created.remove temporary, some error)
    | .ok replaced => (replaced, none)

/-- Puts bytes to where a route leads, making the directory of it where it is missing. What is left
is the disk with the new file, or with all files as they were and the reason. -/
def replace (d : Disk) (route : Route) (bytes : List UInt8) : Disk × Option DiskError :=
  match d.ensure route.dropLast with
  | (left, some error) => (left, some error)
  | (ready, none) =>
    match ready.locate route.dropLast with
    | .error error => (ready, some error)
    | .ok directory => ready.replaceIn directory route bytes

theorem item?_of_vacant? {d : Disk} {directory path : Path}
    (h : d.vacant? directory = some path) : d.item? path = none := by
  simpa using List.find?_some h

/-- A temporary file that is removed again leaves no trace. -/
theorem item?_remove_created {d created : Disk} {directory temporary : Path}
    (h : d.createTemporary directory = .ok (created, temporary)) (other : Path) :
    (created.remove temporary).item? other = d.item? other := by
  unfold createTemporary at h
  split at h
  · rename_i path hv
    split at h
    · cases h
    · cases h
      have ha := isAround_of_item?_eq_none (item?_of_vacant? hv)
      rw [item?_remove _ _ ha, item?_put _ _ _ ha]
      by_cases ho : other = temporary
      · subst ho
        simp [item?_of_vacant? hv]
      · simp [ho]
  · cases h

end Lifecycle.Disk
