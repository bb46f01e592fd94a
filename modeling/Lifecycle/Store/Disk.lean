/-!
# Disks

A directory with everything below it, as a list of paths with what stands there. A path is a list of
names; the empty path is the directory itself. What is asked for is named by a route, which is
followed name by name through the directories that are there, and in which `..` leads to the
directory above; names and routes have a largest size. A disk may refuse some of the steps by which
it changes, whatever they are asked to do; a step that fails changes nothing.
-/

namespace Lifecycle

/-- What stands at a path. -/
inductive Item where
  | file (bytes : List UInt8)
  | directory
deriving DecidableEq

/-- Where something stands: its names from the directory on. What lies outside the directory has a
path that begins with `..`. -/
abbrev Path := List String

/-- How something is asked for: the names to follow from the directory on. -/
abbrev Route := List String

/-- The steps by which a disk changes. -/
inductive DiskStep where
  | makeDirectory
  | createFile
  | fillFile
  | move
deriving DecidableEq

/-- A directory with everything below it. -/
structure Disk where
  /-- How the directory itself is written in messages. -/
  root : String
  items : List (Path × Item)
  /-- The steps that fail whatever they are asked to do. -/
  refused : List DiskStep

/-- Why an operation on a disk failed. -/
inductive DiskError where
  | missing
  | isDirectory
  | notDirectory
  /-- Something stands where a directory is to be made. -/
  | occupied
  /-- A name holds the character that ends names. -/
  | nullCharacter
  | nameTooLong
  | refused
deriving DecidableEq

/-- The words for a disk error. -/
def DiskError.message : DiskError → String
  | .missing => "no such file"
  | .isDirectory => "is a directory"
  | .notDirectory => "not a directory"
  | .occupied => "file exists"
  | .nullCharacter => "embedded null byte"
  | .nameTooLong => "file name too long"
  | .refused => "refused"

namespace Disk

/-- An empty directory that refuses nothing. -/
def empty (root : String) : Disk := ⟨root, [], []⟩

/-! ## Routes -/

/-- The segments of a slashed name. -/
def splitSlashes : List Char → List (List Char)
  | [] => [[]]
  | c :: cs =>
    match splitSlashes cs with
    | [] => [[c]]
    | first :: rest => if c = '/' then [] :: first :: rest else (c :: first) :: rest

/-- The route that a name denotes: its segments, without empty ones and the ones that stay in
place. -/
def routeOf (name : String) : Route :=
  ((splitSlashes name.toList).map String.ofList).filter fun part => part != "" && part != "."

/-- The name of a path or a route. -/
def nameOf (names : List String) : String := String.intercalate "/" names

/-- The name of a route with that of the directory in front. -/
def fullName (d : Disk) (route : Route) : String := nameOf (d.root :: route)

/-- The name that leads to the directory above. -/
def upward : String := ".."

/-- The most bytes that a name may have. -/
def nameLimit : Nat := 255

/-- The most bytes that the names of a route may have, with those that separate them. -/
def routeLimit : Nat := 4078

/-- What keeps a route from being followed at all. -/
def flaw? (route : Route) : Option DiskError :=
  if route.any fun name => name.toList.contains '\x00' then some .nullCharacter
  else if routeLimit < (nameOf route).utf8ByteSize then some .nameTooLong
  else none

/-- Whether a path is that of the directory itself or of one around it. -/
def isAround (path : Path) : Bool := path.all (· == upward)

/-- The path one name on from a directory. -/
def onward (path : Path) (name : String) : Path :=
  if name = upward then if isAround path then upward :: path else path.dropLast
  else path ++ [name]

/-! ## What stands on a disk -/

/-- What stands at a path. -/
def item? (d : Disk) (path : Path) : Option Item :=
  if isAround path then some .directory
  else (d.items.find? fun entry => entry.1 == path).map Prod.snd

/-- The path that names lead to from a path on, through directories that are there. -/
def follow (d : Disk) (path : Path) : Route → Except DiskError Path
  | [] => .ok path
  | name :: rest =>
    match d.item? path with
    | some .directory =>
      if nameLimit < name.utf8ByteSize then .error .nameTooLong
      else d.follow (onward path name) rest
    | some (.file _) => .error .notDirectory
    | none => .error .missing

/-- The path that a route leads to. -/
def locate (d : Disk) (route : Route) : Except DiskError Path :=
  match flaw? route with
  | some error => .error error
  | none => d.follow [] route

/-- What a route leads to. -/
def found? (d : Disk) (route : Route) : Option Item :=
  match d.locate route with
  | .ok path => d.item? path
  | .error _ => none

/-- Whether something stands where a route leads; of a name that is too long nothing can be told. -/
def exists? (d : Disk) (route : Route) : Except DiskError Bool :=
  match d.locate route with
  | .ok path => .ok (d.item? path).isSome
  | .error .nameTooLong => .error .nameTooLong
  | .error _ => .ok false

/-- The bytes of the file that a route leads to. -/
def read (d : Disk) (route : Route) : Except DiskError (List UInt8) :=
  match d.locate route with
  | .error error => .error error
  | .ok path =>
    match d.item? path with
    | some (.file bytes) => .ok bytes
    | some .directory => .error .isDirectory
    | none => .error .missing

/-- The names of everything in the directory. -/
def names (d : Disk) : List String :=
  (d.items.filter fun entry => entry.1.head? != some upward).map fun entry => nameOf entry.1

/-! ## Changes -/

/-- Removes what stands at a path. -/
def remove (d : Disk) (path : Path) : Disk :=
  { d with items := d.items.filter fun entry => entry.1 != path }

/-- Puts an item at a path. -/
def put (d : Disk) (path : Path) (item : Item) : Disk :=
  { d with items := (d.remove path).items ++ [(path, item)] }

/-- The disk with a new directory where a route leads. -/
def makeDirectory (d : Disk) (route : Route) : Except DiskError Disk :=
  match d.locate route with
  | .error error => .error error
  | .ok path =>
    match d.item? path with
    | some _ => .error .occupied
    | none =>
      if d.refused.contains .makeDirectory then .error .refused else .ok (d.put path .directory)

/-- The disk with a directory where a route leads, which may be there. -/
def allowDirectory (d : Disk) (route : Route) : Except DiskError Disk :=
  if d.found? route = some .directory then .ok d else d.makeDirectory route

/-- The disk with a directory where the reversed names lead; missing directories on the way are made
first. With what is left comes why it failed. -/
def ensureReversed (d : Disk) : List String → Disk × Option DiskError
  | [] => (d, none)
  | name :: above =>
    match d.allowDirectory (name :: above).reverse with
    | .ok made => (made, none)
    | .error .missing =>
      match d.ensureReversed above with
      | (left, some error) => (left, some error)
      | (left, none) =>
        match left.allowDirectory (name :: above).reverse with
        | .ok made => (made, none)
        | .error error => (left, some error)
    | .error error => (d, some error)

/-- The disk with a directory where a route leads, made with those on the way where they are
missing. -/
def ensure (d : Disk) (route : Route) : Disk × Option DiskError := d.ensureReversed route.reverse

/-- The disk with a new directory where a route leads, made with those on the way where they are
missing. With what is left comes why it failed. -/
def makePath (d : Disk) (route : Route) : Disk × Option DiskError :=
  match d.makeDirectory route with
  | .ok made => (made, none)
  | .error .missing =>
    match d.ensure route.dropLast with
    | (left, some error) => (left, some error)
    | (left, none) =>
      match left.makeDirectory route with
      | .ok made => (made, none)
      | .error error => (left, some error)
  | .error error => (d, some error)

/-- Writes a file in the place of what a route leads to, unless that is a directory. -/
def write (d : Disk) (route : Route) (bytes : List UInt8) : Except DiskError Disk :=
  match d.locate route with
  | .error error => .error error
  | .ok path =>
    match d.item? path with
    | some .directory => .error .isDirectory
    | _ => .ok (d.put path (.file bytes))

/-! ## Laws -/

/-- Nothing stands at a removed path, and all else stands where it stood. -/
theorem item?_remove (d : Disk) {path : Path} (other : Path) (h : isAround path = false) :
    (d.remove path).item? other = if other = path then none else d.item? other := by
  by_cases ho : other = path
  · subst ho
    have hn : (d.items.filter fun entry => entry.1 != other).find?
        (fun entry => entry.1 == other) = none := by
      rw [List.find?_eq_none]
      intro entry hm
      have := (List.mem_filter.1 hm).2
      simpa using this
    simp [item?, remove, h, hn]
  · have hf : (d.items.filter fun entry => entry.1 != path).find?
        (fun entry => entry.1 == other) = d.items.find? fun entry => entry.1 == other := by
      rw [List.find?_filter]
      congr 1
      funext entry
      by_cases hp : entry.1 = other
      · simp [hp, ho]
      · simp [hp]
    simp [item?, remove, ho, hf]

/-- What was put at a path stands there, and all else stands where it stood. -/
theorem item?_put (d : Disk) {path : Path} (other : Path) (item : Item)
    (h : isAround path = false) :
    (d.put path item).item? other = if other = path then some item else d.item? other := by
  have hr := d.item?_remove other h
  by_cases he : isAround other = true
  · have ho : other ≠ path := fun e => by rw [e, h] at he; cases he
    simp [item?, he, ho]
  · by_cases ho : other = path
    · subst ho
      rw [if_pos rfl] at hr ⊢
      have hn : (d.remove other).items.find? (fun entry => entry.1 == other) = none := by
        simpa [item?, he] using hr
      simp [item?, put, he, List.find?_append, hn]
    · rw [if_neg ho] at hr ⊢
      rw [← hr]
      simp [item?, put, he, List.find?_append, Ne.symm ho]

/-- Where nothing stands is neither the directory nor one around it. -/
theorem isAround_of_item?_eq_none {d : Disk} {path : Path} (h : d.item? path = none) :
    isAround path = false := by
  cases ha : isAround path with
  | false => rfl
  | true => simp [item?, ha] at h

/-- A directory that is made stands where nothing stood; all else stands where it stood. -/
theorem item?_makeDirectory {d made : Disk} {route : Route} (h : d.makeDirectory route = .ok made)
    (path : Path) :
    made.item? path = d.item? path ∨ d.item? path = none ∧ made.item? path = some .directory := by
  unfold makeDirectory at h
  split at h
  · cases h
  · rename_i place hl
    split at h
    · cases h
    · rename_i hn
      split at h
      · cases h
      · cases h
        rw [item?_put d path .directory (isAround_of_item?_eq_none hn)]
        by_cases hp : path = place
        · subst hp
          exact .inr ⟨hn, if_pos rfl⟩
        · exact .inl (if_neg hp)

/-- A directory that is made or there stands where nothing stood or it stood; all else stands where
it stood. -/
theorem item?_allowDirectory {d made : Disk} {route : Route}
    (h : d.allowDirectory route = .ok made) (path : Path) :
    made.item? path = d.item? path ∨ d.item? path = none ∧ made.item? path = some .directory := by
  unfold allowDirectory at h
  split at h
  · cases h
    exact .inl rfl
  · exact item?_makeDirectory h path

/-- Making directories leaves every file where it stood. -/
theorem item?_ensureReversed (d : Disk) (names : List String) (path : Path) :
    (d.ensureReversed names).1.item? path = d.item? path ∨
      d.item? path = none ∧ (d.ensureReversed names).1.item? path = some .directory := by
  induction names with
  | nil => exact .inl rfl
  | cons name above ih =>
    unfold ensureReversed
    split
    · rename_i made hm
      exact item?_allowDirectory hm path
    · split
      · rename_i left error he
        rw [he] at ih
        exact ih
      · rename_i left he
        rw [he] at ih
        split
        · rename_i made hm
          rcases item?_allowDirectory hm path with hs | ⟨hn, hd⟩
          · simp only [hs]
            exact ih
          · rcases ih with hs | ⟨hn', hd'⟩
            · exact .inr ⟨hs ▸ hn, hd⟩
            · exact .inr ⟨hn', hd⟩
        · exact ih
    · exact .inl rfl

end Disk

end Lifecycle
