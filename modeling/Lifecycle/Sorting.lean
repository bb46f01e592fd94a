/-!
# Sorting where a comparison may fail

A list is cut into runs that rise or fall, short runs are lengthened by insertion, and neighbouring
runs are merged until one is left. A merge takes items one by one; when one side wins often, it
looks for the end of the winning stretch instead, in steps that double. Where items have an order,
the result is that of any stable sort; where some have none, the failure is that of the first
comparison that has no answer, so that the order of comparisons is part of the result.
-/

namespace Lifecycle.Sorting

variable {α ε : Type}

/-! ## Finding a place -/

/-- The first position between two that does not lie below the place looked for, by halving. -/
def halve (isBelow : Nat → Except ε Bool) (low high : Nat) : Except ε Nat :=
  if low < high then
    let middle := low + (high - low) / 2
    match isBelow middle with
    | .error error => .error error
    | .ok true => halve isBelow (middle + 1) high
    | .ok false => halve isBelow low middle
  else .ok low
termination_by high - low

/-- The last distance at which a test held, and the first at which it does not hold or the limit is
reached; each distance tested is twice the one before and one. -/
def stretch (holds : Nat → Except ε Bool) (limit last distance : Nat) : Except ε (Nat × Nat) :=
  if distance < limit then
    match holds distance with
    | .error error => .error error
    | .ok true => stretch holds limit distance (2 * distance + 1)
    | .ok false => .ok (last, distance)
  else .ok (last, limit)
termination_by limit - distance

/-- The number of positions that lie below the place looked for, which is sought from a hint. -/
def gallop (isBelow : Nat → Except ε Bool) (count hint : Nat) : Except ε Nat := do
  if ← isBelow hint then
    let (last, distance) ← stretch (fun d => isBelow (hint + d)) (count - hint) 0 1
    halve isBelow (hint + last + 1) (hint + distance)
  else
    let above (d : Nat) : Except ε Bool := (isBelow (hint - d)).map not
    let (last, distance) ← stretch above (hint + 1) 0 1
    halve isBelow (hint + 1 - distance) (hint - last)

/-! ## Runs -/

variable (before : α → α → Except ε Bool)

/-- The items as long as each comes before the one in front of it, or as long as none does, and the
items from there on. -/
def splitRun (falling : Bool) (front : α) : List α → Except ε (List α × List α)
  | [] => .ok ([], [])
  | item :: rest => do
    if (← before item front) = falling then
      let (run, others) ← splitRun falling item rest
      return (item :: run, others)
    else return ([], item :: rest)

/-- The longest leading run, rising, and the other items; a falling run is turned round. -/
def leadingRun : List α → Except ε (List α × List α)
  | first :: second :: rest => do
    let falling ← before second first
    let (run, others) ← splitRun before falling second rest
    let whole := first :: second :: run
    return (if falling then whole.reverse else whole, others)
  | few => .ok (few, [])

/-- Whether an item of a list stays in front of a key that is put behind its equals. -/
def staysBelow (key : α) (items : Array α) (position : Nat) : Except ε Bool :=
  match items[position]? with
  | some item => (before key item).map not
  | none => .ok true

/-- Whether an item of a list stays in front of a key that is put before its equals. -/
def isBefore (key : α) (items : Array α) (position : Nat) : Except ε Bool :=
  match items[position]? with
  | some item => before item key
  | none => .ok true

/-- A run with more items put in their places, one after the other. -/
def insertAll (run : List α) : List α → Except ε (List α)
  | [] => .ok run
  | item :: rest => do
    let place ← halve (staysBelow before item run.toArray) 0 run.length
    insertAll (run.take place ++ item :: run.drop place) rest

/-- The least length of a run in a list of a length: the length itself when it is small, else its
six leading binary digits, rounded up. -/
def leastRun (length : Nat) : Nat :=
  let unit := Nat.pow 2 (length.log2 - 5)
  if length < 64 then length
  else (length + (unit - 1)) / unit

/-- The first run of a list, of at least a length if there are so many items, and the rest. -/
def nextRun (least : Nat) (items : List α) : Except ε (List α × List α) := do
  let (run, rest) ← leadingRun before items
  let missing := least - run.length
  let grown ← insertAll before run (rest.take missing)
  return (grown, rest.drop missing)

/-! ## Merging two runs -/

/-- How a merge goes on: item by item, with the numbers of items that either side has won in a row,
or stretch by stretch. -/
inductive Pace where
  | walking (left right : Nat)
  | leaping

/-- How many items in a row make a stretch worth looking for. -/
def worthLeaping : Nat := 7

/-- Two runs that are being merged, each with its next item first, and what is merged, last item
first. A merge from the end has all lists turned round. -/
structure Merge (α : Type) where
  fromEnd : Bool
  left : List α
  right : List α
  merged : List α

namespace Merge

/-- Whether the remaining items need no more comparison: one side is used up, or of the side that
was set aside one item is left. -/
def isOver (m : Merge α) : Bool :=
  if m.fromEnd then m.left.isEmpty || m.right.length ≤ 1
  else m.right.isEmpty || m.left.length ≤ 1

/-- The merged run, the rest included. -/
def whole (m : Merge α) : List α :=
  if m.fromEnd then (m.merged.reverse ++ m.left ++ m.right).reverse
  else m.merged.reverse ++ m.right ++ m.left

/-- How many items are left. -/
def size (m : Merge α) : Nat := m.left.length + m.right.length

/-- Takes items from the left. -/
def takeLeft (m : Merge α) (count : Nat) : Merge α :=
  { m with left := m.left.drop count, merged := (m.left.take count).reverse ++ m.merged }

/-- Takes items from the right. -/
def takeRight (m : Merge α) (count : Nat) : Merge α :=
  { m with right := m.right.drop count, merged := (m.right.take count).reverse ++ m.merged }

/-- How many of the next items of one side are merged before the next one of the other. -/
def reach (fromEnd : Bool) (isBelow : Array α → Nat → Except ε Bool) (items : List α) :
    Except ε Nat :=
  if fromEnd then do
    let below ← gallop (isBelow items.reverse.toArray) items.length (items.length - 1)
    return items.length - below
  else gallop (isBelow items.toArray) items.length 0

/-- Takes the stretch of the left that comes next. -/
def leapLeft (m : Merge α) : Except ε (Merge α × Nat) :=
  match m.right with
  | [] => .ok (m, 0)
  | key :: _ => do
    let count ← reach m.fromEnd (staysBelow before key) m.left
    return (m.takeLeft count, count)

/-- Takes the stretch of the right that comes next. -/
def leapRight (m : Merge α) : Except ε (Merge α × Nat) :=
  match m.left with
  | [] => .ok (m, 0)
  | key :: _ => do
    let count ← reach m.fromEnd (isBefore before key) m.right
    return (m.takeRight count, count)

/-- Merges to the end, within a number of steps. With the merged run comes how many items in a row
the next merge waits for before it leaps. -/
def finish (steps patience : Nat) (pace : Pace) (m : Merge α) : Except ε (List α × Nat) :=
  match steps with
  | 0 => .ok (m.whole, patience)
  | steps + 1 =>
    if m.isOver then .ok (m.whole, patience)
    else match pace, m.left, m.right with
      | .walking wonLeft wonRight, x :: _, y :: _ => do
        if (← before y x) = m.fromEnd then
          let pace := if patience ≤ wonLeft + 1 then Pace.leaping else .walking (wonLeft + 1) 0
          finish steps patience pace (m.takeLeft 1)
        else
          let pace := if patience ≤ wonRight + 1 then Pace.leaping else .walking 0 (wonRight + 1)
          finish steps patience pace (m.takeRight 1)
      | .leaping, _, _ => do
        let (m, left) ← m.leapLeft before
        if m.isOver then return (m.whole, patience)
        let m := m.takeRight 1
        if m.isOver then return (m.whole, patience)
        let (m, right) ← m.leapRight before
        if m.isOver then return (m.whole, patience)
        let m := m.takeLeft 1
        if m.isOver then return (m.whole, patience)
        if worthLeaping ≤ left ∨ worthLeaping ≤ right then
          finish steps (max 1 (patience - 1)) .leaping m
        else finish steps (patience + 1) (.walking 0 0) m
      | _, _, _ => .ok (m.whole, patience)

end Merge

/-- Merges two runs. The items of the left that stay in front and those of the right that stay
behind are found first, and the shorter of what is left is set aside. -/
def merge (patience : Nat) (left right : List α) : Except ε (List α × Nat) :=
  match right, left.getLast? with
  | first :: _, some last => do
    let front ← gallop (staysBelow before first left.toArray) left.length 0
    if front = left.length then return (left ++ right, patience)
    let inner ← gallop (isBefore before last right.toArray) right.length (right.length - 1)
    if inner = 0 then return (left ++ right, patience)
    let (xs, ys) := (left.drop front, right.take inner)
    let steps := xs.length + ys.length
    let (merged, patience) ←
      if xs.length ≤ ys.length then
        (Merge.takeRight ⟨false, xs, ys, []⟩ 1).finish before steps patience (.walking 0 0)
      else
        (Merge.takeLeft ⟨true, xs.reverse, ys.reverse, []⟩ 1).finish before steps patience
          (.walking 0 0)
    return (left.take front ++ merged ++ right.drop inner, patience)
  | _, _ => .ok (left ++ right, patience)

/-! ## Merging all runs -/

/-- A run, and the power of its boundary with the next run when that is known. -/
structure Segment (α : Type) where
  run : List α
  power : Nat

/-- The power of the boundary between two runs of a whole: the first binary place in which the
middles of the runs differ, as fractions of the whole. -/
def boundaryPower (start left right whole : Nat) : Nat :=
  let a := 2 * start + left
  let b := a + left + right
  let cell (position place : Nat) : Nat := position * Nat.pow 2 place / (2 * whole)
  let differ (place : Nat) : Bool := cell a place != cell b place
  ((List.range (whole.log2 + 3)).find? differ).getD 0

/-- Merges the last runs as long as the boundary between them has a greater power than the next
one, which the last run gets. -/
def settle (power patience : Nat) : List (Segment α) → Except ε (List (Segment α) × Nat)
  | last :: previous :: rest =>
    if power < previous.power then do
      let (run, patience) ← merge before patience previous.run last.run
      settle power patience (⟨run, previous.power⟩ :: rest)
    else .ok (⟨last.run, power⟩ :: previous :: rest, patience)
  | [last] => .ok ([⟨last.run, power⟩], patience)
  | [] => .ok ([], patience)
termination_by segments => segments.length

/-- Cuts items into runs and merges the runs by the powers of their boundaries; the last run comes
first. -/
def gather (whole least : Nat) (steps patience : Nat) (segments : List (Segment α)) :
    List α → Except ε (List (Segment α) × Nat)
  | [] => .ok (segments, patience)
  | first :: rest =>
    match steps with
    | 0 => .ok (segments, patience)
    | steps + 1 => do
      let (run, others) ← nextRun before least (first :: rest)
      let sizes := segments.map fun segment => segment.run.length
      let power := boundaryPower sizes.tail.sum (sizes.headD 0) run.length whole
      let (settled, patience) ← settle before power patience segments
      gather whole least steps patience (⟨run, 0⟩ :: settled) others

/-- Merges all runs, the last two first unless the run in front of them is shorter than the last. -/
def collapse (patience : Nat) : List (Segment α) → Except ε (List α)
  | [] => .ok []
  | [only] => .ok only.run
  | [last, previous] => do
    let (run, _) ← merge before patience previous.run last.run
    return run
  | last :: previous :: earlier :: rest =>
    if earlier.run.length < last.run.length then do
      let (run, patience) ← merge before patience earlier.run previous.run
      collapse patience (last :: ⟨run, 0⟩ :: rest)
    else do
      let (run, patience) ← merge before patience previous.run last.run
      collapse patience (⟨run, 0⟩ :: earlier :: rest)
termination_by segments => segments.length

/-- The items in order, equal ones as they stood; else the first failure of a comparison. -/
def sort (items : List α) : Except ε (List α) := do
  let least := leastRun items.length
  let (segments, patience) ← gather before items.length least items.length worthLeaping [] items
  collapse before patience segments

end Lifecycle.Sorting
