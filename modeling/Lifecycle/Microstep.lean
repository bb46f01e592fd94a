import Lifecycle.Chart.Basic

/-!
# Microsteps

One transition taken while a leaf is active: which nodes are left, which are entered, what history
is written. The domain is the node that bounds the step and stays active; everything below it on the
active path is left, leaf first, and the path from it to the new leaf is entered, outermost first.
A history node stands for the recorded child of its parent, or for the initial one when none is
recorded.
-/

namespace Lifecycle

/-- What one transition does. -/
structure Microstep where
  transition : Transition
  /-- The innermost node that stays active, none without a target. -/
  domain : Option Nat
  /-- The nodes left, from the leaf outwards. -/
  exited : List Nat
  /-- The nodes entered, from the outermost to the leaf. -/
  entered : List Nat
  /-- For each node left that has history, the key of its active child. -/
  history : Entries String
  leaf : Nat

namespace Chart

variable (chart : Chart)

/-- The transition that a node declares for an event. -/
def handlerAt? (event : String) (i : Nat) : Option Transition :=
  (chart.node? i).bind fun n => n.transitions.find? (fun t => t.event == event)

/-- The transition for an event of the innermost node from a leaf upwards that declares one. -/
def findTransition? (leaf : Nat) (event : String) : Option Transition :=
  (chart.ancestors leaf).findSome? (chart.handlerAt? event)

/-- The node that bounds a transition: the source if the target lies below it, else the innermost
ancestor of the source that the target lies below. -/
def domain (source target : Nat) : Nat :=
  if chart.isBelow target source then source
  else ((chart.properAncestors source).find? (chart.isBelow target)).getD 0

/-- Whether the node at an index is a history node. -/
def isHistory (i : Nat) : Bool := chart.kindAt? i = some .history

/-- The child that a history node stands for: the recorded one of its parent, else the initial
one. -/
def remembered (i : Nat) (history : Entries String) : Option Nat :=
  ((chart.parent? i).bind chart.node?).bind fun parent =>
    match (Entries.get? history parent.id).bind (chart.child? parent.index) with
    | some child => some child
    | none => parent.initial

/-- The nodes entered at the end of a path: the path itself without history nodes, the child that a
history target stands for, and initial children down to a leaf. -/
def enterAlong (path : List Nat) (target : Nat) (history : Entries String) : List Nat :=
  let direct := path.filter fun i => !chart.isHistory i
  if chart.isHistory target then
    match chart.remembered target history with
    | some child => direct ++ child :: chart.descend child
    | none => direct
  else direct ++ chart.descend target

/-- The nodes entered from below a domain, or from the root on, to the leaf that a target leads
to. -/
def enter (domain : Option Nat) (target : Nat) (history : Entries String) :
    Except Fault (List Nat) :=
  match domain with
  | none => .ok (chart.enterAlong (chart.pathTo target) target history)
  | some d =>
    if (chart.pathTo target).contains d then
      .ok (chart.enterAlong (((chart.pathTo target).dropWhile (· ≠ d)).drop 1) target history)
    else .error (.notOnPath d)

/-- The nodes entered at the start, from the root to a leaf. -/
def initialPath : List Nat := chart.enterAlong (chart.pathTo 0) 0 []

/-- The nodes left when a leaf is active and a domain stays so. -/
def exitSet (leaf domain : Nat) : List Nat :=
  (chart.ancestors leaf).filter fun i => chart.isBelow i domain

/-- The node after another on the path to a leaf. -/
def next? (leaf i : Nat) : Option Nat :=
  ((chart.pathTo leaf).dropWhile (· ≠ i))[1]?

/-- For each of the nodes that has history, the key of its active child. -/
def recordsOf (leaf : Nat) : List Nat → Except Fault (Entries String)
  | [] => .ok []
  | i :: rest =>
    match chart.node? i with
    | none => recordsOf leaf rest
    | some n =>
      if n.kind = .compound ∧ n.history.isSome then
        match chart.next? leaf i with
        | none => .error .noActiveChild
        | some child => (recordsOf leaf rest).map ((n.id, chart.keyAt child) :: ·)
      else recordsOf leaf rest

/-- The microstep of a transition taken while a leaf is active. -/
def resolve (leaf : Nat) (transition : Transition) (history : Entries String) :
    Except Fault Microstep :=
  match transition.target with
  | none => .ok ⟨transition, none, [], [], [], leaf⟩
  | some target =>
    let domain := chart.domain transition.source target
    let exited := chart.exitSet leaf domain
    match chart.recordsOf leaf exited with
    | .error fault => .error fault
    | .ok records =>
      match chart.enter (some domain) target (Entries.overlay history records) with
      | .error fault => .error fault
      | .ok entered =>
        .ok ⟨transition, some domain, exited, entered, records, entered.getLast?.getD leaf⟩

/-- The actions of a microstep in the order in which they run: exits, the transition's own,
entries. -/
def stepActions (step : Microstep) : List Action :=
  (step.exited.flatMap fun i => ((chart.node? i).map Node.exit).getD [])
    ++ step.transition.actions
    ++ step.entered.flatMap fun i => ((chart.node? i).map Node.entry).getD []

/-- The transition that a nested final leaf triggers: that of its parent. -/
def doneTransition? (leaf : Nat) : Option Transition :=
  if chart.kindAt? leaf = some .final then
    ((chart.parent? leaf).bind chart.node?).bind Node.onDone
  else none

end Chart

end Lifecycle
