import Lifecycle.Proofs.Interpreter.Course
import Lifecycle.Proofs.Lead.Chart

/-!
# The active nodes are a stack

The entries and exits of a run, in the order of its passages, are moves on a stack (`Chart.moved?`):
only its top is left, and only children of the top are entered. Every passage takes the chain of the
old leaf to that of the new one (`Arena.replay_moves`), so after every call the stack holds the
active path, and a node has been entered once more than it was left exactly while it is active
(`Arena.stacks`).
-/

namespace Lifecycle

/-- A node is left or entered. -/
inductive Move where
  | leave (i : Nat)
  | enter (i : Nat)
deriving DecidableEq

/-- The nodes that a passage leaves and enters, in order. -/
def Passage.moves (passage : Passage) : List Move :=
  passage.step.exited.map .leave ++ passage.step.entered.map .enter

namespace Chart

variable (chart : Chart)

/-- A stack of nodes, its top first, after a move: the top may be left, and a child of the top, or
the root when there is none, may be entered. -/
def moved? (stack : List Nat) (move : Move) : Option (List Nat) :=
  match move, stack with
  | .leave i, top :: below => if top = i then some below else none
  | .leave _, [] => none
  | .enter i, top :: below =>
    if chart.parent? i = some top then some (i :: top :: below) else none
  | .enter i, [] => if i = 0 then some [0] else none

/-- A stack after moves. -/
def replay (stack : List Nat) : List Move → Option (List Nat)
  | [] => some stack
  | move :: rest => (chart.moved? stack move).bind (replay · rest)

/-- The nodes that a run leaves and enters, in order: it enters the initial path at the start. -/
def movesOf (passages : List Passage) : List Move :=
  chart.initialPath.map .enter ++ passages.flatMap Passage.moves

variable {chart} {i leaf a : Nat} {stack stack' : List Nat} {moves rest : List Move}
  {nodes : List Nat} {s s' : Situation} {passage : Passage} {passages : List Passage}

theorem replay_append :
    chart.replay stack (moves ++ rest) = (chart.replay stack moves).bind (chart.replay · rest) := by
  induction moves generalizing stack with
  | nil => rfl
  | cons move moves ih =>
    rw [List.cons_append, replay, replay, Option.bind_assoc]
    exact congrArg _ (funext fun _ => ih)

/-- Nodes on top of a stack may be left one by one. -/
theorem replay_leave : chart.replay (nodes ++ stack) (nodes.map .leave) = some stack := by
  induction nodes with
  | nil => rfl
  | cons top below ih =>
    rw [List.map_cons, replay, List.cons_append, moved?, if_pos rfl]
    exact ih

/-- From the chain of a node the rest of a path below it may be entered one by one. -/
theorem Arena.replay_enter (tree : chart.Arena) (h : chart.pathTo leaf = chart.pathTo a ++ nodes) :
    chart.replay (chart.ancestors a) (nodes.map .enter) = some (chart.ancestors leaf) := by
  induction nodes generalizing a with
  | nil =>
    rw [List.append_nil] at h
    exact congrArg some (List.reverse_injective h).symm
  | cons x below ih =>
    have hparent : chart.parent? x = some a := by
      have hchain := isChain_pathTo chart leaf
      rw [h, List.isChain_append] at hchain
      exact hchain.2.2 a (getLast?_pathTo chart a) x rfl
    have hx : chart.pathTo leaf = chart.pathTo x ++ below := by
      rw [h, tree.pathTo_of_parent hparent, List.append_assoc, List.singleton_append]
    rw [List.map_cons, replay, ancestors_eq, moved?, if_pos hparent]
    have := ih hx
    rwa [tree.ancestors_of_parent hparent, ancestors_eq] at this

section Passages

variable (tree : chart.Arena)

include tree

/-- A passage takes the chain of the old leaf to that of the new one. -/
theorem Arena.replay_moves (hs : chart.Situated s) (h : chart.Leads s passage s') :
    chart.replay (chart.ancestors s.leaf) passage.moves = some (chart.ancestors s'.leaf) := by
  obtain ⟨a, hleft, hentered⟩ := (tree.shift_of_leads hs h).paths
  have hchain : chart.ancestors s.leaf = passage.step.exited ++ chart.ancestors a := by
    have := congrArg List.reverse hleft
    simpa [pathTo] using this
  rw [Passage.moves, replay_append, hchain, replay_leave, h.leaf_after]
  exact tree.replay_enter hentered

theorem Arena.replay_flatMap (hs : chart.Situated s) (h : chart.LeadsTo s passages s') :
    chart.replay (chart.ancestors s.leaf) (passages.flatMap Passage.moves) =
      some (chart.ancestors s'.leaf) := by
  induction h with
  | refl => rfl
  | cons hleads _ ih =>
    rw [List.flatMap_cons, replay_append, tree.replay_moves hs hleads]
    exact ih (tree.situated_of_leads hs hleads)

/-- The initial path may be entered on the empty stack. -/
theorem Arena.replay_initialPath (hleaf : chart.IsLeaf leaf)
    (h : chart.initialPath = chart.pathTo leaf) :
    chart.replay [] (chart.initialPath.map .enter) = some (chart.ancestors leaf) := by
  obtain ⟨n, hn⟩ := hleaf.exists_node
  have hsplit := pathTo_eq_append_exitSet (tree.zero_mem_ancestors hn)
  rw [h, hsplit, tree.pathTo_zero, List.singleton_append, List.map_cons, replay, moved?, if_pos rfl]
  have := tree.replay_enter hsplit
  rwa [tree.ancestors_zero] at this

/-- The root is never left. -/
theorem Arena.zero_notMem_exited (hs : chart.Situated s) (h : chart.Leads s passage s') :
    0 ∉ passage.step.exited := by
  obtain ⟨n, hn⟩ := hs.isLeaf.exists_node
  obtain ⟨a, hleft, -⟩ := (tree.shift_of_leads hs h).paths
  have hhead := tree.head?_pathTo hn
  have hnodup : (chart.pathTo s.leaf).Nodup :=
    List.nodup_reverse.mpr (nodup_ancestors chart s.leaf)
  have hne : chart.pathTo a ≠ [] := List.ne_nil_of_mem (mem_pathTo.mpr (self_mem_ancestors chart a))
  rw [hleft, List.head?_append_of_ne_nil _ hne] at hhead
  rw [hleft, List.nodup_append] at hnodup
  intro hzero
  exact hnodup.2.2 0 (List.mem_of_head? hhead) 0 (List.mem_reverse.mpr hzero) rfl

theorem Arena.leave_zero_notMem_flatMap (hs : chart.Situated s)
    (h : chart.LeadsTo s passages s') : .leave 0 ∉ passages.flatMap Passage.moves := by
  induction h with
  | refl => exact nofun
  | cons hleads _ ih =>
    rw [List.flatMap_cons, List.mem_append, not_or]
    refine ⟨?_, ih (tree.situated_of_leads hs hleads)⟩
    simpa [Passage.moves] using tree.zero_notMem_exited hs hleads

end Passages

/-- What a move adds to a stack or takes from it. -/
theorem count_moved? {move : Move} (h : chart.moved? stack move = some stack') :
    [move].count (.enter i) + stack.count i = [move].count (.leave i) + stack'.count i := by
  rcases move with j | j <;> rcases stack with _ | ⟨top, below⟩ <;> rw [moved?] at h
  · cases h
  · split at h
    · rename_i htop
      obtain rfl := Option.some.inj h
      simp [List.count_cons, htop, Nat.add_comm]
    · cases h
  · split at h
    · rename_i hroot
      obtain rfl := Option.some.inj h
      simp [List.count_cons, hroot]
    · cases h
  · split at h
    · obtain rfl := Option.some.inj h
      simp [List.count_cons]
      omega
    · cases h

/-- A node is entered as often as it is left and gained by the stack. -/
theorem count_enter_of_replay (h : chart.replay stack moves = some stack') :
    moves.count (.enter i) + stack.count i = moves.count (.leave i) + stack'.count i := by
  induction moves generalizing stack with
  | nil => cases h; rfl
  | cons move rest ih =>
    obtain ⟨middle, hmiddle, hrest⟩ := Option.bind_eq_some_iff.mp h
    have hmove := count_moved? (i := i) hmiddle
    have := ih hrest
    rw [← List.singleton_append, List.count_append, List.count_append]
    omega

/-- Moves on a stack go from the empty one to a path: the root is entered once and stays, and a node
is entered once more than it is left exactly when it is on the path. -/
structure Stacks (chart : Chart) (moves : List Move) (path : List Nat) : Prop where
  replay_eq : chart.replay [] moves = some path.reverse
  root_stays : .leave 0 ∉ moves
  root_once : moves.count (.enter 0) = 1
  balance (i : Nat) : moves.count (.enter i) = moves.count (.leave i) + if i ∈ path then 1 else 0

/-- The moves of a run that begins in a situation and comes to another. -/
theorem Arena.stacks (tree : chart.Arena) {context : Context} (h : chart.Begins context s)
    (hpassages : chart.LeadsTo s passages s') :
    chart.Stacks (chart.movesOf passages) (chart.pathTo s'.leaf) := by
  have hs := h.situated tree
  have hreplay : chart.replay [] (chart.movesOf passages) = some (chart.ancestors s'.leaf) := by
    rw [movesOf, replay_append, tree.replay_initialPath hs.isLeaf h.path_eq]
    exact tree.replay_flatMap hs hpassages
  have hstays : .leave 0 ∉ chart.movesOf passages := by
    rw [movesOf, List.mem_append, not_or]
    exact ⟨by simp, tree.leave_zero_notMem_flatMap hs hpassages⟩
  have hbalance : ∀ i, (chart.movesOf passages).count (.enter i) =
      (chart.movesOf passages).count (.leave i) + if i ∈ chart.pathTo s'.leaf then 1 else 0 := by
    intro i
    have hcount := count_enter_of_replay (i := i) hreplay
    rw [(nodup_ancestors chart s'.leaf).count, List.count_nil, Nat.add_zero] at hcount
    rw [hcount]
    simp only [mem_pathTo]
  obtain ⟨n, hn⟩ := (tree.situated_of_leadsTo hs hpassages).isLeaf.exists_node
  refine ⟨by rw [hreplay, pathTo, List.reverse_reverse], hstays, ?_, hbalance⟩
  rw [hbalance, List.count_eq_zero.mpr hstays, if_pos (mem_pathTo.mpr (tree.zero_mem_ancestors hn))]

end Chart

namespace Interpreter

variable {chart : Chart}

/-- **Stack discipline.** In a built chart whose actions never fail the passages of a run execute
the exits of the nodes they leave, their own actions and the entries of the nodes they enter; these
nodes are popped from a stack and pushed on it, and after every call the stack is the active
path. -/
theorem run_stack (hbuilt : chart.Built) (htotal : chart.NeverFails) (context : Context)
    (name : Option String) (calls : List Call) :
    ((started chart context name).run calls).IsCourse chart context
        (course chart context name calls) ∧
      chart.Stacks (chart.movesOf (course chart context name calls))
        ((started chart context name).run calls).path := by
  have tree := hbuilt.arena
  have hcourse := isCourse_run tree htotal context name calls
  obtain ⟨s₀, s, hbegins, hpassages, hrests⟩ := id hcourse
  rw [hrests.toStands.path_eq]
  exact ⟨hcourse, tree.stacks hbegins hpassages⟩

set_option maxRecDepth 10000 in
/-- A lead that is resumed after a pause is in its conversion again. -/
theorem run_stack_resumed :
    Lead.chart.Built ∧ Lead.chart.NeverFails ∧
      Lead.chart.Stacks (Lead.chart.movesOf (course Lead.chart [] none
        [⟨.int 0, "meeting.booked"⟩, ⟨.int 0, "conversation.paused"⟩,
          ⟨.int 0, "conversation.resumed"⟩])) [0, 1, 11, 12] := by
  obtain ⟨-, hstacks⟩ := run_stack Lead.chart_built Lead.chart_neverFails [] none
    [⟨.int 0, "meeting.booked"⟩, ⟨.int 0, "conversation.paused"⟩,
      ⟨.int 0, "conversation.resumed"⟩]
  have hpath : ((started Lead.chart [] none).run [⟨.int 0, "meeting.booked"⟩,
      ⟨.int 0, "conversation.paused"⟩, ⟨.int 0, "conversation.resumed"⟩]).path =
        [0, 1, 11, 12] := by decide +kernel
  rw [hpath] at hstacks
  exact ⟨Lead.chart_built, Lead.chart_neverFails, hstacks⟩

end Interpreter

end Lifecycle
