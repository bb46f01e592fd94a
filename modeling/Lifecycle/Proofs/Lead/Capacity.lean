import Lifecycle.Proofs.Decimal.ReadBack
import Lifecycle.Proofs.Lead.Queue

/-!
# Queues of any capacity

The capacity of a queue may be any integer, zero and negative ones included. What it decides is who
is let in; an event that is let in stands at the end of the line, and its arrival is logged only
then. The log tells the depth as a share of the capacity, so that there is nothing to tell of a
capacity of zero, and none of a capacity beyond binary64 times a share that is no integer
(`EventQueue.arrival`): such an arrival fails with the event in the line
(`EventQueue.enqueue_arrival`).
-/

namespace Lifecycle

namespace Double

theorem unitsOfOne_pos : 0 < unitsOfOne := by
  obtain ⟨k, -, hunits⟩ := Decimal.exists_unitsOfOne_eq
  rw [hunits]
  exact Nat.two_pow_pos k

theorem ofInt_zero : ofInt 0 = zero := by
  rw [ofInt, ofRatio, Int.natAbs_zero, Nat.zero_mul, decide_eq_false (Int.lt_irrefl 0)]
  exact ofUnits_eq_finite _ ⟨0, by decide⟩ (placeNear_eq_zero (by decide))

theorem intAtLeast_of_units? {x : Double} {u : Int} (h : x.units? = some u) (n : Int) :
    intAtLeast n x = decide (u ≤ n * (unitsOfOne : Int)) := by
  cases x with
  | nan | infinite => cases h
  | finite => simp only [intAtLeast, h]

/-- Of a product with zero an integer that is not negative falls short only where it is no
number. -/
theorem intAtLeast_zero_mul (depth : Nat) (x : Double) :
    intAtLeast depth ((ofInt 0).mul x) = x.isFinite := by
  have hunits : unitsAt 0 = 0 := unitsAt_of_lt (by decide)
  rw [ofInt_zero]
  cases x with
  | nan => rfl
  | infinite negative => rfl
  | finite negative place =>
    have hproduct : Double.mul zero (.finite negative place) = signedZero (false != negative) := by
      refine ofUnits_eq_finite _ ⟨0, by decide⟩ (placeNear_eq_zero ?_)
      rw [hunits, Nat.zero_mul]
      exact unitsOfOne_pos
    have hworth : (signedZero (false != negative)).units? = some 0 := by
      simp only [signedZero, units?, hunits, Int.natCast_zero, Int.neg_zero, ite_self]
    have hpos : (0 : Int) ≤ depth * (unitsOfOne : Int) :=
      Int.mul_nonneg (Int.natCast_nonneg _) (Int.natCast_nonneg _)
    rw [hproduct, intAtLeast_of_units? hworth]
    exact decide_eq_true hpos

theorem isSome_units? (x : Double) : x.units?.isSome = x.isFinite := by
  cases x <;> rfl

end Double

namespace EventQueue

variable {α : Type} {q : EventQueue α} {capacity : Int} {share : Number}

/-- What the arrival of an event that is let in comes back with, where the depth is logged from a
share of the capacity on. -/
def arrival (capacity : Int) (share : Number) : Except Fault Bool :=
  if share.isFloat && !(Double.ofInt capacity).isFinite then .error .beyondDouble
  else if capacity = 0 ∧ share.units?.isSome then .error (.divisionByZero false)
  else .ok true

/-- Where the share of a capacity can be told, arrivals are logged without a failure. -/
theorem arrival_eq_ok_iff :
    arrival capacity share = .ok true ↔
      (share.isFloat = true → (Double.ofInt capacity).isFinite = true) ∧
        (capacity = 0 → share.units? = none) := by
  unfold arrival
  by_cases hbeyond : (share.isFloat && !(Double.ofInt capacity).isFinite) = true
  · simp only [if_pos hbeyond]
    simp_all
  · simp only [if_neg hbeyond]
    by_cases hzero : capacity = 0 ∧ share.units?.isSome = true
    · simp only [if_pos hzero]
      simp_all [Option.isSome_iff_ne_none]
    · simp only [if_neg hzero]
      simp_all

/-- From a share of nothing on, every depth is logged. -/
theorem intAtLeast_zero_mul (depth : Nat) (share : Number) :
    ((Number.int 0).mul share).intAtLeast depth = share.units?.isSome := by
  cases share with
  | int n =>
    refine decide_eq_true ?_
    rw [Int.zero_mul]
    exact Int.natCast_nonneg depth
  | float x =>
    exact (Double.intAtLeast_zero_mul depth x).trans x.isSome_units?.symm

/-- The warning that is due fails as the arrival does. -/
theorem map_highSignals (hcapacity : q.capacity = .int capacity)
    (hshare : q.watermark = .ofNumber share) :
    q.highSignals.map (fun _ => true) = arrival capacity share := by
  have hnumber : (Json.ofNumber share).number? = some share := by cases share <;> rfl
  have hint : (Json.int capacity).number? = some (.int capacity) := rfl
  have hleast : (Number.int capacity).mul? share =
      if share.isFloat && !(Double.ofInt capacity).isFinite then none
      else some ((Number.int capacity).mul share) := by
    cases share with
    | int n => rfl
    | float x =>
      by_cases hfinite : (Double.ofInt capacity).isFinite = true <;>
        simp [Number.mul?, Number.isWithinDouble, Number.isFloat, hfinite]
  unfold arrival
  simp only [highSignals, hcapacity, hshare, hnumber, hint, hleast]
  by_cases hbeyond : (share.isFloat && !(Double.ofInt capacity).isFinite) = true
  · simp only [if_pos hbeyond]
    rfl
  · simp only [if_neg hbeyond]
    by_cases hzero : capacity = 0
    · subst hzero
      simp only [intAtLeast_zero_mul, true_and]
      split <;> rfl
    · have hnonzero : (Number.int capacity).isZero = false := by
        simpa [Number.isZero] using hzero
      simp only [hnonzero, hzero, false_and, if_false]
      split <;> rfl

theorem result_append (hcapacity : q.capacity = .int capacity)
    (hshare : q.watermark = .ofNumber share) (item : α) (signals : List Signal) :
    (q.append item signals).result = arrival capacity share := by
  have hmap : ({ q with line := q.line.push item } : EventQueue α).highSignals.map (fun _ => true) =
      arrival capacity share := map_highSignals hcapacity hshare
  unfold append
  dsimp only
  rw [← hmap]
  split
  · rename_i high hhigh
    rw [hhigh]
    rfl
  · rename_i fault hfault
    rw [hfault]
    rfl

/-- An event that is refused is answered; one that is let in is answered as its arrival is. -/
theorem result_enqueue (hcapacity : q.capacity = .int capacity)
    (hshare : q.watermark = .ofNumber share) (item : α) :
    (q.enqueue item).result =
      if letIn (q.enqueue item).result then arrival capacity share else .ok false := by
  have hfull : q.isFull = .ok (decide (capacity ≤ q.depth)) := by
    rw [isFull, hcapacity]
    rfl
  unfold enqueue
  rw [hfull]
  split
  · cases ‹_›
  · rw [letIn_append, if_pos rfl, result_append hcapacity hshare]
  · split
    · rename_i kept _
      have hshorter : EventQueue.capacity { q with line := kept, dropped := q.dropped + 1 } =
          .int capacity := hcapacity
      rw [letIn_append, if_pos rfl, result_append hshorter hshare]
    · split
      · rw [letIn_append, if_pos rfl, result_append hcapacity hshare]
      · rfl

/-- An event that is shielded is let in. -/
theorem letIn_of_shielded {item : α} (hcapacity : q.capacity = .int capacity)
    (h : q.shielded item = true) : letIn (q.enqueue item).result = true := by
  have hanswer := answers_enqueue hcapacity item
  generalize letIn (q.enqueue item).result = accept at hanswer
  generalize (q.enqueue item).state = after at hanswer
  cases hanswer with
  | joins | displaces => rfl
  | refuses _ _ hitem => exact absurd h (Bool.eq_false_iff.mp hitem)

/-- The usual share can be told. -/
theorem isSome_units?_queueWatermark : Settings.queueWatermark.units?.isSome = true := by
  decide +kernel

/-- **Arrivals at queues of any capacity.** Whatever waits in a queue whose capacity is any integer,
and whatever share of it is to be logged: an event that is offered is turned away, which leaves the
line as it was and counts a drop, or it stands at the end of the line, where the oldest event that
is not shielded may have been dropped for it, and counted. In this case the answer is the
`arrival`, which is a failure where the share of the capacity cannot be told. With the usual share
this is so at a capacity of zero and at those beyond binary64, and nowhere else. -/
theorem enqueue_arrival (q : EventQueue α) (capacity : Int) (share : Number) (item : α) :
    let sized : EventQueue α :=
      { q with capacity := .int capacity, watermark := .ofNumber share }
    let response := sized.enqueue item
    (response.result = .ok false ∧ response.state = { sized with dropped := q.dropped + 1 } ∧
        capacity ≤ q.depth ∧ (∀ e ∈ q.items, q.shielded e = true) ∧ q.shielded item = false ∨
      response.result = arrival capacity share ∧ ∃ line kept dropped,
        response.state = { sized with line := line, dropped := dropped } ∧
          line.toList = kept ++ [item] ∧
          (kept = q.items ∧ dropped = q.dropped ∨
            Deque.dropUnless? q.shielded q.items = some kept ∧ dropped = q.dropped + 1)) ∧
      (arrival capacity Settings.queueWatermark = .ok true ↔
        capacity ≠ 0 ∧ (Double.ofInt capacity).isFinite = true) := by
  intro sized response
  refine ⟨?_, ?_⟩
  · have hanswer : sized.Answers capacity item response.state (letIn response.result) :=
      answers_enqueue rfl item
    have hresult : response.result =
        if letIn response.result then arrival capacity share else .ok false :=
      result_enqueue rfl rfl item
    generalize letIn response.result = accept at hanswer hresult
    generalize response.state = after at hanswer
    cases hanswer with
    | @joins line hitems _ =>
      exact .inr ⟨hresult, line, q.items, q.dropped, rfl, hitems, .inl ⟨rfl, rfl⟩⟩
    | @displaces line kept _ hdrop hitems =>
      exact .inr ⟨hresult, line, kept, q.dropped + 1, rfl, hitems, .inr ⟨hdrop, rfl⟩⟩
    | refuses hfull hall hitem => exact .inl ⟨hresult, rfl, hfull, hall, hitem⟩
  · have hunits : Settings.queueWatermark.units? ≠ none :=
      Option.isSome_iff_ne_none.mp isSome_units?_queueWatermark
    rw [arrival_eq_ok_iff, and_comm]
    refine and_congr ⟨fun h hzero => hunits (h hzero), fun h hzero => absurd hzero h⟩ ?_
    exact ⟨fun h => h rfl, fun h _ => h⟩

/-- **A capacity of zero has no share.** A protected event that arrives at a queue for none stands
in the line after its arrival has failed. -/
theorem enqueue_fails :
    ¬ ∀ (lead : String) (capacity : Int) (words : List String) (line : Deque String)
        (item : String),
      let q := { shielding lead (.int capacity) words with line := line }
      let response := q.enqueue item
      response.result = .ok false ∧ response.state.items = q.items ∧
          response.state.dropped = q.dropped + 1 ∨
        response.result = .ok true ∧ ∃ kept, response.state.items = kept ++ [item] := by
  intro hall
  have hshielded : (shielding "ada" (.int 0) ["goal.hit"]).shielded "goal.hit" = true := by decide
  have hletIn := letIn_of_shielded rfl hshielded
  have hfinite : (Double.ofInt 0).isFinite = true := by
    rw [Double.ofInt_zero]
    rfl
  have hfails : ((shielding "ada" (.int 0) ["goal.hit"]).enqueue "goal.hit").result =
      if letIn ((shielding "ada" (.int 0) ["goal.hit"]).enqueue "goal.hit").result then
        arrival 0 Settings.queueWatermark
      else .ok false := result_enqueue rfl rfl "goal.hit"
  rw [hletIn, if_pos rfl, arrival, hfinite, isSome_units?_queueWatermark] at hfails
  rcases hall "ada" 0 ["goal.hit"] .empty "goal.hit" with ⟨hrefused, -⟩ | ⟨haccepted, -⟩
  · cases hfails.symm.trans hrefused
  · cases hfails.symm.trans haccepted

end EventQueue

end Lifecycle
