import Lifecycle.Json.Basic
import Lifecycle.Proofs.Decimal.Equality

/-!
# Equality of keys by value

Keys are the same exactly when they bear the same mark (`Key.beq_iff`): two texts when they are
equal, two numbers or booleans when they are worth the same. This makes sameness of keys symmetric
and transitive, so that entries with such keys obey the laws of a map. Only NaN is not the same as
itself.
-/

namespace Lifecycle.Json.Key

/-- What tells a key from others. -/
inductive Mark where
  | null
  | text (s : String)
  | number (worth : Worth)

/-- The mark of a key; NaN has none. -/
def mark? : Key → Option Mark
  | .null => some .null
  | .text s => some (.text s)
  | key => (key.toJson.number?.bind Number.worth?).map .number

theorem beq_iff {a b : Key} :
    (a == b) = true ↔ ∃ mark, a.mark? = some mark ∧ b.mark? = some mark := by
  have hnumbers : ∀ {x y : Number}, x.same y = true ↔
      ∃ mark, x.worth?.map Mark.number = some mark ∧ y.worth?.map Mark.number = some mark := by
    intro x y
    rw [Number.same_iff]
    rcases x.worth? with _ | v <;> rcases y.worth? with _ | w <;> simp
  cases a <;> cases b <;>
    simp only [BEq.beq, toJson, same, number?, mark?, hnumbers, Option.bind_some]
  case text.text => simpa using eq_comm
  all_goals simp

/-- Only texts are the same as a text. -/
theorem isText_of_beq {a b : Key} (h : (a == b) = true) (ha : a.isText = true) :
    b.isText = true := by
  cases a with
  | text s =>
    cases b with
    | text t => rfl
    | _ => simp [BEq.beq, toJson, same] at h
  | _ => cases ha

instance : PartialEquivBEq Key where
  symm h := by
    obtain ⟨mark, ha, hb⟩ := beq_iff.mp h
    exact beq_iff.mpr ⟨mark, hb, ha⟩
  trans hab hbc := by
    obtain ⟨mark, ha, hb⟩ := beq_iff.mp hab
    obtain ⟨mark', hb', hc⟩ := beq_iff.mp hbc
    obtain rfl := Option.some.inj (hb.symm.trans hb')
    exact beq_iff.mpr ⟨mark, ha, hc⟩

end Lifecycle.Json.Key
