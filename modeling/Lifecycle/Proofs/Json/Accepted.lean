import Lifecycle.Json.Lenient
import Lifecycle.Proofs.Json.Digits
import Lifecycle.Proofs.Json.Limits
import Lifecycle.Proofs.Outcome
import Mathlib.Data.List.TakeWhile

/-!
# Values that reading gives

What is read lies within the limits of reading and of writing (`within_parse`): no key is repeated,
no integer has too many digits and containers are not nested too deep. So it can be written, and
read again.
-/

namespace Lifecycle.Json

attribute [local irreducible] integerBound digitLimit

/-! ## Numbers -/

theorem digitsValue_lt {ds : List Char} (h : ∀ c ∈ ds, c.isDigit = true) :
    digitsValue ds < 10 ^ ds.length := by
  induction ds with
  | nil => exact Nat.one_pos
  | cons c ds ih =>
    obtain ⟨hc, hds⟩ := List.forall_mem_cons.mp h
    have hdigit := (digitChar_digitsValue hc).1
    have hvalue : digitsValue (c :: ds) = digitsValue [c] * 10 ^ ds.length + digitsValue ds :=
      digitsValue_append [c] ds
    calc digitsValue (c :: ds) < digitsValue [c] * 10 ^ ds.length + 10 ^ ds.length := by
          rw [hvalue]
          exact Nat.add_lt_add_left (ih hds) _
      _ = (digitsValue [c] + 1) * 10 ^ ds.length := (Nat.succ_mul _ _).symm
      _ ≤ 10 * 10 ^ ds.length := Nat.mul_le_mul_right _ hdigit
      _ = 10 ^ (c :: ds).length := by rw [List.length_cons, Nat.pow_succ, Nat.mul_comm]

theorem isDigit_of_readWhole {cs whole rest : List Char} (h : readWhole cs = (whole, rest)) :
    ∀ c ∈ whole, c.isDigit = true := by
  unfold readWhole at h
  split at h
  · obtain ⟨rfl, -⟩ := Prod.mk.inj h
    exact List.forall_mem_singleton.mpr rfl
  · obtain ⟨rfl, -⟩ := Prod.mk.inj h
    exact fun c hc => List.mem_takeWhile_imp hc

theorem lt_integerBound {n : Nat} {count : Nat} (h : n < 10 ^ count) (hcount : count ≤ digitLimit) :
    n < integerBound := by
  have hpow : Nat.pow 10 count ≤ Nat.pow 10 digitLimit := Nat.pow_le_pow_right (by decide) hcount
  unfold integerBound
  exact Nat.lt_of_lt_of_le h hpow

theorem within_readUnsigned {room : Nat} {negative : Bool} {cs rest : List Char} {value : Json}
    (h : readUnsigned negative cs = .ok (value, rest)) : Within room value := by
  unfold readUnsigned at h
  split at h
  · cases h
  · rename_i whole afterWhole hwhole
    dsimp only at h
    split at h
    · split at h
      · cases h
      · rename_i hlimit
        obtain ⟨rfl, -⟩ := Prod.mk.inj (Except.ok.inj h)
        have hlt := lt_integerBound (digitsValue_lt (isDigit_of_readWhole hwhole))
          (Nat.not_lt.mp hlimit)
        refine ⟨rfl, ?_, Nat.zero_le _⟩
        rw [isWritable, decide_eq_true_eq]
        split
        · rwa [Int.natAbs_neg, Int.natAbs_natCast]
        · rwa [Int.natAbs_natCast]
    · obtain ⟨rfl, -⟩ := Prod.mk.inj (Except.ok.inj h)
      exact ⟨rfl, rfl, Nat.zero_le _⟩

theorem within_readNumber {room : Nat} {cs rest : List Char} {value : Json}
    (h : readNumber cs = .ok (value, rest)) : Within room value := by
  unfold readNumber at h
  split at h
  case h_1 | h_2 | h_3 =>
    obtain ⟨rfl, -⟩ := Prod.mk.inj (Except.ok.inj h)
    exact ⟨rfl, rfl, Nat.zero_le _⟩
  case h_4 | h_5 => exact within_readUnsigned h

/-! ## Integers in other forms -/

theorem lt_integerBound_of_plainInteger? {cs : List Char} {n : Int}
    (h : plainInteger? cs = some n) (hcount : cs.countP Char.isDigit ≤ digitLimit) :
    n.natAbs < integerBound := by
  obtain ⟨digits, hdigits, hle, hvalue⟩ : ∃ digits : List Char, (∀ c ∈ digits, c.isDigit = true) ∧
      digits.length ≤ cs.countP Char.isDigit ∧ n.natAbs = digitsValue digits := by
    unfold plainInteger? at h
    dsimp only at h
    split at h
    all_goals
      split at h
      · rename_i hplain
        simp only [Bool.and_eq_true, allDigits, List.all_eq_true] at hplain
        obtain rfl := Option.some.inj h
        refine ⟨_, hplain.1.2, ?_, ?_⟩
        · simp [List.countP_eq_length.mpr hplain.1.2]
        · simp
      · cases h
  exact hvalue ▸ lt_integerBound (digitsValue_lt hdigits) (Nat.le_trans hle hcount)

/-- An integer that a value stands for has no more digits than integers may have. -/
theorem isWritable_of_lenientInteger? {value : Json} {n : Int} (hvalue : value.isWritable = true)
    (h : value.lenientInteger? = some n) : (Json.int n).isWritable = true := by
  have hsmall {m : Nat} (hm : m < 10 ^ 19) : m < integerBound :=
    lt_integerBound hm (by unfold digitLimit; decide)
  rw [isWritable, decide_eq_true_eq]
  cases value with
  | int m =>
    obtain rfl := Option.some.inj h
    exact of_decide_eq_true hvalue
  | bool b =>
    obtain rfl := Option.some.inj h
    exact hsmall (by cases b <;> decide)
  | float x =>
    rw [lenientInteger?] at h
    split at h
    · split at h
      · rename_i hbound
        obtain rfl := Option.some.inj h
        exact hsmall (Nat.lt_of_lt_of_le hbound (by decide))
      · cases h
    · cases h
  | str s =>
    obtain ⟨cs, hcs⟩ : ∃ cs, boundedInteger? cs = some n := by
      rw [lenientInteger?, spelledInteger?] at h
      split at h
      all_goals
        obtain ⟨digits, -, hdigits⟩ := Option.bind_eq_some_iff.mp h
        exact ⟨_, hdigits⟩
    unfold boundedInteger? at hcs
    split at hcs
    · cases hcs
    · rename_i hcount
      exact lt_integerBound_of_plainInteger? hcs (Nat.not_lt.mp hcount)
  | null | arr _ | obj _ => cases h

/-! ## Values -/

theorem within_close {room : Nat} {members : List (String × Json)} {object : Json}
    (hmembers : ∀ m ∈ members, Within room m.2) (h : close .lastWins members = .ok object) :
    Within (room + 1) object := by
  obtain rfl := Except.ok.inj h
  have hnodup : (Entries.keys (Entries.ofList members)).Nodup :=
    Entries.nodup_keys_overlay members List.nodup_nil
  refine within_obj_iff.mpr ⟨hnodup, fun m hm => ?_⟩
  rcases Entries.get?_overlay_cases (Entries.get?_of_mem hnodup hm) with ⟨k, hk, -⟩ | hnil
  · exact hmembers (k, m.2) hk
  · cases hnil

/-- What some fuel allows to read lies within the limits. -/
structure ReadsWithin (fuel : Nat) : Prop where
  value {room : Nat} {cs rest : List Char} {value : Json} :
    readValue .lastWins room fuel cs = .ok (value, rest) → Within room value
  items {room : Nat} {cs rest : List Char} {items : List Json} :
    readItems .lastWins room fuel cs = .ok (items, rest) → ∀ item ∈ items, Within room item
  members {room : Nat} {cs rest : List Char} {members : List (String × Json)} :
    readMembers .lastWins room fuel cs = .ok (members, rest) → ∀ m ∈ members, Within room m.2

namespace ReadsWithin

variable {fuel : Nat} (h : ReadsWithin fuel) {room : Nat} {cs rest : List Char}

include h

theorem value_succ {value : Json}
    (hread : readValue .lastWins room (fuel + 1) cs = .ok (value, rest)) : Within room value := by
  unfold readValue at hread
  split at hread
  · obtain ⟨read, -, hread⟩ := bind_eq_ok.mp hread
    cases hread
    exact ⟨rfl, rfl, Nat.zero_le _⟩
  · split at hread
    · cases hread
    · rename_i hroom
      split at hread
      · cases hread
        exact within_arr hroom (List.forall_mem_nil _)
      · obtain ⟨read, hitems, hread⟩ := bind_eq_ok.mp hread
        cases hread
        exact within_arr hroom (h.items hitems)
  · split at hread
    · cases hread
    · rename_i hroom
      obtain ⟨inside, rfl⟩ := Nat.exists_eq_succ_of_ne_zero hroom
      split at hread
      · cases hread
        exact within_obj_iff.mpr ⟨List.nodup_nil, List.forall_mem_nil _⟩
      · obtain ⟨read, hmembers, hread⟩ := bind_eq_ok.mp hread
        obtain ⟨object, hobject, hread⟩ := bind_eq_ok.mp hread
        cases hread
        exact within_close (h.members hmembers) hobject
  case h_4 | h_5 | h_6 =>
    cases hread
    exact ⟨rfl, rfl, Nat.zero_le _⟩
  · exact within_readNumber hread

theorem items_succ {items : List Json}
    (hread : readItems .lastWins room (fuel + 1) cs = .ok (items, rest)) :
    ∀ item ∈ items, Within room item := by
  unfold readItems at hread
  obtain ⟨read, hitem, hread⟩ := bind_eq_ok.mp hread
  have hfirst := h.value hitem
  dsimp only at hread
  split at hread
  · cases hread
    exact List.forall_mem_singleton.mpr hfirst
  · obtain ⟨more, hmore, hread⟩ := bind_eq_ok.mp hread
    cases hread
    exact List.forall_mem_cons.mpr ⟨hfirst, h.items hmore⟩
  · cases hread

theorem members_succ {members : List (String × Json)}
    (hread : readMembers .lastWins room (fuel + 1) cs = .ok (members, rest)) :
    ∀ m ∈ members, Within room m.2 := by
  unfold readMembers at hread
  split at hread
  · obtain ⟨key, -, hread⟩ := bind_eq_ok.mp hread
    dsimp only at hread
    split at hread
    · obtain ⟨read, hvalue, hread⟩ := bind_eq_ok.mp hread
      have hfirst := h.value hvalue
      split at hread
      · cases hread
        exact List.forall_mem_singleton.mpr hfirst
      · obtain ⟨more, hmore, hread⟩ := bind_eq_ok.mp hread
        cases hread
        exact List.forall_mem_cons.mpr ⟨hfirst, h.members hmore⟩
      · cases hread
    · cases hread
  · cases hread

end ReadsWithin

theorem readsWithin (fuel : Nat) : ReadsWithin fuel := by
  induction fuel with
  | zero =>
    exact ⟨fun h => by simp [readValue] at h, fun h => by simp [readItems] at h,
      fun h => by simp [readMembers] at h⟩
  | succ fuel ih => exact ⟨ih.value_succ, ih.items_succ, ih.members_succ⟩

/-- The value of a text lies within the limits. -/
theorem within_parse {text : String} {value : Json} (h : parse .lastWins text = .ok value) :
    Within nestingLimit value := by
  obtain ⟨⟨found, rest⟩, hread, h⟩ := bind_eq_ok.mp h
  replace h : (if (skipGap rest).isEmpty then Except.ok found
    else Except.error ReadError.malformed) = .ok value := h
  split at h
  · cases h
    exact (readsWithin _).value hread
  · cases h

end Lifecycle.Json
