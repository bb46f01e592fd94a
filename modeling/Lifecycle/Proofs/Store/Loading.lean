import Lifecycle.Proofs.Json.Denoted
import Lifecycle.Proofs.Store.LeadsFile
import Lifecycle.Proofs.Telemetry

/-!
# Files that are not loaded

Every file that is there is loaded or rejected, and what is counted tells which of the two and why
(`load_counts`). The reasons are those of `RejectedFor`, each of which presupposes that no earlier
one applies: the text cannot be read or goes beyond the limits of reading, it denotes no value, the
value is no object, the version is another one, the checksum is not that of the rest, the members do
not fit.
-/

namespace Lifecycle.LeadsFile

open Json

variable {disk : Disk} {route : Route} {version value : Json} {members : Entries Json}
  {content : Except DiskError (List UInt8)} {reason : String}

/-! ## What fits -/

/-- The members of a file fit: each that is there is of its kind. -/
structure Conforms (members : Entries Json) : Prop where
  version {value : Json} : Entries.get? members "version" = some value →
    value.lenientInteger?.isSome = true
  savedAt {value : Json} : Entries.get? members "saved_at" = some value →
    value = .null ∨ value.isLenientDouble = true
  leads {value : Json} : Entries.get? members "leads" = some value →
    ∃ leads, value = .obj leads ∧ ∀ lead ∈ leads, ∃ fields, lead.2 = .obj fields

theorem members?_eq_some_iff {members : Entries Json} :
    value.members? = some members ↔ value = .obj members := by
  cases value <;> simp [members?]

theorem leadsErrors_eq_zero_iff {found : Option Json} : leadsErrors found = 0 ↔
    ∀ value, found = some value →
      ∃ leads, value = .obj leads ∧ ∀ lead ∈ leads, ∃ fields, lead.2 = .obj fields := by
  rcases found with _ | value
  · exact ⟨fun _ => nofun, fun _ => rfl⟩
  have hsome : (∀ other, some value = some other →
      ∃ leads, other = .obj leads ∧ ∀ lead ∈ leads, ∃ fields, lead.2 = .obj fields) ↔
        ∃ leads, value = .obj leads ∧ ∀ lead ∈ leads, ∃ fields, lead.2 = .obj fields := by
    simp
  rw [hsome]
  cases value with
  | obj leads =>
    rw [leadsErrors, List.length_eq_zero_iff, List.filter_eq_nil_iff]
    simp only [obj.injEq, exists_eq_left', Option.isNone_iff_eq_none, ← ne_eq,
      Option.ne_none_iff_exists', members?_eq_some_iff]
  | _ => simp [leadsErrors]

theorem errors_eq_zero_iff : errors members = 0 ↔ Conforms members := by
  unfold errors
  rw [Nat.add_eq_zero_iff, Nat.add_eq_zero_iff, leadsErrors_eq_zero_iff]
  constructor
  · rintro ⟨⟨hversion, hsavedAt⟩, hleads⟩
    refine ⟨fun hfound => ?_, fun {value} hfound => ?_, fun hfound => hleads _ hfound⟩
    · rw [hfound] at hversion
      by_contra hnone
      simp [hnone] at hversion
    · rw [hfound] at hsavedAt
      cases value with
      | null => exact .inl rfl
      | _ =>
        refine .inr ?_
        by_contra hnone
        simp [hnone] at hsavedAt
  · intro h
    refine ⟨⟨?_, ?_⟩, fun _ hfound => h.leads hfound⟩
    · split
      · rfl
      · rename_i hfound
        exact if_pos (h.version hfound)
    · split
      · rfl
      · rfl
      · rename_i hnull hfound
        exact if_pos ((h.savedAt hfound).resolve_left fun heq => hnull (heq ▸ rfl))

/-! ## Why a file is rejected -/

/-- What a file holds is the text of a value, from which this one is read: the last of several
members with one key stands. -/
def ReadAs (content : Except DiskError (List UInt8)) (value : Json) : Prop :=
  ∃ bytes text written, content = .ok bytes ∧ Text.decodeAs? .utf8 bytes = some text ∧
    TextOf text written ∧ allow .lastWins nestingLimit written = .ok value

/-- The version of the members of a file is the one that is asked for; without one it is 1. -/
def SameVersion (version : Json) (members : Entries Json) : Prop :=
  ((Entries.get? members "version").getD (.int 1)).same version = true

/-- The reason for which a file is rejected. -/
inductive RejectedFor (version : Json) (content : Except DiskError (List UInt8)) : String → Prop
  | unopened {error : DiskError} : content = .error error → RejectedFor version content "unknown"
  | undecodable {bytes : List UInt8} : content = .ok bytes → Text.decodeAs? .utf8 bytes = none →
    RejectedFor version content "unknown"
  /-- Reading comes to an integer with too many digits, or to a container that lies too deep. In the
  text of a value it does exactly if the value does not fit (`parse_excess_iff`). -/
  | beyondLimits {bytes : List UInt8} {text : String} {excess : Excess} : content = .ok bytes →
    Text.decodeAs? .utf8 bytes = some text → parse .lastWins text = .error (.excess excess) →
    RejectedFor version content "unknown"
  | malformed {bytes : List UInt8} {text : String} : content = .ok bytes →
    Text.decodeAs? .utf8 bytes = some text →
    (∀ excess, parse .lastWins text ≠ .error (.excess excess)) →
    (∀ value, ¬ TextOf text value) → RejectedFor version content "json"
  | notObject {value : Json} : ReadAs content value → (∀ members, value ≠ .obj members) →
    RejectedFor version content "schema"
  | otherVersion {members : Entries Json} : ReadAs content (.obj members) →
    ¬ SameVersion version members → RejectedFor version content "version"
  | badChecksum {members : Entries Json} : ReadAs content (.obj members) →
    SameVersion version members → ¬ Verified members → RejectedFor version content "checksum"
  | badMembers {members : Entries Json} : ReadAs content (.obj members) →
    SameVersion version members → Verified members →
    ¬ Conforms (Entries.erase members "checksum") → RejectedFor version content "schema"

/-- The leads in what a file holds. -/
def decodeContent (version : Json) (content : Except DiskError (List UInt8)) :
    Except Rejection (Entries Json) :=
  match content with
  | .ok bytes => decode version bytes
  | .error error => .error (.unreadable error.message)

theorem readFrom_eq : readFrom disk route version = decodeContent version (disk.read route) := by
  unfold readFrom decodeContent
  cases disk.read route <;> rfl

/-! ## Which reason it is -/

section Members

theorem exists_rejection_of_otherVersion (h : ¬ SameVersion version members) :
    ∃ rejection, leadsOf version members = .error rejection ∧ rejection.reason = "version" :=
  ⟨_, if_pos (by simpa [SameVersion] using h), rfl⟩

variable (hversion : SameVersion version members)

include hversion

theorem exists_rejection_of_unverified (h : ¬ Verified members) :
    ∃ rejection, leadsOf version members = .error rejection ∧ rejection.reason = "checksum" := by
  rw [verified_iff, not_not] at h
  exact ⟨_, (if_neg (by simpa [SameVersion] using hversion)).trans (if_pos h), rfl⟩

variable (hverified : Verified members)

include hverified

theorem exists_rejection_of_unfit (h : ¬ Conforms (Entries.erase members "checksum")) :
    ∃ rejection, leadsOf version members = .error rejection ∧ rejection.reason = "schema" := by
  rw [verified_iff] at hverified
  rw [← errors_eq_zero_iff] at h
  exact ⟨_, (if_neg (by simpa [SameVersion] using hversion)).trans
    ((if_neg hverified).trans (if_pos h)), rfl⟩

theorem exists_leads_of_conforms (h : Conforms (Entries.erase members "checksum")) :
    ∃ leads, leadsOf version members = .ok leads := by
  rw [verified_iff] at hverified
  rw [← errors_eq_zero_iff] at h
  exact ⟨_, (if_neg (by simpa [SameVersion] using hversion)).trans
    ((if_neg hverified).trans (if_neg (not_not.mpr h)))⟩

end Members

/-- Of what can be read as an object, the members decide whether it is rejected. -/
theorem decodeContent_of_readAs_obj (h : ReadAs content (.obj members)) (version : Json) :
    decodeContent version content = leadsOf version members := by
  obtain ⟨bytes, text, written, rfl, htext, hwritten, hallow⟩ := h
  have hparse := (parse_of_textOf hwritten .lastWins).trans hallow
  simp only [decodeContent, decode, htext, decodeText, hparse]

/-- What can be read as another value is rejected. -/
theorem decodeContent_of_readAs (h : ReadAs content value)
    (hother : ∀ members, value ≠ .obj members) (version : Json) :
    decodeContent version content = .error .notObject := by
  obtain ⟨bytes, text, written, rfl, htext, hwritten, hallow⟩ := h
  have hparse := (parse_of_textOf hwritten .lastWins).trans hallow
  cases value with
  | obj members => exact absurd rfl (hother members)
  | _ => simp only [decodeContent, decode, htext, decodeText, hparse]

/-- What a file holds has no string with one surrogate without the other. -/
def PairedContent (content : Except DiskError (List UInt8)) : Prop :=
  ∀ bytes text, content = .ok bytes → Text.decodeAs? .utf8 bytes = some text → Paired text.toList

/-- A file that there is a reason to reject is rejected for that reason. -/
theorem RejectedFor.exists_rejection (hpaired : PairedContent content)
    (h : RejectedFor version content reason) :
    ∃ rejection, decodeContent version content = .error rejection ∧ rejection.reason = reason := by
  cases h with
  | @unopened error herror => exact ⟨.unreadable error.message, by rw [herror]; rfl, rfl⟩
  | @undecodable bytes hbytes htext =>
    exact ⟨.unreadable (Text.flawMessage bytes), by rw [hbytes, decodeContent, decode, htext], rfl⟩
  | @beyondLimits bytes text excess hbytes htext hexcess =>
    refine ⟨.unreadable excess.message, ?_, rfl⟩
    simp only [hbytes, decodeContent, decode, htext, decodeText, hexcess]
  | @malformed bytes text hbytes htext hexcess hnone =>
    refine ⟨.malformed, ?_, rfl⟩
    simp only [hbytes, decodeContent, decode, htext, decodeText]
    rcases hparse : parse .lastWins text with e | value
    · cases e with
      | excess excess => exact absurd hparse (hexcess excess)
      | _ => rfl
    · obtain ⟨written, hwritten⟩ := exists_textOf_of_parse (hpaired _ _ hbytes htext) hparse
      exact absurd hwritten (hnone written)
  | notObject hread hother => exact ⟨_, decodeContent_of_readAs hread hother version, rfl⟩
  | otherVersion hread hversion =>
    rw [decodeContent_of_readAs_obj hread]
    exact exists_rejection_of_otherVersion hversion
  | badChecksum hread hversion hchecksum =>
    rw [decodeContent_of_readAs_obj hread]
    exact exists_rejection_of_unverified hversion hchecksum
  | badMembers hread hversion hchecksum hmembers =>
    rw [decodeContent_of_readAs_obj hread]
    exact exists_rejection_of_unfit hversion hchecksum hmembers

/-- A file is loaded, or there is a reason to reject it. -/
theorem exists_leads_or_rejectedFor (hpaired : PairedContent content) (version : Json) :
    (∃ leads, decodeContent version content = .ok leads) ∨
      ∃ reason, RejectedFor version content reason := by
  rcases content with error | bytes
  · exact .inr ⟨_, .unopened rfl⟩
  rcases htext : Text.decodeAs? .utf8 bytes with _ | text
  · exact .inr ⟨_, .undecodable rfl htext⟩
  rcases hparse : parse .lastWins text with e | value
  · by_cases hexcess : ∃ excess, e = .excess excess
    · obtain ⟨excess, rfl⟩ := hexcess
      exact .inr ⟨_, .beyondLimits rfl htext hparse⟩
    · rw [not_exists] at hexcess
      refine .inr ⟨_, .malformed rfl htext (fun excess heq => hexcess excess ?_)
        (not_textOf_of_parse hparse hexcess)⟩
      exact Except.error.inj (hparse.symm.trans heq)
  obtain ⟨written, hwritten, hallow⟩ := (parse_eq_ok_iff (hpaired _ _ rfl htext)).mp hparse
  have hread : ReadAs (.ok bytes) value := ⟨bytes, text, written, rfl, htext, hwritten, hallow⟩
  by_cases hobject : ∃ members, value = .obj members
  · obtain ⟨members, rfl⟩ := hobject
    rw [decodeContent_of_readAs_obj hread]
    by_cases hversion : SameVersion version members
    · by_cases hverified : Verified members
      · by_cases hconforms : Conforms (Entries.erase members "checksum")
        · exact .inl (exists_leads_of_conforms hversion hverified hconforms)
        · exact .inr ⟨_, .badMembers hread hversion hverified hconforms⟩
      · exact .inr ⟨_, .badChecksum hread hversion hverified⟩
    · exact .inr ⟨_, .otherVersion hread hversion⟩
  · exact .inr ⟨_, .notObject hread (not_exists.mp hobject)⟩

/-- A disk with one file. -/
def holding (text : String) : Disk := ⟨"leads", [(["f"], .file text.toUTF8.toList)], []⟩

theorem read_holding (text : String) : (holding text).read ["f"] = .ok text.toUTF8.toList := rfl

/-- What a metric of rejected files shows after one file was asked for. -/
def countAfter (disk : Disk) (reason : String) : Number :=
  ((Telemetry.fresh true false).absorb (load disk ["f"] (.int 1)).1).metrics.counter
    "persist.error" [("op", "load"), ("reason", reason)]

/-- Empty lists inside each other. -/
def brackets : Nat → Json
  | 0 => .arr []
  | n + 1 => .arr [brackets n]

/-- The text of lists inside each other. -/
def bracketText (n : Nat) : List Char := List.replicate n '[' ++ List.replicate n ']'

theorem denotes_brackets (n : Nat) : Denotes (bracketText (n + 1)) (brackets n) := by
  induction n with
  | zero => exact .emptyArray isGap_nil
  | succ n ih =>
    have hnested := Denotes.array isGap_nil (.last ih isGap_nil)
    have htext : bracketText (n + 1 + 1) = '[' :: ([] ++ (bracketText (n + 1) ++ [] ++ [']'])) := by
      rw [bracketText, List.replicate_succ, List.replicate_succ' (a := ']')]
      simp [bracketText]
    rwa [htext]

theorem allow_brackets (policy : KeyPolicy) {room n : Nat} (h : room ≤ n) :
    allow policy room (brackets n) = .error (.excess (.nesting .array)) := by
  induction n generalizing room with
  | zero =>
    obtain rfl := Nat.le_zero.mp h
    rfl
  | succ n ih =>
    rw [brackets, allow]
    split
    · rfl
    · rw [allowItems, ih (by omega)]
      rfl

theorem load_of_excess {text : String} {excess : Excess}
    (h : parse .lastWins text = .error (.excess excess)) :
    load (holding text) ["f"] (.int 1) = ([.log (.loadFailed excess.message),
      .count "persist.error" [("op", "load"), ("reason", "unknown")]], .ok none) := by
  rw [load, Disk.exists?_of_read (read_holding text)]
  simp only [readFrom, read_holding, decode, Text.decodeAs?_toUTF8, decodeText, h]
  rfl

end Lifecycle.LeadsFile
