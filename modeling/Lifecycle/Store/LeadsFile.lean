import Lifecycle.Json.Pairs
import Lifecycle.Response
import Lifecycle.Snapshot.Envelope
import Lifecycle.Store.Staging
import Lifecycle.Text.Utf8

/-!
# Files of leads

One file holds the layouts of all leads, with a version, what the clock showed and a checksum of the
canonical text of the rest; versions are the same when they are equal by value. Saving replaces the
file as a whole or leaves all files as they were; loading checks the file and hands out the layouts
as they stand, for the caller to check one by one. A file without a checksum, or with one that
counts as absent, is loaded unchecked.
-/

namespace Lifecycle

namespace LeadsFile

/-- The members that the checksum covers. -/
def body (version savedAt : Json) (leads : Entries Json) : Entries Json :=
  [("version", version), ("saved_at", savedAt), ("leads", .obj leads)]

/-- The canonical text of the members that the checksum covers, given those of the leads. -/
def bodyText (version savedAt : Json) (leads : List (String × String)) : String :=
  let style := Json.Style.canonical
  style.object 0 (style.order
    [("version", Json.write style 1 version), ("saved_at", Json.write style 1 savedAt),
      ("leads", style.object 1 (style.order leads))])

/-- The text of a file; the checksum is that of the covered text. -/
def encode (version savedAt : Json) (leads : Entries Json) (covered : String) : String :=
  Json.render .file
    (.obj (body version savedAt leads ++ [("checksum", .str (Sha256.ofText covered))]))

/-- All leads with the result of a function on their values; else why one of them has none. -/
def eachLead {α β : Type} (f : α → Except Json.Flaw β) :
    Entries α → Except Json.Flaw (Entries β)
  | [] => .ok []
  | (lead, value) :: rest =>
    match f value with
    | .error flaw => .error flaw
    | .ok result => (eachLead f rest).map ((lead, result) :: ·)

/-- A lead as it is saved: its value, and the canonical text of it or why there is none. -/
structure Saved where
  value : Json
  covered : Except Json.Flaw String

/-- The depth at which leads stand in the file. -/
def leadDepth : Nat := 2

/-- A layout as it is saved. -/
def Saved.ofLayout (layout : Layout) : Saved := ⟨layout.toJson, layout.canonicalText leadDepth⟩

/-- A value as it is saved: the object that it is or describes. -/
def Saved.ofJson (value : Json) : Except Json.Flaw Saved :=
  value.asPairs.map fun pairs => ⟨Json.ofPairs pairs, Json.pairsText leadDepth pairs⟩

/-- How many containers may lie inside each other in the text that the checksum covers. -/
def coverLimit : Nat := 988

/-- The canonical text of a lead that is saved; else why there is none. -/
def Saved.text (saved : Saved) : Except Json.Flaw String := do
  let text ← saved.covered
  if leadDepth + saved.value.nesting ≤ coverLimit then return text else throw .deepNesting

/-- The text of the file of leads; else why there is none, the leads asked in their order. -/
def textOf (version savedAt : Json) (leads : Entries Saved) :
    Except Json.Flaw String := do
  let sorted := leads.mergeSort fun a b => !(decide (b.1 < a.1))
  let texts ← eachLead Saved.text sorted
  if savedAt.isWritable && version.isWritable then
    return encode version savedAt (leads.map fun lead => (lead.1, lead.2.value))
      (bodyText version savedAt texts)
  else throw .longInteger

/-- Puts the file of the leads to where a route leads; with what is left comes the reason if it
failed. -/
def store (disk : Disk) (route : Route) (version savedAt : Json)
    (leads : Entries Saved) : Disk × Option String :=
  match textOf version savedAt leads with
  | .error flaw => (disk, some flaw.message)
  | .ok text =>
    match disk.replace route text.toUTF8.toList with
    | (left, none) => (left, none)
    | (left, some error) => (left, some error.message)

/-- What is left of a disk on which leads were not saved for a reason. -/
def unsaved (disk : Disk) (reason : String) : Response Disk Bool :=
  ⟨disk, [.log (.saveFailed reason), .count "persist.error" [("op", "save")]], .ok false⟩

/-- Saves the leads in a file; the result tells whether it succeeded. -/
def save (disk : Disk) (route : Route) (version savedAt : Json) (leads : Entries Saved) :
    Response Disk Bool :=
  match store disk route version savedAt leads with
  | (left, none) => ⟨left, [.log (.saved leads.length)], .ok true⟩
  | (left, some reason) => unsaved left reason

/-- Saves the leads that are the members of a value. -/
def saveMembers (disk : Disk) (route : Route) (version savedAt : Json) (leads : Json) :
    Response Disk Bool :=
  match leads with
  | .obj members =>
    match eachLead Saved.ofJson members with
    | .ok saved => save disk route version savedAt saved
    | .error flaw => unsaved disk flaw.message
  | other => unsaved disk (Json.Flaw.noMembers other.kindName).message

/-- Why a file is not loaded. -/
inductive Rejection where
  | unreadable (reason : String)
  | malformed
  | notObject
  | otherVersion (found : Json)
  | badChecksum
  | badLayout (errors : Nat)

namespace Rejection

/-- The reason under which a rejection is counted. -/
def reason : Rejection → String
  | .unreadable _ => "unknown"
  | .malformed => "json"
  | .notObject => "schema"
  | .otherVersion _ => "version"
  | .badChecksum => "checksum"
  | .badLayout _ => "schema"

/-- What is logged of a rejection. -/
def notice (expected : Json) : Rejection → Notice
  | .unreadable reason => .loadFailed reason
  | .malformed => .fileMalformed
  | .notObject => .fileNotObject
  | .otherVersion found => .fileVersion found expected
  | .badChecksum => .fileChecksum
  | .badLayout errors => .fileLayout errors

end Rejection

/-- What is wrong with the leads of a file: they are no object, or some of them are none. -/
def leadsErrors : Option Json → Nat
  | none => 0
  | some (.obj leads) => (leads.filter fun lead => lead.2.members?.isNone).length
  | some _ => 1

/-- Everything that is wrong with the members of a file. -/
def errors (members : Entries Json) : Nat :=
  (match Entries.get? members "version" with
    | none => 0
    | some value => if value.lenientInteger?.isSome then 0 else 1)
  + (match Entries.get? members "saved_at" with
    | none | some .null => 0
    | some value => if value.isLenientDouble then 0 else 1)
  + leadsErrors (Entries.get? members "leads")

/-- The leads in the members of a file of a version. -/
def leadsOf (version : Json) (members : Entries Json) : Except Rejection (Entries Json) :=
  let found := (Entries.get? members "version").getD (.int 1)
  let stored := (Entries.get? members "checksum").getD .null
  let rest := Entries.erase members "checksum"
  if !(found.same version) then .error (.otherVersion found)
  else if stored.truthy ∧ stored.string? ≠ some (checksum (.obj rest)) then .error .badChecksum
  else if errors rest ≠ 0 then .error (.badLayout (errors rest))
  else .ok (((Entries.get? rest "leads").bind Json.members?).getD [])

/-- The leads in a text. -/
def decodeText (version : Json) (text : String) : Except Rejection (Entries Json) :=
  match Json.parse .lastWins text with
  | .error (.excess excess) => .error (.unreadable excess.message)
  | .error _ => .error .malformed
  | .ok (.obj members) => leadsOf version members
  | .ok _ => .error .notObject

/-- The leads in bytes. -/
def decode (version : Json) (bytes : List UInt8) : Except Rejection (Entries Json) :=
  match Text.decodeAs? .utf8 bytes with
  | none => .error (.unreadable (Text.flawMessage bytes))
  | some text => decodeText version text

/-- The leads in a file that is there. -/
def readFrom (disk : Disk) (route : Route) (version : Json) : Except Rejection (Entries Json) :=
  match disk.read route with
  | .ok bytes => decode version bytes
  | .error error => .error (.unreadable error.message)

/-- The leads in a file, none when there is no such file or it is rejected. -/
def load (disk : Disk) (route : Route) (version : Json) :
    List Signal × Except Fault (Option (Entries Json)) :=
  match disk.exists? route with
  | .error error => ([], .error (.noPlace error))
  | .ok false => ([.log (.fileMissing (disk.fullName route))], .ok none)
  | .ok true =>
    match readFrom disk route version with
    | .ok leads => ([.log (.fileLoaded leads.length)], .ok (some leads))
    | .error rejection =>
      ([.log (rejection.notice version),
        .count "persist.error" [("op", "load"), ("reason", rejection.reason)]], .ok none)

/-- Deletes a file; the result tells whether it is gone. -/
def delete (disk : Disk) (route : Route) : Response Disk Bool :=
  let failed (error : DiskError) : Response Disk Bool :=
    ⟨disk, [.log (.deleteFailed error.message)], .ok false⟩
  match disk.locate route with
  | .error .nameTooLong => failed .nameTooLong
  | .error _ => ⟨disk, [], .ok true⟩
  | .ok path =>
    match disk.item? path with
    | none => ⟨disk, [], .ok true⟩
    | some (.file _) => ⟨disk.remove path, [.log (.deleted (disk.fullName route))], .ok true⟩
    | some .directory => failed .isDirectory

/-- Of leads that are objects the checksum is that of the body. -/
theorem bodyText_eq_canonical (version savedAt : Json) (leads : Entries Json) :
    bodyText version savedAt (leads.map fun lead => (lead.1, Json.write .canonical 2 lead.2)) =
      (Json.obj (body version savedAt leads)).canonical := by
  have hmap (members : Entries Json) : Json.writeMembers .canonical 2 members =
      members.map fun member => (member.1, Json.write .canonical 2 member.2) := by
    induction members with
    | nil => simp [Json.writeMembers]
    | cons member rest ih => simp [Json.writeMembers, ih]
  simp [bodyText, body, Json.canonical, Json.render, Json.write, Json.writeMembers, hmap]

end LeadsFile

end Lifecycle
