import Lifecycle.Digest.Sha256
import Lifecycle.Json.Writer
import Lifecycle.Snapshot.Layout
import Lifecycle.Text.Encoding

/-!
# Envelopes

A persisted snapshot is a text: an object of a version, a layout and a checksum. The checksum is the
digest of the canonical text of all other members as they stand in the text, so it covers their
values, their kinds and their keys, and not the order of members. `Envelope.encode` writes one and
`Envelope.decode` refuses every text that is damaged or of another version, by value.
-/

namespace Lifecycle

/-- The digest of the canonical text of a value. -/
def checksum (value : Json) : String := Sha256.ofText value.canonical

namespace Envelope

/-- The members that the checksum covers. -/
def body (version : Json) (layout : Layout) : Entries Json :=
  [("version", version), ("snapshot", layout.toJson)]

/-- The text of a layout in an envelope, if its integers can be written. -/
def wrap (version : Json) (layout : Layout) : Except Corruption String :=
  let covered := body version layout
  if (Json.obj covered).isWritable then
    .ok (Json.render .line (.obj (covered ++ [("checksum", .str (checksum (.obj covered)))])))
  else .error (.flawed .longInteger)

/-- The layout that pairs describe, if nothing is wrong with them; a key that is no text is one more
error. -/
def layoutOfPairs (pairs : Entries Json Json.Key) : Except Corruption Layout :=
  let members := pairs.filterMap fun pair => pair.1.toJson.string?.map (·, pair.2)
  let errors := Layout.errors (.obj members) + (pairs.length - members.length)
  if errors = 0 then .ok (Layout.ofFields members) else .error (.badLayout errors)

/-- The text of a value as a layout in an envelope; a layout may also be given by pairs. -/
def encode (version : Json) (value : Json) : Except Corruption String :=
  match value with
  | .obj _ => Layout.check value >>= wrap version
  | value => match value.asPairs with
    | .ok pairs => layoutOfPairs pairs >>= wrap version
    | .error cause => .error (.flawed cause)

/-- The text of a snapshot in an envelope. -/
def encodeSnapshot (version : Json) (snapshot : Snapshot) : Except Corruption String :=
  let oddities := snapshot.layout.oddities
  if oddities = 0 then wrap version snapshot.layout else .error (.badLayout oddities)

/-- What is wrong with the version. -/
def versionErrors : Option Json → Nat
  | some value => if value.lenientInteger?.isSome then 0 else 1
  | none => 1

/-- What is wrong with the layout. -/
def snapshotErrors : Option Json → Nat
  | some value => Layout.errors value
  | none => 1

/-- What is wrong with the checksum: it is a string of 64 characters. -/
def checksumErrors : Option Json → Nat
  | some (.str text) => if text.length = 64 then 0 else 1
  | _ => 1

/-- Everything that is wrong with the members of an envelope. -/
def errors (members : Entries Json) : Nat :=
  versionErrors (Entries.get? members "version")
    + snapshotErrors (Entries.get? members "snapshot")
    + checksumErrors (Entries.get? members "checksum")
    + Layout.extraFields ["version", "snapshot", "checksum"] members

/-- The layout in the members of an envelope of a version. -/
def unwrap (version : Json) (members : Entries Json) : Except Corruption Layout :=
  if errors members ≠ 0 then .error (.badEnvelope (errors members))
  else if some (checksum (.obj (Entries.erase members "checksum")))
      ≠ (Entries.get? members "checksum").bind Json.string? then .error .badChecksum
  else
    let found := ((Entries.get? members "version").bind Json.lenientInteger?).getD 0
    if !((Json.int found).same version) then .error (.otherVersion found version)
    else .ok (Layout.ofJson ((Entries.get? members "snapshot").getD .null))

/-- The layout in a text. -/
def decode (version : Json) (text : String) : Except Corruption Layout :=
  match Json.parse .lastWins text with
  | .ok (.obj members) => unwrap version members
  | .ok _ => .error .envelopeNotObject
  | .error (.excess excess) => .error (.textExcess excess)
  | .error _ => .error .malformedText

/-- The layout in bytes, in whichever encoding they are. -/
def decodeBytes (version : Json) (bytes : List UInt8) : Except Corruption Layout :=
  match Text.decode? bytes with
  | some text => decode version text
  | none => .error .malformedText

end Envelope

end Lifecycle
