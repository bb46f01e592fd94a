import Lifecycle.Text.Hex

/-!
# Where UTF-8 goes wrong

Bytes that are no UTF-8 text have a first place where they stop being one: a byte that starts no
character, a character that breaks off inside, or one that the end cuts short. `firstFlaw?` finds
it, and `Flaw.message` describes it.
-/

namespace Lifecycle.Text

/-- The first flaw of bytes: the bytes of it, how many come before, and what is wrong. -/
structure Flaw where
  position : Nat
  length : Nat
  byte : UInt8
  reason : String

/-- Whether a byte continues a character. -/
def isTail (b : UInt8) : Bool := 0x80 ≤ b && b ≤ 0xBF

/-- How many bytes a character has that starts with a byte. -/
def lengthOf (lead : UInt8) : Nat :=
  if lead < 0x80 then 1
  else if lead < 0xC2 then 0
  else if lead < 0xE0 then 2
  else if lead < 0xF0 then 3
  else if lead < 0xF5 then 4
  else 0

/-- Whether a byte may come second; some leads allow only a part of the tails. -/
def isSecond (lead second : UInt8) : Bool :=
  isTail second &&
    (lead != 0xE0 || 0xA0 ≤ second) && (lead != 0xED || second ≤ 0x9F) &&
    (lead != 0xF0 || 0x90 ≤ second) && (lead != 0xF4 || second ≤ 0x8F)

/-- How many of the bytes after a lead belong to its character. -/
def goodTails (lead : UInt8) (rest : List UInt8) : Nat :=
  match rest.take (lengthOf lead - 1) with
  | [] => 0
  | second :: others =>
    if isSecond lead second then 1 + (others.takeWhile isTail).length else 0

/-- The flaw of a character at a position, if it has one. -/
def flawAt? (position : Nat) (lead : UInt8) (rest : List UInt8) : Option Flaw :=
  let good := goodTails lead rest
  if lengthOf lead = 0 then some ⟨position, 1, lead, "invalid start byte"⟩
  else if good + 1 = lengthOf lead then none
  else if rest.length = good then some ⟨position, good + 1, lead, "unexpected end of data"⟩
  else some ⟨position, good + 1, lead, "invalid continuation byte"⟩

/-- The first flaw of bytes, of which `skip` still belong to a character that is in order. -/
def firstFlaw? (position skip : Nat) : List UInt8 → Option Flaw
  | [] => none
  | b :: rest =>
    match skip with
    | skip + 1 => firstFlaw? (position + 1) skip rest
    | 0 =>
      match flawAt? position b rest with
      | some flaw => some flaw
      | none => firstFlaw? (position + 1) (lengthOf b - 1) rest

/-- What a flaw is, and where. -/
def Flaw.message (flaw : Flaw) : String :=
  "'utf-8' codec can't decode " ++
    (if flaw.length = 1 then
      "byte 0x" ++ String.ofList (hexDigits 2 flaw.byte.toNat) ++ " in position "
        ++ toString flaw.position
    else
      "bytes in position " ++ toString flaw.position ++ "-"
        ++ toString (flaw.position + flaw.length - 1))
    ++ ": " ++ flaw.reason

/-- What is wrong with bytes that are no text. -/
def flawMessage (bytes : List UInt8) : String :=
  ((firstFlaw? 0 0 bytes).map Flaw.message).getD ""

end Lifecycle.Text
