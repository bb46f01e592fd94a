/-!
# Encodings of JSON bytes

Bytes that hold JSON text say themselves how they are encoded: by a byte order mark, or by where
the zero bytes among the first four stand, since the first character of a JSON text is ASCII.
`decode?` finds the encoding and decodes strictly; a mark is not part of the text.
-/

namespace Lifecycle.Text

/-- The encodings of JSON bytes. -/
inductive Encoding where
  | utf8
  | utf16 (bigEndian : Bool)
  | utf32 (bigEndian : Bool)
deriving DecidableEq

/-- The encoding of JSON bytes, and how many bytes of mark come first. -/
def detect : List UInt8 → Encoding × Nat
  | 0x00 :: 0x00 :: 0xFE :: 0xFF :: _ => (.utf32 true, 4)
  | 0xFF :: 0xFE :: 0x00 :: 0x00 :: _ => (.utf32 false, 4)
  | 0xFE :: 0xFF :: _ => (.utf16 true, 2)
  | 0xFF :: 0xFE :: _ => (.utf16 false, 2)
  | 0xEF :: 0xBB :: 0xBF :: _ => (.utf8, 3)
  | a :: b :: c :: d :: _ =>
    if a = 0 then (if b ≠ 0 then .utf16 true else .utf32 true, 0)
    else if b = 0 then (if c ≠ 0 ∨ d ≠ 0 then .utf16 false else .utf32 false, 0)
    else (.utf8, 0)
  | [a, b] =>
    if a = 0 then (.utf16 true, 0) else if b = 0 then (.utf16 false, 0) else (.utf8, 0)
  | _ => (.utf8, 0)

/-- The character of a code point, if it is one. -/
def scalar? (n : Nat) : Option Char :=
  if n < 0xD800 ∨ (0xE000 ≤ n ∧ n < 0x110000) then some (Char.ofNat n) else none

/-- The 16-bit units of bytes, of which there are evenly many. -/
def units16? (bigEndian : Bool) : List UInt8 → Option (List Nat)
  | [] => some []
  | a :: b :: rest =>
    (units16? bigEndian rest).map
      ((if bigEndian then a.toNat * 256 + b.toNat else b.toNat * 256 + a.toNat) :: ·)
  | _ => none

/-- The characters of 16-bit units; surrogates come in pairs. -/
def ofUnits16? : List Nat → Option (List Char)
  | [] => some []
  | unit :: rest =>
    if 0xD800 ≤ unit ∧ unit < 0xDC00 then
      match rest with
      | low :: rest =>
        if 0xDC00 ≤ low ∧ low < 0xE000 then
          (ofUnits16? rest).map
            (Char.ofNat (0x10000 + (unit - 0xD800) * 0x400 + (low - 0xDC00)) :: ·)
        else none
      | [] => none
    else
      match scalar? unit, ofUnits16? rest with
      | some c, some cs => some (c :: cs)
      | _, _ => none

/-- The characters of bytes in groups of four. -/
def ofBytes32? (bigEndian : Bool) : List UInt8 → Option (List Char)
  | [] => some []
  | a :: b :: c :: d :: rest =>
    let code :=
      if bigEndian then ((a.toNat * 256 + b.toNat) * 256 + c.toNat) * 256 + d.toNat
      else ((d.toNat * 256 + c.toNat) * 256 + b.toNat) * 256 + a.toNat
    match scalar? code, ofBytes32? bigEndian rest with
    | some c, some cs => some (c :: cs)
    | _, _ => none
  | _ => none

/-- The text of bytes in an encoding. -/
def decodeAs? (encoding : Encoding) (bytes : List UInt8) : Option String :=
  match encoding with
  | .utf8 => String.fromUTF8? (ByteArray.mk bytes.toArray)
  | .utf16 bigEndian =>
    ((units16? bigEndian bytes).bind ofUnits16?).map String.ofList
  | .utf32 bigEndian => (ofBytes32? bigEndian bytes).map String.ofList

/-- The text of JSON bytes, without their mark. -/
def decode? (bytes : List UInt8) : Option String :=
  match detect bytes with
  | (encoding, mark) => decodeAs? encoding (bytes.drop mark)

end Lifecycle.Text
