/-
Bytes as text. Where bytes are no valid UTF-8, every longest start of a character that they hold,
or else a single byte, becomes one replacement character.
-/

namespace Rollup.Text

/-- The character for bytes that are no text. -/
def replacement : Char := '\ufffd'

/-- The number of bytes that follow the first byte of a character, and the bounds of the second
byte. These rule out overlong forms, surrogates and numbers that are too large. -/
def continuation? (first : UInt8) : Option (Nat × UInt8 × UInt8) :=
  if 0xC2 ≤ first && first ≤ 0xDF then some (1, 0x80, 0xBF)
  else if first == 0xE0 then some (2, 0xA0, 0xBF)
  else if first == 0xED then some (2, 0x80, 0x9F)
  else if 0xE1 ≤ first && first ≤ 0xEF then some (2, 0x80, 0xBF)
  else if first == 0xF0 then some (3, 0x90, 0xBF)
  else if 0xF1 ≤ first && first ≤ 0xF3 then some (3, 0x80, 0xBF)
  else if first == 0xF4 then some (3, 0x80, 0x8F)
  else none

/-- The bits of a first byte that belong to the character. -/
def firstBits (first : UInt8) : Nat :=
  if first < 0xE0 then first.toNat % 32 else if first < 0xF0 then first.toNat % 16 else first.toNat % 8

/-- A character of which some bytes are still to come. -/
structure Pending where
  /-- The bits found so far. -/
  code : Nat
  /-- The number of bytes to come. -/
  left : Nat
  /-- The bounds of the next byte. -/
  low : UInt8
  high : UInt8

/-- Reads the first byte of a character. -/
def startByte (b : UInt8) : List Char × Option Pending :=
  match continuation? b with
  | some (count, low, high) => ([], some ⟨firstBits b, count, low, high⟩)
  | none => ([if b < 0x80 then Char.ofNat b.toNat else replacement], none)

/-- Reads one more byte: the characters that are finished by it, and what is still open. -/
def readByte (b : UInt8) : Option Pending → List Char × Option Pending
  | none => startByte b
  | some p =>
    if p.low ≤ b && b ≤ p.high then
      let code := 64 * p.code + b.toNat % 64
      if p.left ≤ 1 then ([Char.ofNat code], none) else ([], some ⟨code, p.left - 1, 0x80, 0xBF⟩)
    else
      let (cs, next) := startByte b
      (replacement :: cs, next)

/-- The characters of some bytes, the first of which may go on with a character begun before. -/
def decodeFrom (pending : Option Pending) : List UInt8 → List Char
  | [] => if pending.isSome then [replacement] else []
  | b :: rest =>
    let (cs, next) := readByte b pending
    cs ++ decodeFrom next rest

/-- The text some bytes stand for. -/
def decode (bytes : List UInt8) : String :=
  String.ofList (decodeFrom none bytes)

end Rollup.Text
