/-!
# UTF-8

Reading characters from bytes. A sequence of bytes that cannot be read is taken as long as it could
still have become a character, and stands for one replacement character.

* `decodeWithin` reads characters and marks what cannot be read.
* `ofBytes?` reads bytes that are all right, `ofBytesLossy` any bytes.
-/

namespace Parley.Text.Utf8

/-- The bytes that may follow a first byte: how many, and the range of the first of them. -/
def following? (b : Nat) : Option (Nat × Nat × Nat) :=
  if 0xC2 ≤ b && b ≤ 0xDF then some (1, 0x80, 0xBF)
  else if b = 0xE0 then some (2, 0xA0, 0xBF)
  else if b = 0xED then some (2, 0x80, 0x9F)
  else if 0xE1 ≤ b && b ≤ 0xEF then some (2, 0x80, 0xBF)
  else if b = 0xF0 then some (3, 0x90, 0xBF)
  else if b = 0xF4 then some (3, 0x80, 0x8F)
  else if 0xF1 ≤ b && b ≤ 0xF3 then some (3, 0x80, 0xBF)
  else none

/-- The bits of a first byte that belong to its character. -/
def leadingBits (b : Nat) : Nat :=
  if b < 0xE0 then b % 32 else if b < 0xF0 then b % 16 else b % 8

/-- The character of the following bytes, if they are all there and in range, and the bytes that
were not taken. -/
def readFollowing (code : Nat) : (count low high : Nat) → List Nat → Option Char × List Nat
  | 0, _, _, bytes => (some (Char.ofNat code), bytes)
  | _ + 1, _, _, [] => (none, [])
  | count + 1, low, high, b :: bytes =>
    if low ≤ b && b ≤ high then readFollowing (code * 64 + b % 64) count 0x80 0xBF bytes
    else (none, b :: bytes)

/-- The characters of some bytes, and nothing for each sequence that is none; `fuel` bounds the
characters. -/
def decodeWithin : (fuel : Nat) → List Nat → List (Option Char)
  | 0, _ => []
  | _ + 1, [] => []
  | fuel + 1, b :: bytes =>
    if b < 0x80 then some (Char.ofNat b) :: decodeWithin fuel bytes
    else match following? b with
      | some (count, low, high) =>
        let (c, rest) := readFollowing (leadingBits b) count low high bytes
        c :: decodeWithin fuel rest
      | none => none :: decodeWithin fuel bytes

/-- The characters of some bytes, and nothing for each sequence that is none. -/
def decode (bytes : List UInt8) : List (Option Char) :=
  decodeWithin bytes.length (bytes.map UInt8.toNat)

/-- The text of some bytes, if all of them can be read. -/
def ofBytes? (bytes : List UInt8) : Option String := ((decode bytes).mapM id).map String.ofList

/-- The text of some bytes, with U+FFFD for what cannot be read. -/
def ofBytesLossy (bytes : List UInt8) : String :=
  String.ofList ((decode bytes).map (·.getD '\uFFFD'))

end Parley.Text.Utf8
