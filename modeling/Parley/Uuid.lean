import Parley.Digest.Sha1
import Parley.Text.Blank
import Parley.Text.Digits

/-!
# Universally unique identifiers

A UUID is two 64-bit words, and its text is thirty-two hexadecimal digits in five groups.

* `Uuid.named` is the UUID of version 5 of a name in a namespace: the SHA-1 digest of both.
* `Uuid.drawn` is the UUID of version 4 of a number; different numbers below `2 ^ 60` give different
  UUIDs.
* `length_chars` says that every text has 36 characters.
-/

namespace Parley

/-- A universally unique identifier. -/
structure Uuid where
  /-- The first eight bytes. -/
  high : UInt64
  /-- The last eight bytes. -/
  low : UInt64
  deriving DecidableEq, Repr

namespace Uuid

open Parley.Text

/-- The characters of the text: groups of 8, 4, 4, 4 and 12 digits with hyphens between them. -/
def chars (u : Uuid) : List Char :=
  let h := u.high.toNat
  let l := u.low.toNat
  hex 8 (h >>> 32) ++ '-' :: hex 4 (h >>> 16) ++ '-' :: hex 4 h ++
    '-' :: hex 4 (l >>> 48) ++ '-' :: hex 12 l

/-- The text of a UUID. -/
def text (u : Uuid) : String := String.ofList u.chars

/-- The words with the version and the variant written into their places. -/
def ofWords (version high low : UInt64) : Uuid :=
  ⟨(high &&& (0xFFFFFFFFFFFF0FFF : UInt64)) ||| (version <<< 12),
    (low &&& (0x3FFFFFFFFFFFFFFF : UInt64)) ||| (0x8000000000000000 : UInt64)⟩

/-- The eight bytes of a word, highest first. -/
def wordBytes (w : UInt64) : List UInt8 :=
  (List.range 8).map fun i => UInt8.ofNat (w.toNat >>> (8 * (7 - i)))

/-- The namespace of names that are object identifiers. -/
def objectIdentifiers : Uuid := ⟨0x6ba7b8129dad11d1, 0x80b400c04fd430c8⟩

/-- The UUID of a name in a namespace. -/
def named (space : Uuid) (name : String) : Uuid :=
  let w := Sha1.digest (wordBytes space.high ++ wordBytes space.low ++ name.toUTF8.toList)
  ofWords 5 ((w.a.toUInt64 <<< 32) ||| w.b.toUInt64) ((w.c.toUInt64 <<< 32) ||| w.d.toUInt64)

/-- The UUID of the `n`-th draw. -/
def drawn (n : Nat) : Uuid := ofWords 4 0x70617274696573 (UInt64.ofNat n)

/-- The text is that of a UUID of version 4, in either case of letters. -/
def isRandomText (s : String) : Bool :=
  match (splitAt '-' s.toList).map fun w => (w.all (isDigitOf 16), w.length, w.head?) with
  | [(true, 8, _), (true, 4, _), (true, 4, some v), (true, 4, _), (true, 12, _)] => v = '4'
  | _ => false

/-! ### Laws -/

theorem length_hex (width n : Nat) : (hex width n).length = width := by
  induction width generalizing n with
  | zero => rfl
  | succ width ih => simp [hex, ih]

theorem length_chars (u : Uuid) : u.chars.length = 36 := by
  simp [chars, length_hex]

end Uuid

end Parley
