/-!
# The SHA-1 digest

The digest of a list of bytes as five 32-bit words: the message is padded to whole blocks of
sixteen words, every block is stretched to eighty words, and eighty rounds mix each into the state.

* `Sha1.digest` is the digest of a list of bytes.
-/

namespace Parley.Sha1

/-- The five words of the running digest. -/
structure Words where
  /-- The first word. -/
  a : UInt32
  /-- The second word. -/
  b : UInt32
  /-- The third word. -/
  c : UInt32
  /-- The fourth word. -/
  d : UInt32
  /-- The fifth word. -/
  e : UInt32
  deriving DecidableEq, Repr

/-- The words before any block was mixed in. -/
def initial : Words := ⟨0x67452301, 0xEFCDAB89, 0x98BADCFE, 0x10325476, 0xC3D2E1F0⟩

/-- The bits moved left around the end. -/
def rotate (x : UInt32) (n : UInt32) : UInt32 := (x <<< n) ||| (x >>> (32 - n))

/-- The eight bytes of a number, highest first. -/
def lengthBytes (n : Nat) : List UInt8 :=
  (List.range 8).map fun i => UInt8.ofNat (n >>> (8 * (7 - i)))

/-- The message, a one bit, zeros up to eight bytes short of a whole block, and the length in bits. -/
def pad (message : List UInt8) : List UInt8 :=
  let used := (message.length + 9) % 64
  let zeros := (64 - used) % 64
  message ++ 0x80 :: List.replicate zeros 0 ++ lengthBytes (message.length * 8)

/-- The words of bytes taken four at a time, highest byte first. -/
def words : List UInt8 → List UInt32
  | a :: b :: c :: d :: rest =>
    ((a.toUInt32 <<< 24) ||| (b.toUInt32 <<< 16) ||| (c.toUInt32 <<< 8) ||| d.toUInt32) ::
      words rest
  | _ => []

/-- `count` more words behind the reversed list of those there are: each is the exclusive or of the
3rd, 8th, 14th and 16th before it, moved left by one. -/
def stretch : (count : Nat) → List UInt32 → List UInt32
  | 0, ws => ws
  | count + 1, ws =>
    stretch count
      (rotate (ws.getD 2 0 ^^^ ws.getD 7 0 ^^^ ws.getD 13 0 ^^^ ws.getD 15 0) 1 :: ws)

/-- The mixing function and the constant of a round. -/
def roundOf (i : Nat) (w : Words) : UInt32 × UInt32 :=
  if i < 20 then ((w.b &&& w.c) ||| (~~~w.b &&& w.d), 0x5A827999)
  else if i < 40 then (w.b ^^^ w.c ^^^ w.d, 0x6ED9EBA1)
  else if i < 60 then ((w.b &&& w.c) ||| (w.b &&& w.d) ||| (w.c &&& w.d), 0x8F1BBCDC)
  else (w.b ^^^ w.c ^^^ w.d, 0xCA62C1D6)

/-- The rounds from number `i` on, one for each word. -/
def rounds (i : Nat) (state : Words) : List UInt32 → Words
  | [] => state
  | word :: rest =>
    let (f, k) := roundOf i state
    let mixed := rotate state.a 5 + f + state.e + k + word
    rounds (i + 1) ⟨mixed, state.a, rotate state.b 30, state.c, state.d⟩ rest

/-- The state after one block of sixteen words. -/
def mixBlock (state : Words) (block : List UInt32) : Words :=
  let out := rounds 0 state (stretch 64 block.reverse).reverse
  ⟨state.a + out.a, state.b + out.b, state.c + out.c, state.d + out.d, state.e + out.e⟩

/-- The state after `count` blocks of the words. -/
def mixBlocks (state : Words) : (count : Nat) → List UInt32 → Words
  | 0, _ => state
  | count + 1, ws => mixBlocks (mixBlock state (ws.take 16)) count (ws.drop 16)

/-- The digest of a message. -/
def digest (message : List UInt8) : Words :=
  let ws := words (pad message)
  mixBlocks initial (ws.length / 16) ws

end Parley.Sha1
