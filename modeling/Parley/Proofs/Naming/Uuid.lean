import Mathlib.Data.Nat.Bitwise
import Mathlib.Tactic.IntervalCases
import Parley.Uuid

/-!
# The texts of UUIDs

A UUID is written in lower case, and its version and variant can be read off its text.

* `Text.hex_succ`, `Text.isLowerHex_of_mem_hex` : the digits of a row, the highest one first.
* `Uuid.isTextOf` : how the text of a UUID of some version looks, said of any text.
* `version_ofWords`, `variant_ofWords` : where version and variant are written, they are found.
* `isTextOf_named` : so the UUID of a name has the text of one of version 5.
-/

namespace Parley

namespace Text

/-- The character is a hexadecimal digit in lower case. -/
def isLowerHex (c : Char) : Bool := ('0' ≤ c && c ≤ '9') || ('a' ≤ c && c ≤ 'f')

theorem isLowerHex_digitChar : ∀ d < 16, isLowerHex (digitChar d) = true := by decide

theorem isLowerHex_of_mem_hex {width n : ℕ} {c : Char} (h : c ∈ hex width n) :
    isLowerHex c = true := by
  induction width generalizing n with
  | zero => cases h
  | succ width ih =>
    rcases List.mem_append.1 h with h | h
    · exact ih h
    · obtain rfl := List.mem_singleton.1 h
      exact isLowerHex_digitChar _ (Nat.mod_lt n (by omega))

theorem hex_succ (width n : ℕ) :
    hex (width + 1) n = digitChar (n / 16 ^ width % 16) :: hex width n := by
  induction width generalizing n with
  | zero => simp [hex]
  | succ width ih =>
    rw [hex, ih, Nat.div_div_eq_div_mul, ← Nat.pow_succ']
    rfl

end Text

namespace Uuid

open Text

/-- The text is that of a UUID of a version: five groups of lower-case hexadecimal digits with
hyphens between them, the third group beginning with the version and the fourth with the variant. -/
def isTextOf (version : Char) (s : String) : Bool :=
  match splitAt '-' s.toList with
  | [a, b, c, d, e] =>
    [a, b, c, d, e].all (·.all isLowerHex) && [a, b, c, d, e].map List.length == [8, 4, 4, 4, 12] &&
      c.head? == some version && d.head?.any (['8', '9', 'a', 'b'].contains ·)
  | _ => false

variable {version high low : UInt64}

theorem version_ofWords (hversion : version < 16) :
    (ofWords version high low).high.toNat / 16 ^ 3 % 16 = version.toNat := by
  have hlt : version.toNat < 16 := UInt64.lt_iff_toNat_lt.1 hversion
  have hplace : (version <<< 12).toNat = version.toNat <<< 12 := by
    rw [UInt64.toNat_shiftLeft]
    refine Nat.mod_eq_of_lt ?_
    show version.toNat <<< 12 < _
    rw [Nat.shiftLeft_eq]
    omega
  show ((high &&& (0xFFFFFFFFFFFF0FFF : UInt64)) ||| (version <<< 12)).toNat / 2 ^ 12 % 2 ^ 4 = _
  rw [UInt64.toNat_or, UInt64.toNat_and, hplace, ← Nat.shiftRight_eq_div_pow,
    Nat.shiftRight_or_distrib, Nat.shiftRight_and_distrib, Nat.shiftLeft_shiftRight,
    Nat.or_mod_two_pow, Nat.and_mod_two_pow]
  -- the mask has no bits in the place of the version
  have hmask : (0xFFFFFFFFFFFF0FFF : UInt64).toNat >>> 12 % 2 ^ 4 = 0 := by decide
  rw [hmask, Nat.and_zero, Nat.zero_or, Nat.mod_eq_of_lt hlt]

theorem variant_ofWords (version high low : UInt64) :
    (ofWords version high low).low.toNat / 16 ^ 15 % 16 ∈ [8, 9, 10, 11] := by
  show ((low &&& (0x3FFFFFFFFFFFFFFF : UInt64)) ||| (0x8000000000000000 : UInt64)).toNat
    / 2 ^ 60 % 2 ^ 4 ∈ _
  rw [UInt64.toNat_or, UInt64.toNat_and, ← Nat.shiftRight_eq_div_pow,
    Nat.shiftRight_or_distrib, Nat.shiftRight_and_distrib, Nat.or_mod_two_pow, Nat.and_mod_two_pow]
  -- two bits of the mask are left there, and the highest bit is set
  have hmask : (0x3FFFFFFFFFFFFFFF : UInt64).toNat >>> 60 % 2 ^ 4 = 3 := by decide
  have hbit : (0x8000000000000000 : UInt64).toNat >>> 60 % 2 ^ 4 = 8 := by decide
  rw [hmask, hbit]
  have hle : low.toNat >>> 60 % 2 ^ 4 &&& 3 ≤ 3 := Nat.and_le_right
  interval_cases low.toNat >>> 60 % 2 ^ 4 &&& 3 <;> decide

theorem splitAt_text (u : Uuid) : splitAt '-' u.text.toList =
    [hex 8 (u.high.toNat >>> 32), hex 4 (u.high.toNat >>> 16), hex 4 u.high.toNat,
      hex 4 (u.low.toNat >>> 48), hex 12 u.low.toNat] := by
  have hjoin : u.text.toList = join ['-']
      [hex 8 (u.high.toNat >>> 32), hex 4 (u.high.toNat >>> 16), hex 4 u.high.toNat,
        hex 4 (u.low.toNat >>> 48), hex 12 u.low.toNat] := by
    simp [text, chars, join]
  rw [hjoin]
  refine splitAt_join (List.cons_ne_nil _ _) fun w hw hyphen => ?_
  -- a hyphen is no digit
  have hno : isLowerHex '-' = false := rfl
  have hdigit : isLowerHex '-' = true := by
    simp only [List.mem_cons, List.not_mem_nil, or_false] at hw
    rcases hw with rfl | rfl | rfl | rfl | rfl <;> exact isLowerHex_of_mem_hex hyphen
  rw [hno] at hdigit
  cases hdigit

theorem isTextOf_ofWords (hversion : version < 16) :
    isTextOf (digitChar version.toNat) (ofWords version high low).text = true := by
  set u := ofWords version high low with hu
  have hdigits (width n : ℕ) : (hex width n).all isLowerHex = true :=
    List.all_eq_true.2 fun c hc => isLowerHex_of_mem_hex hc
  have hhead : (hex 4 u.high.toNat).head? = some (digitChar version.toNat) := by
    rw [hex_succ, hu, version_ofWords hversion]
    rfl
  have hvariant : (hex 4 (u.low.toNat >>> 48)).head?.any (['8', '9', 'a', 'b'].contains ·) =
      true := by
    have hplace : u.low.toNat >>> 48 / 16 ^ 3 = u.low.toNat / 16 ^ 15 := by
      rw [Nat.shiftRight_eq_div_pow, Nat.div_div_eq_div_mul]
      rfl
    have hmem := variant_ofWords version high low
    rw [hex_succ, hplace]
    simp only [List.mem_cons, List.not_mem_nil, or_false] at hmem
    rcases hmem with h | h | h | h <;> rw [hu, h] <;> rfl
  simp only [isTextOf, splitAt_text, List.map_cons, List.map_nil, length_hex, hhead, hvariant,
    List.all_cons, List.all_nil, hdigits, beq_self_eq_true, Bool.and_self]

/-- **The UUID of a name** has the text of one of version 5. -/
theorem isTextOf_named (space : Uuid) (name : String) :
    isTextOf '5' (named space name).text = true := by
  have hversion : digitChar (5 : UInt64).toNat = '5' := by decide
  unfold named
  rw [← hversion]
  exact isTextOf_ofWords (by decide)

theorem not_mem_text {c : Char} (hdigit : isLowerHex c = false) (hyphen : c ≠ '-') (u : Uuid) :
    c ∉ u.text.toList := by
  intro h
  simp only [text, chars, String.toList_ofList, List.append_assoc, List.mem_append, List.mem_cons,
    hyphen, false_or] at h
  have hlower : isLowerHex c = true := by
    rcases h with h | h | h | h | h <;> exact isLowerHex_of_mem_hex h
  rw [hlower] at hdigit
  cases hdigit

theorem length_text (u : Uuid) : u.text.length = 36 := by
  rw [text, String.length_ofList, length_chars]

end Uuid

end Parley
