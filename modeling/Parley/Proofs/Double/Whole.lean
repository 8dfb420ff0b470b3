import Mathlib.Algebra.Ring.Nat
import Parley.Double.Basic

/-!
# Whole numbers among the doubles

As long as significands fit the precision, doubles compute with whole numbers exactly, but for the
infinity that stands for all of those beyond the largest finite double.

* `nearestUnits_mul_of_fits` : nothing is rounded where the significand fits.
* `whole_mul_whole`, `whole_min_whole`, `truncate_whole` : so products, minima and the way back to
  integers are those of the whole numbers, overflow included, as long as no factor is zero.
* `zero_mul_whole` : zero times a number beyond the largest finite double is no number at all.
* `npow_two` : and a power of two is exact for every exponent.
-/

namespace Parley

namespace Double

variable {q d x y n : Nat}

/-! ### Significands that fit -/

theorem one_eq : one = 2 ^ unitBits := Nat.one_shiftLeft unitBits

theorem one_pos : 0 < one := by
  rw [one_eq]
  exact Nat.two_pow_pos unitBits

/-- The number is a significand within the precision, times a power of two. -/
def Fits (q : Nat) : Prop := ∃ m k, m ≤ 2 ^ precision ∧ q = m * 2 ^ k

theorem fits_of_le (h : q ≤ 2 ^ precision) : Fits q := ⟨q, 0, h, (Nat.mul_one q).symm⟩

theorem Fits.mul_two_pow (h : Fits q) (k : Nat) : Fits (q * 2 ^ k) := by
  obtain ⟨m, j, hm, rfl⟩ := h
  exact ⟨m, j + k, hm, by rw [Nat.mul_assoc, ← Nat.pow_add]⟩

theorem fits_two_pow (k : Nat) : Fits (2 ^ k) := by
  simpa only [Nat.one_mul] using (fits_of_le (q := 1) Nat.one_le_two_pow).mul_two_pow k

theorem Fits.mul_one_units (h : Fits q) : Fits (q * one) := by
  rw [one_eq]
  exact h.mul_two_pow unitBits

theorem Fits.dvd (h : Fits q) : 2 ^ (q.log2 + 1 - precision) ∣ q := by
  obtain ⟨m, k, hm, rfl⟩ := h
  obtain rfl | hzero := Nat.eq_zero_or_pos m
  · simp
  have hne : m * 2 ^ k ≠ 0 := Nat.ne_of_gt (Nat.mul_pos hzero (Nat.two_pow_pos k))
  obtain hlt | rfl := Nat.lt_or_eq_of_le hm
  · refine Nat.dvd_trans (Nat.pow_dvd_pow 2 ?_) (Nat.dvd_mul_left _ _)
    have hlog : (m * 2 ^ k).log2 < precision + k := by
      rw [Nat.log2_lt hne, Nat.pow_add]
      exact Nat.mul_lt_mul_of_pos_right hlt (Nat.two_pow_pos k)
    omega
  · -- a significand of one bit more is a power of two
    rw [← Nat.pow_add, Nat.log2_two_pow]
    exact Nat.pow_dvd_pow 2 (by simp only [precision]; omega)

theorem nearest_mul (q : Nat) (hd : 0 < d) : nearest (q * d) d = q := by
  simp only [nearest, Nat.mul_div_cancel q hd, Nat.mul_mod_left, Nat.mul_zero, if_pos hd]

/-- **Nothing is rounded** where the significand fits. -/
theorem nearestUnits_mul_of_fits (h : Fits q) (hd : 0 < d) : nearestUnits (q * d) d = q := by
  obtain ⟨places, hplaces⟩ := h.dvd
  have hstep := Nat.two_pow_pos (q.log2 + 1 - precision)
  simp only [nearestUnits, Nat.mul_div_cancel q hd, Nat.one_shiftLeft]
  generalize 2 ^ (q.log2 + 1 - precision) = step at *
  calc nearest (q * d) (d * step) * step
      = nearest (places * (d * step)) (d * step) * step := by
        rw [hplaces, Nat.mul_comm step places, Nat.mul_assoc, Nat.mul_comm step d]
    _ = q := by rw [nearest_mul places (Nat.mul_pos hd hstep), hplaces, Nat.mul_comm]

/-! ### Whole numbers -/

/-- The double of a whole number, an infinity beyond the largest finite double. -/
def whole (n : Nat) : Double :=
  if maxUnits < n * one then infinity false else finite false (n * one)

theorem whole_of_lt (h : maxUnits < n * one) : whole n = infinity false := if_pos h

theorem whole_of_le (h : n * one ≤ maxUnits) : whole n = finite false (n * one) :=
  if_neg (Nat.not_lt.2 h)

theorem whole_zero : whole 0 = finite false 0 := by
  rw [whole_of_le (by rw [Nat.zero_mul]; exact Nat.zero_le _), Nat.zero_mul]

theorem ofRatio_of_fits (h : Fits n) (hd : 0 < d) : ofRatio false (n * one * d) d = whole n := by
  simp only [ofRatio, nearestUnits_mul_of_fits h.mul_one_units hd, whole]

theorem ofNat_of_fits (h : Fits n) : ofNat n = whole n := by
  simpa only [Nat.mul_one, ofNat] using ofRatio_of_fits h Nat.one_pos

theorem maxUnits_lt_mul (h : maxUnits < x * one) (hy : y ≠ 0) : maxUnits < x * y * one := by
  refine Nat.lt_of_lt_of_le h (Nat.mul_le_mul_right one ?_)
  exact Nat.le_mul_of_pos_right x (Nat.pos_of_ne_zero hy)

/-- **Products of whole numbers** are exact where the significand of the product fits.  An infinity
times zero is no number, so neither factor may be zero. -/
theorem whole_mul_whole (hx : x ≠ 0) (hy : y ≠ 0) (h : Fits (x * y)) :
    (whole x).mul (whole y) = whole (x * y) := by
  have hunits {z : Nat} (hz : z ≠ 0) : z * one ≠ 0 := Nat.mul_ne_zero hz (Nat.ne_of_gt one_pos)
  rcases Nat.lt_or_ge maxUnits (x * one) with hbig | hsmall
  · rw [whole_of_lt hbig, whole_of_lt (maxUnits_lt_mul hbig hy)]
    rcases Nat.lt_or_ge maxUnits (y * one) with hbig' | hsmall'
    · rw [whole_of_lt hbig']
      rfl
    · rw [whole_of_le hsmall', mul, if_neg (hunits hy)]
      rfl
  · rw [whole_of_le hsmall]
    rcases Nat.lt_or_ge maxUnits (y * one) with hbig' | hsmall'
    · rw [whole_of_lt hbig', Nat.mul_comm x y, whole_of_lt (maxUnits_lt_mul hbig' hx), mul,
        if_neg (hunits hx)]
      rfl
    · rw [whole_of_le hsmall', ← ofRatio_of_fits h one_pos, Nat.mul_assoc (x * y),
        Nat.mul_mul_mul_comm]
      rfl

theorem zero_mul_whole (y : Nat) :
    (whole 0).mul (whole y) = if maxUnits < y * one then nan else whole 0 := by
  have hzero : ofRatio false 0 one = whole 0 := by
    simpa only [Nat.zero_mul] using ofRatio_of_fits (fits_of_le (Nat.zero_le _)) one_pos
  rw [whole_zero] at hzero ⊢
  rcases Nat.lt_or_ge maxUnits (y * one) with hbig | hsmall
  · rw [whole_of_lt hbig, if_pos hbig]
    rfl
  · rw [whole_of_le hsmall, if_neg (Nat.not_lt.2 hsmall), mul, Nat.zero_mul, bne_self_eq_false,
      hzero]

theorem whole_lt_whole (x y : Nat) :
    (whole y).lt (whole x) = decide (y < x ∧ y * one ≤ maxUnits) := by
  rcases Nat.lt_or_ge maxUnits (y * one) with hbig | hsmall
  · rw [whole_of_lt hbig, decide_eq_false fun h => Nat.not_le.2 hbig h.2]
    unfold whole
    split <;> rfl
  rw [whole_of_le hsmall]
  rcases Nat.lt_or_ge maxUnits (x * one) with hbig' | hsmall'
  · have hlt : y < x := Nat.lt_of_mul_lt_mul_right (Nat.lt_of_le_of_lt hsmall hbig')
    rw [whole_of_lt hbig', decide_eq_true ⟨hlt, hsmall⟩]
    rfl
  · rw [whole_of_le hsmall', lt, decide_eq_decide, Nat.mul_lt_mul_right one_pos]
    exact (and_iff_left hsmall).symm

/-- **The lesser of two whole numbers**, infinities included. -/
theorem whole_min_whole (x y : Nat) : (whole x).min (whole y) = whole (Min.min x y) := by
  have hmin : (whole x).min (whole y) = if (whole y).lt (whole x) then whole y else whole x := by
    unfold whole
    split <;> split <;> rfl
  simp only [hmin, whole_lt_whole, decide_eq_true_eq]
  rcases Nat.lt_or_ge y x with hlt | hle
  · rw [Nat.min_eq_right (Nat.le_of_lt hlt)]
    rcases Nat.lt_or_ge maxUnits (y * one) with hbig | hsmall
    · -- both are infinite
      have hbig' := Nat.lt_of_lt_of_le hbig (Nat.mul_le_mul_right one (Nat.le_of_lt hlt))
      rw [if_neg fun h => Nat.not_le.2 hbig h.2, whole_of_lt hbig, whole_of_lt hbig']
    · rw [if_pos ⟨hlt, hsmall⟩]
  · rw [Nat.min_eq_left hle, if_neg fun h => Nat.not_lt.2 hle h.1]

theorem nan_min (a : Double) : nan.min a = a := rfl

/-! ### Back to integers -/

/-- A unit in the last place of the largest finite double is `2 ^ topPlace` units. -/
def topPlace : Nat := 2045

theorem maxUnits_eq : maxUnits = (2 ^ precision - 1) * 2 ^ topPlace := by
  rw [← Nat.one_shiftLeft precision, ← Nat.shiftLeft_eq]
  rfl

theorem maxUnits_lt_two_pow_iff (k : Nat) : maxUnits < 2 ^ k * one ↔ 1024 ≤ k := by
  have hplace := Nat.two_pow_pos topPlace
  rw [maxUnits_eq, one_eq, ← Nat.pow_add]
  constructor
  · intro hlt
    refine Nat.le_of_not_lt fun hk => ?_
    have hle : 2 ^ (k + unitBits) ≤ 2 ^ 52 * 2 ^ topPlace := by
      rw [← Nat.pow_add]
      exact Nat.pow_le_pow_right (by decide) (by simp only [unitBits, topPlace]; omega)
    exact Nat.not_le.2 hlt (Nat.le_trans hle (Nat.mul_le_mul_right _ (by decide)))
  · intro hk
    have hle : 2 ^ precision * 2 ^ topPlace ≤ 2 ^ (k + unitBits) := by
      rw [← Nat.pow_add]
      exact Nat.pow_le_pow_right (by decide)
        (by simp only [unitBits, topPlace, precision]; omega)
    exact Nat.lt_of_lt_of_le (Nat.mul_lt_mul_of_pos_right (by decide) hplace) hle

theorem finite_of_le_size (h : n ≤ UInt64.size) : n * one ≤ maxUnits := by
  have hfinite : UInt64.size * one ≤ maxUnits :=
    Nat.not_lt.1 (mt (maxUnits_lt_two_pow_iff 64).1 (by decide))
  exact Nat.le_trans (Nat.mul_le_mul_right one h) hfinite

/-- **Back to integers**: a whole number comes back, as far as 64 bits reach. -/
theorem truncate_whole (n : Nat) : (whole n).truncate = saturate n := by
  rcases Nat.lt_or_ge maxUnits (n * one) with hbig | hsmall
  · have hsize : ¬n < UInt64.size := fun h => Nat.not_le.2 hbig (finite_of_le_size (Nat.le_of_lt h))
    rw [whole_of_lt hbig, saturate, if_neg hsize]
    rfl
  · rw [whole_of_le hsmall, truncate, Nat.mul_div_cancel n one_pos]
    rfl

theorem toNat_saturate (h : n < UInt64.size) : (saturate n).toNat = n := by
  rw [saturate, if_pos h, UInt64.toNat_ofNat_of_lt' h]

/-! ### Powers of two -/

theorem mul_two_pow (a b : Nat) :
    (whole (2 ^ a)).mul (whole (2 ^ b)) = whole (2 ^ (a + b)) := by
  have hne (k : Nat) : 2 ^ k ≠ 0 := Nat.ne_of_gt (Nat.two_pow_pos k)
  rw [Nat.pow_add]
  exact whole_mul_whole (hne a) (hne b) (by rw [← Nat.pow_add]; exact fits_two_pow (a + b))

/-- Squaring keeps the exponent of the result: what the product has taken in and what the base still
has to give add up. -/
theorem powLoop_two_pow (a b n : Nat) :
    powLoop (whole (2 ^ a)) (whole (2 ^ b)) n = whole (2 ^ (a + b * n)) := by
  induction n using Nat.strongRecOn generalizing a b with
  | ind n ih =>
    cases n with
    | zero => rw [powLoop, Nat.mul_zero, Nat.add_zero]
    | succ n =>
      have hsplit : (n + 1) % 2 + 2 * ((n + 1) / 2) = n + 1 := Nat.mod_add_div (n + 1) 2
      have hacc : (if (n + 1) % 2 = 1 then mul (whole (2 ^ a)) (whole (2 ^ b))
          else whole (2 ^ a)) = whole (2 ^ (a + b * ((n + 1) % 2))) := by
        rcases Nat.mod_two_eq_zero_or_one (n + 1) with heven | hodd
        · simp [heven]
        · simp [hodd, mul_two_pow]
      rw [powLoop, hacc, mul_two_pow]
      split
      next hrest =>
        rw [hrest] at hsplit
        rw [show (n + 1) % 2 = n + 1 from hsplit]
      next hrest =>
        rw [ih _ (by omega)]
        congr 2
        calc a + b * ((n + 1) % 2) + (b + b) * ((n + 1) / 2)
            = a + b * ((n + 1) % 2 + 2 * ((n + 1) / 2)) := by
              rw [Nat.mul_add, ← Nat.mul_assoc, Nat.mul_two, Nat.add_assoc]
          _ = a + b * (n + 1) := by rw [hsplit]

/-- **Powers of two** are exact for every exponent, or infinite. -/
theorem npow_two (n : Nat) : (ofNat 2).npow n = whole (2 ^ n) := by
  have hone : ofNat 1 = whole 1 := ofNat_of_fits (fits_of_le (by decide))
  have htwo : ofNat 2 = whole 2 := ofNat_of_fits (fits_of_le (by decide))
  rw [npow, hone, htwo]
  simpa only [Nat.pow_zero, Nat.pow_one, Nat.zero_add, Nat.one_mul] using powLoop_two_pow 0 1 n

end Double

end Parley
