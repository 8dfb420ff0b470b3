import Parley.Proofs.Double.Whole

/-!
# What rounding does to the order

A double is the nearest number whose significand fits the precision, so rounding never passes a
number that fits.  For the ceiling of a delay that says what may be left of it in doubles.

* `fits_nearestUnits` : what is rounded fits, and so does every product (`Fine.mul`).
* `nearestUnits_le` : rounding never goes beyond a number that fits.
* `ofNat_eq_whole` : a whole number is rounded to a whole number, `rounded`.
* `toNat_truncate_min_ofNat_le_iff` : the lesser of a double and a ceiling that was rounded, back
  among the integers, is above the ceiling exactly if the ceiling was rounded up and the double
  reaches it.
-/

namespace Parley

namespace Double

variable {q n num den : Nat}

/-! ### Rounding a quotient -/

theorem log2_mono {a b : Nat} (h : a ≤ b) : a.log2 ≤ b.log2 := by
  rcases Nat.eq_zero_or_pos a with rfl | ha
  · exact Nat.log2_zero ▸ Nat.zero_le _
  · rw [Nat.le_log2 (Nat.ne_of_gt (Nat.lt_of_lt_of_le ha h))]
    exact Nat.le_trans (Nat.log2_self_le (Nat.ne_of_gt ha)) h

theorem log2_mul_two_pow (hn : n ≠ 0) (k : Nat) : (n * 2 ^ k).log2 = n.log2 + k := by
  rw [Nat.log2_eq_iff (Nat.mul_ne_zero hn (Nat.ne_of_gt (Nat.two_pow_pos k))), Nat.pow_add,
    Nat.add_right_comm, Nat.pow_add]
  exact ⟨Nat.mul_le_mul_right _ (Nat.log2_self_le hn),
    Nat.mul_lt_mul_of_pos_right Nat.lt_log2_self (Nat.two_pow_pos k)⟩

theorem nearest_le_succ (num den : Nat) : nearest num den ≤ num / den + 1 := by
  unfold nearest
  dsimp only
  split_ifs <;> omega

theorem nearest_le {r : Nat} (h : num ≤ r * den) : nearest num den ≤ r := by
  rcases Nat.eq_zero_or_pos den with rfl | hden
  · obtain rfl : num = 0 := Nat.le_zero.1 h
    simp [nearest]
  obtain heq | hlt := Nat.eq_or_lt_of_le (Nat.div_le_of_le_mul (Nat.mul_comm r den ▸ h))
  · -- the quotient is exact
    have hnum : num = r * den := Nat.le_antisymm h (heq ▸ Nat.div_mul_le_self num den)
    rw [hnum, nearest_mul r hden]
  · exact Nat.le_trans (nearest_le_succ num den) hlt

theorem nearest_mul_mul {c : Nat} (hc : 0 < c) : nearest (num * c) (den * c) = nearest num den := by
  have hlt (a b : Nat) : 2 * (a * c) < b * c ↔ 2 * a < b := by
    rw [← Nat.mul_assoc, Nat.mul_lt_mul_right hc]
  have hgt (a b : Nat) : b * c < 2 * (a * c) ↔ b < 2 * a := by
    rw [← Nat.mul_assoc, Nat.mul_lt_mul_right hc]
  simp only [nearest, Nat.mul_div_mul_right num den hc, Nat.mul_mod_mul_right, hlt, hgt]

/-! ### Rounding to a significand -/

/-- **What is rounded fits.** -/
theorem fits_nearestUnits (num den : Nat) : Fits (nearestUnits num den) := by
  simp only [nearestUnits, Nat.one_shiftLeft]
  generalize hk : (num / den).log2 + 1 - precision = k
  have hbits : num / den < 2 ^ precision * 2 ^ k := by
    rw [← Nat.pow_add]
    exact Nat.lt_of_lt_of_le Nat.lt_log2_self (Nat.pow_le_pow_right (by decide) (by omega))
  refine ⟨_, k, ?_, rfl⟩
  calc nearest num (den * 2 ^ k)
      ≤ num / (den * 2 ^ k) + 1 := nearest_le_succ ..
    _ = num / den / 2 ^ k + 1 := by rw [Nat.div_div_eq_div_mul]
    _ ≤ 2 ^ precision := Nat.div_lt_of_lt_mul (Nat.mul_comm _ (2 ^ k) ▸ hbits)

/-- **Rounding never passes a number that fits.** -/
theorem nearestUnits_le (hq : Fits q) (h : num ≤ q * den) : nearestUnits num den ≤ q := by
  have hfloor : num / den ≤ q := Nat.div_le_of_le_mul (Nat.mul_comm q den ▸ h)
  have hlog : (num / den).log2 ≤ q.log2 := log2_mono hfloor
  -- the last place of what is rounded divides what fits and is not below it
  have hdvd : 2 ^ ((num / den).log2 + 1 - precision) ∣ q :=
    Nat.dvd_trans (Nat.pow_dvd_pow 2 (by omega)) hq.dvd
  rw [nearestUnits, Nat.one_shiftLeft]
  generalize 2 ^ ((num / den).log2 + 1 - precision) = step at hdvd ⊢
  obtain ⟨places, rfl⟩ := hdvd
  rw [Nat.mul_comm step places]
  refine Nat.mul_le_mul_right step (nearest_le ?_)
  rwa [Nat.mul_comm den step, ← Nat.mul_assoc, Nat.mul_comm places step]

/-! ### Whole numbers -/

/-- The whole number nearest to a whole number among those whose significand fits. -/
def rounded (n : Nat) : Nat := nearestUnits n 1

theorem rounded_of_fits (h : Fits n) : rounded n = n := by
  simpa only [Nat.mul_one, rounded] using nearestUnits_mul_of_fits h Nat.one_pos

theorem nearestUnits_mul_one_units (n : Nat) : nearestUnits (n * one) 1 = rounded n * one := by
  rcases Nat.lt_or_ge n (2 ^ precision) with hlt | hge
  · have hfits := fits_of_le (Nat.le_of_lt hlt)
    rw [rounded_of_fits hfits]
    simpa only [Nat.mul_one] using nearestUnits_mul_of_fits hfits.mul_one_units Nat.one_pos
  · have hne : n ≠ 0 := Nat.ne_of_gt (Nat.lt_of_lt_of_le (Nat.two_pow_pos _) hge)
    have hlog : precision ≤ n.log2 := (Nat.le_log2 hne).2 hge
    have hplace : (n * 2 ^ unitBits).log2 + 1 - precision =
        n.log2 + 1 - precision + unitBits := by
      rw [log2_mul_two_pow hne]
      omega
    simp only [rounded, nearestUnits, Nat.div_one, Nat.one_mul, Nat.one_shiftLeft, one_eq]
    rw [hplace, Nat.pow_add, nearest_mul_mul (Nat.two_pow_pos _), Nat.mul_assoc]

/-- **A whole number** is rounded to a whole number. -/
theorem ofNat_eq_whole (n : Nat) : ofNat n = whole (rounded n) := by
  rw [ofNat, ofRatio, nearestUnits_mul_one_units, whole]

theorem rounded_le_size (h : n < UInt64.size) : rounded n ≤ UInt64.size :=
  nearestUnits_le (fits_two_pow 64) (by rw [Nat.mul_one]; exact Nat.le_of_lt h)

/-! ### Rounded numbers -/

/-- The double is the outcome of rounding: its significand fits, if it is finite. -/
def Fine : Double → Prop
  | finite _ units => Fits units
  | _ => True

theorem fine_ofRatio (negative : Bool) (num den : Nat) : (ofRatio negative num den).Fine := by
  unfold ofRatio
  dsimp only
  split
  · trivial
  · exact fits_nearestUnits num den

theorem fine_mul (a b : Double) : (a.mul b).Fine := by
  unfold mul
  split
  any_goals trivial
  · split <;> trivial
  · split <;> trivial
  · exact fine_ofRatio ..

/-! ### A ceiling that was rounded -/

theorem toNat_saturate_le (n : Nat) : (saturate n).toNat ≤ n := by
  unfold saturate
  split
  next h => exact Nat.le_of_eq (UInt64.toNat_ofNat_of_lt' h)
  next h =>
    rw [UInt64.toNat_ofNat_of_lt' (by decide)]
    omega

theorem lt_toNat_saturate (h : q < n) (hq : q < UInt64.size - 1) : q < (saturate n).toNat := by
  unfold saturate
  split
  next hn => rwa [UInt64.toNat_ofNat_of_lt' hn]
  next hn => rwa [UInt64.toNat_ofNat_of_lt' (by decide)]

section

variable {a : Double} {c : Nat}

theorem ofNat_eq_finite (hc : c < UInt64.size) : ofNat c = finite false (rounded c * one) := by
  rw [ofNat_eq_whole, whole_of_le (finite_of_le_size (rounded_le_size hc))]

theorem truncate_min_ofNat_of_not_lt (hc : c < UInt64.size) (h : a.lt (ofNat c) = false) :
    (a.min (ofNat c)).truncate = saturate (rounded c) := by
  have hceiling : (ofNat c).truncate = saturate (rounded c) := by
    rw [ofNat_eq_whole, truncate_whole]
  rw [← hceiling]
  rw [ofNat_eq_finite hc] at h ⊢
  cases a with
  | nan => rfl
  | infinity negative =>
    obtain rfl : negative = false := h
    rfl
  | finite negative u =>
    cases negative with
    | false =>
      have hle : rounded c * one ≤ u := by simpa [lt] using h
      show (if (rounded c * one < u : Bool) then _ else _ : Double).truncate = _
      split
      next => rfl
      next hlt => rw [Nat.le_antisymm (Nat.not_lt.1 (by simpa using hlt)) hle]
    | true =>
      -- a zero below zero and the zero that the ceiling is then
      obtain ⟨rfl, hzero⟩ : u = 0 ∧ rounded c * one = 0 := by simpa [lt] using h
      rw [hzero]
      rfl

theorem toNat_truncate_min_ofNat_of_lt (ha : a.Fine) (hc : c < UInt64.size)
    (h : a.lt (ofNat c) = true) : (a.min (ofNat c)).truncate.toNat ≤ c := by
  rw [ofNat_eq_finite hc] at h ⊢
  cases a with
  | nan => exact absurd h Bool.false_ne_true
  | infinity negative =>
    obtain rfl : negative = true := h
    exact Nat.zero_le c
  | finite negative u =>
    cases negative with
    | false =>
      have hlt : u < rounded c * one := by simpa [lt] using h
      -- between the ceiling and what it is rounded to there is no double
      have hle : u ≤ c * one := Nat.le_of_not_lt fun hbeyond => by
        have hpast : nearestUnits (c * one) 1 ≤ u :=
          nearestUnits_le ha (Nat.le_trans (Nat.le_of_lt hbeyond) (Nat.le_of_eq (Nat.mul_one u).symm))
        rw [nearestUnits_mul_one_units] at hpast
        exact Nat.not_le.2 hlt hpast
      have hmin : (finite false u).min (finite false (rounded c * one)) = finite false u :=
        if_neg (by simpa [lt] using Nat.le_of_lt hlt)
      rw [hmin, truncate]
      exact Nat.le_trans (toNat_saturate_le _) (Nat.div_le_of_le_mul (Nat.mul_comm c one ▸ hle))
    | true => exact Nat.zero_le c

/-- **The lesser of a double and a ceiling** is above the ceiling exactly if the ceiling is rounded
up, so that 64 bits can tell, and the double reaches what it is rounded to. -/
theorem toNat_truncate_min_ofNat_le_iff (ha : a.Fine) (hc : c < UInt64.size) :
    (a.min (ofNat c)).truncate.toNat ≤ c ↔
      ¬(c < rounded c ∧ c < UInt64.size - 1 ∧ a.lt (ofNat c) = false) := by
  cases h : a.lt (ofNat c) with
  | true => simp [toNat_truncate_min_ofNat_of_lt ha hc h]
  | false =>
    rw [truncate_min_ofNat_of_not_lt hc h]
    constructor
    · rintro hle ⟨hup, htop, -⟩
      exact Nat.not_le.2 (lt_toNat_saturate hup htop) hle
    · intro hnot
      by_cases hup : c < rounded c
      · have htop : ¬c < UInt64.size - 1 := fun htop => hnot ⟨hup, htop, rfl⟩
        have hlast := (saturate (rounded c)).toNat_lt_size
        omega
      · exact Nat.le_trans (toNat_saturate_le _) (Nat.not_lt.1 hup)

end

end Double

end Parley
