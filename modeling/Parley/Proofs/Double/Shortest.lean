import Parley.Double.Text
import Parley.Proofs.Double.Rounding
import Parley.Proofs.Text.Digits
import Mathlib.Tactic.Linarith

/-!
# The shortest digits of a double

A double is written with the fewest digits that read back as the same double.  The search tries
grids of one digit, of two and so on to seventeen; on the last one a neighbour of the double is
less than half a step of the doubles away from it, so the search always finds some.

* `nearestUnits_eq_of_close` : what is within one part in `2 ^ 54` of a number that fits is rounded
  to it.
* `readsBack_of_onGrid` : whatever a grid offers reads back.
* `isSome_onGrid` : a grid whose steps are no more than one part in `10 ^ 16` offers something.
* `readsBack_shortest` : the shortest digits read back.
-/

namespace Parley.Double

variable {u num den p : ℕ}

/-- What is less than half a step away from a whole number of steps is rounded to it. -/
theorem nearest_eq (habove : 2 * num < 2 * (p * den) + den) (hbelow : 2 * (p * den) < 2 * num + den) :
    nearest num den = p := by
  have hden : 0 < den := by omega
  have hsplit : num / den * den + num % den = num := Nat.div_add_mod' num den
  have hrest : num % den < den := Nat.mod_lt num hden
  have hstep {a b : ℕ} (h : a < b) : a * den + den ≤ b * den := by
    rw [← Nat.succ_mul]
    exact Nat.mul_le_mul_right den h
  unfold nearest
  dsimp only
  generalize num / den = q at *
  generalize num % den = r at *
  rcases Nat.lt_trichotomy q p with hlt | rfl | hgt
  · -- the quotient is one step below, and its rest is more than half a step
    have hq := hstep hlt
    obtain rfl : p = q + 1 := by
      refine Nat.le_antisymm (Nat.le_of_not_lt fun hfar => ?_) hlt
      have := hstep hfar
      rw [Nat.succ_mul] at this
      omega
    rw [Nat.succ_mul] at hbelow
    rw [if_neg (by omega), if_pos (by omega)]
  · rw [if_pos (by omega)]
  · have := hstep hgt
    omega

theorem le_of_lt_place {n k : ℕ} (h : k < n.log2 + 1 - precision) : 2 ^ precision * 2 ^ k ≤ n := by
  rcases Nat.eq_zero_or_pos n with rfl | hpos
  · simp [precision] at h
  rw [← Nat.pow_add, ← Nat.le_log2 (Nat.ne_of_gt hpos)]
  omega

theorem lt_two_pow_place (n : ℕ) : n < 2 ^ precision * 2 ^ (n.log2 + 1 - precision) := by
  rw [← Nat.pow_add]
  exact Nat.lt_of_lt_of_le Nat.lt_log2_self (Nat.pow_le_pow_right (by decide) (by omega))

theorem add_le_of_dvd {a b c : ℕ} (ha : c ∣ a) (hb : c ∣ b) (h : a < b) : a + c ≤ b := by
  have := Nat.le_of_dvd (Nat.sub_pos_of_lt h) (Nat.dvd_sub hb ha)
  omega

/-- The last place of a quotient that is close to a number, and not far above it, is one of the number,
too. -/
theorem two_pow_place_dvd_of_close (hu : Fits u)
    (habove : num * 2 ^ 54 < u * den * 2 ^ 54 + u * den) :
    2 ^ ((num / den).log2 + 1 - precision) ∣ u := by
  have hdvd := hu.dvd
  have hplace := lt_two_pow_place u
  generalize u.log2 + 1 - precision = k at hdvd hplace
  refine Nat.dvd_trans (Nat.pow_dvd_pow 2 (Nat.le_of_not_lt fun hkj => ?_)) hdvd
  have hnext : u + 2 ^ k ≤ 2 ^ precision * 2 ^ k := add_le_of_dvd hdvd (Nat.dvd_mul_left ..) hplace
  have hquotient : u + 2 ^ k ≤ num / den := Nat.le_trans hnext (le_of_lt_place hkj)
  have hfar : (u + 2 ^ k) * den ≤ num :=
    Nat.le_trans (Nat.mul_le_mul_right den hquotient) (Nat.div_mul_le_self num den)
  rw [Nat.add_mul] at hfar
  have hcontra : 2 ^ k * den * 2 ^ 54 < u * den := by linarith
  rw [Nat.mul_right_comm] at hcontra
  have := Nat.lt_of_mul_lt_mul_right hcontra
  simp only [precision] at hplace
  omega

theorem le_two_pow_place_of_close (hu : Fits u) (hden : 0 < den)
    (hbelow : u * den * 2 ^ 54 < num * 2 ^ 54 + u * den) :
    u ≤ 2 ^ precision * 2 ^ ((num / den).log2 + 1 - precision) := by
  have hdvd := hu.dvd
  have hplace := lt_two_pow_place u
  have hplace' := lt_two_pow_place (num / den)
  generalize u.log2 + 1 - precision = k at hdvd hplace
  generalize (num / den).log2 + 1 - precision = j at hplace' ⊢
  refine Nat.le_of_not_lt fun hlt => ?_
  have hjk : j < k := by
    refine Nat.lt_of_not_le fun hkj => ?_
    have := Nat.mul_le_mul_left (2 ^ precision) (Nat.pow_le_pow_right (n := 2) (by decide) hkj)
    omega
  have hfar : 2 ^ precision * 2 ^ j + 2 ^ (j + 1) ≤ u := by
    refine add_le_of_dvd ?_ (Nat.dvd_trans (Nat.pow_dvd_pow 2 hjk) hdvd) hlt
    rw [← Nat.pow_add]
    exact Nat.pow_dvd_pow 2 (by simp only [precision]; omega)
  have hnum : num < 2 ^ precision * 2 ^ j * den := Nat.lt_mul_of_div_lt hplace' hden
  have hfar' := Nat.mul_le_mul_right den hfar
  simp only [precision, Nat.pow_succ] at hnum hfar'
  have hstep : 0 < 2 ^ j * den := Nat.mul_pos (Nat.two_pow_pos j) hden
  linarith

/-- **A number that fits is what its surroundings are rounded to**, as far as one part in `2 ^ 54`. -/
theorem nearestUnits_eq_of_close (hu : Fits u)
    (habove : num * 2 ^ 54 < u * den * 2 ^ 54 + u * den)
    (hbelow : u * den * 2 ^ 54 < num * 2 ^ 54 + u * den) : nearestUnits num den = u := by
  have hden : 0 < den := Nat.pos_of_ne_zero fun h => by simp [h] at habove
  have hdvd := two_pow_place_dvd_of_close hu habove
  have hwide := le_two_pow_place_of_close hu hden hbelow
  rw [nearestUnits, Nat.one_shiftLeft]
  generalize (num / den).log2 + 1 - precision = j at hdvd hwide ⊢
  obtain ⟨p, rfl⟩ := hdvd
  have hhalf := Nat.mul_le_mul_right den hwide
  simp only [precision] at hhalf
  rw [nearest_eq (p := p), Nat.mul_comm]
  · linarith
  · linarith

/-! ### Grids of decimal digits -/

/-- Units in one step of the grid of a power of ten, as a quotient. -/
def stepNum (e : ℤ) : ℕ := if 0 ≤ e then Nat.pow 10 e.toNat * one else one

/-- Units in one step of the grid of a power of ten, as a quotient. -/
def stepDen (e : ℤ) : ℕ := if 0 ≤ e then 1 else Nat.pow 10 (-e).toNat

theorem stepNum_pos (e : ℤ) : 0 < stepNum e := by
  unfold stepNum
  split
  · exact Nat.mul_pos (Nat.pow_pos (by decide)) one_pos
  · exact one_pos

theorem stepDen_pos (e : ℤ) : 0 < stepDen e := by
  unfold stepDen
  split
  · exact Nat.one_pos
  · exact Nat.pow_pos (by decide)

variable {d : ℕ} {e : ℤ}

theorem readsBack_iff : readsBack u d e = true ↔ nearestUnits (d * stepNum e) (stepDen e) = u := by
  rw [readsBack, stepNum, stepDen]
  split
  · rw [beq_iff_eq, Nat.mul_assoc]
  · rw [beq_iff_eq]

/-- The number of steps of a grid up to a number of units. -/
def stepsTo (u : ℕ) (e : ℤ) : ℕ := u * stepDen e / stepNum e

theorem onGrid_eq (u : ℕ) (e : ℤ) : onGrid u e =
    if readsBack u (stepsTo u e) e && readsBack u (stepsTo u e + 1) e then
      if 2 * (u * stepDen e % stepNum e) < stepNum e then some (stepsTo u e) else some (stepsTo u e + 1)
    else if readsBack u (stepsTo u e) e then some (stepsTo u e)
    else if readsBack u (stepsTo u e + 1) e then some (stepsTo u e + 1)
    else none := by
  have hnum : (if 0 ≤ e then u else u * Nat.pow 10 (-e).toNat) = u * stepDen e := by
    unfold stepDen
    split
    · rw [Nat.mul_one]
    · rfl
  have hden : (if 0 ≤ e then one * Nat.pow 10 e.toNat else one) = stepNum e := by
    unfold stepNum
    split
    · rw [Nat.mul_comm]
    · rfl
  simp only [onGrid, hnum, hden]
  rfl

theorem readsBack_of_onGrid (h : onGrid u e = some d) : readsBack u d e = true := by
  rw [onGrid_eq] at h
  split_ifs at h <;> simp_all

/-- Something is found on a grid whose steps are fine for the number. -/
theorem isSome_onGrid (hu : Fits u) (hpos : 0 < u)
    (hfine : stepNum e * 10 ^ 16 ≤ u * stepDen e) : (onGrid u e).isSome = true := by
  have hnum := stepNum_pos e
  have hunits := Nat.mul_pos hpos (stepDen_pos e)
  -- the nearer neighbour reads back
  have hnear : readsBack u (stepsTo u e) e = true ∨ readsBack u (stepsTo u e + 1) e = true := by
    have hsplit : stepsTo u e * stepNum e + u * stepDen e % stepNum e = u * stepDen e :=
      Nat.div_add_mod' ..
    have hrest := Nat.mod_lt (u * stepDen e) hnum
    generalize u * stepDen e % stepNum e = rest at hsplit hrest
    rcases Nat.le_total (2 * rest) (stepNum e) with hlow | hhigh
    · refine .inl (readsBack_iff.2 (nearestUnits_eq_of_close hu ?_ ?_)) <;> linarith
    · refine .inr (readsBack_iff.2 (nearestUnits_eq_of_close hu ?_ ?_)) <;>
        rw [Nat.succ_mul] <;> linarith
  rw [onGrid_eq]
  cases hlow : readsBack u (stepsTo u e) e <;> cases hhigh : readsBack u (stepsTo u e + 1) e
  · simp [hlow, hhigh] at hnear
  · rfl
  · rfl
  · simp only [Bool.and_self, if_true]
    split <;> rfl

/-! ### The shortest digits -/

theorem nearestUnits_mul_mul {c : ℕ} (hc : 0 < c) (num den : ℕ) :
    nearestUnits (num * c) (den * c) = nearestUnits num den := by
  simp only [nearestUnits, Nat.mul_div_mul_right num den hc]
  rw [Nat.mul_right_comm den c, nearest_mul_mul hc]

theorem exists_step_succ (e : ℤ) : ∃ c, 0 < c ∧ 10 * stepNum e = stepNum (e + 1) * c ∧
    stepDen e = stepDen (e + 1) * c := by
  unfold stepNum stepDen
  rcases Int.lt_or_le e 0 with hneg | hnonneg
  · refine ⟨10, by decide, ?_, ?_⟩
    · rw [if_neg (by omega), Nat.mul_comm]
      split
      next h =>
        obtain rfl : e = -1 := by omega
        simp
      next => rfl
    · rw [if_neg (by omega)]
      split
      next h =>
        obtain rfl : e = -1 := by omega
        rfl
      next h =>
        have hexp : (-e).toNat = (-(e + 1)).toNat + 1 := by omega
        rw [hexp]
        exact Nat.pow_succ ..
  · have hexp : (e + 1).toNat = e.toNat + 1 := by omega
    refine ⟨1, Nat.one_pos, ?_, ?_⟩
    · rw [if_pos hnonneg, if_pos (by omega), hexp, Nat.pow_eq, Nat.pow_eq, Nat.pow_succ, Nat.mul_one,
        ← Nat.mul_assoc, Nat.mul_comm 10]
    · rw [if_pos hnonneg, if_pos (by omega)]

theorem readsBack_succ (h : readsBack u (10 * d) e = true) : readsBack u d (e + 1) = true := by
  rw [readsBack_iff] at h ⊢
  obtain ⟨c, hc, hnum, hden⟩ := exists_step_succ e
  rw [← h, Nat.mul_comm 10 d, Nat.mul_assoc, hnum, hden, ← Nat.mul_assoc, nearestUnits_mul_mul hc]

theorem readsBack_withoutLastZero (h : readsBack u d e = true) :
    readsBack u (withoutLastZero d e).1 (withoutLastZero d e).2 = true ∧
      e ≤ (withoutLastZero d e).2 := by
  unfold withoutLastZero
  split
  next hzero =>
    refine ⟨readsBack_succ ?_, Int.le_of_lt (Int.lt_succ e)⟩
    rwa [Nat.mul_div_cancel' (Nat.dvd_of_mod_eq_zero hzero)]
  next => exact ⟨h, Int.le_refl e⟩

/-- If something is found on one of the grids, the first one on which it is gives digits that read
back. -/
theorem readsBack_firstGrid {lead : ℤ} {fuel count c : ℕ} (hc : count ≤ c) (hfuel : c < count + fuel)
    (hfound : (onGrid u (lead - c + 1)).isSome = true) :
    readsBack u (firstGrid u lead fuel count).1 (firstGrid u lead fuel count).2 = true ∧
      lead - c + 1 ≤ (firstGrid u lead fuel count).2 := by
  induction fuel generalizing count with
  | zero => omega
  | succ fuel ih =>
    unfold firstGrid
    dsimp only
    split
    next digits hdigits =>
      obtain ⟨hreads, hle⟩ := readsBack_withoutLastZero (readsBack_of_onGrid hdigits)
      exact ⟨hreads, by omega⟩
    next hnone =>
      have hne : count ≠ c := by
        rintro rfl
        rw [hnone] at hfound
        cases hfound
      exact ih (by omega) (by omega)

theorem one_le_of_leadingZeros {limit j : ℕ} (h : one ≤ u * 10 ^ (j + limit)) :
    one ≤ u * 10 ^ leadingZeros u limit j ∧ leadingZeros u limit j ≤ j + limit := by
  induction limit generalizing j with
  | zero => exact ⟨h, Nat.le_refl _⟩
  | succ limit ih =>
    unfold leadingZeros
    split
    next hj => exact ⟨hj, by omega⟩
    next =>
      obtain ⟨hone, hle⟩ := ih (j := j + 1) (by rwa [Nat.add_right_comm])
      exact ⟨hone, by omega⟩

theorem one_le_ten_pow {k : ℕ} (h : unitBits ≤ 109 * k) : one ≤ 10 ^ (33 * k) := by
  rw [one_eq]
  refine Nat.le_trans (Nat.pow_le_pow_right (by decide) h) ?_
  rw [Nat.pow_mul, Nat.pow_mul]
  exact Nat.pow_le_pow_left (by decide) k

/-- Sixteen digits after the leading one make a grid that is fine enough, if that one stands before the
point. -/
theorem stepNum_mul_le_of_digits {n : ℕ} (hn : 0 < n) (hle : 10 ^ (n - 1) * one ≤ u) :
    stepNum ((n : ℤ) - 1 - 16) * 10 ^ 16 ≤ u * stepDen ((n : ℤ) - 1 - 16) := by
  unfold stepNum stepDen
  split
  next h =>
    have hexp : n - 1 = ((n : ℤ) - 1 - 16).toNat + 16 := by omega
    rw [hexp, Nat.pow_add] at hle
    rwa [Nat.mul_one, Nat.mul_right_comm]
  next h =>
    have hexp : 16 = n - 1 + (-((n : ℤ) - 1 - 16)).toNat := by omega
    calc one * 10 ^ 16
        = 10 ^ (n - 1) * one * 10 ^ (-((n : ℤ) - 1 - 16)).toNat := by
          conv_lhs => rw [hexp, Nat.pow_add]
          rw [← Nat.mul_assoc, Nat.mul_comm one]
      _ ≤ u * 10 ^ (-((n : ℤ) - 1 - 16)).toNat := Nat.mul_le_mul_right _ hle

theorem stepNum_mul_le_of_zeros {zeros : ℕ} (hle : one ≤ u * 10 ^ zeros) :
    stepNum (-(zeros : ℤ) - 16) * 10 ^ 16 ≤ u * stepDen (-(zeros : ℤ) - 16) := by
  unfold stepNum stepDen
  rw [if_neg (by omega), if_neg (by omega)]
  have hexp : (-(-(zeros : ℤ) - 16)).toNat = zeros + 16 := by omega
  rw [hexp, Nat.pow_eq, Nat.pow_add, ← Nat.mul_assoc]
  exact Nat.mul_le_mul_right _ hle

theorem fine_leadingExponent (hpos : 0 < u) :
    stepNum (leadingExponent u - 16) * 10 ^ 16 ≤ u * stepDen (leadingExponent u - 16) ∧
      -330 ≤ leadingExponent u := by
  unfold leadingExponent
  split
  next hone =>
    have hlen := Text.decimal_length_pos (u / one)
    have hle : 10 ^ ((Text.decimal (u / one)).length - 1) * one ≤ u := by
      refine Nat.le_trans (Nat.mul_le_mul_right one ?_) (Nat.div_mul_le_self u one)
      exact Text.ten_pow_le_of_decimal (Nat.div_pos hone one_pos)
    exact ⟨stepNum_mul_le_of_digits hlen hle, by omega⟩
  next hone =>
    have hlimit : one ≤ u * 10 ^ (0 + 330) := by
      rw [show 0 + 330 = 33 * 10 from rfl]
      exact Nat.le_trans (one_le_ten_pow (by decide)) (Nat.le_mul_of_pos_left _ hpos)
    obtain ⟨hle, hzeros⟩ := one_le_of_leadingZeros hlimit
    exact ⟨stepNum_mul_le_of_zeros hle, by omega⟩

/-- **The shortest digits read back**: for a number that fits some are found, at the seventeenth
digit at the latest. -/
theorem readsBack_shortest (hu : Fits u) (hpos : 0 < u) :
    readsBack u (shortest u).1 (shortest u).2 = true ∧ -346 ≤ (shortest u).2 := by
  obtain ⟨hfine, hlead⟩ := fine_leadingExponent hpos
  have hfound : (onGrid u (leadingExponent u - (17 : ℕ) + 1)).isSome = true := by
    have hexp : leadingExponent u - (17 : ℕ) + 1 = leadingExponent u - 16 := by omega
    rw [hexp]
    exact isSome_onGrid hu hpos hfine
  unfold shortest
  refine (readsBack_firstGrid (by decide) (by decide) hfound).imp_right fun hle => ?_
  exact Int.le_trans (by omega) hle

end Parley.Double
