import Parley.Pace.Retry
import Parley.Proofs.Double.Whole

/-!
# Delays that double

A retry waits twice as long as the one before it, up to a ceiling.  The delay is computed in doubles,
where the power of two becomes an infinity at the exponent 1024.

* `toNat_exponentialDelay_two` : from a base above zero the delay is the whole number that it is
  meant to be, whatever the attempt: an infinite product loses against the ceiling as any product
  beyond it does.
* `exponentialDelay_zero` : from a base of zero there is no delay as long as the power is finite.
  Zero times infinity is no number, and that loses against the ceiling as well.
* `RetryPolicy.doubles_iff` : so a retry waits as long as it is meant to but for the retries above
  1024 of a policy without a base delay, which wait as long as can be; and no retry waits longer
  than a later one.
-/

namespace Parley

variable {base ceiling : Moment} {attempt : UInt32}

/-! ### In whole numbers -/

/-- The base, doubled `k` times, but at most the ceiling. -/
def doubled (base ceiling : Moment) (k : Nat) : Nat := min (base.toNat * 2 ^ k) ceiling.toNat

theorem doubled_mono {j k : Nat} (h : j ≤ k) : doubled base ceiling j ≤ doubled base ceiling k := by
  have hpow : base.toNat * 2 ^ j ≤ base.toNat * 2 ^ k :=
    Nat.mul_le_mul_left _ (Nat.pow_le_pow_right (by decide) h)
  exact Nat.le_min.2 ⟨Nat.le_trans (Nat.min_le_left ..) hpow, Nat.min_le_right ..⟩

theorem doubled_lt_size (k : Nat) : doubled base ceiling k < UInt64.size :=
  Nat.lt_of_le_of_lt (Nat.min_le_right ..) ceiling.toNat_lt_size

theorem doubled_zero (k : Nat) : doubled 0 ceiling k = 0 := by
  rw [doubled, UInt64.toNat_zero, Nat.zero_mul, Nat.zero_min]

/-- After 64 doublings the ceiling is reached, unless nothing is doubled. -/
theorem doubled_of_le (hbase : base ≠ 0) {k : Nat} (hk : 64 ≤ k) :
    doubled base ceiling k = ceiling.toNat := by
  have hone : 1 ≤ base.toNat := Nat.pos_of_ne_zero fun h => hbase (UInt64.toNat_inj.1 h)
  have hpow : 2 ^ 64 ≤ 2 ^ k := Nat.pow_le_pow_right (by decide) hk
  refine Nat.min_eq_right (Nat.le_of_lt (Nat.lt_of_lt_of_le ceiling.toNat_lt_size ?_))
  exact Nat.le_trans hpow (Nat.le_mul_of_pos_left _ hone)

theorem doubled_min_largestExponent (hbase : base ≠ 0) (k : Nat) :
    doubled base ceiling (min k largestExponent) = doubled base ceiling k := by
  have hlargest : 64 ≤ largestExponent := by decide
  rcases Nat.le_or_ge k largestExponent with hle | hge
  · rw [Nat.min_eq_left hle]
  · rw [Nat.min_eq_right hge, doubled_of_le hbase hlargest,
      doubled_of_le hbase (Nat.le_trans hlargest hge)]

/-! ### In doubles -/

theorem toNat_exponentialDelay_first (multiplier : Double) :
    (exponentialDelay base ceiling multiplier 0).toNat = doubled base ceiling 0 := by
  simp only [exponentialDelay, if_pos, doubled, Nat.pow_zero, Nat.mul_one, UInt64.le_iff_toNat_le]
  split
  next hle => exact (Nat.min_eq_left hle).symm
  next hgt => exact (Nat.min_eq_right (Nat.le_of_not_le hgt)).symm

theorem exponentialDelay_two (hbase : Double.Fits base.toNat) (hceiling : Double.Fits ceiling.toNat)
    (h : attempt ≠ 0) : exponentialDelay base ceiling (Double.ofNat 2) attempt =
      (((Double.whole base.toNat).mul
        (Double.whole (2 ^ min attempt.toNat largestExponent))).min
        (Double.whole ceiling.toNat)).truncate := by
  rw [exponentialDelay, if_neg h, Double.npow_two, Double.ofNat_of_fits hbase,
    Double.ofNat_of_fits hceiling]

/-- **From a base above zero** the delay doubles up to the ceiling, whatever the attempt. -/
theorem toNat_exponentialDelay_two (hbase : Double.Fits base.toNat)
    (hceiling : Double.Fits ceiling.toNat) (hne : base ≠ 0) (attempt : UInt32) :
    (exponentialDelay base ceiling (Double.ofNat 2) attempt).toNat =
      doubled base ceiling attempt.toNat := by
  by_cases h : attempt = 0
  · rw [h, toNat_exponentialDelay_first, UInt32.toNat_zero]
  have hbase_ne : base.toNat ≠ 0 := fun hzero => hne (UInt64.toNat_inj.1 hzero)
  have hpow_ne : 2 ^ min attempt.toNat largestExponent ≠ 0 := Nat.ne_of_gt (Nat.two_pow_pos _)
  rw [exponentialDelay_two hbase hceiling h,
    Double.whole_mul_whole hbase_ne hpow_ne (hbase.mul_two_pow _), Double.whole_min_whole,
    Double.truncate_whole]
  exact (Double.toNat_saturate (doubled_lt_size _)).trans (doubled_min_largestExponent hne _)

/-- **From a base of zero** there is no delay, until the power is infinite: then the product is no
number, and the ceiling remains. -/
theorem exponentialDelay_zero (hceiling : Double.Fits ceiling.toNat) (attempt : UInt32) :
    exponentialDelay 0 ceiling (Double.ofNat 2) attempt =
      if 1024 ≤ attempt.toNat then ceiling else 0 := by
  by_cases h : attempt = 0
  · subst h
    apply UInt64.toNat_inj.1
    rw [toNat_exponentialDelay_first, doubled_zero]
    rfl
  have hexponent : 1024 ≤ min attempt.toNat largestExponent ↔ 1024 ≤ attempt.toNat := by
    have hlargest : 1024 ≤ largestExponent := by decide
    omega
  rw [exponentialDelay_two (Double.fits_of_le (Nat.zero_le _)) hceiling h, UInt64.toNat_zero,
    Double.zero_mul_whole]
  simp only [Double.maxUnits_lt_two_pow_iff, hexponent]
  split
  · rw [Double.nan_min, Double.truncate_whole]
    exact UInt64.toNat_inj.1 (Double.toNat_saturate ceiling.toNat_lt_size)
  · rw [Double.whole_min_whole, Nat.zero_min, Double.truncate_whole]
    rfl

/-! ### Retries -/

namespace RetryPolicy

variable {p : RetryPolicy} {m n : UInt32}

/-- Both delays of the policy are whole numbers up to 2 ^ 53, so that doubles hold them. -/
structure Held (p : RetryPolicy) : Prop where
  baseDelay_le : p.baseDelay.toNat ≤ 2 ^ Double.precision
  maxDelay_le : p.maxDelay.toNat ≤ 2 ^ Double.precision

/-- The delay that is meant before the `n`-th retry: none before there is a retry, then the base
delay, doubled with every further retry up to the longest delay. -/
def meant (p : RetryPolicy) (n : UInt32) : Nat :=
  if n = 0 then 0 else doubled p.baseDelay p.maxDelay (n.toNat - 1)

/-- No delay is meant for the retry, but the power by which it is multiplied is infinite. -/
structure Overflows (p : RetryPolicy) (n : UInt32) : Prop where
  baseDelay_eq : p.baseDelay = 0
  maxDelay_ne : p.maxDelay ≠ 0
  lt_toNat : 1024 < n.toNat

theorem meant_mono (h : m ≤ n) : p.meant m ≤ p.meant n := by
  have hle : m.toNat ≤ n.toNat := UInt32.le_iff_toNat_le.1 h
  unfold meant
  split
  · exact Nat.zero_le _
  next hm =>
    have hn : n ≠ 0 := by
      rintro rfl
      exact hm (UInt32.toNat_inj.1 (Nat.eq_zero_of_le_zero hle))
    rw [if_neg hn]
    exact doubled_mono (Nat.sub_le_sub_right hle 1)

theorem meant_le (n : UInt32) : p.meant n ≤ p.maxDelay.toNat := by
  unfold meant
  split
  · exact Nat.zero_le _
  · exact Nat.min_le_right ..

theorem toNat_pred (h : n ≠ 0) : (n - 1).toNat = n.toNat - 1 := by
  have hone : 1 ≤ n := by
    rw [UInt32.le_iff_toNat_le]
    exact Nat.pos_of_ne_zero fun hzero => h (UInt32.toNat_inj.1 hzero)
  rw [UInt32.toNat_sub_of_le n 1 hone]
  rfl

theorem toNat_delayFor_of_not_overflows (h : p.Held) (hn : ¬p.Overflows n) :
    (p.delayFor n).toNat = p.meant n := by
  have hceiling := Double.fits_of_le h.maxDelay_le
  unfold delayFor meant
  split
  · rfl
  next hzero =>
    rw [← toNat_pred hzero]
    by_cases hbase : p.baseDelay = 0
    · rw [hbase, exponentialDelay_zero hceiling, doubled_zero]
      split
      next hexponent =>
        rw [toNat_pred hzero] at hexponent
        have hmax : p.maxDelay = 0 :=
          Decidable.byContradiction fun hmax => hn ⟨hbase, hmax, by omega⟩
        rw [hmax]
        rfl
      next => rfl
    · exact toNat_exponentialDelay_two (Double.fits_of_le h.baseDelay_le) hceiling hbase (n - 1)

theorem delayFor_of_overflows (h : p.Held) (hn : p.Overflows n) : p.delayFor n = p.maxDelay := by
  have hzero : n ≠ 0 := by
    rintro rfl
    exact absurd hn.lt_toNat (by decide)
  have hlt := hn.lt_toNat
  have hexponent : 1024 ≤ (n - 1).toNat := by
    rw [toNat_pred hzero]
    omega
  rw [delayFor, if_neg hzero, hn.baseDelay_eq,
    exponentialDelay_zero (Double.fits_of_le h.maxDelay_le), if_pos hexponent]

theorem meant_of_overflows (hn : p.Overflows n) : p.meant n = 0 := by
  rw [meant, hn.baseDelay_eq, doubled_zero, ite_self]

theorem Overflows.mono (hm : p.Overflows m) (h : m ≤ n) : p.Overflows n :=
  ⟨hm.baseDelay_eq, hm.maxDelay_ne, Nat.lt_of_lt_of_le hm.lt_toNat (UInt32.le_iff_toNat_le.1 h)⟩

/-- No retry waits longer than a later one. -/
theorem delayFor_mono (h : p.Held) (hmn : m ≤ n) : p.delayFor m ≤ p.delayFor n := by
  by_cases hm : p.Overflows m
  · rw [delayFor_of_overflows h hm, delayFor_of_overflows h (hm.mono hmn)]
    exact UInt64.le_refl _
  rw [UInt64.le_iff_toNat_le, toNat_delayFor_of_not_overflows h hm]
  by_cases hn : p.Overflows n
  · rw [delayFor_of_overflows h hn]
    exact meant_le m
  · rw [toNat_delayFor_of_not_overflows h hn]
    exact meant_mono hmn

/-- **Retries wait twice as long each time**, from the base delay up to the longest one, exactly if
the power of two by which they multiply is finite or the base delay is not zero.  Else the retry
waits as long as can be, though no delay is meant.  In no case does a retry wait longer than a later
one. -/
theorem doubles_iff (h : p.Held) :
    (∀ n, (p.delayFor n).toNat = p.meant n ↔ ¬p.Overflows n) ∧
    (∀ n, p.Overflows n → p.delayFor n = p.maxDelay) ∧
    ∀ m n, m ≤ n → p.delayFor m ≤ p.delayFor n := by
  refine ⟨fun n => ⟨fun hmeant hover => ?_, toNat_delayFor_of_not_overflows h⟩,
    fun n => delayFor_of_overflows h, fun m n => delayFor_mono h⟩
  rw [delayFor_of_overflows h hover, meant_of_overflows hover] at hmeant
  exact hover.maxDelay_ne (UInt64.toNat_inj.1 hmeant)

/-- From a tenth of a second the second retry doubles, and the tenth meets the ceiling. -/
theorem doubles_iff_tenth :
    let p : RetryPolicy := ⟨5, 100, 300⟩
    p.Held ∧ (p.delayFor 2).toNat = 200 ∧ (p.delayFor 10).toNat = 300 := by
  intro p
  have held : p.Held := ⟨by decide, by decide⟩
  have hfinite (n : UInt32) : ¬p.Overflows n := fun h => absurd h.baseDelay_eq (by decide)
  have hdoubles := (doubles_iff held).1
  exact ⟨held, (hdoubles 2).2 (hfinite 2), (hdoubles 10).2 (hfinite 10)⟩

/-- **A retry that waits though no delay is meant**: the one of number 1025 of a policy without a
base delay. -/
theorem zero_base_waits :
    ¬∀ p : RetryPolicy, p.Held → ∀ n, (p.delayFor n).toNat = p.meant n := by
  intro h
  have held : (⟨2000, 0, 60000⟩ : RetryPolicy).Held := ⟨by decide, by decide⟩
  have hover : (⟨2000, 0, 60000⟩ : RetryPolicy).Overflows 1025 := ⟨rfl, by decide, by decide⟩
  have hzero := h _ held 1025
  rw [delayFor_of_overflows held hover, meant_of_overflows hover] at hzero
  exact absurd hzero (by decide)

end RetryPolicy

end Parley
