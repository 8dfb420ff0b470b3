import Parley.Proofs.Double.Rounding
import Parley.Proofs.Engine.Counting
import Parley.Proofs.Pace.Doubling

/-!
# The ceiling of a delay

A delay that grows is held to its ceiling in doubles.  A ceiling of more than 53 bits is rounded
first, and one that is rounded up lets delays pass that are longer than it.

* `Overtops` : the ceiling is rounded up, and the product reaches what it is rounded to.
* `exponentialDelay_le_iff` : a delay is within its ceiling but for that, whatever the multiplier,
  an infinity or no number at all included.
* `WaitStrategy.some_mem_replay_exponential_iff` : the waits of a growing way of waiting are the
  delays of the attempts that it counts.
* `ceiling_held_iff` : so no wait of a run is longer than the ceiling unless an attempt overtops it.
* `ceiling_overtopped` : there is such an attempt.
-/

namespace Parley

variable {initial ceiling : Moment} {multiplier : Double} {attempt : UInt32}

/-! ### One delay -/

/-- The delay of an attempt before it is held to a ceiling. -/
def product (initial : Moment) (multiplier : Double) (attempt : UInt32) : Double :=
  (Double.ofNat initial.toNat).mul (multiplier.npow (Nat.min attempt.toNat largestExponent))

/-- A later attempt than the first has a product that is not below the ceiling in doubles (or no
number), and the ceiling in doubles is above the ceiling. -/
structure Overtops (initial ceiling : Moment) (multiplier : Double) (attempt : UInt32) : Prop where
  attempt_ne : attempt ≠ 0
  lt_rounded : ceiling.toNat < Double.rounded ceiling.toNat
  lt_last : ceiling.toNat < UInt64.size - 1
  not_below : (product initial multiplier attempt).lt (Double.ofNat ceiling.toNat) = false

theorem exponentialDelay_of_ne (h : attempt ≠ 0) :
    exponentialDelay initial ceiling multiplier attempt =
      ((product initial multiplier attempt).min (Double.ofNat ceiling.toNat)).truncate := if_neg h

/-- **A delay is within its ceiling**, but for an attempt that overtops it. -/
theorem exponentialDelay_le_iff : exponentialDelay initial ceiling multiplier attempt ≤ ceiling ↔
    ¬Overtops initial ceiling multiplier attempt := by
  rw [UInt64.le_iff_toNat_le]
  by_cases h : attempt = 0
  · rw [h, toNat_exponentialDelay_first]
    exact iff_of_true (Nat.min_le_right ..) fun hover => hover.attempt_ne rfl
  have hfine : (product initial multiplier attempt).Fine := Double.fine_mul ..
  rw [exponentialDelay_of_ne h,
    Double.toNat_truncate_min_ofNat_le_iff hfine ceiling.toNat_lt_size]
  refine not_congr ⟨?_, ?_⟩
  · rintro ⟨hup, hlast, hlt⟩
    exact ⟨h, hup, hlast, hlt⟩
  · rintro ⟨-, hup, hlast, hlt⟩
    exact ⟨hup, hlast, hlt⟩

theorem exponentialDelay_of_overtops (h : Overtops initial ceiling multiplier attempt) :
    exponentialDelay initial ceiling multiplier attempt =
      Double.saturate (Double.rounded ceiling.toNat) := by
  rw [exponentialDelay_of_ne h.attempt_ne]
  exact Double.truncate_min_ofNat_of_not_lt ceiling.toNat_lt_size h.not_below

theorem not_overtops_of_fits (h : Double.Fits ceiling.toNat) :
    ¬Overtops initial ceiling multiplier attempt := fun hover => by
  have hup := hover.lt_rounded
  rw [Double.rounded_of_fits h] at hup
  exact Nat.lt_irrefl _ hup

/-! ### A run of waits -/

namespace WaitStrategy

/-- The attempts for which a growing way of waiting is asked for a wait, from a count on: every wait
counts one, and success begins again. -/
def attempts : UInt32 → List Call → List UInt32
  | _, [] => []
  | idle, .wait :: cs => idle :: attempts (countOn idle) cs
  | _, .success :: cs => attempts 0 cs

/-- **The waits of a run** are the delays of the attempts that are counted. -/
theorem some_mem_replay_exponential_iff {d : Moment} (idle : UInt32) (cs : List Call) :
    some d ∈ ((exponential initial ceiling multiplier idle).replay cs).1 ↔
      ∃ k ∈ attempts idle cs, exponentialDelay initial ceiling multiplier k = d := by
  induction cs generalizing idle with
  | nil => simp [replay, attempts]
  | cons c cs ih =>
    cases c with
    | wait =>
      show some d ∈ some (exponentialDelay initial ceiling multiplier idle) ::
        ((exponential initial ceiling multiplier (countOn idle)).replay cs).1 ↔ _
      rw [List.mem_cons, ih, attempts, List.exists_mem_cons_iff, Option.some_inj,
        eq_comm (a := d)]
    | success =>
      show some d ∈ none :: ((exponential initial ceiling multiplier 0).replay cs).1 ↔ _
      rw [List.mem_cons, ih, attempts]
      simp

end WaitStrategy

/-- **Delays keep to their ceiling** exactly if no attempt overtops it, and a run of waits if none
of its attempts does.  A delay that does not is the ceiling as doubles round it, and a ceiling that
doubles hold is kept by all. -/
theorem ceiling_held_iff (initial ceiling : Moment) (multiplier : Double) :
    (∀ attempt, exponentialDelay initial ceiling multiplier attempt ≤ ceiling ↔
      ¬Overtops initial ceiling multiplier attempt) ∧
    (∀ attempt, Overtops initial ceiling multiplier attempt →
      exponentialDelay initial ceiling multiplier attempt =
        Double.saturate (Double.rounded ceiling.toNat)) ∧
    (∀ idle calls, (∀ d, some d ∈
        ((WaitStrategy.exponential initial ceiling multiplier idle).replay calls).1 → d ≤ ceiling) ↔
      ∀ k ∈ WaitStrategy.attempts idle calls, ¬Overtops initial ceiling multiplier k) ∧
    (Double.Fits ceiling.toNat → ∀ attempt, ¬Overtops initial ceiling multiplier attempt) := by
  refine ⟨fun _ => exponentialDelay_le_iff, fun _ => exponentialDelay_of_overtops,
    fun idle calls => ?_, fun h _ => not_overtops_of_fits h⟩
  simp only [WaitStrategy.some_mem_replay_exponential_iff, forall_exists_index, and_imp,
    forall_apply_eq_imp_iff₂, exponentialDelay_le_iff]

/-- **A ceiling that is overtopped**: it is rounded up by one, and a delay that doubles once is
beyond it. -/
theorem ceiling_overtopped :
    ¬∀ (initial ceiling : Moment) (multiplier : Double) (attempt : UInt32),
      exponentialDelay initial ceiling multiplier attempt ≤ ceiling := by
  intro h
  refine exponentialDelay_le_iff.1 (h (2 ^ 53) (2 ^ 53 + 3) (Double.ofNat 2) 1)
    ⟨by decide, by decide +kernel, by decide, ?_⟩
  have hinitial : Double.ofNat (2 ^ 53 : Moment).toNat = Double.whole (2 ^ 53) :=
    Double.ofNat_of_fits (Double.fits_two_pow 53)
  have hrounded : Double.rounded (2 ^ 53 + 3 : Moment).toNat = 2 ^ 53 + 4 := by decide +kernel
  rw [product, hinitial, Double.npow_two, Double.ofNat_eq_whole, hrounded, Double.mul_two_pow,
    Double.whole_lt_whole]
  decide

end Parley
