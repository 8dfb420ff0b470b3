import Mathlib.Algebra.Ring.Int.Defs
import Mathlib.Algebra.Ring.Nat
import Mathlib.Tactic.SplitIfs
import Parley.Proofs.Json.Text

/-!
# Digits and whole numbers

Which texts stand for whole numbers, and what is known of the texts of naturals.

* `Digits` : digits and nothing else, one at least; `Signed` puts an optional sign in front.
* `isSome_readInt?_iff` : whole numbers are read from digits with an optional sign, and from nothing
  else.
* `readInt?_decimal`, `readInt?_minus_decimal` : they are read as they were written.
-/

namespace Parley

namespace Text

variable {cs ds : List Char} {c : Char} {p : List Char → Prop} {i : ℤ}

/-! ### Reading -/

/-- Digits and nothing else, one at least. -/
def Digits (cs : List Char) : Prop := cs ≠ [] ∧ ∀ c ∈ cs, isDigit c = true

/-- Maybe a sign, and then something with a property. -/
inductive Signed (p : List Char → Prop) : List Char → Prop
  | bare {cs : List Char} (h : p cs) : Signed p cs
  | plus {cs : List Char} (h : p cs) : Signed p ('+' :: cs)
  | minus {cs : List Char} (h : p cs) : Signed p ('-' :: cs)

theorem signed_plus_iff (h : ¬p ('+' :: cs)) : Signed p ('+' :: cs) ↔ p cs := by
  refine ⟨fun hs => ?_, .plus⟩
  cases hs with
  | bare hbare => exact absurd hbare h
  | plus hcs => exact hcs

theorem signed_minus_iff (h : ¬p ('-' :: cs)) : Signed p ('-' :: cs) ↔ p cs := by
  refine ⟨fun hs => ?_, .minus⟩
  cases hs with
  | bare hbare => exact absurd hbare h
  | minus hcs => exact hcs

theorem signed_bare_iff (hplus : ∀ ds, cs ≠ '+' :: ds) (hminus : ∀ ds, cs ≠ '-' :: ds) :
    Signed p cs ↔ p cs := by
  refine ⟨fun hs => ?_, .bare⟩
  cases hs with
  | bare hcs => exact hcs
  | plus _ => exact absurd rfl (hplus _)
  | minus _ => exact absurd rfl (hminus _)

theorem isDigitOf_ten (c : Char) : isDigitOf 10 c = isDigit c := by
  have hle {a b : Char} (h : (a ≤ b : Bool) = true) : a.toNat ≤ b.toNat := of_decide_eq_true h
  unfold isDigitOf digitValue? isDigit
  cases hdigit : ('0' ≤ c && c ≤ '9')
  · rw [if_neg Bool.false_ne_true]
    split_ifs with hlow hhigh
    · have := hle (Bool.and_eq_true_iff.1 hlow).1
      simp only [decide_eq_false_iff_not]
      simp only [Char.reduceToNat] at this
      omega
    · have := hle (Bool.and_eq_true_iff.1 hhigh).1
      simp only [decide_eq_false_iff_not]
      simp only [Char.reduceToNat] at this
      omega
    · rfl
  · have := hle (Bool.and_eq_true_iff.1 hdigit).2
    simp only [Char.reduceToNat] at this
    simp only [if_true, decide_eq_true_eq]
    omega

theorem ofDigits?_eq_some_iff {n : ℕ} :
    ofDigits? 10 cs = some n ↔ Digits cs ∧ ofDigitsFrom 10 0 cs = n := by
  unfold ofDigits? Digits
  simp [isDigitOf_ten]

theorem isSome_ofDigits?_iff : (ofDigits? 10 cs).isSome = true ↔ Digits cs := by
  simp [Option.isSome_iff_exists, ofDigits?_eq_some_iff]

theorem not_digits_cons (hc : isDigit c = false) : ¬Digits (c :: cs) := fun h =>
  absurd (h.2 c List.mem_cons_self) (by simp [hc])

/-- Maybe a sign and then digits: these texts stand for whole numbers, and no others. -/
theorem isSome_readInt?_iff : (readInt? cs).isSome = true ↔ Signed Digits cs := by
  unfold readInt?
  split
  next cs =>
    rw [signed_plus_iff (not_digits_cons (by decide)), ← isSome_ofDigits?_iff]
    cases ofDigits? 10 cs <;> rfl
  next cs =>
    rw [signed_minus_iff (not_digits_cons (by decide)), ← isSome_ofDigits?_iff]
    cases ofDigits? 10 cs <;> rfl
  next hplus hminus =>
    rw [signed_bare_iff hplus hminus, ← isSome_ofDigits?_iff]
    cases ofDigits? 10 cs <;> rfl

theorem readSigned?_eq_some_iff :
    readSigned? cs = some i ↔ readInt? cs = some i ∧ fitsSigned i = true := by
  rw [readSigned?, Option.filter_eq_some_iff]

theorem fitsSigned_iff : fitsSigned i = true ↔ -2 ^ 63 ≤ i ∧ i < 2 ^ 63 := by
  have hlow : Int64.minValue.toInt = -2 ^ 63 := rfl
  have hhigh : Int64.maxValue.toInt = 2 ^ 63 - 1 := rfl
  rw [fitsSigned, hlow, hhigh, Bool.and_eq_true, decide_eq_true_eq, decide_eq_true_eq]
  omega

/-! ### The digits of naturals -/

theorem decimal_length_pos (n : ℕ) : 0 < (decimal n).length := by
  obtain ⟨d, ds, heq, -⟩ := decimal_eq_cons n
  rw [heq]
  exact Nat.succ_pos _

theorem ten_pow_le_of_decimal {n : ℕ} (h : 0 < n) : 10 ^ ((decimal n).length - 1) ≤ n := by
  fun_induction decimal n with
  | case1 n => exact h
  | case2 n hn ih =>
    have hlen := decimal_length_pos (n / 10)
    rw [List.length_append, List.length_singleton, Nat.add_sub_cancel,
      ← Nat.sub_add_cancel hlen, Nat.pow_succ]
    exact Nat.le_trans (Nat.mul_le_mul_right 10 (ih (by omega))) (Nat.div_mul_le_self n 10)

theorem decimal_mul_ten {n : ℕ} (h : 0 < n) : decimal (n * 10) = decimal n ++ ['0'] := by
  rw [decimal, if_neg (by omega), Nat.mul_div_cancel n (by decide), Nat.mul_mod_left]
  rfl

theorem decimal_append_zeros {n : ℕ} (h : 0 < n) (k : ℕ) :
    decimal n ++ List.replicate k '0' = decimal (n * 10 ^ k) := by
  induction k with
  | zero => simp
  | succ k ih =>
    rw [List.replicate_succ', ← List.append_assoc, ih, Nat.pow_succ, ← Nat.mul_assoc,
      decimal_mul_ten (Nat.mul_pos h (Nat.pow_pos (by decide)))]

theorem digits_decimal (n : ℕ) : Digits (decimal n) :=
  ⟨List.ne_nil_of_length_pos (decimal_length_pos n), fun _ => isDigit_of_mem_decimal⟩

theorem ofDigitsFrom_zeros (k : ℕ) : ofDigitsFrom 10 0 (List.replicate k '0') = 0 := by
  induction k with
  | zero => rfl
  | succ k ih => exact ih

/-! ### Reading what was written -/

theorem readInt?_digits (h : Digits cs) : readInt? cs = (ofDigits? 10 cs).map Int.ofNat := by
  have hnot {c : Char} (hc : isDigit c = false) (ds : List Char) : cs ≠ c :: ds := by
    rintro rfl
    exact not_digits_cons hc h
  unfold readInt?
  split
  next => exact absurd rfl (hnot (by decide) _)
  next => exact absurd rfl (hnot (by decide) _)
  next => rfl

theorem ofDigits?_decimal (n : ℕ) : ofDigits? 10 (decimal n) = some n :=
  ofDigits?_eq_some_iff.2 ⟨digits_decimal n, ofDigitsFrom_decimal n⟩

theorem readInt?_decimal (n : ℕ) : readInt? (decimal n) = some (n : ℤ) := by
  rw [readInt?_digits (digits_decimal n), ofDigits?_decimal]
  rfl

theorem readInt?_minus_decimal (n : ℕ) : readInt? ('-' :: decimal n) = some (-n : ℤ) := by
  rw [readInt?, ofDigits?_decimal]
  rfl

theorem not_mem_of_readInt? (h : readInt? cs = some i) (hc : isDigit c = false) (hplus : c ≠ '+')
    (hminus : c ≠ '-') : c ∉ cs := by
  have hnot {ds : List Char} (h : Digits ds) : c ∉ ds := fun hmem => by
    simp [h.2 c hmem] at hc
  have hsigned := isSome_readInt?_iff.1 (Option.isSome_of_eq_some h)
  cases hsigned with
  | bare hdigits => exact hnot hdigits
  | plus hdigits => simp [hplus, hnot hdigits]
  | minus hdigits => simp [hminus, hnot hdigits]

end Text

end Parley
