import Mathlib.Data.List.TakeWhile
import Parley.Proofs.Double.Shortest

/-!
# Doubles and their texts

Which texts stand for a double, and that the text of a double is one that stands for it.

* `Numeral` : the texts that stand for doubles: maybe a sign, then a word, or digits with at most one
  point and maybe an exponent.  `isSome_ofText?_iff` says that these are read, and no others.
* `Genuine` : the doubles that there are.  `Genuine.of_ofText?` says that whatever is read is one.
* `Genuine.ofText?_text` : a double is read back from its own text.
-/

namespace Parley

namespace Double

open Text

variable {cs ds fs tail : List Char} {negative : Bool} {x : Double} {s : String}

/-! ### What can be read -/

/-- An exponent with its letter, or nothing. -/
inductive Exponent : List Char → Prop
  | none : Exponent []
  | power {c : Char} {cs : List Char} (hc : c = 'e' ∨ c = 'E') (h : Signed Digits cs) :
    Exponent (c :: cs)

/-- Digits with at most one point among or around them, and maybe an exponent. -/
inductive Figures : List Char → Prop
  | whole {ds tail : List Char} (hds : Digits ds) (h : Exponent tail) : Figures (ds ++ tail)
  | pointed {ds fs tail : List Char} (hds : ∀ c ∈ ds, isDigit c = true)
    (hfs : ∀ c ∈ fs, isDigit c = true) (hne : ds ≠ [] ∨ fs ≠ []) (h : Exponent tail) :
    Figures (ds ++ '.' :: (fs ++ tail))

/-- A word for infinity or for no number, in letters of any case. -/
def IsWord (cs : List Char) : Prop :=
  lowerWord cs ∈ ["inf".toList, "infinity".toList, "nan".toList]

/-- Maybe a sign, and then a word or figures. -/
def Numeral : List Char → Prop := Signed fun cs => IsWord cs ∨ Figures cs

theorem isSome_readExponent?_iff : (readExponent? cs).isSome = true ↔ Exponent cs := by
  cases cs with
  | nil => exact ⟨fun _ => .none, fun _ => rfl⟩
  | cons c cs =>
    simp only [readExponent?]
    split_ifs with hc
    · rw [isSome_readInt?_iff]
      refine ⟨.power (by simpa using hc), fun h => ?_⟩
      cases h with
      | power _ hcs => exact hcs
    · refine ⟨nofun, fun h => ?_⟩
      cases h with
      | power he _ => exact absurd (by simpa using he) hc

theorem Exponent.head (h : Exponent tail) : ∀ c ∈ tail.head?, isDigit c = false ∧ c ≠ '.' := by
  cases h with
  | none => exact nofun
  | power hc _ =>
    rintro c hhead
    obtain rfl := Option.some.inj hhead
    rcases hc with rfl | rfl <;> decide

theorem takeWhile_digits (hds : ∀ c ∈ ds, isDigit c = true)
    (htail : ∀ c ∈ tail.head?, isDigit c = false) :
    (ds ++ tail).takeWhile isDigit = ds ∧ (ds ++ tail).dropWhile isDigit = tail := by
  rw [List.takeWhile_append_of_pos hds, List.dropWhile_append_of_pos hds]
  cases tail with
  | nil => simp
  | cons c tail => simp [htail c rfl]

theorem readNumeral?_whole (hds : Digits ds) (htail : ∀ c ∈ tail.head?, isDigit c = false ∧ c ≠ '.') :
    readNumeral? negative (ds ++ tail) =
      (readExponent? tail).map fun e => ofDecimal negative (ofDigitsFrom 10 0 ds) e := by
  obtain ⟨htake, hdrop⟩ := takeWhile_digits hds.2 fun c hc => (htail c hc).1
  simp only [readNumeral?, htake, hdrop]
  split
  next => exact absurd rfl (htail '.' rfl).2
  next => cases readExponent? tail <;> simp [hds.1]

theorem readNumeral?_pointed (hds : ∀ c ∈ ds, isDigit c = true) (hfs : ∀ c ∈ fs, isDigit c = true)
    (hne : ds ≠ [] ∨ fs ≠ []) (htail : ∀ c ∈ tail.head?, isDigit c = false) :
    readNumeral? negative (ds ++ '.' :: (fs ++ tail)) = (readExponent? tail).map fun e =>
      ofDecimal negative (ofDigitsFrom 10 0 (ds ++ fs)) (e - fs.length) := by
  have hpoint : ∀ c ∈ ('.' :: (fs ++ tail)).head?, isDigit c = false := by
    rintro c hc
    obtain rfl := Option.some.inj hc
    decide
  obtain ⟨htake, hdrop⟩ := takeWhile_digits hds hpoint
  obtain ⟨htake', hdrop'⟩ := takeWhile_digits hfs htail
  have hsome : (ds.isEmpty && fs.isEmpty) = false := by
    rcases hne with h | h <;> simp [h]
  simp only [readNumeral?, htake, hdrop, htake', hdrop', hsome]
  cases readExponent? tail <;> rfl

theorem isSome_readNumeral?_iff (negative : Bool) :
    (readNumeral? negative cs).isSome = true ↔ Figures cs := by
  constructor
  · intro h
    have hcs : cs.takeWhile isDigit ++ cs.dropWhile isDigit = cs := List.takeWhile_append_dropWhile
    have hdigits (ds : List Char) : ∀ c ∈ ds.takeWhile isDigit, isDigit c = true := fun _ =>
      List.mem_takeWhile_imp
    have hexponent {o : Option ℤ} {f : ℤ → Double} (h : (o.bind fun e => some (f e)).isSome = true) :
        o.isSome = true := by
      cases o with
      | none => exact h
      | some _ => rfl
    simp only [readNumeral?] at h
    split at h
    next more hrest =>
      split_ifs at h with hnone
      · cases h
      rw [← hcs, hrest, ← List.takeWhile_append_dropWhile (p := isDigit) (l := more)]
      refine .pointed (hdigits cs) (hdigits more) ?_ (isSome_readExponent?_iff.1 (hexponent h))
      simpa [or_iff_not_imp_left] using hnone
    next =>
      split_ifs at h with hnone
      · cases h
      rw [← hcs]
      refine .whole ⟨?_, hdigits cs⟩ (isSome_readExponent?_iff.1 (hexponent h))
      simpa using hnone
  · intro h
    cases h with
    | whole hds htail =>
      rw [readNumeral?_whole hds htail.head, Option.isSome_map, isSome_readExponent?_iff]
      exact htail
    | pointed hds hfs hne htail =>
      rw [readNumeral?_pointed hds hfs hne fun c hc => (htail.head c hc).1, Option.isSome_map,
        isSome_readExponent?_iff]
      exact htail

theorem isSome_readUnsignedText?_iff :
    (readUnsignedText? negative cs).isSome = true ↔ IsWord cs ∨ Figures cs := by
  unfold readUnsignedText?
  dsimp only
  rw [← isSome_readNumeral?_iff negative]
  simp only [IsWord, List.mem_cons, List.not_mem_nil, or_false, Bool.or_eq_true, decide_eq_true_eq]
  split_ifs with hinf hnan
  · exact iff_of_true rfl (.inl (hinf.imp_right .inl))
  · exact iff_of_true rfl (.inl (.inr (.inr hnan)))
  · refine (or_iff_right ?_).symm
    rintro (h | h | h)
    · exact hinf (.inl h)
    · exact hinf (.inr h)
    · exact hnan h

theorem Figures.head (h : Figures cs) : ∃ c ∈ cs.head?, isDigit c = true ∨ c = '.' := by
  cases h with
  | whole hds _ =>
    obtain ⟨d, ds, rfl⟩ := List.exists_cons_of_ne_nil hds.1
    exact ⟨d, rfl, .inl (hds.2 d List.mem_cons_self)⟩
  | @pointed ds _ _ hds _ _ _ =>
    cases ds with
    | nil => exact ⟨'.', rfl, .inr rfl⟩
    | cons d ds => exact ⟨d, rfl, .inl (hds d List.mem_cons_self)⟩

theorem not_sign {c : Char} (hc : c = '+' ∨ c = '-') : ¬(IsWord (c :: cs) ∨ Figures (c :: cs)) := by
  rintro (hword | hfigures)
  · rcases hc with rfl | rfl <;> simp [IsWord, lowerWord] at hword
  · obtain ⟨d, hd, hhead⟩ := hfigures.head
    obtain rfl := Option.some.inj hd
    rcases hc with rfl | rfl <;> revert hhead <;> decide

/-- **The texts that stand for doubles** are the numerals. -/
theorem isSome_ofText?_iff : (ofText? s).isSome = true ↔ Numeral s.toList := by
  unfold ofText? Numeral
  split
  next cs hcs => rw [isSome_readUnsignedText?_iff, hcs, signed_plus_iff (not_sign (.inl rfl))]
  next cs hcs => rw [isSome_readUnsignedText?_iff, hcs, signed_minus_iff (not_sign (.inr rfl))]
  next hplus hminus => rw [isSome_readUnsignedText?_iff, signed_bare_iff hplus hminus]

theorem numeral_of_signed_digits (h : Signed Digits cs) : Numeral cs := by
  have hfigures {ds : List Char} (h : Digits ds) : IsWord ds ∨ Figures ds := by
    have := Figures.whole h .none
    rw [List.append_nil] at this
    exact .inr this
  cases h with
  | bare h => exact .bare (hfigures h)
  | plus h => exact .plus (hfigures h)
  | minus h => exact .minus (hfigures h)

/-! ### What is read -/

/-- The double is one of those that there are: a finite one has a significand that fits and is no
greater than the largest. -/
def Genuine : Double → Prop
  | finite _ units => Fits units ∧ units ≤ maxUnits
  | _ => True

theorem genuine_zero (negative : Bool) : (finite negative 0).Genuine :=
  ⟨fits_of_le (Nat.zero_le _), Nat.zero_le _⟩

theorem genuine_ofRatio (negative : Bool) (num den : ℕ) : (ofRatio negative num den).Genuine := by
  unfold ofRatio
  dsimp only
  split
  next => trivial
  next h => exact ⟨fits_nearestUnits num den, Nat.not_lt.1 h⟩

theorem genuine_ofDecimal (negative : Bool) (digits : ℕ) (e : ℤ) :
    (ofDecimal negative digits e).Genuine := by
  unfold ofDecimal
  dsimp only
  split_ifs
  · exact genuine_zero negative
  · trivial
  · exact genuine_zero negative
  · exact genuine_ofRatio ..
  · exact genuine_ofRatio ..

theorem genuine_of_readNumeral? (h : readNumeral? negative cs = some x) : x.Genuine := by
  obtain hfigures := (isSome_readNumeral?_iff _).1 (Option.isSome_of_eq_some h)
  cases hfigures with
  | whole hds htail =>
    rw [readNumeral?_whole hds htail.head] at h
    obtain ⟨e, -, rfl⟩ := Option.map_eq_some_iff.1 h
    exact genuine_ofDecimal ..
  | pointed hds hfs hne htail =>
    rw [readNumeral?_pointed hds hfs hne fun c hc => (htail.head c hc).1] at h
    obtain ⟨e, -, rfl⟩ := Option.map_eq_some_iff.1 h
    exact genuine_ofDecimal ..

theorem genuine_of_readUnsignedText? (h : readUnsignedText? negative cs = some x) : x.Genuine := by
  unfold readUnsignedText? at h
  dsimp only at h
  split_ifs at h
  · cases h
    trivial
  · cases h
    trivial
  · exact genuine_of_readNumeral? h

/-- **Whatever is read is a double that there is.** -/
theorem Genuine.of_ofText? (h : ofText? s = some x) : x.Genuine := by
  unfold ofText? at h
  split at h <;> exact genuine_of_readUnsignedText? h

/-! ### Reading what was written -/

variable {u d : ℕ} {e : ℤ}

theorem positional_of_nonneg (he : 0 ≤ e) (hd : 0 < d) :
    positional d e = decimal (d * 10 ^ e.toNat) := by
  rw [positional, if_pos he, decimal_append_zeros hd]

/-- With places behind the point the digits are those of the number, after zeros perhaps. -/
theorem exists_positional_of_neg (he : e < 0) (d : ℕ) : ∃ ds fs, positional d e = ds ++ '.' :: fs ∧
    Digits ds ∧ (∀ c ∈ fs, isDigit c = true) ∧ (fs.length : ℤ) = -e ∧
    ofDigitsFrom 10 0 (ds ++ fs) = d := by
  have hdigits {c : Char} : c ∈ decimal d → isDigit c = true := isDigit_of_mem_decimal
  unfold positional
  dsimp only
  rw [if_neg (by omega)]
  split
  next hplaces =>
    refine ⟨_, _, rfl, ⟨?_, fun c hc => hdigits (List.mem_of_mem_take hc)⟩,
      fun c hc => hdigits (List.mem_of_mem_drop hc), ?_, ?_⟩
    · refine List.ne_nil_of_length_pos ?_
      rw [List.length_take]
      omega
    · rw [List.length_drop]
      omega
    · rw [List.take_append_drop, ofDigitsFrom_decimal]
  next hplaces =>
    refine ⟨['0'], List.replicate _ '0' ++ decimal d, rfl, ⟨List.cons_ne_nil _ _, by simp; decide⟩,
      fun c hc => ?_, ?_, ?_⟩
    · rcases List.mem_append.1 hc with hzero | hc
      · rw [List.eq_of_mem_replicate hzero]
        decide
      · exact hdigits hc
    · rw [List.length_append, List.length_replicate]
      omega
    · show ofDigitsFrom 10 0 (List.replicate _ '0' ++ decimal d) = d
      rw [ofDigitsFrom_append, ofDigitsFrom_zeros, ofDigitsFrom_decimal]

theorem pos_of_readsBack (hpos : 0 < u) (h : readsBack u d e = true) : 0 < d := by
  refine Nat.pos_of_ne_zero ?_
  rintro rfl
  rw [readsBack_iff, Nat.zero_mul] at h
  simp [nearestUnits, nearest] at h
  omega

/-- Digits that read back stand for the number, unless the exponent is cut off. -/
theorem ofDecimal_of_readsBack (hpos : 0 < u) (hle : u ≤ maxUnits) (h : readsBack u d e = true)
    (he : -346 ≤ e) (he' : e ≤ 0) : ofDecimal negative d e = finite negative u := by
  have hunits : ofRatio negative (d * stepNum e) (stepDen e) = finite negative u := by
    rw [ofRatio, readsBack_iff.1 h]
    exact if_neg (Nat.not_lt.2 hle)
  unfold ofDecimal
  dsimp only
  rw [if_neg (Nat.ne_of_gt (pos_of_readsBack hpos h)), if_neg (by omega), if_neg (by omega)]
  split
  next hnonneg => rwa [stepNum, stepDen, if_pos hnonneg, if_pos hnonneg, ← Nat.mul_assoc] at hunits
  next hneg => rwa [stepNum, stepDen, if_neg hneg, if_neg hneg] at hunits

theorem readNumeral?_positional (hpos : 0 < u) (hle : u ≤ maxUnits) (h : readsBack u d e = true)
    (he : -346 ≤ e) : readNumeral? negative (positional d e) = some (finite negative u) := by
  rcases Int.lt_or_le e 0 with hneg | hnonneg
  · obtain ⟨ds, fs, heq, hds, hfs, hlen, hvalue⟩ := exists_positional_of_neg hneg d
    have hread : readNumeral? negative (ds ++ '.' :: (fs ++ [])) = _ :=
      readNumeral?_pointed hds.2 hfs (.inl hds.1) nofun
    rw [List.append_nil] at hread
    have hexp : 0 - (fs.length : ℤ) = e := by omega
    rw [heq, hread, hvalue]
    simp only [readExponent?, Option.map_some, hexp,
      ofDecimal_of_readsBack hpos hle h he (Int.le_of_lt hneg)]
  · have hread : readNumeral? negative (decimal (d * 10 ^ e.toNat) ++ []) = _ :=
      readNumeral?_whole (digits_decimal _) nofun
    rw [List.append_nil, ofDigitsFrom_decimal] at hread
    have hwhole : readsBack u (d * 10 ^ e.toNat) 0 = true := by
      rw [readsBack, if_pos hnonneg] at h
      simpa [readsBack] using h
    rw [positional_of_nonneg hnonneg (pos_of_readsBack hpos h), hread]
    simp only [readExponent?, Option.map_some,
      ofDecimal_of_readsBack hpos hle hwhole (by decide) (by decide)]

theorem readNumeral?_unitsText (hu : Fits u) (hle : u ≤ maxUnits) :
    readNumeral? negative (unitsText u) = some (finite negative u) := by
  unfold unitsText
  split
  next hzero =>
    rw [hzero]
    rfl
  next hne =>
    have hpos : 0 < u := Nat.pos_of_ne_zero hne
    obtain ⟨hreads, hexp⟩ := readsBack_shortest hu hpos
    exact readNumeral?_positional hpos hle hreads hexp

theorem unitsText_cases (hu : Fits u) :
    (∃ n, unitsText u = decimal n ∧ (n = 0 → u = 0)) ∨ '.' ∈ unitsText u := by
  unfold unitsText
  split
  next hzero => exact .inl ⟨0, by rw [decimal, if_pos (by decide)]; rfl, fun _ => hzero⟩
  next hne =>
    obtain ⟨hreads, -⟩ := readsBack_shortest hu (Nat.pos_of_ne_zero hne)
    have hd := pos_of_readsBack (Nat.pos_of_ne_zero hne) hreads
    rcases Int.lt_or_le (shortest u).2 0 with hneg | hnonneg
    · obtain ⟨ds, fs, heq, -⟩ := exists_positional_of_neg hneg (shortest u).1
      exact .inr (by simp [heq])
    · refine .inl ⟨_, positional_of_nonneg hnonneg hd, fun hzero => ?_⟩
      exact absurd hzero (Nat.ne_of_gt (Nat.mul_pos hd (Nat.pow_pos (by decide))))

theorem unitsText_head (u : ℕ) : ∃ c cs, unitsText u = c :: cs ∧ isDigit c = true := by
  have hcons {ds : List Char} (h : Digits ds) (cs : List Char) :
      ∃ c rest, ds ++ cs = c :: rest ∧ isDigit c = true := by
    obtain ⟨d, ds, rfl⟩ := List.exists_cons_of_ne_nil h.1
    exact ⟨d, ds ++ cs, rfl, h.2 d List.mem_cons_self⟩
  unfold unitsText
  split
  next => exact ⟨'0', [], rfl, by decide⟩
  next =>
    rcases Int.lt_or_le (shortest u).2 0 with hneg | hnonneg
    · obtain ⟨ds, fs, heq, hds, -⟩ := exists_positional_of_neg hneg (shortest u).1
      rw [heq]
      exact hcons hds _
    · rw [positional, if_pos hnonneg]
      exact hcons (digits_decimal _) _

theorem toLower_of_lt {c : Char} (h : c.toNat < 65) : c.toLower = c := by
  unfold Char.toLower
  refine dif_neg fun hupper => ?_
  have hle : 65 ≤ c.toNat := UInt32.le_iff_toNat_le.1 hupper.1
  omega

theorem Figures.not_isWord (h : Figures cs) : ¬IsWord cs := by
  obtain ⟨c, hc, hhead⟩ := h.head
  obtain ⟨cs, rfl⟩ : ∃ ds, cs = c :: ds := by
    cases cs with
    | nil => cases hc
    | cons d ds => exact ⟨ds, by rw [Option.some.inj hc]⟩
  have hlt : c.toNat < 65 := by
    rcases hhead with hdigit | rfl
    · have hle : c.toNat ≤ '9'.toNat := of_decide_eq_true (Bool.and_eq_true_iff.1 hdigit).2
      exact Nat.lt_of_le_of_lt hle (by decide)
    · decide
  have hne {d : Char} (hd : 65 ≤ d.toNat) : c ≠ d := by
    rintro rfl
    omega
  simp [IsWord, lowerWord, toLower_of_lt hlt, hne]

theorem readUnsignedText?_figures (h : Figures cs) :
    readUnsignedText? negative cs = readNumeral? negative cs := by
  have hword := h.not_isWord
  simp only [IsWord, List.mem_cons, List.not_mem_nil, or_false, not_or] at hword
  unfold readUnsignedText?
  simp only [Bool.or_eq_true, decide_eq_true_eq]
  rw [if_neg (not_or.2 ⟨hword.1, hword.2.1⟩), if_neg hword.2.2]

theorem ofText?_figures (h : Figures cs) (negative : Bool) :
    ofText? (String.ofList (if negative then '-' :: cs else cs)) = readNumeral? negative cs := by
  unfold ofText?
  rw [String.toList_ofList]
  cases negative with
  | false =>
    have hnot {c : Char} (hc : c = '+' ∨ c = '-') (ds : List Char) : cs ≠ c :: ds := by
      rintro rfl
      exact not_sign hc (.inr h)
    simp only [Bool.false_eq_true, if_false]
    split
    next => exact absurd rfl (hnot (.inl rfl) _)
    next => exact absurd rfl (hnot (.inr rfl) _)
    next => exact readUnsignedText?_figures h
  | true => exact readUnsignedText?_figures h

/-- **A double is read back** from its own text. -/
theorem Genuine.ofText?_text (h : x.Genuine) : ofText? x.text = some x := by
  cases x with
  | nan => decide +kernel
  | infinity negative => cases negative <;> decide +kernel
  | finite negative u =>
    have hread (negative : Bool) : readNumeral? negative (unitsText u) = some (finite negative u) :=
      readNumeral?_unitsText h.1 h.2
    have hfigures := (isSome_readNumeral?_iff _).1 (Option.isSome_of_eq_some (hread negative))
    rw [text, ofText?_figures hfigures, hread]

end Double

end Parley
