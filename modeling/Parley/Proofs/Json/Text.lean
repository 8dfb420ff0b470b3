import Mathlib.Data.List.TakeDrop
import Parley.Json.Printer
import Parley.Json.Reader

/-!
# Reading what was written

The text of a value can be read again, and it stands for that value alone.

* `Plain` : the values that records are written as: no doubles, no numbers below zero, and all
  others fit 64 bits; the number says how deeply they are nested at most.
* `readChars?_quote` : a string with any characters in it is read as it was written.
* `readNumber?_decimal` : so is a whole number.
* `Plain.read?_text` : so is a plain value.
-/

namespace Parley

namespace Text

/-! ### Digits -/

theorem digitValue?_digitChar : ∀ d < 16, digitValue? (digitChar d) = some d := by decide

theorem isDigit_digitChar : ∀ d < 10, isDigit (digitChar d) = true := by decide

theorem ofDigitsFrom_append (base acc : ℕ) (cs ds : List Char) :
    ofDigitsFrom base acc (cs ++ ds) = ofDigitsFrom base (ofDigitsFrom base acc cs) ds := by
  induction cs generalizing acc with
  | nil => rfl
  | cons c cs ih => exact ih _

theorem ofDigitsFrom_decimal (n : ℕ) : ofDigitsFrom 10 0 (decimal n) = n := by
  fun_induction decimal n with
  | case1 n h =>
    rw [ofDigitsFrom, ofDigitsFrom, digitValue?_digitChar n (by omega), Option.getD_some]
    omega
  | case2 n h ih =>
    rw [ofDigitsFrom_append, ih, ofDigitsFrom, ofDigitsFrom, digitValue?_digitChar _ (by omega),
      Option.getD_some]
    omega

theorem isDigit_of_mem_decimal {n : ℕ} {c : Char} (h : c ∈ decimal n) : isDigit c = true := by
  fun_induction decimal n with
  | case1 n hn =>
    rw [List.mem_singleton.1 h]
    exact isDigit_digitChar n hn
  | case2 n hn ih =>
    rcases List.mem_append.1 h with h | h
    · exact ih h
    · rw [List.mem_singleton.1 h]
      exact isDigit_digitChar _ (by omega)

/-- A natural has a digit, and its first one is zero only if it is the only one. -/
theorem decimal_eq_cons (n : ℕ) :
    ∃ d ds, decimal n = d :: ds ∧ isDigit d = true ∧ (d = '0' → n = 0 ∧ ds = []) := by
  fun_induction decimal n with
  | case1 n h =>
    refine ⟨digitChar n, [], rfl, isDigit_digitChar n h, fun h0 => ⟨?_, rfl⟩⟩
    have hvalue := digitValue?_digitChar n (by omega)
    rw [h0] at hvalue
    exact (Option.some.inj hvalue).symm
  | case2 n h ih =>
    obtain ⟨d, ds, heq, hd, hzero⟩ := ih
    refine ⟨d, ds ++ [digitChar (n % 10)], by rw [heq]; rfl, hd, fun h0 => ?_⟩
    have := (hzero h0).1
    omega

theorem hex_four (n : ℕ) : hex 4 n =
    [digitChar (n / 16 / 16 / 16 % 16), digitChar (n / 16 / 16 % 16), digitChar (n / 16 % 16),
      digitChar (n % 16)] := rfl

end Text

namespace Json

open Text

/-! ### Numbers -/

/-- A text does not go on with a number. -/
def EndsNumber (rest : List Char) : Prop :=
  ∀ c ∈ rest.head?, isDigit c = false ∧ c ≠ '.' ∧ c ≠ 'e' ∧ c ≠ 'E'

theorem endsNumber_nil : EndsNumber [] := nofun

theorem endsNumber_cons {c : Char} {rest : List Char}
    (h : isDigit c = false ∧ c ≠ '.' ∧ c ≠ 'e' ∧ c ≠ 'E') : EndsNumber (c :: rest) := by
  intro d hd
  obtain rfl : c = d := Option.some.inj hd
  exact h

theorem readFraction?_of_endsNumber {rest : List Char} (h : EndsNumber rest) :
    readFraction? rest = some ([], rest) := by
  unfold readFraction?
  split
  · next more => exact absurd rfl (h '.' rfl).2.1
  · rfl

theorem readPower?_of_endsNumber {rest : List Char} (h : EndsNumber rest) :
    readPower? rest = some (none, rest) := by
  cases rest with
  | nil => rfl
  | cons c rest =>
    obtain ⟨-, -, he, hE⟩ := h c rfl
    simp [readPower?, he, hE]

theorem takeWhile_isDigit {ds rest : List Char} (hds : ∀ d ∈ ds, isDigit d = true)
    (h : EndsNumber rest) :
    (ds ++ rest).takeWhile isDigit = ds ∧ (ds ++ rest).dropWhile isDigit = rest := by
  have hstop : rest.takeWhile isDigit = [] ∧ rest.dropWhile isDigit = rest := by
    cases rest with
    | nil => exact ⟨rfl, rfl⟩
    | cons c rest =>
      have hc := (h c rfl).1
      exact ⟨by simp [hc], by simp [hc]⟩
  rw [List.takeWhile_append_of_pos hds, List.dropWhile_append_of_pos hds, hstop.1, hstop.2,
    List.append_nil]
  exact ⟨rfl, rfl⟩

theorem readNumber?_decimal {n : ℕ} (hn : n < UInt64.size) {rest : List Char}
    (h : EndsNumber rest) : readNumber? false (decimal n ++ rest) = some (.natural n, rest) := by
  have hdigits : ∀ d ∈ decimal n, isDigit d = true := fun d hd => isDigit_of_mem_decimal hd
  obtain ⟨htake, hdrop⟩ := takeWhile_isDigit hdigits h
  have hwell : ((decimal n).isEmpty ||
      ((decimal n).head? = some '0' && (decimal n).length != 1)) = false := by
    obtain ⟨d, ds, heq, -, hzero⟩ := decimal_eq_cons n
    rw [heq]
    by_cases hd : d = '0'
    · obtain ⟨-, rfl⟩ := hzero hd
      simp
    · simp [hd]
  have hwhole : wholeNumber false (decimal n) = .natural n := by
    simp [wholeNumber, ofDigitsFrom_decimal, hn]
  simp [readNumber?, htake, hdrop, hwell, readFraction?_of_endsNumber h,
    readPower?_of_endsNumber h, hwhole]

/-! ### Strings -/

theorem readUnit?_hex {n : ℕ} (hn : n < 0x10000) :
    readUnit? (digitChar (n / 16 / 16 / 16 % 16)) (digitChar (n / 16 / 16 % 16))
      (digitChar (n / 16 % 16)) (digitChar (n % 16)) = some n := by
  have hdigit (k : ℕ) : digitValue? (digitChar (k % 16)) = some (k % 16) :=
    digitValue?_digitChar _ (Nat.mod_lt k (by omega))
  have hdigits (k : ℕ) : isDigitOf 16 (digitChar (k % 16)) = true := by
    rw [isDigitOf, hdigit]
    exact decide_eq_true (Nat.mod_lt k (by omega))
  simp only [readUnit?, ofDigits?, List.all_cons, List.all_nil, hdigits, ofDigitsFrom, hdigit]
  simp
  omega

/-- A character stands after a backslash as a letter or as a number, or it stands for itself. -/
theorem escape_cases (c : Char) :
    (∃ d, escape c = ['\\', d] ∧ escaped? d = some c ∧ d ≠ 'u') ∨
    (escape c = '\\' :: 'u' :: hex 4 c.toNat ∧ c.toNat < 0x20) ∨
    escape c = [c] ∧ c ≠ '"' ∧ c ≠ '\\' ∧ ¬c.toNat < 0x20 := by
  unfold escape
  split_ifs with hquote hslash hb hf hn hr ht hcontrol
  · subst hquote; exact .inl ⟨'"', rfl, rfl, by decide⟩
  · subst hslash; exact .inl ⟨'\\', rfl, rfl, by decide⟩
  · subst hb; exact .inl ⟨'b', rfl, rfl, by decide⟩
  · subst hf; exact .inl ⟨'f', rfl, rfl, by decide⟩
  · subst hn; exact .inl ⟨'n', rfl, rfl, by decide⟩
  · subst hr; exact .inl ⟨'r', rfl, rfl, by decide⟩
  · subst ht; exact .inl ⟨'t', rfl, rfl, by decide⟩
  · exact .inr (.inl ⟨rfl, hcontrol⟩)
  · exact .inr (.inr ⟨rfl, hquote, hslash, hcontrol⟩)

theorem readChars?_escape (c : Char) (rest : List Char) :
    readChars? (escape c ++ rest) =
      (readChars? rest).map fun (chars, rest) => (c :: chars, rest) := by
  rcases escape_cases c with ⟨d, h, hd, hu⟩ | ⟨h, hc⟩ | ⟨h, hquote, hslash, hc⟩
  · rw [h, List.cons_append, List.singleton_append, readChars?]
    · rw [hd, Option.map_eq_bind]
      rfl
    · exact fun _ _ _ _ _ heq => absurd heq hu
  · rw [h, hex_four]
    simp only [List.cons_append, List.nil_append]
    rw [readChars?, readUnit?_hex (by omega), Option.map_eq_bind]
    have hlow : (0xDC00 ≤ c.toNat && c.toNat ≤ 0xDFFF) = false := by simp; omega
    have hhigh : (0xD800 ≤ c.toNat && c.toNat ≤ 0xDBFF) = false := by simp; omega
    simp only [Option.bind_eq_bind, Option.bind_some, hlow, hhigh, Bool.false_eq_true, if_false,
      Char.ofNat_toNat]
    rfl
  · rw [h, List.singleton_append, readChars?]
    · rw [if_neg hc, Option.map_eq_bind]
      rfl
    · exact hquote
    · exact fun _ _ _ _ _ heq _ => hslash heq
    · exact fun _ _ heq _ => hslash heq

theorem readChars?_flatMap_escape (cs rest : List Char) :
    readChars? (cs.flatMap escape ++ '"' :: rest) = some (cs, rest) := by
  induction cs with
  | nil => rw [List.flatMap_nil, List.nil_append, readChars?]
  | cons c cs ih =>
    rw [List.flatMap_cons, List.append_assoc, readChars?_escape, ih]
    rfl

/-! ### Values -/

/-- A value that is written without doubles and without numbers below zero, whose numbers fit 64
bits, and that is nested no more deeply than this. -/
inductive Plain : ℕ → Json → Prop where
  /-- The value `null`. -/
  | null {n : ℕ} : Plain n .null
  /-- A truth value. -/
  | bool {n : ℕ} (b : Bool) : Plain n (.bool b)
  /-- A whole number that fits 64 bits. -/
  | natural {n m : ℕ} (h : m < UInt64.size) : Plain n (.natural m)
  /-- A text. -/
  | string {n : ℕ} (s : String) : Plain n (.string s)
  /-- A list of plain values. -/
  | array {n : ℕ} {items : List Json} (h : ∀ j ∈ items, Plain n j) : Plain (n + 1) (.array items)
  /-- Named plain values. -/
  | object {n : ℕ} {members : List (String × Json)} (h : ∀ m ∈ members, Plain n m.2) :
    Plain (n + 1) (.object members)

/-- A character that is not passed over between values. -/
def Counts (c : Char) : Prop := (c = ' ' || c = '\t' || c = '\n' || c = '\r') = false

instance (c : Char) : Decidable (Counts c) := inferInstanceAs (Decidable (_ = false))

theorem skipBlanks_cons {c : Char} (h : Counts c) (cs : List Char) :
    skipBlanks (c :: cs) = c :: cs := by
  rw [skipBlanks, List.dropWhile_cons, h]
  rfl

theorem ne_of_isDigit {c d : Char} (hc : isDigit c = true) (hd : isDigit d = false) : c ≠ d := by
  rintro rfl
  rw [hc] at hd
  cases hd

theorem counts_of_isDigit {c : Char} (h : isDigit c = true) : Counts c := by
  have hblank (d : Char) (hd : isDigit d = false) : decide (c = d) = false :=
    decide_eq_false (ne_of_isDigit h hd)
  rw [Counts, hblank ' ' (by decide), hblank '\t' (by decide), hblank '\n' (by decide),
    hblank '\r' (by decide)]
  rfl

theorem Plain.render_eq_cons {n : ℕ} {j : Json} (h : Plain n j) :
    ∃ c cs, j.render = c :: cs ∧ Counts c ∧ c ≠ ']' := by
  cases h with
  | null | string | array | object => exact ⟨_, _, rfl, by decide, by decide⟩
  | bool b => cases b <;> exact ⟨_, _, rfl, by decide, by decide⟩
  | @natural _ m h =>
    obtain ⟨d, ds, heq, hd, -⟩ := decimal_eq_cons m
    exact ⟨d, ds, heq, counts_of_isDigit hd, ne_of_isDigit hd (by decide)⟩

theorem Plain.render_ne_nil {n : ℕ} {j : Json} (h : Plain n j) : j.render ≠ [] := by
  obtain ⟨c, cs, heq, -⟩ := h.render_eq_cons
  rw [heq]
  exact List.cons_ne_nil c cs

theorem readValue?_digit {c : Char} (h : isDigit c = true) (fuel : ℕ) (cs : List Char) :
    readValue? (fuel + 1) (c :: cs) = readNumber? false (c :: cs) := by
  rw [readValue?, skipBlanks_cons (counts_of_isDigit h)]
  split
  all_goals first
    | rfl
    | next heq =>
      obtain ⟨rfl, -⟩ := List.cons.inj heq
      exact absurd h (by decide)

/-- Wherever a value is written, and a number does not go on after it, it is read from there. -/
def ReadsBack (j : Json) : Prop :=
  ∀ fuel rest, j.render.length ≤ fuel → EndsNumber rest →
    readValue? fuel (j.render ++ rest) = some (j, rest)

theorem readItems?_renderItems {items : List Json} (hitems : ∀ j ∈ items, ReadsBack j)
    (hne : items ≠ []) {fuel : ℕ} (hfuel : (renderItems items).length < fuel) (rest : List Char) :
    readItems? fuel (renderItems items ++ ']' :: rest) = some (items, rest) := by
  induction items generalizing fuel with
  | nil => exact absurd rfl hne
  | cons j js ih =>
    obtain ⟨fuel, rfl⟩ : ∃ n, fuel = n + 1 := ⟨fuel - 1, by omega⟩
    obtain ⟨hj, hjs⟩ := List.forall_mem_cons.1 hitems
    cases js with
    | nil =>
      rw [renderItems] at hfuel ⊢
      rw [readItems?, hj _ _ (by omega) (endsNumber_cons (by decide))]
      simp only [Option.bind_eq_bind, Option.bind_some, skipBlanks_cons (c := ']') (by decide)]
    | cons k ks =>
      rw [renderItems, List.length_append, List.length_cons] at hfuel
      have hrest := ih hjs (List.cons_ne_nil k ks) (show _ < fuel by omega)
      rw [renderItems, List.append_assoc, List.cons_append, readItems?,
        hj _ _ (by omega) (endsNumber_cons (by decide))]
      simp only [Option.bind_eq_bind, Option.bind_some, skipBlanks_cons (c := ',') (by decide),
        hrest]

theorem readMembers?_quote (name : String) (fuel : ℕ) (cs : List Char) :
    readMembers? (fuel + 1) (quote name ++ ':' :: cs) = (readValue? fuel cs).bind fun (j, rest) =>
      match skipBlanks rest with
      | '\x7d' :: rest => some ([(name, j)], rest)
      | ',' :: rest => (readMembers? fuel rest).map fun (ms, rest) => ((name, j) :: ms, rest)
      | _ => none := by
  have hname := readChars?_flatMap_escape name.toList (':' :: cs)
  have hquote : quote name ++ ':' :: cs =
      '"' :: (name.toList.flatMap escape ++ '"' :: ':' :: cs) := by
    simp [quote]
  rw [hquote, readMembers?, skipBlanks_cons (by decide)]
  simp only [hname, Option.bind_eq_bind, Option.bind_some, skipBlanks_cons (c := ':') (by decide),
    String.ofList_toList, Option.map_eq_bind]
  rfl

theorem readMembers?_renderMembers {members : List (String × Json)}
    (hmembers : ∀ m ∈ members, ReadsBack m.2) (hne : members ≠ []) {fuel : ℕ}
    (hfuel : (renderMembers members).length < fuel) (rest : List Char) :
    readMembers? fuel (renderMembers members ++ '\x7d' :: rest) = some (members, rest) := by
  induction members generalizing fuel with
  | nil => exact absurd rfl hne
  | cons m ms ih =>
    obtain ⟨fuel, rfl⟩ : ∃ n, fuel = n + 1 := ⟨fuel - 1, by omega⟩
    obtain ⟨name, j⟩ := m
    obtain ⟨hj, hms⟩ := List.forall_mem_cons.1 hmembers
    cases ms with
    | nil =>
      rw [renderMembers, List.length_append, List.length_cons] at hfuel
      rw [renderMembers, List.append_assoc, List.cons_append, readMembers?_quote,
        hj _ _ (by dsimp only; omega) (endsNumber_cons (by decide)), Option.bind_some]
      simp only [skipBlanks_cons (c := '\x7d') (by decide)]
    | cons m ms =>
      rw [renderMembers, List.length_append, List.length_cons, List.length_append,
        List.length_cons] at hfuel
      have hrest := ih hms (List.cons_ne_nil m ms) (show _ < fuel by omega)
      rw [renderMembers, List.append_assoc, List.cons_append, List.append_assoc, List.cons_append,
        readMembers?_quote, hj _ _ (by dsimp only; omega) (endsNumber_cons (by decide)),
        Option.bind_some]
      simp only [skipBlanks_cons (c := ',') (by decide), hrest, Option.map_some]

theorem readValue?_array {c : Char} (hc : Counts c) (hne : c ≠ ']') (fuel : ℕ) (cs : List Char) :
    readValue? (fuel + 1) ('[' :: c :: cs) =
      (readItems? fuel (c :: cs)).map fun (items, rest) => (.array items, rest) := by
  rw [readValue?, skipBlanks_cons (by decide)]
  simp only [skipBlanks_cons hc]
  split
  · next heq => exact absurd (List.cons.inj heq).1 hne
  · rfl

theorem readValue?_object (fuel : ℕ) (cs : List Char) :
    readValue? (fuel + 1) ('\x7b' :: '"' :: cs) =
      (readMembers? fuel ('"' :: cs)).map fun (members, rest) => (.object members, rest) := by
  rw [readValue?, skipBlanks_cons (by decide)]
  simp only [skipBlanks_cons (c := '"') (by decide)]
  rfl

theorem renderItems_eq_cons {j : Json} {c : Char} {cs : List Char} (h : j.render = c :: cs)
    (js : List Json) : ∃ cs', renderItems (j :: js) = c :: cs' := by
  cases js with
  | nil => exact ⟨cs, by rw [renderItems, h]⟩
  | cons k ks =>
    exact ⟨cs ++ ',' :: renderItems (k :: ks), by rw [renderItems, h, List.cons_append]⟩

theorem renderMembers_eq_cons (m : String × Json) (ms : List (String × Json)) :
    ∃ cs, renderMembers (m :: ms) = '"' :: cs := by
  cases ms <;> exact ⟨_, rfl⟩

/-- There is a first call, since something is written. -/
theorem readsBack_of_succ {j : Json} (hne : j.render ≠ [])
    (h : ∀ fuel rest, j.render.length ≤ fuel + 1 → EndsNumber rest →
      readValue? (fuel + 1) (j.render ++ rest) = some (j, rest)) : ReadsBack j := by
  intro fuel rest hfuel hrest
  cases fuel with
  | zero => exact absurd (List.length_eq_zero_iff.1 (Nat.le_zero.1 hfuel)) hne
  | succ fuel => exact h fuel rest hfuel hrest

/-- A plain value is read from wherever it is written. -/
theorem Plain.readsBack {n : ℕ} {j : Json} (h : Plain n j) : ReadsBack j := by
  induction h with
  | null =>
    refine readsBack_of_succ (render_ne_nil (.null (n := 0))) fun fuel rest hfuel hrest => ?_
    simp [readValue?, render, skipBlanks_cons (c := 'n') (by decide)]
  | bool b =>
    refine readsBack_of_succ (render_ne_nil (.bool b (n := 0))) fun fuel rest hfuel hrest => ?_
    cases b
    · simp [readValue?, render, skipBlanks_cons (c := 'f') (by decide)]
    · simp [readValue?, render, skipBlanks_cons (c := 't') (by decide)]
  | natural h =>
    refine readsBack_of_succ (render_ne_nil (.natural h (n := 0))) fun fuel rest hfuel hrest => ?_
    obtain ⟨d, ds, heq, hd, -⟩ := decimal_eq_cons _
    have hnumber := readNumber?_decimal h hrest
    rw [render]
    rw [heq, List.cons_append] at hnumber ⊢
    rw [readValue?_digit hd, hnumber]
  | string s =>
    refine readsBack_of_succ (render_ne_nil (.string s (n := 0))) fun fuel rest hfuel hrest => ?_
    have hchars := readChars?_flatMap_escape s.toList rest
    simp [readValue?, render, quote, skipBlanks_cons (c := '"') (by decide), hchars]
  | @array n items h ih =>
    refine readsBack_of_succ (render_ne_nil (.array h)) fun fuel rest hfuel hrest => ?_
    cases items with
    | nil => simp [readValue?, render, renderItems, skipBlanks_cons (c := '[') (by decide),
        skipBlanks_cons (c := ']') (by decide)]
    | cons j js =>
      obtain ⟨c, cs, hj, hc, hend⟩ := (h j List.mem_cons_self).render_eq_cons
      obtain ⟨cs', heq⟩ := renderItems_eq_cons hj js
      rw [render, List.length_cons, List.length_append, List.length_singleton] at hfuel
      have hitems := readItems?_renderItems ih (List.cons_ne_nil j js) (show _ < fuel by omega) rest
      rw [render, List.cons_append, List.append_assoc, List.singleton_append]
      rw [heq, List.cons_append] at hitems ⊢
      rw [readValue?_array hc hend, hitems]
      rfl
  | @object n members h ih =>
    refine readsBack_of_succ (render_ne_nil (.object h)) fun fuel rest hfuel hrest => ?_
    cases members with
    | nil => simp [readValue?, render, renderMembers, skipBlanks_cons (c := '\x7b') (by decide),
        skipBlanks_cons (c := '\x7d') (by decide)]
    | cons m ms =>
      obtain ⟨cs, heq⟩ := renderMembers_eq_cons m ms
      rw [render, List.length_cons, List.length_append, List.length_singleton] at hfuel
      have hmembers := readMembers?_renderMembers ih (List.cons_ne_nil m ms)
        (show _ < fuel by omega) rest
      rw [render, List.cons_append, List.append_assoc, List.singleton_append]
      rw [heq, List.cons_append] at hmembers ⊢
      rw [readValue?_object, hmembers]
      rfl

/-- **A plain value is what its text stands for.** -/
theorem Plain.read?_text {n : ℕ} {j : Json} (h : Plain n j) : read? j.text = some j := by
  rw [read?, text, String.toList_ofList]
  have hread := h.readsBack _ _ (Nat.le_succ _) endsNumber_nil
  rw [List.append_nil] at hread
  rw [hread]
  rfl

end Json

end Parley
