import Parley.Proofs.Double.Text
import Parley.Proofs.Settings.Precedence

/-!
# Text from an environment

The value of a variable is taken for a truth value, a whole number or a number if it looks like one,
and a setting that is a text then gets the text of that value.  It is the text of the variable, word
for word, unless what looks like such a value is not written as the value itself would be.

* `LooksTyped` : the texts that look like a truth value or a number.
* `Canonical` : the texts that truth values and numbers are written as.
* `exists_text?_value` : what is left of the value of a variable as a text.
* `verbatim_iff` : which texts settings get from an environment.
-/

namespace Parley

namespace Text

variable {i : ℤ} {cs : List Char} {c : Char}

/-! ### Lower case -/

theorem lowerForm_digitChar : ∀ d < 10, lowerForm (Char.ofNat (48 + d)) = [Char.ofNat (48 + d)] := by
  decide +kernel

theorem lowercase_cons (hc : isDigit c = true ∨ c = '-') (cs : List Char) :
    lowercase (c :: cs) = c :: lowercase cs := by
  have hform : lowerForm c = [c] := by
    rcases hc with hdigit | rfl
    · obtain ⟨hlow, hhigh⟩ := Bool.and_eq_true_iff.1 hdigit
      have hlow : '0'.toNat ≤ c.toNat := of_decide_eq_true hlow
      have hhigh : c.toNat ≤ '9'.toNat := of_decide_eq_true hhigh
      simp only [Char.reduceToNat] at hlow hhigh
      have hform := lowerForm_digitChar (c.toNat - 48) (by omega)
      rwa [Nat.add_sub_cancel' hlow, Char.ofNat_toNat] at hform
    · decide +kernel
  show lowerForm c ++ lowercase cs = _
  rw [hform, List.singleton_append]

end Text

namespace Settings

open Text
open Settings.Tree (wholeText)

variable {i : ℤ} {v : String} {x : Double} {lead : String} {env : Environment}

theorem readInt?_wholeText (i : ℤ) : readInt? (wholeText i).toList = some i := by
  cases i with
  | ofNat n =>
    rw [wholeText, natText, String.toList_ofList]
    exact readInt?_decimal n
  | negSucc n =>
    have hneg : Int.negSucc n = -((n + 1 : ℕ) : ℤ) := rfl
    rw [wholeText, natText, String.toList_append, hneg]
    simpa using readInt?_minus_decimal (n + 1)

theorem wholeText_neg {n : ℕ} (h : n ≠ 0) :
    wholeText (-n) = String.ofList ('-' :: decimal n) := by
  obtain ⟨m, rfl⟩ := Nat.exists_eq_succ_of_ne_zero h
  rw [show (-(m.succ : ℕ) : ℤ) = Int.negSucc m from rfl, wholeText, natText, ← String.toList_inj]
  simp

/-! ### What values are written as -/

/-- The word for a truth value. -/
def word (b : Bool) : String := if b then "true" else "false"

/-- The text looks like a truth value or a number. -/
def LooksTyped (v : String) : Prop := (∃ b, lowercaseText v = word b) ∨ Double.Numeral v.toList

/-- The texts that truth values, whole numbers of 64 bits and doubles are written as. A zero below
zero is none of them: its text is taken for the whole number. -/
inductive Canonical : String → Prop
  | flag (b : Bool) : Canonical (word b)
  | whole (i : Int64) : Canonical (wholeText i.toInt)
  | real (x : Double) (h : x.Genuine) (hzero : x ≠ .finite true 0) : Canonical x.text

theorem readSigned?_wholeText (i : Int64) : readSigned? (wholeText i.toInt).toList = some i.toInt :=
  readSigned?_eq_some_iff.2 ⟨readInt?_wholeText _, fitsSigned_iff.2 ⟨i.le_toInt, i.toInt_lt⟩⟩

theorem canonical_wholeText (h : fitsSigned i = true) : Canonical (wholeText i) := by
  obtain ⟨hlow, hhigh⟩ := fitsSigned_iff.1 h
  rw [← Int64.toInt_ofInt_of_le hlow hhigh]
  exact .whole _

/-- A double that is written as a whole number is written as this number is, but for zero below
zero. -/
theorem wholeText_of_readSigned?_text (h : x.Genuine) (hzero : x ≠ .finite true 0)
    (hread : readSigned? x.text.toList = some i) : wholeText i = x.text := by
  obtain ⟨hint, -⟩ := readSigned?_eq_some_iff.1 hread
  have hinfinity (negative : Bool) : readInt? (Double.infinity negative).text.toList = none := by
    cases negative <;> decide +kernel
  cases x with
  | nan => exact absurd hint (by decide +kernel +revert)
  | infinity negative => simp [hinfinity] at hint
  | finite negative u =>
    rw [Double.text, String.toList_ofList] at hint
    rcases Double.unitsText_cases h.1 with ⟨n, heq, hn⟩ | hpoint
    · rw [Double.text]
      cases negative with
      | false =>
        simp only [Bool.false_eq_true, if_false, heq, readInt?_decimal, Option.some.injEq] at hint ⊢
        rw [← hint]
        rfl
      | true =>
        simp only [if_true, heq, readInt?_minus_decimal, Option.some.injEq] at hint ⊢
        have hne : n ≠ 0 := fun hnil => hzero (by rw [hn hnil])
        rw [← hint, wholeText_neg hne]
    · refine absurd ?_ (not_mem_of_readInt? hint (c := '.') (by decide) (by decide) (by decide))
      split
      · exact List.mem_cons_of_mem _ hpoint
      · exact hpoint

theorem lowercaseText_word (b : Bool) : lowercaseText (word b) = word b := by
  cases b <;> decide +kernel

theorem lowercaseText_ne_word {c : Char} {cs : List Char} (hv : v.toList = c :: cs)
    (hc : isDigit c = true ∨ c = '-') (b : Bool) : lowercaseText v ≠ word b := by
  intro h
  have hlist : lowercase v.toList = (word b).toList := by
    rw [← h, lowercaseText, String.toList_ofList]
  rw [hv, lowercase_cons hc] at hlist
  cases b <;> obtain ⟨rfl, -⟩ := List.cons.inj hlist <;> revert hc <;> decide

theorem wholeText_head (i : ℤ) :
    ∃ c cs, (wholeText i).toList = c :: cs ∧ (isDigit c = true ∨ c = '-') := by
  cases i with
  | ofNat n =>
    obtain ⟨d, ds, heq, hd, -⟩ := decimal_eq_cons n
    exact ⟨d, ds, by rw [wholeText, natText, String.toList_ofList]; exact heq, .inl hd⟩
  | negSucc n => exact ⟨'-', decimal (n + 1), by simp [wholeText, natText], .inr rfl⟩

/-- What truth values are written as is in lower case, and nothing else comes to the same. -/
theorem Canonical.eq_word (h : Canonical v) {b : Bool} (hword : lowercaseText v = word b) :
    v = word b := by
  cases h with
  | flag a => rwa [← lowercaseText_word a]
  | whole i =>
    obtain ⟨c, cs, heq, hc⟩ := wholeText_head i.toInt
    exact absurd hword (lowercaseText_ne_word heq hc b)
  | real x hx hzero =>
    cases x with
    | nan => cases b <;> exact absurd hword (by decide +kernel)
    | infinity negative => cases b <;> cases negative <;> exact absurd hword (by decide +kernel)
    | finite negative u =>
      obtain ⟨d, ds, heq, hd⟩ := Double.unitsText_head u
      have htext : (Double.finite negative u).text.toList =
          if negative then '-' :: Double.unitsText u else Double.unitsText u := String.toList_ofList
      cases negative with
      | false => exact absurd hword (lowercaseText_ne_word (htext.trans heq) (.inl hd) b)
      | true => exact absurd hword (lowercaseText_ne_word htext (.inr rfl) b)

/-! ### What is left of a value -/

/-- The value of a variable is the first that its text can stand for: a truth value, a whole number,
a number, the text. -/
theorem value_cases (v : String) :
    (∃ b, lowercaseText v = word b ∧ Environment.value v = .flag b) ∨
    (∀ b, lowercaseText v ≠ word b) ∧
      ((∃ i, readSigned? v.toList = some i ∧ Environment.value v = .whole i) ∨
      readSigned? v.toList = none ∧
        ((∃ x, Double.ofText? v = some x ∧ Environment.value v = .real x) ∨
        Double.ofText? v = none ∧ Environment.value v = .text v)) := by
  unfold Environment.value
  dsimp only
  split_ifs with htrue hfalse
  · exact .inl ⟨true, htrue, rfl⟩
  · exact .inl ⟨false, hfalse, rfl⟩
  · refine .inr ⟨fun b => ?_, ?_⟩
    · cases b <;> assumption
    split
    next i hi => exact .inl ⟨i, hi, rfl⟩
    next hnone =>
      refine .inr ⟨hnone, ?_⟩
      split
      next x hx => exact .inl ⟨x, hx, rfl⟩
      next hnone => exact .inr ⟨hnone, rfl⟩

theorem looksTyped_of_readSigned? (h : readSigned? v.toList = some i) : LooksTyped v := by
  obtain ⟨hint, -⟩ := readSigned?_eq_some_iff.1 h
  have hsigned := isSome_readInt?_iff.1 (Option.isSome_of_eq_some hint)
  exact .inr (Double.numeral_of_signed_digits hsigned)

/-- A whole number is the one that its text stands for, and a double's text may stand for one. -/
theorem Canonical.eq_wholeText (h : Canonical v) (hread : readSigned? v.toList = some i) :
    v = wholeText i := by
  cases h with
  | flag b =>
    have hnone : readSigned? (word b).toList = none := by cases b <;> decide +kernel
    simp [hnone] at hread
  | whole j =>
    rw [readSigned?_wholeText] at hread
    rw [Option.some.inj hread]
  | real x hx hzero => exact (wholeText_of_readSigned?_text hx hzero hread).symm

theorem Canonical.eq_text (h : Canonical v) (hflag : ∀ b, lowercaseText v ≠ word b)
    (hwhole : readSigned? v.toList = none) (hread : Double.ofText? v = some x) : v = x.text := by
  cases h with
  | flag b => exact absurd (lowercaseText_word b) (hflag b)
  | whole j => simp [readSigned?_wholeText] at hwhole
  | real y hy _ =>
    rw [hy.ofText?_text] at hread
    rw [Option.some.inj hread]

/-- **What is left of the value of a variable** as a text: the text of the variable itself, unless it
looks like a truth value or a number and is not what such a value is written as. -/
theorem exists_text?_value (v : String) : ∃ u, (Environment.value v).text? = some u ∧
    (u = v ↔ (LooksTyped v → Canonical v)) := by
  rcases value_cases v with ⟨b, hb, hvalue⟩ | ⟨hflag, ⟨i, hi, hvalue⟩ | ⟨hwhole, ⟨x, hx, hvalue⟩ |
    ⟨hnone, hvalue⟩⟩⟩
  · refine ⟨word b, by rw [hvalue]; rfl, fun h _ => h ▸ .flag b, fun h => ?_⟩
    exact ((h (.inl ⟨b, hb⟩)).eq_word hb).symm
  · refine ⟨wholeText i, by rw [hvalue]; rfl, fun h _ => h ▸ ?_, fun h => ?_⟩
    · exact canonical_wholeText (readSigned?_eq_some_iff.1 hi).2
    · exact ((h (looksTyped_of_readSigned? hi)).eq_wholeText hi).symm
  · refine ⟨x.text, by rw [hvalue]; rfl, fun h _ => h ▸ ?_, fun h => ?_⟩
    · refine .real x (.of_ofText? hx) ?_
      rintro rfl
      rw [← h] at hwhole
      exact absurd hwhole (by decide +kernel)
    · have htyped := Double.isSome_ofText?_iff.1 (Option.isSome_of_eq_some hx)
      exact ((h (.inr htyped)).eq_text hflag hwhole hx).symm
  · refine ⟨v, by rw [hvalue]; rfl, fun _ htyped => ?_, fun _ => rfl⟩
    rcases htyped with ⟨b, hb⟩ | hnumeral
    · exact absurd hb (hflag b)
    · have hsome := Double.isSome_ofText?_iff.2 hnumeral
      rw [hnone] at hsome
      cases hsome

/-! ### One variable -/

theorem isPrefixOf_append (xs ys : List Char) : xs.isPrefixOf (xs ++ ys) = true := by
  rw [List.isPrefixOf_iff_prefix]
  exact List.prefix_append xs ys

theorem key?_append (lead rest : String) : Environment.key? lead (lead ++ "_" ++ rest) =
    some (String.ofList (replace ['_', '_'] ['.'] (lowercase rest.toList))) := by
  have hname : lowercase (lead ++ "_" ++ rest).toList =
      lowercase (lead.toList ++ ['_']) ++ lowercase rest.toList := by
    rw [String.toList_append, String.toList_append, lowercase_append]
    rfl
  unfold Environment.key?
  rw [hname]
  simp only [isPrefixOf_append, if_true, List.drop_left]

theorem isTable_value (v : String) : (Environment.value v).isTable = false := by
  rcases value_cases v with ⟨_, _, h⟩ | ⟨_, ⟨_, _, h⟩ | ⟨_, ⟨_, _, h⟩ | ⟨_, h⟩⟩⟩ <;> rw [h] <;> rfl

theorem ofEnvironment_single {key : String} {f : Field} (hpath : Tree.keyPath key = f.path)
    (hentries : env.entries lead = [(key, Environment.value v)]) {s : Settings} :
    ofEnvironment lead env = .ok s ↔ ∀ g : Field,
      g.reading? (if f.path = g.path then some (Environment.value v) else none) = some (g.get s) := by
  have hleaves : (Layer.environment lead).leaves? env = some [(f.path, Environment.value v)] := by
    have hleaf : (Environment.value v).leaves = [([], Environment.value v)] := by
      have hv := isTable_value v
      cases hvalue : Environment.value v <;> simp_all [Tree.leaves, Tree.isTable]
    rw [Layer.leaves?, Layer.entries?, hentries]
    simp [Tree.leavesAt, Tree.under, hleaf, hpath]
  have hplain : ∀ l ∈ [Layer.environment lead], l.Plain env := by
    intro l hl leaves hmem leaf hleaf
    obtain rfl := List.mem_singleton.1 hl
    rw [hleaves] at hmem
    obtain rfl := Option.some.inj hmem
    obtain rfl := List.mem_singleton.1 hleaf
    exact .inl ⟨isTable_value v, f, rfl⟩
  have hcounting (g : Field) : counting? env [.environment lead] g =
      if f.path = g.path then some (Environment.value v) else none := by
    show Option.or none ((lastValue? env g [.environment lead]).or none) = _
    rw [Option.none_or, Option.or_none, lastValue?_cons, Layer.value?, hleaves]
    show (lastAt? g.path [_]) = _
    rw [lastAt?_cons]
    rfl
  rw [ofEnvironment, ofLayers_eq_ok_iff hplain]
  simp [hcounting, hleaves]

theorem entries_of_carrying (rest key : String)
    (hname : env.carrying lead = [(lead ++ "_" ++ rest, v)])
    (hkey : String.ofList (replace ['_', '_'] ['.'] (lowercase rest.toList)) = key) :
    env.entries lead = [(key, Environment.value v)] := by
  rw [← Environment.entries_carrying, hname, ← hkey]
  simp only [Environment.entries, List.filterMap_cons, key?_append, Option.map_some,
    List.filterMap_nil]

/-- **Text from an environment** is kept word for word unless it looks like a truth value or a number
and is not what such a value is written as.  Settings are there in any case, with one variable for the
participant or for the level of the log. -/
theorem verbatim_iff (lead v : String) (env : Environment) :
    (env.carrying lead = [(lead ++ "_PARTICIPANT_ID", v)] → ∃ u,
      ofEnvironment lead env = .ok { participantId := u } ∧
        (u = v ↔ (LooksTyped v → Canonical v))) ∧
    (env.carrying lead = [(lead ++ "_LOGGING__LEVEL", v)] → ∃ u,
      ofEnvironment lead env = .ok { logging := { level := u } } ∧
        (u = v ↔ (LooksTyped v → Canonical v))) := by
  obtain ⟨u, htext, hkept⟩ := exists_text?_value v
  constructor
  · intro h
    have hentries := entries_of_carrying "PARTICIPANT_ID" "participant_id"
      (by rw [h, String.append_assoc]; rfl) (by decide +kernel)
    refine ⟨u, (ofEnvironment_single (f := .participantId) (by decide +kernel) hentries).2 ?_, hkept⟩
    intro g
    cases g with
    | participantId => exact htext
    | _ => rfl
  · intro h
    have hentries := entries_of_carrying "LOGGING__LEVEL" "logging.level"
      (by rw [h, String.append_assoc]; rfl) (by decide +kernel)
    refine ⟨u, (ofEnvironment_single (f := .level) (by decide +kernel) hentries).2 ?_, hkept⟩
    intro g
    cases g with
    | level => exact htext
    | _ => rfl

/-- A plain word is kept, with another variable beside it, and a number with zeros in front is not. -/
theorem verbatim_iff_words :
    Environment.carrying "W" [("HOME", "/"), ("W_PARTICIPANT_ID", "acme")] =
      [("W" ++ "_PARTICIPANT_ID", "acme")] ∧
    ofEnvironment "W" [("HOME", "/"), ("W_PARTICIPANT_ID", "acme")] =
      .ok { participantId := "acme" } ∧
    (LooksTyped "acme" → Canonical "acme") ∧
    ofEnvironment "W" [("W_LOGGING__LEVEL", "007")] = .ok { logging := { level := "7" } } ∧
    ¬(LooksTyped "007" → Canonical "007") := by
  have hone : Environment.carrying "W" [("HOME", "/"), ("W_PARTICIPANT_ID", "acme")] =
      [("W" ++ "_PARTICIPANT_ID", "acme")] := by decide +kernel
  have hword : ofEnvironment "W" [("HOME", "/"), ("W_PARTICIPANT_ID", "acme")] =
      .ok { participantId := "acme" } := by decide +kernel
  have hzeros : ofEnvironment "W" [("W_LOGGING__LEVEL", "007")] =
      .ok { logging := { level := "7" } } := by decide +kernel
  obtain ⟨u, hu, hkept⟩ := (verbatim_iff "W" "acme" _).1 hone
  obtain ⟨u', hu', hkept'⟩ := (verbatim_iff "W" "007" [("W_LOGGING__LEVEL", "007")]).2
    (by decide +kernel)
  rw [hword] at hu
  rw [hzeros] at hu'
  cases hu
  cases hu'
  exact ⟨hone, hword, hkept.1 rfl, hzeros, mt hkept'.2 (by decide)⟩

/-- **Not all texts are kept**: the zeros in front of a number get lost. -/
theorem not_verbatim_zeros : ¬∀ lead v : String,
    (∃ s, ofEnvironment lead [(lead ++ "_PARTICIPANT_ID", v)] = .ok s ∧ s.participantId = v) ∧
    ∃ s, ofEnvironment lead [(lead ++ "_LOGGING__LEVEL", v)] = .ok s ∧ s.logging.level = v := by
  intro h
  obtain ⟨⟨s, hs, hid⟩, -⟩ := h "NEGOTIATION" "007"
  have hloaded : ofEnvironment "NEGOTIATION" [("NEGOTIATION" ++ "_PARTICIPANT_ID", "007")] =
      .ok { participantId := "7" } := by decide +kernel
  rw [hloaded] at hs
  obtain rfl := Except.ok.inj hs
  exact absurd hid (by decide)

end Settings

end Parley
