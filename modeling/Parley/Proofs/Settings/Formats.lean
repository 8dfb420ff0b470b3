import Parley.Proofs.Settings.Forms
import Parley.Proofs.Text.Digits
import Parley.Settings.Layers

/-!
# TOML, YAML and JSON as forms of documents

Each format takes some values for the same on both ways: read directly and made a tree of.

* `Toml.form`, `Json.form`, `Yaml.form` : the three formats.
* `Json.settledMembers_perm` : names that come once stay when members are sorted.
* `Yaml.plainNatural?_natText`, `Yaml.looksLike?_natText` : numbers that are written without zeros in
  front are the same on both ways.
-/

namespace Parley

open Text

namespace Settings

/-! ### Whole numbers -/

theorem Tree.word64?_natCast (n : ℕ) : (Tree.whole n).word64? = some (UInt64.ofNat n) := by
  rw [word64?, if_pos (Int.natCast_nonneg n), Int.toNat_natCast]

theorem Tree.word32?_natCast {n : ℕ} (h : n < UInt64.size) : (Tree.whole n).word32? =
    if n < UInt32.size then some (UInt32.ofNat n) else none := by
  rw [word32?, word64?_natCast, Option.bind_some, UInt64.toNat_ofNat_of_lt' h]

theorem lt_size_of_fitsSigned {n : ℕ} (h : fitsSigned n = true) : n < UInt64.size := by
  have hlt := (fitsSigned_iff.1 h).2
  have hsize : (2 : ℤ) ^ 63 < UInt64.size := by decide
  omega

/-- Names that come once at most are picked one by one, by whatever picks what there is one of. -/
theorem Tidy.mapM_pick {τ : Type} {names : List String} {ms : List (String × τ)}
    {pick : String → Option (Option τ)} (h : Tidy id names ms)
    (hnone : ∀ n, ms.filter (·.1 == n) = [] → pick n = some none)
    (hone : ∀ n w, ms.filter (·.1 == n) = [(n, w)] → pick n = some (some w)) :
    names.mapM pick = some (names.map fun n => (ms.find? (·.1 == n)).map Prod.snd) := by
  induction names with
  | nil => rfl
  | cons n names ih =>
    have hn : pick n = some ((ms.find? (·.1 == n)).map Prod.snd) := by
      rw [← List.head?_filter]
      rcases h.filter_eq List.mem_cons_self with hnil | ⟨w, hsingle⟩
      · have hnil : ms.filter (·.1 == n) = [] := hnil
        rw [hnil, hnone n hnil]
        rfl
      · have hsingle : ms.filter (·.1 == n) = [(n, w)] := hsingle
        rw [hsingle, hone n w hsingle]
        rfl
    rw [List.mapM_cons, hn, ih fun m hm => h m (List.mem_cons_of_mem n hm)]
    rfl

end Settings

open Settings

/-! ### TOML -/

namespace Toml

/-- The named values of a table. -/
def members? : Toml → Option (List (String × Toml))
  | .table _ ms => some ms
  | _ => none

/-- A text, a whole number of 64 bits or a truth value. -/
def plain? : Toml → Option Tree
  | .text s => some (.text s)
  | .whole i => if fitsSigned i then some (.whole i) else none
  | .flag b => some (.flag b)
  | _ => none

theorem forall₂_toMembers (ms : List (String × Toml)) :
    List.Forall₂ (fun m u => m.1 = u.1 ∧ some m.2.toTree = some u.2) ms (toMembers ms) := by
  induction ms with
  | nil => exact .nil
  | cons m ms ih => exact .cons ⟨rfl, rfl⟩ ih

theorem natural?_natCast {n bound : ℕ} :
    natural? bound (.whole n) = if n < bound then some n else none := by
  simp [natural?]

theorem natural?_neg {i bound : ℤ} (h : i < 0) : natural? bound (.whole i) = none := by
  have hneg : ¬(0 ≤ i ∧ i < bound) := by omega
  simpa [natural?] using hneg

theorem takenFor_whole {i : ℤ} (h : fitsSigned i = true) :
    TakenFor settingsDialect (.whole i) (.whole i) := by
  unfold TakenFor settingsDialect
  dsimp only
  rcases Int.lt_or_le i 0 with hneg | hnonneg
  · have hword : (Tree.whole i).word64? = none := by rw [Tree.word64?, if_neg (by omega)]
    rw [Tree.word32?, hword, natural?_neg hneg, natural?_neg hneg]
    exact ⟨rfl, rfl⟩
  · obtain ⟨n, rfl⟩ := Int.eq_ofNat_of_zero_le hnonneg
    have hsize := lt_size_of_fitsSigned h
    rw [Tree.word64?_natCast, Tree.word32?_natCast hsize, natural?_natCast, natural?_natCast,
      if_pos hsize]
    refine ⟨rfl, ?_⟩
    split <;> rfl

theorem of_plain? {v : Toml} {p : Tree} (hp : plain? v = some p) :
    some v.toTree = some p ∧ TakenFor settingsDialect v p := by
  cases v with
  | text s =>
    cases hp
    exact ⟨by rw [toTree], rfl, rfl⟩
  | whole i =>
    rw [plain?, Option.ite_none_right_eq_some] at hp
    obtain ⟨hfits, hp⟩ := hp
    cases hp
    exact ⟨by rw [toTree], takenFor_whole hfits⟩
  | flag b =>
    cases hp
    exact ⟨by rw [toTree], rfl⟩
  | _ => cases hp

/-- TOML as a form of documents. -/
def form : Form Toml where
  dialect := settingsDialect
  tree? v := some v.toTree
  members? := members?
  plain? := plain?
  parts?_eq {v ms names} hms _ := by
    cases v with
    | table origin members =>
      cases hms
      rfl
    | _ => cases hms
  tree?_table {v ms t} hms ht := by
    cases v with
    | table origin members =>
      cases hms
      cases ht
      rw [toTree]
      exact ⟨toMembers ms, rfl, .refl _, forall₂_toMembers ms⟩
    | _ => cases hms
  plain := of_plain?

end Toml

/-! ### JSON -/

namespace Json

/-- The named values of an object in which no name comes twice. -/
def distinctMembers? : Json → Option (List (String × Json))
  | .object ms => if (ms.map Prod.fst).Nodup then some ms else none
  | _ => none

/-- A text, a whole number of 63 bits or a truth value. -/
def plain? : Json → Option Tree
  | .string s => some (.text s)
  | .natural n => if fitsSigned n then some (.whole n) else none
  | .bool b => some (.flag b)
  | _ => none

theorem insertMember_perm {name : String} {ms : List (String × Json)} (h : name ∉ ms.map Prod.fst)
    (j : Json) : (insertMember name j ms).Perm ((name, j) :: ms) := by
  induction ms with
  | nil => exact .refl _
  | cons m ms ih =>
    rw [List.map_cons, List.mem_cons, not_or] at h
    unfold insertMember
    rw [if_neg h.1]
    split
    next => exact .refl _
    next => exact ((ih h.2).cons m).trans (.swap _ _ _)

/-- Members of which no two have the same name are all kept when they are sorted. -/
theorem settledMembers_perm {ms : List (String × Json)} (h : (ms.map Prod.fst).Nodup) :
    (settledMembers ms).Perm (ms.map fun m => (m.1, m.2.settled)) := by
  induction ms with
  | nil => exact .refl _
  | cons m ms ih =>
    rw [List.map_cons, List.nodup_cons] at h
    have hms := ih h.2
    have hname : m.1 ∉ (settledMembers ms).map Prod.fst := by
      rw [(hms.map Prod.fst).mem_iff, List.map_map]
      exact h.1
    exact (insertMember_perm hname _).trans (hms.cons _)

theorem toMembers_eq_map (ms : List (String × Json)) :
    toMembers ms = ms.map fun m => (m.1, m.2.toTree) := by
  induction ms with
  | nil => rfl
  | cons m ms ih => rw [toMembers, ih]; rfl

theorem membersOf?_eq_mapM (ms : List (String × Json)) (names : List String) :
    Wire.membersOf? ms names = names.mapM (Wire.onlyMember? · ms) := by
  induction names with
  | nil => rfl
  | cons n names ih => rw [Wire.membersOf?, ih, List.mapM_cons]; rfl

theorem takenFor_natural {n : ℕ} (h : fitsSigned n = true) :
    TakenFor Wire.settingsDialect (.natural n) (.whole n) := by
  have hsize := lt_size_of_fitsSigned h
  refine ⟨?_, ?_⟩
  · rw [Tree.word64?_natCast]
    exact if_pos hsize
  · rw [Tree.word32?_natCast hsize]
    rfl

theorem of_plain? {v : Json} {p : Tree} (hp : plain? v = some p) :
    some v.settled.toTree = some p ∧ TakenFor Wire.settingsDialect v p := by
  cases v with
  | string s =>
    cases hp
    exact ⟨by rw [settled, toTree] <;> nofun, rfl, rfl⟩
  | natural n =>
    rw [plain?, Option.ite_none_right_eq_some] at hp
    obtain ⟨hfits, hp⟩ := hp
    cases hp
    exact ⟨by rw [settled, toTree, treeOfNat, if_pos hfits] <;> nofun, takenFor_natural hfits⟩
  | bool b =>
    cases hp
    exact ⟨by rw [settled, toTree] <;> nofun, rfl⟩
  | _ => cases hp

/-- JSON as a form of documents. -/
def form : Form Json where
  dialect := Wire.settingsDialect
  tree? j := some j.settled.toTree
  members? := distinctMembers?
  plain? := plain?
  parts?_eq {v ms names} hms htidy := by
    cases v with
    | object members =>
      rw [distinctMembers?, Option.ite_none_right_eq_some] at hms
      obtain ⟨-, hms⟩ := hms
      cases hms
      show ((Wire.membersOf? ms names).map _).map _ = _
      rw [membersOf?_eq_mapM, htidy.mapM_pick (fun n hnone => by rw [Wire.onlyMember?, hnone])
        fun n w hone => by rw [Wire.onlyMember?, hone]]
      rfl
    | _ => cases hms
  tree?_table {v ms t} hms ht := by
    cases v with
    | object members =>
      rw [distinctMembers?, Option.ite_none_right_eq_some] at hms
      obtain ⟨hnodup, hms⟩ := hms
      cases hms
      cases ht
      rw [settled, toTree, toMembers_eq_map]
      refine ⟨ms.map fun m => (m.1, m.2.settled.toTree), rfl, ?_, ?_⟩
      · have hperm := ((settledMembers_perm hnodup).map fun m => (m.1, m.2.toTree)).symm
        rwa [List.map_map] at hperm
      · rw [List.forall₂_map_right_iff]
        exact List.forall₂_same.2 fun m _ => ⟨rfl, rfl⟩
    | _ => cases hms
  plain := of_plain?

end Json

/-! ### YAML -/

namespace Yaml

/-- A key that is a text, with its value. A scalar without quotes is a text if it looks like nothing
else. -/
def textMember? : Yaml × Yaml → Option (String × Yaml)
  | (.scalar s .plain none, v) =>
    match looksLike? s with
    | some (.text _) => some (s, v)
    | _ => none
  | (.scalar s _ none, v) => some (s, v)
  | _ => none

/-- The named values of a mapping whose keys are texts. -/
def textMembers? : Yaml → Option (List (String × Yaml))
  | .mapping pairs _ => pairs.mapM textMember?
  | _ => none

/-- The number that a text is the decimal text of, if it fits 63 bits. -/
def decimalOf? (s : String) : Option ℕ :=
  (ofDigits? 10 s.toList).filter fun n => s = natText n && fitsSigned n

/-- A text, a whole number of 63 bits in base ten without zeros in front, or a truth value. A scalar
without quotes is a text if it looks like nothing else. -/
def plain? : Yaml → Option Tree
  | .scalar s .plain none =>
    match looksLike? s with
    | some (.text _) => some (.text s)
    | some (.flag b) => some (.flag b)
    | _ => (decimalOf? s).map fun n : ℕ => .whole n
  | .scalar s _ none => some (.text s)
  | _ => none

theorem looksLike?_cases {s : String} {t : Tree} (h : looksLike? s = some t) :
    t = .nothing ∨ (∃ b, t = .flag b ∧ s = if b then "true" else "false") ∨
      (∃ i, t = .whole i ∧ looksWhole? s = some i) ∨ (∃ x, t = .real x) ∨ t = .text s := by
  unfold looksLike? at h
  split at h
  next => exact .inl (Option.some.inj h).symm
  split at h
  next htrue => exact .inr (.inl ⟨true, (Option.some.inj h).symm, htrue⟩)
  split at h
  next hfalse => exact .inr (.inl ⟨false, (Option.some.inj h).symm, hfalse⟩)
  split at h
  next => cases h
  split at h
  next i hi => exact .inr (.inr (.inl ⟨i, (Option.some.inj h).symm, hi⟩))
  split at h
  next x _ => exact .inr (.inr (.inr (.inl ⟨x, (Option.some.inj h).symm⟩)))
  next => exact .inr (.inr (.inr (.inr (Option.some.inj h).symm)))

theorem eq_of_looksLike?_text {s s' : String} (h : looksLike? s = some (.text s')) : s' = s := by
  rcases looksLike?_cases h with h | ⟨_, h, _⟩ | ⟨_, h, _⟩ | ⟨_, h⟩ | h
  any_goals cases h
  rfl

theorem eq_of_looksLike?_flag {s : String} {b : Bool} (h : looksLike? s = some (.flag b)) :
    s = if b then "true" else "false" := by
  rcases looksLike?_cases h with h | ⟨_, h, hs⟩ | ⟨_, h, _⟩ | ⟨_, h⟩ | h
  any_goals cases h
  exact hs

theorem textMember?_eq_some {pair : Yaml × Yaml} {m : String × Yaml}
    (h : textMember? pair = some m) : pair.2 = m.2 ∧ ∃ style,
      pair.1 = .scalar m.1 style none ∧ pair.1.toTree? = some (.text m.1) := by
  unfold textMember? at h
  split at h
  next s v =>
    split at h
    next s' hs' =>
      cases h
      obtain rfl := eq_of_looksLike?_text hs'
      exact ⟨rfl, .plain, rfl, by rw [toTree?, hs']⟩
    next => cases h
  next s style v hplain =>
    cases h
    refine ⟨rfl, style, rfl, ?_⟩
    cases style with
    | plain => exact (hplain rfl).elim
    | quoted | literal | folded => rw [toTree?] <;> nofun
  next => cases h

theorem textPairs?_eq {pairs : List (Yaml × Yaml)} {ms : List (String × Yaml)}
    (h : pairs.mapM textMember? = some ms) : textPairs? pairs = some ms := by
  induction pairs generalizing ms with
  | nil => exact h
  | cons pair pairs ih =>
    rw [List.mapM_cons] at h
    obtain ⟨m, hm, h⟩ := Option.bind_eq_some_iff.1 h
    obtain ⟨ms, hms, h⟩ := Option.bind_eq_some_iff.1 h
    cases h
    obtain ⟨k, v⟩ := pair
    obtain ⟨rfl, style, rfl, -⟩ := textMember?_eq_some hm
    rw [textPairs?, ih hms]
    rfl

theorem forall₂_toMembers? {pairs : List (Yaml × Yaml)} {ms : List (String × Yaml)}
    {us : List ((Bool × String) × Tree)} (h : pairs.mapM textMember? = some ms)
    (hus : toMembers? pairs = some us) :
    List.Forall₂ (fun m u => m.1 = u.1 ∧ m.2.toTree? = some u.2) ms
      (us.map fun u => (u.1.2, u.2)) := by
  induction pairs generalizing ms us with
  | nil =>
    cases h
    cases hus
    exact .nil
  | cons pair pairs ih =>
    rw [List.mapM_cons] at h
    obtain ⟨m, hm, h⟩ := Option.bind_eq_some_iff.1 h
    obtain ⟨ms, hms, h⟩ := Option.bind_eq_some_iff.1 h
    cases h
    obtain ⟨k, v⟩ := pair
    obtain ⟨rfl, style, hk, htree⟩ := textMember?_eq_some hm
    simp only [toMembers?, htree, keyOf?, Option.bind_eq_bind, Option.bind_some,
      Option.bind_eq_some_iff, Option.ite_none_left_eq_some] at hus
    obtain ⟨u, hu, us, hus, -, h⟩ := hus
    cases h
    exact .cons ⟨rfl, hu⟩ (ih hms hus)

/-! #### Numbers -/

theorem eq_natText_of_decimalOf? {s : String} {n : ℕ} (h : decimalOf? s = some n) :
    s = natText n ∧ fitsSigned n = true := by
  obtain ⟨-, h⟩ := Option.filter_eq_some_iff.1 h
  simpa using h

theorem decimal_ne_mark (n : ℕ) {c : Char} (hc : isDigit c = false) (ds : List Char) :
    decimal n ≠ '0' :: c :: ds := by
  intro h
  have hmem : c ∈ decimal n := by simp [h]
  rw [isDigit_of_mem_decimal hmem] at hc
  cases hc

theorem plainNatural?_natText (n : ℕ) : plainNatural? (natText n) = some n := by
  have hplus : withoutPlus (decimal n) = decimal n := by
    unfold withoutPlus
    split
    next ds hds =>
      have hsign := (digits_decimal n).2 '+' (by simp [hds])
      exact absurd hsign (by decide)
    next => rfl
  have hzeros : (1 < (decimal n).length && (decimal n).head? = some '0' &&
      (decimal n).all isDigit) = false := by
    obtain ⟨d, ds, heq, -, hzero⟩ := decimal_eq_cons n
    rw [heq]
    by_cases hd : d = '0'
    · simp [(hzero hd).2]
    · simp [hd]
  simp only [plainNatural?, natText, String.toList_ofList, hplus, hzeros]
  split
  next ds hds => exact absurd hds (decimal_ne_mark n (by decide) ds)
  next ds hds => exact absurd hds (decimal_ne_mark n (by decide) ds)
  next ds hds => exact absurd hds (decimal_ne_mark n (by decide) ds)
  next => exact ofDigits?_decimal n

theorem contains_eq_false {s : String} {d : Char} {ds : List Char} (hs : s.toList = d :: ds)
    (hd : isDigit d = true) (words : List String)
    (hwords : words.all (fun w => !w.toList.head?.any isDigit) = true) :
    words.contains s = false := by
  rw [List.contains_eq_mem, decide_eq_false_iff_not]
  intro hmem
  have hother := List.all_eq_true.1 hwords s hmem
  rw [hs, List.head?_cons, Option.any_some, hd] at hother
  cases hother

theorem looksLike?_natText {n : ℕ} (h : fitsSigned n = true) :
    looksLike? (natText n) = some (.whole n) := by
  have htext : (natText n).toList = decimal n := String.toList_ofList
  obtain ⟨d, ds, heq, hd, -⟩ := decimal_eq_cons n
  have hwords := contains_eq_false (htext.trans heq) hd
  have hwhole : looksWhole? (natText n) = some (n : ℤ) := by
    unfold looksWhole?
    rw [htext]
    split
    next ds hds => exact absurd hds (decimal_ne_mark n (by decide) ds)
    next ds hds => exact absurd hds (decimal_ne_mark n (by decide) ds)
    next ds hds =>
      have hsign := (digits_decimal n).2 '+' (by simp [hds])
      exact absurd hsign (by decide)
    next => exact readSigned?_eq_some_iff.2 ⟨readInt?_decimal n, h⟩
  have htrue : natText n ≠ "true" := by
    simpa using hwords ["true"] (by decide +kernel)
  have hfalse : natText n ≠ "false" := by
    simpa using hwords ["false"] (by decide +kernel)
  have hempty := hwords ["", "~", "null"] (by decide +kernel)
  have hnumber : isNumberWord (natText n) = false := hwords _ (by decide +kernel)
  simp only [looksLike?, hempty, htrue, hfalse, hnumber, hwhole, Bool.false_eq_true, if_false]

theorem takenFor_natText {n : ℕ} (h : fitsSigned n = true) :
    TakenFor settingsDialect (.scalar (natText n) .plain none) (.whole n) := by
  have hsize := lt_size_of_fitsSigned h
  have hread (bound : ℕ) : natural? bound (.scalar (natText n) .plain none) =
      if n < bound then some n else none := by
    simp [natural?, bareText?, plainNatural?_natText, Option.filter]
  unfold TakenFor settingsDialect
  dsimp only
  rw [Tree.word64?_natCast, Tree.word32?_natCast hsize, hread, hread, if_pos hsize]
  refine ⟨rfl, ?_⟩
  split <;> rfl

theorem of_plain? {v : Yaml} {p : Tree} (hp : plain? v = some p) :
    v.toTree? = some p ∧ TakenFor settingsDialect v p := by
  unfold plain? at hp
  split at hp
  next s =>
    split at hp
    next s' hs =>
      cases hp
      obtain rfl := eq_of_looksLike?_text hs
      exact ⟨by rw [toTree?, hs], rfl, rfl⟩
    next b hs =>
      cases hp
      refine ⟨by rw [toTree?, hs], ?_⟩
      obtain rfl := eq_of_looksLike?_flag hs
      cases b <;> (show flag? _ = _; decide)
    next =>
      obtain ⟨n, hn, rfl⟩ := Option.map_eq_some_iff.1 hp
      obtain ⟨rfl, hfits⟩ := eq_natText_of_decimalOf? hn
      exact ⟨by rw [toTree?, looksLike?_natText hfits], takenFor_natText hfits⟩
  next s style hplain =>
    cases hp
    refine ⟨?_, rfl, rfl⟩
    cases style with
    | plain => exact (hplain rfl).elim
    | quoted | literal | folded => rw [toTree?] <;> nofun
  next => cases hp

/-- YAML as a form of documents. -/
def form : Form Yaml where
  dialect := settingsDialect
  tree? := toTree?
  members? := textMembers?
  plain? := plain?
  parts?_eq {v ms names} hms htidy := by
    cases v with
    | mapping pairs tag =>
      show (textPairs? pairs).bind _ = _
      rw [textPairs?_eq hms]
      exact htidy.mapM_pick (fun n hnone => by rw [onlyOne?, hnone])
        fun n w hone => by rw [onlyOne?, hone]
    | _ => cases hms
  tree?_table {v ms t} hms ht := by
    cases v with
    | mapping pairs tag =>
      rw [toTree?] at ht
      obtain ⟨us, hus, rfl⟩ := Option.map_eq_some_iff.1 ht
      exact ⟨_, rfl, .refl _, forall₂_toMembers? hms hus⟩
    | _ => cases hms
  plain := of_plain?

end Yaml

end Parley
