import Parley.Proofs.Settings.Names

/-!
# Forms of documents

Settings in a document can be read directly, by the dialect of its format, or the document is made a
tree first and the tree is put together and read.  In an orderly document both ways give every single
setting the same value, whatever the format is.

A name outside the sections is a path when a tree is put together, and a path may have subscripts.
`Tree.path?` has only the points of a path; it takes a name with a subscript, such as `logging[0]`,
for a single name.  So nothing is said here about documents with such names: they are not orderly.

* `Form` : what a format has to say of its values, and what both ways of reading have in common.
* `Form.Orderly` : tables where there must be some, names that are tidy and have no subscripts, and
  values that are of their own kind.
* `Form.Orderly.reading?_eq` : single settings are the same on both ways.
-/

namespace Parley.Settings

/-- The value is of the kind of a setting: a text, a whole number or a truth value. The name of a form
of log lines is in lower case. -/
def Field.takes (f : Field) : Tree → Bool
  | .text s => f = participantId || f = level || f = format && Text.lowercaseText s == s
  | .whole _ => [batchSize, leaseSpan, backoffBase, backoffMax, maxRetries, baseDelay, maxDelay].contains f
  | .flag _ => f = autoAgree
  | _ => false

/-- A text, a whole number or a truth value is taken for that directly, too. -/
def TakenFor {τ : Type} (d : Dialect τ) (v : τ) : Tree → Prop
  | .text s => d.text? v = some s ∧ d.format? v = LogFormat.ofName? s
  | .whole i => d.word64? v = (Tree.whole i).word64? ∧ d.word32? v = (Tree.whole i).word32?
  | .flag b => d.flag? v = some b
  | _ => False

/-- A format with two ways to its values: the dialect, and the tree that is made of a value. -/
structure Form (τ : Type) where
  /-- How values are understood directly. -/
  dialect : Dialect τ
  /-- The tree that is made of a value. -/
  tree? : τ → Option Tree
  /-- The named values of a table. -/
  members? : τ → Option (List (String × τ))
  /-- A text, a whole number or a truth value that is taken for that on both ways. -/
  plain? : τ → Option Tree
  parts?_eq : ∀ {v ms names}, members? v = some ms → Tidy id names ms →
    dialect.parts? names v = some (names.map fun n => (ms.find? (·.1 == n)).map Prod.snd)
  tree?_table : ∀ {v ms t}, members? v = some ms → tree? v = some t →
    ∃ us, t.isTable = true ∧ us.Perm t.members ∧
      List.Forall₂ (fun m u => m.1 = u.1 ∧ tree? m.2 = some u.2) ms us
  plain : ∀ {v p}, plain? v = some p → tree? v = some p ∧ TakenFor dialect v p

namespace Form

variable {τ : Type} (F : Form τ)

/-- The value is of the kind of a setting, on both ways. -/
def Own (f : Field) (v : τ) : Prop := ∃ p ∈ F.plain? v, f.takes p = true

/-- The value is a table with tidy names, and what has a known name has a property. -/
def IsSection (norm : String → String) (names : List String) (P : String → τ → Prop) (v : τ) : Prop :=
  ∃ ms ∈ F.members? v, Tidy norm names ms ∧ ∀ m ∈ ms, m.1 ∈ names → P m.1 m.2

/-- No name in a table has a bracket, with which a subscript would begin. -/
def Unbracketed (v : τ) : Prop := ∀ ms ∈ F.members? v, ∀ m ∈ ms, '[' ∉ m.1.toList

/-- The value is a table, and so are its sections as far as they are there; all of them have tidy
names, and no name outside the sections has a bracket; and every setting has a value of its own
kind. -/
def Orderly (v : τ) : Prop :=
  F.Unbracketed v ∧ F.IsSection Tree.rootName rootNames (fun name w =>
    (∀ f : Field, f.path = [name] → F.Own f w) ∧
      (name ∈ sections → F.IsSection Text.lowercaseText (namesIn name)
        (fun name' u => ∀ f : Field, f.path = [name, name'] → F.Own f u) w)) v

instance (f : Field) : DecidablePred (F.Own f) := fun v =>
  inferInstanceAs (Decidable (∃ p ∈ F.plain? v, f.takes p = true))

instance (norm : String → String) (names : List String) (P : String → τ → Prop)
    [∀ n, DecidablePred (P n)] : DecidablePred (F.IsSection norm names P) := fun v =>
  inferInstanceAs (Decidable (∃ ms ∈ F.members? v, Tidy norm names ms ∧
    ∀ m ∈ ms, m.1 ∈ names → P m.1 m.2))

instance : DecidablePred F.Unbracketed := fun v =>
  inferInstanceAs (Decidable (∀ ms ∈ F.members? v, ∀ m ∈ ms, '[' ∉ m.1.toList))

instance : DecidablePred F.Orderly := fun v =>
  inferInstanceAs (Decidable (F.Unbracketed v ∧ F.IsSection Tree.rootName rootNames _ v))

variable {F} {v : τ} {t : Tree} {f : Field}

theorem Own.read?_eq (h : F.Own f v) (ht : F.tree? v = some t) :
    t.isTable = false ∧ F.dialect.read? f v = f.read? t := by
  obtain ⟨p, hp, htakes⟩ := h
  obtain ⟨htree, htaken⟩ := F.plain hp
  obtain rfl : p = t := Option.some.inj (htree.symm.trans ht)
  cases p with
  | text s =>
    refine ⟨rfl, ?_⟩
    cases f with
    | participantId | level => exact htaken.1
    | format =>
      have hlower : Text.lowercaseText s = s := by simpa [Field.takes] using htakes
      show F.dialect.format? v = LogFormat.ofName? (Text.lowercaseText s)
      rw [htaken.2, hlower]
    | _ => simp [Field.takes] at htakes
  | whole i =>
    refine ⟨rfl, ?_⟩
    cases f with
    | batchSize | leaseSpan | backoffBase | backoffMax | baseDelay | maxDelay => exact htaken.1
    | maxRetries => exact htaken.2
    | _ => simp [Field.takes] at htakes
  | flag b =>
    refine ⟨rfl, ?_⟩
    cases f with
    | autoAgree => exact htaken
    | _ => simp [Field.takes] at htakes
  | _ => exact htaken.elim

section

variable {ms : List (String × τ)} {us tms : List (String × Tree)} {norm : String → String}
  {names : List String} {n : String}

theorem filter_members (norm : String → String) (n : String) (hperm : us.Perm tms)
    (hrel : List.Forall₂ (fun m u => m.1 = u.1 ∧ F.tree? m.2 = some u.2) ms us) :
    ∃ us', us'.Perm (tms.filter fun m => norm m.1 == n) ∧
      List.Forall₂ (fun m u => m.1 = u.1 ∧ F.tree? m.2 = some u.2)
        (ms.filter fun m => norm m.1 == n) us' := by
  refine ⟨us.filter fun m => norm m.1 == n, hperm.filter _, List.rel_filter (fun m u h => ?_) hrel⟩
  show (norm m.1 == n) = true ↔ (norm u.1 == n) = true
  rw [h.1]

/-- What is said of a known name: nothing on both ways, or a value and the tree that is made of it. -/
theorem lookup {step : String → Tree → Tree → Tree} (hput : Tree.Put norm step names)
    (hms : F.members? v = some ms) (htidy : Tidy norm names ms) (ht : F.tree? v = some t)
    (hn : n ∈ names) :
    F.dialect.named? names n v = some none ∧
      (t.members.foldl (fun t m => step m.1 m.2 t) (.table [])).member? n = none ∨
    ∃ w u, (n, w) ∈ ms ∧ F.dialect.named? names n v = some (some w) ∧ F.tree? w = some u ∧
      (t.members.foldl (fun t m => step m.1 m.2 t) (.table [])).member? n = some u.planted := by
  have hnamed : F.dialect.named? names n v = some ((ms.find? (·.1 == n)).map Prod.snd) := by
    have hplace : names.idxOf n < names.length := List.idxOf_lt_length_iff.2 hn
    rw [Dialect.named?, F.parts?_eq hms (htidy.once hput.known), Option.map_some, List.getElem?_map,
      List.getElem?_eq_getElem hplace, List.getElem_idxOf]
    rfl
  obtain ⟨us, -, hperm, hrel⟩ := F.tree?_table hms ht
  obtain ⟨us', hperm', hrel'⟩ := filter_members norm n hperm hrel
  rw [← List.head?_filter, filter_name_eq (hput.known n hn)] at hnamed
  rcases htidy.filter_eq hn with hnil | ⟨w, hone⟩
  · rw [hnil] at hnamed hrel'
    rw [List.forall₂_nil_left_iff.1 hrel'] at hperm'
    refine .inl ⟨hnamed, ?_⟩
    rw [hput.member?_of_filter_nil hperm'.symm.eq_nil]
    rfl
  · rw [hone] at hnamed hrel'
    obtain ⟨⟨_, u⟩, rest, ⟨rfl, hu⟩, hrest, rfl⟩ := List.forall₂_cons_left_iff.1 hrel'
    rw [List.forall₂_nil_left_iff.1 hrest] at hperm'
    have hmem : (n, w) ∈ ms.filter fun m => norm m.1 == n := by rw [hone]; exact List.mem_cons_self
    refine .inr ⟨w, u, List.mem_of_mem_filter hmem, ?_, hu, ?_⟩
    · simpa using hnamed
    · exact hput.member?_of_filter_eq hn (List.singleton_perm.1 hperm').symm rfl

theorem value?_eq {step : String → Tree → Tree → Tree} (hput : Tree.Put norm step names)
    (hms : F.members? v = some ms) (htidy : Tidy norm names ms) (ht : F.tree? v = some t)
    (hn : f.name ∈ names) (hown : ∀ w, (f.name, w) ∈ ms → F.Own f w) {t' : Tree}
    (ht' : t' = t.members.foldl (fun t m => step m.1 m.2 t) (.table [])) (htable : t'.isTable = true) :
    F.dialect.value? names f v = Tree.dialect.value? names f t' := by
  rw [Tree.value?_eq htable hn, Dialect.value?, ht']
  rcases lookup hput hms htidy ht hn with ⟨hnone, hnone'⟩ | ⟨w, u, hmem, hsome, hu, hsome'⟩
  · rw [hnone, hnone']
    rfl
  · obtain ⟨hplain, hread⟩ := (hown w hmem).read?_eq hu
    have hplanted : u.planted = u := by cases u <;> first | rfl | cases hplain
    rw [hsome, hsome', hplanted]
    exact hread

end

theorem isTable_of_members {ms : List (String × τ)} (hms : F.members? v = some ms)
    (ht : F.tree? v = some t) : t.isTable = true := by
  obtain ⟨_, htable, -⟩ := F.tree?_table hms ht
  exact htable

theorem Orderly.isTable (h : F.Orderly v) (ht : F.tree? v = some t) : t.isTable = true := by
  obtain ⟨-, ms, hms, -⟩ := h
  exact isTable_of_members hms ht

/-- **Single settings are the same on both ways** in an orderly document. -/
theorem Orderly.reading?_eq (h : F.Orderly v) (ht : F.tree? v = some t) (f : Field) :
    F.dialect.reading? f v = Tree.dialect.reading? f (Tree.putKeys t.members (.table [])) := by
  obtain ⟨-, ms, hms, htidy, hall⟩ := h
  have hroot : (Tree.putKeys t.members (.table [])).isTable = true := Tree.isTable_putKeys rfl _
  rcases f.path_cases with hf | ⟨s, hs, name, hf⟩
  · have hname : f.name = "participant_id" := by rw [Field.name, hf]; rfl
    have hn : f.name ∈ rootNames := by rw [hname]; decide
    rw [Dialect.reading?_root hf, Dialect.reading?_root hf]
    refine value?_eq Tree.put_root hms htidy ht hn (fun w hw => ?_) rfl hroot
    exact (hall _ hw hn).1 f (by rw [hf, hname])
  · have hname : f.name = name := by rw [Field.name, hf]; rfl
    have hn : s ∈ rootNames := (by decide : ∀ s ∈ sections, s ∈ rootNames) s hs
    rw [Dialect.reading?_section hf, Dialect.reading?_section hf, Tree.named?_eq hroot hn]
    rcases lookup Tree.put_root hms htidy ht hn with ⟨hnone, hnone'⟩ | ⟨w, u, hmem, hsome, hu, hsome'⟩
    · have hnone' : (Tree.putKeys t.members (.table [])).member? s = none := hnone'
      rw [hnone, hnone']
      rfl
    · have hsome' : (Tree.putKeys t.members (.table [])).member? s = some u.planted := hsome'
      rw [hsome, hsome']
      obtain ⟨ms', hms', htidy', hall'⟩ := (hall _ hmem hn).2 hs
      have hu' := isTable_of_members hms' hu
      have hplanted : u.planted = u.members.foldl (fun t m => Tree.put m.1 m.2 t) (.table []) := by
        obtain ⟨us, rfl⟩ := Tree.isTable_iff.1 hu'
        exact Tree.putAll_eq_foldl us _
      refine value?_eq (Tree.put_section s) hms' htidy' hu (Field.name_mem_namesIn hf)
        (fun w' hw' => ?_) hplanted (by rw [Tree.isTable_planted, hu'])
      exact hall' _ hw' (Field.name_mem_namesIn hf) f (by rw [hf, hname])

end Form

end Parley.Settings
