import Mathlib.Data.Fintype.Defs
import Parley.Proofs.Settings.Leaves

/-!
# The single settings

Every setting has a place, a kind of values and a way to read them. Settings are read from a value of
any dialect if and only if every single one is read from its place, or has its default where nothing
is said; in a tree whose sections are tables the place is the path of the setting.

* `Field` : the single settings; `Field.path` is where one stands, `Field.read?` how it is read.
* `Dialect.reading?` : a single setting as a dialect reads it.
* `Dialect.settings?_eq_some_iff` : settings are read one by one.
* `Tree.Sectioned` : the sections of a tree are tables, as far as they are there.
* `Tree.settings?_eq_some_iff` : from such a tree they are read by their paths.
-/

namespace Parley.Settings

/-- A single setting. -/
inductive Field where
  | participantId
  | batchSize
  | leaseSpan
  | backoffBase
  | backoffMax
  | maxRetries
  | baseDelay
  | maxDelay
  | autoAgree
  | level
  | format
  deriving DecidableEq, Repr

namespace Field

/-- The names on the way to a setting: that of its section, if it is in one, and its own. -/
def path : Field → List String
  | participantId => ["participant_id"]
  | batchSize => ["state_machine", "batch_size"]
  | leaseSpan => ["state_machine", "lease_duration_ms"]
  | backoffBase => ["state_machine", "backoff_base_ms"]
  | backoffMax => ["state_machine", "backoff_max_ms"]
  | maxRetries => ["retry", "max_retries"]
  | baseDelay => ["retry", "base_delay_ms"]
  | maxDelay => ["retry", "max_delay_ms"]
  | autoAgree => ["provider", "auto_agree_requested"]
  | level => ["logging", "level"]
  | format => ["logging", "format"]

/-- The kind of values of a setting. -/
def Value : Field → Type
  | participantId | level => String
  | batchSize | leaseSpan | backoffBase | backoffMax | baseDelay | maxDelay => UInt64
  | maxRetries => UInt32
  | autoAgree => Bool
  | format => LogFormat

instance : (f : Field) → DecidableEq f.Value
  | participantId | level => inferInstanceAs (DecidableEq String)
  | batchSize | leaseSpan | backoffBase | backoffMax | baseDelay | maxDelay =>
    inferInstanceAs (DecidableEq UInt64)
  | maxRetries => inferInstanceAs (DecidableEq UInt32)
  | autoAgree => inferInstanceAs (DecidableEq Bool)
  | format => inferInstanceAs (DecidableEq LogFormat)

/-- The value of a setting. -/
def get : (f : Field) → Settings → f.Value
  | participantId, s => s.participantId
  | batchSize, s => s.rounds.batchSize
  | leaseSpan, s => s.rounds.leaseSpan
  | backoffBase, s => s.rounds.backoffBase
  | backoffMax, s => s.rounds.backoffMax
  | maxRetries, s => s.retry.maxRetries
  | baseDelay, s => s.retry.baseDelay
  | maxDelay, s => s.retry.maxDelay
  | autoAgree, s => s.autoAgree
  | level, s => s.logging.level
  | format, s => s.logging.format

/-- What a value in a tree means for a setting. -/
def read? : (f : Field) → Tree → Option f.Value
  | participantId | level => Tree.text?
  | batchSize | leaseSpan | backoffBase | backoffMax | baseDelay | maxDelay => Tree.word64?
  | maxRetries => Tree.word32?
  | autoAgree => Tree.flag?
  | format => Tree.format?

/-- The value of a setting for which something is said, or nothing. -/
def reading? (f : Field) (said : Option Tree) : Option f.Value := said.elim (some (f.get {})) f.read?

/-- All settings. -/
def all : List Field :=
  [participantId, batchSize, leaseSpan, backoffBase, backoffMax, maxRetries, baseDelay, maxDelay,
    autoAgree, level, format]

instance : Fintype Field := ⟨⟨all, by decide⟩, fun f => by cases f <;> decide⟩

theorem path_not_above : ∀ {f g : Field}, f ≠ g → ¬f.path <+: g.path := by decide

end Field

/-- The sections of settings. -/
def sections : List String := ["state_machine", "retry", "provider", "logging"]

/-- A leaf of a tree is the value of a setting, or it is a section in which nothing is said. -/
def IsSetting (leaf : List String × Tree) : Prop :=
  leaf.2.isTable = false ∧ (∃ f : Field, f.path = leaf.1) ∨
    leaf.2.isTable = true ∧ ∃ s ∈ sections, leaf.1 = [s]

instance : DecidablePred IsSetting := fun leaf =>
  inferInstanceAs (Decidable (_ ∧ (∃ f : Field, f.path = leaf.1) ∨ _ ∧ ∃ s ∈ sections, leaf.1 = [s]))

theorem Field.path_ne_nil (f : Field) : f.path ≠ [] := by cases f <;> exact List.cons_ne_nil _ _

theorem Field.path_not_above_section : ∀ f : Field, ∀ s ∈ sections, ¬f.path <+: [s] := by decide

/-- A setting is in a section, or it is the one that is in none. -/
theorem Field.path_cases (f : Field) :
    f.path = ["participant_id"] ∨ ∃ s ∈ sections, ∃ name, f.path = [s, name] := by
  cases f with
  | participantId => exact .inl rfl
  | batchSize | leaseSpan | backoffBase | backoffMax | maxRetries | baseDelay | maxDelay | autoAgree
  | level | format => exact .inr ⟨_, by decide, _, rfl⟩

/-- The name of a setting. -/
def Field.name (f : Field) : String := f.path.getLastD ""

/-- The names that are known outside the sections. -/
def rootNames : List String := ["participant_id", "state_machine", "retry", "provider", "logging"]

/-- The names that are known in a section. -/
def namesIn (s : String) : List String :=
  (Field.all.filter fun f => f.path = [s, f.name]).map Field.name

theorem Field.name_mem_namesIn {f : Field} {s name : String} (h : f.path = [s, name]) :
    f.name ∈ namesIn s := by
  have hname : f.name = name := by rw [Field.name, h]; rfl
  have hall : f ∈ Field.all := by cases f <;> decide
  exact List.mem_map.2 ⟨f, List.mem_filter.2 ⟨hall, by simp [h, hname]⟩, rfl⟩

end Parley.Settings

namespace Parley.Dialect

open Settings

/-! ### Reading -/

variable {τ : Type} (d : Dialect τ) {v : τ} {s : Settings}

/-- What a value means for a setting. -/
def read? : (f : Field) → τ → Option f.Value
  | .participantId | .level => d.text?
  | .batchSize | .leaseSpan | .backoffBase | .backoffMax | .baseDelay | .maxDelay => d.word64?
  | .maxRetries => d.word32?
  | .autoAgree => d.flag?
  | .format => d.format?

/-- What a value with some names says of one of them, if it has these names. -/
def named? (names : List String) (name : String) (v : τ) : Option (Option τ) :=
  (d.parts? names v).map fun values => (values[names.idxOf name]?).join

/-- The setting of a name: what is said of it, or its default. -/
def value? (names : List String) (f : Field) (v : τ) : Option f.Value :=
  (d.named? names f.name v).bind fun said => said.elim (some (f.get {})) (d.read? f)

/-- A setting, from its place. In a section that is not there it has its default. -/
def reading? (f : Field) (v : τ) : Option f.Value :=
  match f.path with
  | [s, _] => (d.named? rootNames s v).bind fun part =>
    part.elim (some (f.get {})) (d.value? (namesIn s) f)
  | _ => d.value? rootNames f v

theorem setting?_eq {α : Type} (values : List (Option τ)) (i : ℕ) (read : τ → Option α) (default : α) :
    setting? values i read default = (values[i]?).join.elim (some default) read := by
  unfold setting?
  cases (values[i]?).join <;> rfl

variable {d}

/-- A section is read one setting at a time if the values of its names are; if it is not there,
every setting in it has its default. -/
theorem elim_section_eq_some_iff {α : Type} {read : τ → Option α} {x₀ x : α} {names : List String}
    {build : List (Option τ) → Option α} {fields : List Field} (hfields : fields ≠ [])
    (hread : ∀ v, read v = (d.parts? names v).bind build)
    (hdefault : x₀ = x ↔ ∀ f ∈ fields, f.get {} = f.get s)
    (hbuild : ∀ values, build values = some x ↔ ∀ f ∈ fields,
      (values[names.idxOf f.name]?).join.elim (some (f.get {})) (d.read? f) = some (f.get s))
    (part : Option τ) : part.elim (some x₀) read = some x ↔
      ∀ f ∈ fields, part.elim (some (f.get {})) (d.value? names f) = some (f.get s) := by
  cases part with
  | none => simpa using hdefault
  | some v =>
    simp only [Option.elim_some, hread, value?, named?]
    cases d.parts? names v with
    | none => exact iff_of_false nofun fun h => nomatch h _ (List.head_mem hfields)
    | some values => simpa using hbuild values

theorem elim_rounds?_eq_some_iff (part : Option τ) : part.elim (some {}) d.rounds? = some s.rounds ↔
    ∀ f ∈ [Field.batchSize, .leaseSpan, .backoffBase, .backoffMax],
      part.elim (some (f.get {})) (d.value? (namesIn "state_machine") f) = some (f.get s) := by
  have hnames : namesIn "state_machine" =
      ["batch_size", "lease_duration_ms", "backoff_base_ms", "backoff_max_ms"] := by decide +kernel
  obtain ⟨_, ⟨batchSize, leaseSpan, backoffBase, backoffMax⟩, _, _, _⟩ := s
  refine elim_section_eq_some_iff (by simp) (fun _ => by rw [hnames]; rfl) ?_
    (fun values => ?_) part
  · simp only [RoundSettings.mk.injEq, List.mem_cons, List.not_mem_nil, or_false, Field.get,
      forall_eq_or_imp, forall_eq]
    rfl
  · simp only [setting?_eq, Option.bind_eq_bind, Option.bind_eq_some_iff, Option.some.injEq,
      RoundSettings.mk.injEq, ↓existsAndEq, and_true, List.mem_cons, List.not_mem_nil, or_false,
      hnames, forall_eq_or_imp, forall_eq]
    rfl

theorem elim_retry?_eq_some_iff (part : Option τ) : part.elim (some {}) d.retry? = some s.retry ↔
    ∀ f ∈ [Field.maxRetries, .baseDelay, .maxDelay],
      part.elim (some (f.get {})) (d.value? (namesIn "retry") f) = some (f.get s) := by
  have hnames : namesIn "retry" = ["max_retries", "base_delay_ms", "max_delay_ms"] := by
    decide +kernel
  obtain ⟨_, _, ⟨maxRetries, baseDelay, maxDelay⟩, _, _⟩ := s
  refine elim_section_eq_some_iff (by simp) (fun _ => by rw [hnames]; rfl) ?_
    (fun values => ?_) part
  · simp only [RetryPolicy.mk.injEq, List.mem_cons, List.not_mem_nil, or_false, Field.get,
      forall_eq_or_imp, forall_eq]
    rfl
  · simp only [setting?_eq, Option.bind_eq_bind, Option.bind_eq_some_iff, Option.some.injEq,
      RetryPolicy.mk.injEq, ↓existsAndEq, and_true, List.mem_cons, List.not_mem_nil, or_false,
      hnames, forall_eq_or_imp, forall_eq]
    rfl

theorem elim_autoAgree?_eq_some_iff (part : Option τ) :
    part.elim (some false) d.autoAgree? = some s.autoAgree ↔ ∀ f ∈ [Field.autoAgree],
      part.elim (some (f.get {})) (d.value? (namesIn "provider") f) = some (f.get s) := by
  have hnames : namesIn "provider" = ["auto_agree_requested"] := by decide +kernel
  refine elim_section_eq_some_iff (by simp) (fun _ => by rw [hnames]; rfl) ?_
    (fun values => ?_) part
  · rw [List.forall_mem_singleton]
    rfl
  · rw [setting?_eq, List.forall_mem_singleton, hnames]
    rfl

theorem elim_logging?_eq_some_iff (part : Option τ) :
    part.elim (some {}) d.logging? = some s.logging ↔ ∀ f ∈ [Field.level, .format],
      part.elim (some (f.get {})) (d.value? (namesIn "logging") f) = some (f.get s) := by
  have hnames : namesIn "logging" = ["level", "format"] := by decide +kernel
  obtain ⟨_, _, _, _, ⟨level, format⟩⟩ := s
  refine elim_section_eq_some_iff (by simp) (fun _ => by rw [hnames]; rfl) ?_
    (fun values => ?_) part
  · simp only [LogSettings.mk.injEq, List.mem_cons, List.not_mem_nil, or_false, Field.get,
      forall_eq_or_imp, forall_eq]
    rfl
  · simp only [setting?_eq, Option.bind_eq_bind, Option.bind_eq_some_iff, Option.some.injEq,
      LogSettings.mk.injEq, exists_eq_right_right, List.mem_cons, List.not_mem_nil, or_false,
      hnames, forall_eq_or_imp, forall_eq]
    rfl

theorem reading?_root {f : Field} {name : String} (hf : f.path = [name]) :
    d.reading? f v = d.value? rootNames f v := by
  unfold reading?
  rw [hf]

theorem reading?_section {f : Field} {part name : String} (hf : f.path = [part, name]) :
    d.reading? f v = (d.named? rootNames part v).bind fun w =>
      w.elim (some (f.get {})) (d.value? (namesIn part) f) := by
  unfold reading?
  rw [hf]

section

variable {values : List (Option τ)}

theorem reading?_participantId (hparts : d.parts? rootNames v = some values) :
    d.reading? .participantId v =
      (values[0]?).join.elim (some (Field.participantId.get {})) d.text? := by
  rw [reading?_root (f := .participantId) rfl, value?, named?, hparts]
  rfl

theorem reading?_part (hparts : d.parts? rootNames v = some values) (part : String) {i : ℕ}
    (hi : rootNames.idxOf part = i) {f : Field} (hf : f.path = [part, f.name]) :
    d.reading? f v = (values[i]?).join.elim (some (f.get {})) (d.value? (namesIn part) f) := by
  rw [reading?_section hf, named?, hparts, ← hi]
  rfl

theorem settings?_eq_some_iff_parts (hparts : d.parts? rootNames v = some values) :
    d.settings? v = some s ↔
      (values[0]?).join.elim (some "") d.text? = some s.participantId ∧
      (values[1]?).join.elim (some {}) d.rounds? = some s.rounds ∧
      (values[2]?).join.elim (some {}) d.retry? = some s.retry ∧
      (values[3]?).join.elim (some false) d.autoAgree? = some s.autoAgree ∧
      (values[4]?).join.elim (some {}) d.logging? = some s.logging := by
  rw [rootNames] at hparts
  simp only [settings?, hparts, Option.bind_eq_bind, Option.bind_some, setting?_eq,
    Option.bind_eq_some_iff]
  constructor
  · rintro ⟨_, hid, _, hrounds, _, hretry, _, hauto, _, hlogging, h⟩
    cases h
    exact ⟨hid, hrounds, hretry, hauto, hlogging⟩
  · rintro ⟨hid, hrounds, hretry, hauto, hlogging⟩
    exact ⟨_, hid, _, hrounds, _, hretry, _, hauto, _, hlogging, rfl⟩

end

/-- **Settings are read one by one**, whatever they are read from. -/
theorem settings?_eq_some_iff :
    d.settings? v = some s ↔ ∀ f : Field, d.reading? f v = some (f.get s) := by
  cases hparts : d.parts? rootNames v with
  | none =>
    have hnone : d.reading? .participantId v = none := by
      rw [reading?_root (f := .participantId) rfl, value?, named?, hparts]
      rfl
    rw [rootNames] at hparts
    refine iff_of_false (by simp [settings?, hparts]) fun h => ?_
    have hid := h .participantId
    rw [hnone] at hid
    cases hid
  | some values =>
    rw [settings?_eq_some_iff_parts hparts, elim_rounds?_eq_some_iff, elim_retry?_eq_some_iff,
      elim_autoAgree?_eq_some_iff, elim_logging?_eq_some_iff]
    constructor
    · rintro ⟨hid, hrounds, hretry, hauto, hlogging⟩ f
      cases f with
      | participantId => exact (reading?_participantId hparts).trans hid
      | batchSize | leaseSpan | backoffBase | backoffMax =>
        exact (reading?_part hparts "state_machine" rfl rfl).trans (hrounds _ (by decide))
      | maxRetries | baseDelay | maxDelay =>
        exact (reading?_part hparts "retry" rfl rfl).trans (hretry _ (by decide))
      | autoAgree => exact (reading?_part hparts "provider" rfl rfl).trans (hauto _ (by decide))
      | level | format =>
        exact (reading?_part hparts "logging" rfl rfl).trans (hlogging _ (by decide))
    · intro h
      have hpart {fields : List Field} {part : String} {i : ℕ} (hi : rootNames.idxOf part = i)
          (hf : ∀ f ∈ fields, f.path = [part, f.name]) : ∀ f ∈ fields,
            (values[i]?).join.elim (some (f.get {})) (d.value? (namesIn part) f) = some (f.get s) :=
        fun f hmem => (reading?_part hparts part hi (hf f hmem)).symm.trans (h f)
      exact ⟨(reading?_participantId hparts).symm.trans (h _), hpart rfl (by decide),
        hpart rfl (by decide), hpart rfl (by decide), hpart rfl (by decide)⟩

end Parley.Dialect

namespace Parley.Settings

namespace Tree

variable {t v : Tree}

/-- The tree is a table, and so are its sections as far as they are there. -/
structure Sectioned (t : Tree) : Prop where
  root : t.isTable = true
  parts : ∀ s ∈ sections, ∀ v, t.member? s = some v → v.isTable = true

theorem sectioned_empty : (Tree.table []).Sectioned := ⟨rfl, fun _ _ _ h => nomatch h⟩

theorem Sectioned.set (ht : t.Sectioned) {name : String} (h : name ∈ sections → v.isTable = true) :
    (t.set name v).Sectioned := by
  refine ⟨isTable_set t name v, fun s hs w hw => ?_⟩
  rw [member?_set] at hw
  split at hw
  next hname =>
    cases hw
    exact h (hname ▸ hs)
  next => exact ht.parts s hs w hw

theorem Sectioned.write (ht : t.Sectioned) {leaf : List String × Tree} (h : IsSetting leaf) :
    (write leaf.1 leaf.2 t).Sectioned := by
  obtain ⟨-, f, hf⟩ | ⟨hv, s, hs, hpath⟩ := h
  · obtain hown | ⟨s, -, name, hin⟩ := f.path_cases
    · rw [← hf, hown]
      exact ht.set fun h => absurd h (by decide)
    · rw [← hf, hin]
      exact ht.set fun _ => isTable_set _ _ _
  · rw [hpath, Tree.write, if_pos hv]
    refine ht.set fun _ => ?_
    cases hmember : t.member? s with
    | none => rfl
    | some w => exact ht.parts s hs w hmember

theorem at?_write {leaf : List String × Tree} (h : IsSetting leaf) (f : Field) (t : Tree) :
    (Tree.write leaf.1 leaf.2 t).at? f.path = if leaf.1 = f.path then some leaf.2 else t.at? f.path := by
  obtain ⟨hv, g, hg⟩ | ⟨hv, s, hs, hpath⟩ := h
  · rw [← hg]
    by_cases hfg : g = f
    · subst hfg
      rw [if_pos rfl, at?_write_self g.path_ne_nil hv]
    · have hne : g.path ≠ f.path := fun heq => Field.path_not_above hfg (heq ▸ List.prefix_refl _)
      rw [if_neg hne, at?_write_of_apart (Field.path_not_above hfg)
        (Field.path_not_above (Ne.symm hfg))]
  · have hbelow : ¬f.path <+: [s] := Field.path_not_above_section f s hs
    have hne : [s] ≠ f.path := fun heq => hbelow (heq ▸ List.prefix_refl _)
    rw [hpath, if_neg hne, at?_write_table hv hbelow]

/-! ### Reading -/

theorem named?_eq {names : List String} {name : String} (ht : t.isTable = true) (h : name ∈ names) :
    dialect.named? names name t = some (t.member? name) := by
  obtain ⟨ms, rfl⟩ := isTable_iff.1 ht
  have hplace : names.idxOf name < names.length := List.idxOf_lt_length_iff.2 h
  show some ((names.map fun name => (table ms).member? name)[names.idxOf name]?).join = _
  rw [List.getElem?_map, List.getElem?_eq_getElem hplace, List.getElem_idxOf]
  rfl

theorem value?_eq {names : List String} {f : Field} (ht : t.isTable = true) (h : f.name ∈ names) :
    dialect.value? names f t = f.reading? (t.member? f.name) := by
  rw [Dialect.value?, named?_eq ht h]
  cases f <;> rfl

theorem Sectioned.reading?_eq (ht : t.Sectioned) (f : Field) :
    dialect.reading? f t = f.reading? (t.at? f.path) := by
  rcases f.path_cases with hf | ⟨s, hs, name, hf⟩
  · have hname : f.name = "participant_id" := by rw [Field.name, hf]; rfl
    rw [Dialect.reading?_root hf, value?_eq ht.root (by rw [hname]; decide), hname, hf, at?_singleton]
  · have hname : f.name = name := by rw [Field.name, hf]; rfl
    have hroot : s ∈ rootNames := (by decide : ∀ s ∈ sections, s ∈ rootNames) s hs
    rw [Dialect.reading?_section hf, named?_eq ht.root hroot, hf, at?_cons, Option.bind_some]
    cases hpart : t.member? s with
    | none => rfl
    | some v =>
      rw [Option.elim_some, value?_eq (ht.parts s hs v hpart) (Field.name_mem_namesIn hf), hname,
        Option.bind_some, at?_singleton]

/-- **Settings are read one by one**, each from its own place. -/
theorem settings?_eq_some_iff (ht : t.Sectioned) {s : Settings} :
    dialect.settings? t = some s ↔ ∀ f : Field, f.reading? (t.at? f.path) = some (f.get s) := by
  simp only [Dialect.settings?_eq_some_iff, ht.reading?_eq]

end Tree

end Parley.Settings
