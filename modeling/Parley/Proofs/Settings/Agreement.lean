import Parley.Proofs.Settings.Formats
import Parley.Proofs.Settings.Precedence

/-!
# One file, two ways to load it

A file can be loaded by itself, strictly, or as a layer below an environment that says nothing.  The
settings are the same exactly if every single one is, or if neither way makes up settings at all.  In
an orderly document they always are.  They need not be in others: the layers take a value for what it
may mean, so that a text may become a number and lose the zeros in front of it.

The trees of the layers are those of `Tree.putKeys`, in which a key with a subscript, such as
`logging[0]`, is a single name.  What becomes of such keys is not asked here: a document with one of
them is not orderly.

* `FileFormat.direct?`, `FileFormat.viaTree?` : a single setting on either way.
* `FileFormat.Orderly` : the document in a text is orderly.
* `loaders_agree_iff` : when both ways come to the same.
-/

namespace Parley

/-! ### Text -/

namespace Text.Utf8

theorem map_getD_of_mapM {x : Char} {os : List (Option Char)} {cs : List Char}
    (h : os.mapM id = some cs) : os.map (·.getD x) = cs := by
  induction os generalizing cs with
  | nil =>
    cases h
    rfl
  | cons o os ih =>
    simp only [List.mapM_cons, id_eq, Option.bind_eq_bind, Option.bind_eq_some_iff, Option.pure_def,
      Option.some.injEq] at h
    obtain ⟨c, rfl, cs, hcs, rfl⟩ := h
    rw [List.map_cons, ih hcs]
    rfl

end Text.Utf8

/-- A text that can be read is what is read of its bytes, unless they begin with a mark of the byte
order. -/
theorem Settings.File.content_eq {bytes : List UInt8} {content : String}
    (h : Text.Utf8.ofBytes? bytes = some content)
    (hmark : [0xEF, 0xBB, 0xBF].isPrefixOf bytes = false) : File.content bytes = content := by
  obtain ⟨cs, hcs, rfl⟩ := Option.map_eq_some_iff.1 h
  rw [File.content, hmark, if_neg Bool.false_ne_true, Text.Utf8.ofBytesLossy,
    Text.Utf8.map_getD_of_mapM hcs]

/-! ### Single settings -/

/-- The document in a YAML text with one document at most; without one it is an empty section. -/
def Yaml.onlyDocument? (content : String) : Option Yaml := do
  if content.toList.all isReadable then
    match ← documents? content with
    | [] => some (.mapping [] none)
    | [d] => some d
    | _ => none
  else none

theorem Yaml.settings?_eq (content : String) :
    settings? content = (onlyDocument? content).bind settingsDialect.settings? := by
  unfold settings? onlyDocument?
  split
  · cases documents? content with
    | none => rfl
    | some ds =>
      rcases ds with _ | ⟨d, _ | ⟨d', ds⟩⟩
      · decide +kernel
      · rfl
      · rfl
  · rfl

theorem Yaml.orderly_empty : Yaml.form.Orderly (.mapping [] none) :=
  ⟨by decide, [], rfl, fun _ _ => List.mem_cons_self, nofun⟩

theorem Yaml.toTree?_empty : Yaml.form.tree? (.mapping [] none) = some (.table []) := by
  show toTree? _ = _
  rw [toTree?, toMembers?]
  rfl

theorem Settings.Form.Orderly.reading?_eq_entries {τ : Type} {F : Form τ} {v : τ} {t : Tree}
    (h : F.Orderly v) (ht : F.tree? v = some t) (f : Field) :
    F.dialect.reading? f v = t.entries?.bind fun entries =>
      Tree.dialect.reading? f (Tree.putKeys entries (.table [])) := by
  obtain ⟨ms, rfl⟩ := Tree.isTable_iff.1 (h.isTable ht)
  exact h.reading?_eq ht f

namespace Settings

variable {s : Settings} {format : FileFormat} {content : String} {f : Field}

namespace FileFormat

/-- A single setting in a text of a format, read directly. -/
def direct? (format : FileFormat) (content : String) (f : Field) : Option f.Value :=
  match format with
  | toml => (Toml.read? content).bind (Toml.settingsDialect.reading? f)
  | yaml => (Yaml.onlyDocument? content).bind (Yaml.settingsDialect.reading? f)
  | json => (Json.read? content).bind (Wire.settingsDialect.reading? f)

/-- A single setting in a text of a format, read from the tree that is put together of it. -/
def viaTree? (format : FileFormat) (content : String) (f : Field) : Option f.Value :=
  ((format.tree? content).bind Tree.entries?).bind fun entries =>
    Tree.dialect.reading? f (Tree.putKeys entries (.table []))

theorem bind_settings?_eq_some_iff {τ : Type} {d : Dialect τ} {v : Option τ} :
    v.bind d.settings? = some s ↔ ∀ f : Field, v.bind (d.reading? f) = some (f.get s) := by
  cases v with
  | none => exact iff_of_false nofun fun h => nomatch h .participantId
  | some v => exact Dialect.settings?_eq_some_iff

theorem settings?_eq_some_iff :
    format.settings? content = some s ↔ ∀ f, format.direct? content f = some (f.get s) := by
  cases format with
  | toml => exact bind_settings?_eq_some_iff
  | yaml =>
    rw [settings?, Yaml.settings?_eq]
    exact bind_settings?_eq_some_iff
  | json => exact bind_settings?_eq_some_iff

/-- The document in a text is orderly, in each format with what the format asks for besides: every
character in a YAML text can be read, and a tree can be made of it; the numbers in a JSON text are in
range, and it is not nested too deeply. A text that is wrong for its format has no document. -/
def Orderly (format : FileFormat) (content : String) : Prop :=
  match format with
  | toml => ∀ v ∈ Toml.read? content, Toml.form.Orderly v
  | yaml => content.toList.all Yaml.isReadable = true ∧ ∀ ds ∈ Yaml.documents? content, ∀ d ∈ ds,
    (Yaml.form.tree? d).isSome = true ∧ Yaml.form.Orderly d
  | json => ∀ j ∈ Json.read? content, j.inRange = true ∧ j.depth ≤ Wire.depthLimit ∧
    Json.form.Orderly j

instance (format : FileFormat) (content : String) : Decidable (format.Orderly content) :=
  match format with
  | toml => inferInstanceAs (Decidable (∀ v ∈ Toml.read? content, Toml.form.Orderly v))
  | yaml => inferInstanceAs (Decidable (_ = true ∧ ∀ ds ∈ Yaml.documents? content, ∀ d ∈ ds, _ ∧ _))
  | json => inferInstanceAs (Decidable (∀ j ∈ Json.read? content, _ ∧ _ ∧ Json.form.Orderly j))

example : FileFormat.Orderly .yaml "participant_id: acme\nretry:\n  max_retries: 3\nowner: [a, 007]\n" ∧
    ¬FileFormat.Orderly .yaml "participant_id: 007\n" ∧
    ¬FileFormat.Orderly .yaml "logging[0]: info\n" := by decide +kernel

/-- **Single settings are the same on both ways** if the document is orderly. -/
theorem Orderly.direct?_eq (h : format.Orderly content) (f : Field) :
    format.direct? content f = format.viaTree? content f := by
  unfold direct? viaTree?
  cases format with
  | toml =>
    cases hread : Toml.read? content with
    | none => simp [tree?, Toml.tree?, hread]
    | some v =>
      simp only [tree?, Toml.tree?, hread, Option.map_some, Option.bind_some]
      exact (h v hread).reading?_eq_entries rfl f
  | yaml =>
    obtain ⟨hreadable, hdocuments⟩ := h
    cases hread : Yaml.documents? content with
    | none => simp [tree?, Yaml.tree?, Yaml.onlyDocument?, hread]
    | some ds =>
      simp only [tree?, Yaml.tree?, Yaml.onlyDocument?, hread, hreadable, if_true,
        Option.bind_eq_bind, Option.bind_some]
      rcases ds with _ | ⟨d, _ | ⟨d', ds⟩⟩
      · exact Yaml.orderly_empty.reading?_eq_entries Yaml.toTree?_empty f
      · obtain ⟨htree, hd⟩ := hdocuments _ hread d List.mem_cons_self
        obtain ⟨t, ht⟩ := Option.isSome_iff_exists.1 htree
        have ht' : d.toTree? = some t := ht
        simp only [ht', Option.bind_some]
        exact hd.reading?_eq_entries ht f
      · rfl
  | json =>
    cases hread : Json.read? content with
    | none => simp [tree?, Json.tree?, hread]
    | some j =>
      obtain ⟨hrange, hdepth, hj⟩ := h j hread
      simp only [tree?, Json.tree?, hread, hrange, hdepth, Option.bind_eq_bind, Option.bind_some,
        Bool.true_and, decide_true, if_true]
      exact hj.reading?_eq_entries rfl f

end FileFormat

/-! ### Both loaders -/

/-- All settings are the same on two ways if every single one is, or if neither way gives every
setting a value; and in no other case. -/
theorem same_settings_iff {R Q : (f : Field) → Option f.Value} :
    (∀ s : Settings, (∀ f, R f = some (f.get s)) ↔ ∀ f, Q f = some (f.get s)) ↔
      (∀ f, R f = Q f) ∨ (∃ f, R f = none) ∧ ∃ f, Q f = none := by
  have hsettings {R : (f : Field) → Option f.Value} (h : ¬∃ f, R f = none) :
      ∃ s : Settings, ∀ f, R f = some (f.get s) :=
    exists_get_eq_of_isSome fun f => Option.isSome_iff_ne_none.2 fun hnone => h ⟨f, hnone⟩
  constructor
  · intro h
    by_cases hnone : ∃ f, R f = none
    · refine .inr ⟨hnone, by_contra fun hall => ?_⟩
      obtain ⟨s, hs⟩ := hsettings hall
      obtain ⟨f, hf⟩ := hnone
      simpa [hf] using (h s).2 hs f
    · obtain ⟨s, hs⟩ := hsettings hnone
      exact .inl fun f => (hs f).trans ((h s).1 hs f).symm
  · rintro (hsame | ⟨⟨f, hf⟩, f', hf'⟩) s
    · simp only [hsame]
    · exact iff_of_false (fun h => by simpa [hf] using h f) fun h => by simpa [hf'] using h f'

section

variable {file : File} {lead : String} {env : Environment} {bytes : List UInt8}

theorem ofFile_eq_ok_iff (hformat : file.extension?.bind FileFormat.ofExtension? = some format)
    (hbytes : file.bytes = some bytes) (hcontent : Text.Utf8.ofBytes? bytes = some content) :
    ofFile file = .ok s ↔ ∀ f, format.direct? content f = some (f.get s) := by
  obtain ⟨extension, hextension, hformat⟩ := Option.bind_eq_some_iff.1 hformat
  have htext : file.text = .ok content := by simp only [File.text, hbytes, hcontent]
  rw [← FileFormat.settings?_eq_some_iff]
  simp only [ofFile, hextension, htext, hformat]
  show ofText format content = _ ↔ _
  unfold ofText
  cases format.settings? content <;> simp

theorem layeredTree?_eq (hformat : file.extension?.bind FileFormat.ofExtension? = some format)
    (hbytes : file.bytes = some bytes) (hlead : env.carrying lead = []) :
    layeredTree? env [.file file true, .environment lead] =
      ((format.tree? (File.content bytes)).bind Tree.entries?).map fun entries =>
        Tree.putKeys entries (.table []) := by
  have hordered : ordered [.file file true, .environment lead] =
      [.file file true, .environment lead] := ordered_eq _
  have hfile : (Layer.file file true).entries? env =
      (format.tree? (File.content bytes)).bind Tree.entries? := by
    simp only [Layer.entries?, hbytes, File.format, hformat, Option.getD_some]
  have hnothing : (Layer.environment lead).entries? env = some [] := by
    rw [Layer.entries?, ← Environment.entries_carrying, hlead]
    rfl
  have hlast (t : Tree) : (Layer.environment lead).layOnto? env t = some t := by
    rw [Layer.layOnto?, hnothing]
    rfl
  rw [layeredTree?, hordered, List.foldlM_cons, Layer.layOnto?, hfile]
  cases (format.tree? (File.content bytes)).bind Tree.entries? with
  | none => rfl
  | some entries => exact (congrArg (· >>= _) (hlast _)).trans rfl

theorem ofFileAndEnvironment_eq_ok_iff_viaTree
    (hformat : file.extension?.bind FileFormat.ofExtension? = some format)
    (hbytes : file.bytes = some bytes) (hlead : env.carrying lead = []) :
    ofFileAndEnvironment file lead env = .ok s ↔
      ∀ f, format.viaTree? (File.content bytes) f = some (f.get s) := by
  rw [ofFileAndEnvironment_eq_ok_iff, ofLayers_eq_ok_iff_layered?, layered?,
    layeredTree?_eq hformat hbytes hlead, Option.bind_map]
  unfold FileFormat.viaTree?
  cases (format.tree? (File.content bytes)).bind Tree.entries? with
  | none => exact iff_of_false (by simp) fun h => by simpa using h .participantId
  | some entries => exact Dialect.settings?_eq_some_iff

/-- **Both loaders agree** on a file, with an environment that says nothing, exactly if every single
setting is the same on both ways, or neither of them gives every setting a value.  In an orderly
document without a mark of the byte order they agree. -/
theorem loaders_agree_iff (hformat : file.extension?.bind FileFormat.ofExtension? = some format)
    (hbytes : file.bytes = some bytes) (hcontent : Text.Utf8.ofBytes? bytes = some content)
    (hlead : env.carrying lead = []) :
    ((∀ s, ofFileAndEnvironment file lead env = .ok s ↔ ofFile file = .ok s) ↔
      (∀ f, format.viaTree? (File.content bytes) f = format.direct? content f) ∨
        (∃ f, format.viaTree? (File.content bytes) f = none) ∧ ∃ f, format.direct? content f = none) ∧
    ([0xEF, 0xBB, 0xBF].isPrefixOf bytes = false → format.Orderly content →
      ∀ s, ofFileAndEnvironment file lead env = .ok s ↔ ofFile file = .ok s) := by
  have hvia (s : Settings) := ofFileAndEnvironment_eq_ok_iff_viaTree (s := s) hformat hbytes hlead
  have hdirect (s : Settings) := ofFile_eq_ok_iff (s := s) hformat hbytes hcontent
  have hiff := same_settings_iff (R := format.viaTree? (File.content bytes))
    (Q := format.direct? content)
  simp only [← hvia, ← hdirect] at hiff
  refine ⟨hiff, fun hmark horderly => hiff.2 (.inl fun f => ?_)⟩
  rw [File.content_eq hcontent hmark]
  exact (horderly.direct?_eq f).symm

end

/-- The file with a section is orderly, so both loaders agree on it. -/
theorem loaders_agree_iff_mixedFile : FileFormat.Orderly .toml "[logging]\nlevel = 'warn'\n" ∧
    ofFile mixedFile = .ok { logging := { level := "warn" } } ∧
    ofFileAndEnvironment mixedFile "x" mixedEnvironment = .ok { logging := { level := "warn" } } := by
  have horderly : FileFormat.Orderly .toml "[logging]\nlevel = 'warn'\n" := by
    decide +kernel
  have hfile : ofFile mixedFile = .ok { logging := { level := "warn" } } := by decide +kernel
  have hformat : mixedFile.extension?.bind FileFormat.ofExtension? = some .toml := by decide +kernel
  have hbytes : mixedFile.bytes = some (mixedFile.bytes.getD []) := rfl
  have hcontent : Text.Utf8.ofBytes? (mixedFile.bytes.getD []) =
      some "[logging]\nlevel = 'warn'\n" := by decide +kernel
  have hlead : mixedEnvironment.carrying "x" = [] := by decide +kernel
  have hagree := (loaders_agree_iff hformat hbytes hcontent hlead).2 (by decide +kernel) horderly
  exact ⟨horderly, hfile, (hagree _).2 hfile⟩

/-- A file with a participant whose name is a number with zeros in front. -/
def zerosFile : File where
  directory := "etc"
  name := "w.yaml"
  bytes := some ("participant_id: 007\n".toList.map fun c => UInt8.ofNat c.toNat)

/-- **Not on all files both loaders agree**: the zeros in front of a number get lost in the layers. -/
theorem not_loaders_agree_zeros : ¬∀ (file : File) (lead : String) (env : Environment)
    (format : FileFormat) (bytes : List UInt8) (content : String),
    file.extension?.bind FileFormat.ofExtension? = some format → file.bytes = some bytes →
    Text.Utf8.ofBytes? bytes = some content → env.carrying lead = [] →
    ∀ s, ofFileAndEnvironment file lead env = .ok s ↔ ofFile file = .ok s := by
  intro h
  have hdirect : ofFile zerosFile = .ok { participantId := "007" } := by decide +kernel
  have hlayered : ofFileAndEnvironment zerosFile "NEGOTIATION" [] =
      .ok { participantId := "7" } := by decide +kernel
  have hagree := (h zerosFile "NEGOTIATION" [] .yaml _ "participant_id: 007\n" (by decide +kernel) rfl
    (by decide +kernel) rfl _).2 hdirect
  rw [hlayered] at hagree
  exact absurd (Except.ok.inj hagree) (by decide)

end Settings

end Parley
