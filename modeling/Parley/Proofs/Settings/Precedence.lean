import Parley.Proofs.Settings.Fields
import Parley.Settings.Loading

/-!
# Which layer counts for a setting

Layers are put onto each other as trees, and the settings are read from the tree that they make up.
It comes to the same to ask, for every single setting, which layer is the last that says something of
it: among those that override, else among the files and environments, else among those to fall back
on.

* `Layer.value?` : what a layer says of a setting; `counting?` is what counts of all that is said.
* `Layer.Plain` : a layer names single settings, in sections or by their paths, and nothing else.
* `ofLayers_eq_ok_iff` : settings are made of layers one by one.
* `layered_fieldwise` : so they are, and layers of which everything can be read make up settings; a
  file with an environment is the case of two layers.

Nothing is asked of keys that a layer has twice: of these the last one counts.
-/

namespace Parley.Settings

variable {env : Environment} {t t' : Tree} {ls layers : List Layer}

/-! ### One layer -/

/-- The last leaf at a path. -/
def lastAt? (path : List String) (leaves : List (List String × Tree)) : Option Tree :=
  (leaves.reverse.find? (·.1 == path)).map (·.2)

theorem lastAt?_cons (path : List String) (leaf : List String × Tree)
    (leaves : List (List String × Tree)) : lastAt? path (leaf :: leaves) =
      (lastAt? path leaves).or (if leaf.1 = path then some leaf.2 else none) := by
  unfold lastAt?
  rw [List.reverse_cons, List.find?_append, Option.map_or]
  by_cases h : leaf.1 = path <;> simp [h]

/-- Of the leaves that are written the last one for a setting counts, and what is there already if
there is none for it. -/
theorem sectioned_and_at?_writeAll {leaves : List (List String × Tree)}
    (h : ∀ leaf ∈ leaves, IsSetting leaf) (ht : t.Sectioned) :
    (Tree.writeAll leaves t).Sectioned ∧
      ∀ f : Field, (Tree.writeAll leaves t).at? f.path = (lastAt? f.path leaves).or (t.at? f.path) := by
  induction leaves generalizing t with
  | nil => exact ⟨ht, fun _ => rfl⟩
  | cons leaf leaves ih =>
    obtain ⟨hleaf, hleaves⟩ := List.forall_mem_cons.1 h
    obtain ⟨hsectioned, hat⟩ := ih hleaves (ht.write hleaf)
    refine ⟨hsectioned, fun f => (hat f).trans ?_⟩
    rw [Tree.at?_write hleaf, lastAt?_cons, Option.or_assoc]
    split <;> rfl

/-- The variables of an environment whose names begin with a word and an underscore. -/
def Environment.carrying (lead : String) (env : Environment) : Environment :=
  env.filter fun x => (Environment.key? lead x.1).isSome

theorem Environment.entries_carrying (lead : String) (env : Environment) :
    Environment.entries lead (env.carrying lead) = Environment.entries lead env := by
  unfold entries carrying
  rw [List.filterMap_filter]
  congr 1
  funext ⟨name, value⟩
  dsimp only
  cases Environment.key? lead name <;> rfl

namespace Layer

/-- The leaves of a layer, in the order in which they are put; no answer if it cannot be had. -/
def leaves? (env : Environment) (l : Layer) : Option (List (List String × Tree)) :=
  (l.entries? env).map Tree.leavesAt

/-- The layer names single settings and nothing else. -/
def Plain (env : Environment) (l : Layer) : Prop :=
  ∀ leaves ∈ l.leaves? env, ∀ leaf ∈ leaves, IsSetting leaf

instance (env : Environment) : DecidablePred (Plain env) := fun l =>
  inferInstanceAs (Decidable (∀ leaves ∈ l.leaves? env, ∀ leaf ∈ leaves, IsSetting leaf))

/-- Every value in the layer is one that its setting can have. -/
def Legible (env : Environment) (l : Layer) : Prop :=
  ∀ leaves ∈ l.leaves? env, ∀ leaf ∈ leaves, ∀ f : Field, f.path = leaf.1 → (f.read? leaf.2).isSome

/-- What a layer says of a setting. -/
def value? (env : Environment) (f : Field) (l : Layer) : Option Tree :=
  (l.leaves? env).bind (lastAt? f.path)

/-- The layer is a value that overrides all. -/
def isOverride : Layer → Bool
  | override _ _ => true
  | _ => false

/-- The layer is a file or an environment. -/
def isSource : Layer → Bool
  | environment _ => true
  | file _ _ => true
  | _ => false

/-- The layer is a value to fall back on. -/
def isFallback : Layer → Bool
  | fallback _ _ => true
  | _ => false

theorem layOnto?_eq (env : Environment) (t : Tree) (l : Layer) :
    l.layOnto? env t = (l.leaves? env).map fun leaves => Tree.writeAll leaves t := by
  unfold layOnto? leaves?
  cases l.entries? env with
  | none => rfl
  | some entries => exact congrArg some (Tree.putKeys_eq_writeAll entries t)

end Layer

/-! ### All layers -/

/-- What is said of a setting by the last of some layers that says something of it. -/
def lastValue? (env : Environment) (f : Field) (ls : List Layer) : Option Tree :=
  ls.reverse.findSome? (Layer.value? env f)

/-- What counts for a setting: what the last layer says of it among those that override, else among
files and environments, else among those to fall back on. -/
def counting? (env : Environment) (layers : List Layer) (f : Field) : Option Tree :=
  (lastValue? env f (layers.filter Layer.isOverride)).or
    ((lastValue? env f (layers.filter Layer.isSource)).or
      (lastValue? env f (layers.filter Layer.isFallback)))

theorem lastValue?_append (env : Environment) (f : Field) (ls ms : List Layer) :
    lastValue? env f (ls ++ ms) = (lastValue? env f ms).or (lastValue? env f ls) := by
  rw [lastValue?, List.reverse_append, List.findSome?_append]
  rfl

theorem lastValue?_cons (env : Environment) (f : Field) (l : Layer) (ls : List Layer) :
    lastValue? env f (l :: ls) = (lastValue? env f ls).or (l.value? env f) := by
  rw [← List.singleton_append, lastValue?_append]
  congr 1
  cases h : l.value? env f <;> simp [lastValue?, h]

theorem isSome_foldlM_iff : (ls.foldlM (Layer.layOnto? env) t).isSome = true ↔
    ∀ l ∈ ls, (l.leaves? env).isSome = true := by
  induction ls generalizing t with
  | nil => simp
  | cons l ls ih =>
    rw [List.foldlM_cons, Layer.layOnto?_eq, List.forall_mem_cons]
    cases l.leaves? env with
    | none => simp
    | some leaves => simpa using ih

/-- In the tree that layers make up there stands for every setting what the last of them says. -/
theorem sectioned_and_at?_foldlM (h : ∀ l ∈ ls, l.Plain env) (ht : t.Sectioned)
    (hfold : ls.foldlM (Layer.layOnto? env) t = some t') :
    t'.Sectioned ∧ ∀ f : Field, t'.at? f.path = (lastValue? env f ls).or (t.at? f.path) := by
  induction ls generalizing t with
  | nil =>
    cases hfold
    exact ⟨ht, fun _ => rfl⟩
  | cons l ls ih =>
    obtain ⟨hl, hls⟩ := List.forall_mem_cons.1 h
    rw [List.foldlM_cons, Layer.layOnto?_eq] at hfold
    cases hleaves : l.leaves? env with
    | none =>
      rw [hleaves] at hfold
      cases hfold
    | some leaves =>
      rw [hleaves] at hfold
      obtain ⟨hsectioned, hat⟩ := sectioned_and_at?_writeAll (hl leaves hleaves) ht
      obtain ⟨hsectioned', hat'⟩ := ih hls hsectioned hfold
      refine ⟨hsectioned', fun f => ?_⟩
      have hvalue : l.value? env f = lastAt? f.path leaves := by rw [Layer.value?, hleaves]; rfl
      rw [hat' f, hat f, lastValue?_cons, hvalue, Option.or_assoc]

theorem ordered_eq (layers : List Layer) : ordered layers =
    layers.filter Layer.isFallback ++ layers.filter Layer.isSource ++
      layers.filter Layer.isOverride := by
  have hfallback : Layer.isFallback = (·.rank == 0) := by funext l; cases l <;> rfl
  have hsource : Layer.isSource = (·.rank == 1) := by funext l; cases l <;> rfl
  have hoverride : Layer.isOverride = (·.rank == 2) := by funext l; cases l <;> rfl
  rw [hfallback, hsource, hoverride, List.append_assoc]
  show _ ++ (_ ++ (_ ++ [])) = _
  rw [List.append_nil]

theorem mem_ordered {l : Layer} : l ∈ ordered layers ↔ l ∈ layers := by
  rw [ordered_eq]
  cases l <;> simp [Layer.isFallback, Layer.isSource, Layer.isOverride]

theorem lastValue?_ordered (env : Environment) (f : Field) (layers : List Layer) :
    lastValue? env f (ordered layers) = counting? env layers f := by
  rw [ordered_eq, lastValue?_append, lastValue?_append, counting?]

theorem isSome_layeredTree?_iff : (layeredTree? env layers).isSome = true ↔
    ∀ l ∈ layers, (l.leaves? env).isSome = true :=
  isSome_foldlM_iff.trans (forall_congr' fun _ => by rw [mem_ordered])

theorem sectioned_and_at?_layeredTree? (h : ∀ l ∈ layers, l.Plain env)
    (htree : layeredTree? env layers = some t) :
    t.Sectioned ∧ ∀ f : Field, t.at? f.path = counting? env layers f := by
  have hplain : ∀ l ∈ ordered layers, l.Plain env := fun l hl => h l (mem_ordered.1 hl)
  obtain ⟨hsectioned, hat⟩ := sectioned_and_at?_foldlM hplain Tree.sectioned_empty htree
  refine ⟨hsectioned, fun f => ?_⟩
  have hempty : (Tree.table []).at? f.path = none := by cases f <;> rfl
  rw [hat f, lastValue?_ordered, hempty, Option.or_none]

theorem ofLayers_eq_ok_iff_layered? {s : Settings} :
    ofLayers env layers = .ok s ↔ layered? env layers = some s := by
  unfold ofLayers
  cases layered? env layers <;> simp

/-- **Layers make up settings one by one**: if all layers can be had and name single settings only,
each setting is read from what counts for it. -/
theorem ofLayers_eq_ok_iff (h : ∀ l ∈ layers, l.Plain env) {s : Settings} :
    ofLayers env layers = .ok s ↔ (∀ l ∈ layers, (l.leaves? env).isSome = true) ∧
      ∀ f : Field, f.reading? (counting? env layers f) = some (f.get s) := by
  rw [ofLayers_eq_ok_iff_layered?, layered?, ← isSome_layeredTree?_iff]
  cases htree : layeredTree? env layers with
  | none => simp
  | some t =>
    obtain ⟨hsectioned, hat⟩ := sectioned_and_at?_layeredTree? h htree
    simp only [Option.bind_some, Tree.settings?_eq_some_iff hsectioned, hat, Option.isSome_some,
      true_and]

theorem isSome_leaves?_of_ofLayers {s : Settings} (h : ofLayers env layers = .ok s) :
    ∀ l ∈ layers, (l.leaves? env).isSome = true := by
  rw [← isSome_layeredTree?_iff]
  rw [ofLayers, layered?] at h
  cases htree : layeredTree? env layers with
  | none => simp [htree] at h
  | some _ => rfl

/-! ### What can be read -/

theorem exists_of_lastAt? {path : List String} {leaves : List (List String × Tree)} {v : Tree}
    (h : lastAt? path leaves = some v) : ∃ leaf ∈ leaves, leaf.1 = path ∧ leaf.2 = v := by
  obtain ⟨leaf, hfind, rfl⟩ := Option.map_eq_some_iff.1 h
  exact ⟨leaf, List.mem_reverse.1 (List.mem_of_find?_eq_some hfind),
    by simpa using List.find?_some hfind, rfl⟩

theorem Layer.Legible.isSome_read? {l : Layer} (h : l.Legible env) {f : Field} {v : Tree}
    (hvalue : l.value? env f = some v) : (f.read? v).isSome = true := by
  obtain ⟨leaves, hleaves, hlast⟩ := Option.bind_eq_some_iff.1 hvalue
  obtain ⟨leaf, hmem, hpath, rfl⟩ := exists_of_lastAt? hlast
  exact h leaves hleaves leaf hmem f hpath.symm

theorem exists_of_lastValue? {f : Field} {v : Tree} (h : lastValue? env f ls = some v) :
    ∃ l ∈ ls, l.value? env f = some v := by
  obtain ⟨l, hmem, hvalue⟩ := List.exists_of_findSome?_eq_some h
  exact ⟨l, List.mem_reverse.1 hmem, hvalue⟩

theorem exists_of_counting? {f : Field} {v : Tree} (h : counting? env layers f = some v) :
    ∃ l ∈ layers, l.value? env f = some v := by
  rw [← lastValue?_ordered] at h
  obtain ⟨l, hmem, hvalue⟩ := exists_of_lastValue? h
  exact ⟨l, mem_ordered.1 hmem, hvalue⟩

theorem exists_get_eq (values : (f : Field) → f.Value) :
    ∃ s : Settings, ∀ f : Field, f.get s = values f :=
  ⟨{ participantId := values .participantId
     rounds := ⟨values .batchSize, values .leaseSpan, values .backoffBase, values .backoffMax⟩
     retry := ⟨values .maxRetries, values .baseDelay, values .maxDelay⟩
     autoAgree := values .autoAgree
     logging := ⟨values .level, values .format⟩ }, fun f => by cases f <;> rfl⟩

theorem exists_get_eq_of_isSome {R : (f : Field) → Option f.Value}
    (h : ∀ f, (R f).isSome = true) : ∃ s : Settings, ∀ f, R f = some (f.get s) := by
  obtain ⟨s, hs⟩ := exists_get_eq fun f => (R f).get (h f)
  exact ⟨s, fun f => by rw [hs f, Option.some_get]⟩

theorem exists_ofLayers_eq_ok (h : ∀ l ∈ layers, l.Plain env)
    (hread : ∀ l ∈ layers, (l.leaves? env).isSome = true ∧ l.Legible env) :
    ∃ s, ofLayers env layers = .ok s := by
  have hreading (f : Field) : (f.reading? (counting? env layers f)).isSome = true := by
    cases hcounting : counting? env layers f with
    | none => rfl
    | some v =>
      obtain ⟨l, hl, hvalue⟩ := exists_of_counting? hcounting
      exact (hread l hl).2.isSome_read? hvalue
  obtain ⟨s, hs⟩ := exists_get_eq_of_isSome hreading
  exact ⟨s, (ofLayers_eq_ok_iff h).2 ⟨fun l hl => (hread l hl).1, hs⟩⟩

/-- For a setting in a file and an environment the environment counts. -/
theorem counting?_file_environment (env : Environment) (file : File) (lead : String) (f : Field) :
    counting? env [.file file true, .environment lead] f =
      ((Layer.environment lead).value? env f).or ((Layer.file file true).value? env f) := by
  show Option.or none ((lastValue? env f [.file file true, .environment lead]).or none) = _
  rw [Option.none_or, Option.or_none, lastValue?_cons, lastValue?_cons]
  rfl

/-- A file that is not there gives no settings, and no layer either. -/
theorem ofFileAndEnvironment_eq_ok_iff (env : Environment) (file : File) (lead : String)
    {s : Settings} : ofFileAndEnvironment file lead env = .ok s ↔
      ofLayers env [.file file true, .environment lead] = .ok s := by
  unfold ofFileAndEnvironment
  cases hbytes : file.bytes with
  | some bytes => rfl
  | none =>
    refine ⟨nofun, fun h => ?_⟩
    have hnone : (Layer.file file true).leaves? env = none := by
      rw [Layer.leaves?, Layer.entries?, hbytes]
      rfl
    have hfile := isSome_leaves?_of_ofLayers h _ List.mem_cons_self
    rw [hnone] at hfile
    cases hfile

/-- **Every setting is what the last layer says of it that counts.**  Layers that name single settings
and nothing else make up settings if all of them can be had and what counts can be read for every
setting, which then has that value; a setting of which nothing is said has its default. With a file and
an environment, what the environment says counts, and else what the file says. -/
theorem layered_fieldwise (env : Environment) :
    (∀ layers : List Layer, (∀ l ∈ layers, l.Plain env) →
      (∀ s, ofLayers env layers = .ok s ↔ (∀ l ∈ layers, (l.leaves? env).isSome = true) ∧
        ∀ f : Field, f.reading? (counting? env layers f) = some (f.get s)) ∧
      ((∀ l ∈ layers, (l.leaves? env).isSome = true ∧ l.Legible env) →
        ∃ s, ofLayers env layers = .ok s)) ∧
    ∀ (file : File) (lead : String), (Layer.file file true).Plain env →
      (Layer.environment lead).Plain env → ∀ s, ofFileAndEnvironment file lead env = .ok s ↔
        ((Layer.file file true).leaves? env).isSome = true ∧
        ∀ f : Field, f.reading? (((Layer.environment lead).value? env f).or
          ((Layer.file file true).value? env f)) = some (f.get s) := by
  refine ⟨fun layers h => ⟨fun s => ofLayers_eq_ok_iff h, exists_ofLayers_eq_ok h⟩,
    fun file lead hfile henv s => ?_⟩
  have hplain : ∀ l ∈ [Layer.file file true, .environment lead], l.Plain env := by
    simpa using ⟨hfile, henv⟩
  have hhad : (∀ l ∈ [Layer.file file true, .environment lead], (l.leaves? env).isSome = true) ↔
      ((Layer.file file true).leaves? env).isSome = true := by
    simp [Layer.leaves?, Layer.entries?]
  rw [ofFileAndEnvironment_eq_ok_iff, ofLayers_eq_ok_iff hplain, hhad]
  simp only [counting?_file_environment]

/-- A file with a section. -/
def mixedFile : File where
  directory := "etc"
  name := "w.toml"
  bytes := some ("[logging]\nlevel = 'warn'\n".toList.map fun c => UInt8.ofNat c.toNat)

/-- A variable for the same setting. -/
def mixedEnvironment : Environment := [("W_Logging__Level", "error")]

/-- Layers of all kinds, and not in the order in which they count. -/
def mixedLayers : List Layer :=
  [.override "logging.level" "debug", .environment "w", .file mixedFile true,
    .fallback "participant_id" "acme", .file { mixedFile with bytes := none } false]

/-- What overrides counts before the file and the environment, and the environment, where it comes
after the file, before the file. -/
theorem layered_fieldwise_mixed :
    (∀ l ∈ mixedLayers, l.Plain mixedEnvironment) ∧
    ofLayers mixedEnvironment mixedLayers =
      .ok { participantId := "acme", logging := { level := "debug" } } ∧
    ofFileAndEnvironment mixedFile "w" mixedEnvironment =
      .ok { logging := { level := "error" } } := by
  have hplain : ∀ l ∈ mixedLayers, l.Plain mixedEnvironment := by decide +kernel
  refine ⟨hplain, ?_, ?_⟩
  · exact (((layered_fieldwise mixedEnvironment).1 mixedLayers hplain).1 _).2
      ⟨by decide +kernel, by decide +kernel⟩
  · exact ((layered_fieldwise mixedEnvironment).2 mixedFile "w" (hplain _ (by simp [mixedLayers]))
      (hplain _ (by simp [mixedLayers])) _).2 ⟨by decide +kernel, by decide +kernel⟩

end Parley.Settings
