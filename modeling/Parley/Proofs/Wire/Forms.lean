import Mathlib.Data.List.Forall2
import Parley.Proofs.Json.Text
import Parley.Wire.Fields

/-!
# The forms of a record

A record is written as an object, and may be read from the array of its values as well.  Records
hold records, and each of them may come in either form.

* `Json.Recasts` : a value with some of its objects replaced by arrays; `Json.positional` has all of
  them replaced.
* `Plain.recasts_self`, `Plain.recasts_positional`, `Plain.of_recasts` : for plain values these are
  forms, and forms are plain.
* `Wire.Reads` : every form of what is written is read as what it was written from.
* `Fields.Holds` : the values found for the fields of a record are forms of those that were written;
  `Fields.exists_of_object` and `Fields.exists_of_array` find them, and `Holds.required` and its
  siblings read one of them and go on.
-/

namespace Parley

namespace Json

/-- The second value is a form of the first one: some of the objects in it, or none, are replaced by
the arrays of their values. -/
inductive Recasts : Json → Json → Prop where
  /-- There is nothing in the value. -/
  | plain {j : Json} (h : j.depth = 0) : Recasts j j
  /-- The items of an array are recast. -/
  | array {js ks : List Json} (h : List.Forall₂ Recasts js ks) : Recasts (.array js) (.array ks)
  /-- The values of an object are recast. -/
  | object {ms ns : List (String × Json)} (hnames : ns.map Prod.fst = ms.map Prod.fst)
    (h : List.Forall₂ Recasts (ms.map Prod.snd) (ns.map Prod.snd)) :
    Recasts (.object ms) (.object ns)
  /-- The values of an object are recast, and their names are left out. -/
  | positional {ms : List (String × Json)} {ks : List Json}
    (h : List.Forall₂ Recasts (ms.map Prod.snd) ks) : Recasts (.object ms) (.array ks)

mutual

/-- A value with all objects in it replaced by the arrays of their values. -/
def positional : Json → Json
  | array items => array (positionalItems items)
  | object members => array (positionalMembers members)
  | other => other

/-- The items, each with all objects in it replaced. -/
def positionalItems : List Json → List Json
  | [] => []
  | j :: js => j.positional :: positionalItems js

/-- The values of the members, each with all objects in it replaced. -/
def positionalMembers : List (String × Json) → List Json
  | [] => []
  | (_, j) :: ms => j.positional :: positionalMembers ms

end

theorem forall₂_positionalItems {items : List Json} (h : ∀ j ∈ items, Recasts j j.positional) :
    List.Forall₂ Recasts items (positionalItems items) := by
  induction items with
  | nil => exact .nil
  | cons j js ih =>
    obtain ⟨hj, hjs⟩ := List.forall_mem_cons.1 h
    exact .cons hj (ih hjs)

theorem forall₂_positionalMembers {members : List (String × Json)}
    (h : ∀ m ∈ members, Recasts m.2 m.2.positional) :
    List.Forall₂ Recasts (members.map Prod.snd) (positionalMembers members) := by
  induction members with
  | nil => exact .nil
  | cons m ms ih =>
    obtain ⟨hm, hms⟩ := List.forall_mem_cons.1 h
    exact .cons hm (ih hms)

theorem Plain.recasts_self {n : ℕ} {j : Json} (h : Plain n j) : j.Recasts j := by
  induction h with
  | null | bool | natural | string => exact .plain rfl
  | array h ih => exact .array (List.forall₂_same.2 ih)
  | object h ih => exact .object rfl (List.forall₂_same.2 (List.forall_mem_map.2 ih))

theorem Plain.recasts_positional {n : ℕ} {j : Json} (h : Plain n j) :
    j.Recasts j.positional := by
  induction h with
  | null | bool | natural | string => exact .plain rfl
  | array h ih => exact .array (forall₂_positionalItems ih)
  | object h ih => exact .positional (forall₂_positionalMembers ih)

theorem forall_of_forall₂ {p : Json → Prop} {js ks : List Json} (h : List.Forall₂ Recasts js ks)
    (hp : ∀ j ∈ js, ∀ k, j.Recasts k → p k) : ∀ k ∈ ks, p k := by
  induction h with
  | nil => exact List.forall_mem_nil _
  | cons hj hjs ih =>
    obtain ⟨hhead, htail⟩ := List.forall_mem_cons.1 hp
    exact List.forall_mem_cons.2 ⟨hhead _ hj, ih htail⟩

theorem Plain.of_recasts {n : ℕ} {j : Json} (h : Plain n j) :
    ∀ {k : Json}, j.Recasts k → Plain n k := by
  induction h with
  | null => rintro k ⟨-⟩; exact .null
  | bool b => rintro k ⟨-⟩; exact .bool b
  | natural h => rintro k ⟨-⟩; exact .natural h
  | string s => rintro k ⟨-⟩; exact .string s
  | array h ih =>
    intro k hk
    cases hk with
    | plain hdepth => exact .array h
    | array hitems => exact .array (forall_of_forall₂ hitems fun j hj k hk => ih j hj hk)
  | object h ih =>
    intro k hk
    cases hk with
    | plain hdepth => exact .object h
    | object _ hvalues =>
      refine .object (List.forall_mem_map.1 (forall_of_forall₂ hvalues ?_))
      exact List.forall_mem_map.2 fun m hm k hk => ih m hm hk
    | positional hvalues =>
      refine .array (forall_of_forall₂ hvalues ?_)
      exact List.forall_mem_map.2 fun m hm k hk => ih m hm hk

theorem inRangeItems_of_forall {items : List Json} (h : ∀ j ∈ items, j.inRange = true) :
    inRangeItems items = true := by
  induction items with
  | nil => rfl
  | cons j js ih =>
    obtain ⟨hj, hjs⟩ := List.forall_mem_cons.1 h
    rw [inRangeItems, hj, ih hjs, Bool.and_self]

theorem inRangeMembers_of_forall {members : List (String × Json)}
    (h : ∀ m ∈ members, m.2.inRange = true) : inRangeMembers members = true := by
  induction members with
  | nil => rfl
  | cons m ms ih =>
    obtain ⟨hm, hms⟩ := List.forall_mem_cons.1 h
    rw [inRangeMembers, hm, ih hms, Bool.and_self]

theorem depthOfItems_le {n : ℕ} {items : List Json} (h : ∀ j ∈ items, j.depth ≤ n) :
    depthOfItems items ≤ n := by
  induction items with
  | nil => exact Nat.zero_le n
  | cons j js ih =>
    obtain ⟨hj, hjs⟩ := List.forall_mem_cons.1 h
    exact Nat.max_le.2 ⟨hj, ih hjs⟩

theorem depthOfMembers_le {n : ℕ} {members : List (String × Json)}
    (h : ∀ m ∈ members, m.2.depth ≤ n) : depthOfMembers members ≤ n := by
  induction members with
  | nil => exact Nat.zero_le n
  | cons m ms ih =>
    obtain ⟨hm, hms⟩ := List.forall_mem_cons.1 h
    exact Nat.max_le.2 ⟨hm, ih hms⟩

theorem Plain.inRange {n : ℕ} {j : Json} (h : Plain n j) : j.inRange = true := by
  induction h with
  | null | bool | natural | string => rfl
  | array h ih => exact inRangeItems_of_forall ih
  | object h ih => exact inRangeMembers_of_forall ih

theorem Plain.depth_le {n : ℕ} {j : Json} (h : Plain n j) : j.depth ≤ n := by
  induction h with
  | null | bool | natural | string => exact Nat.zero_le _
  | array h ih => exact Nat.succ_le_succ (depthOfItems_le ih)
  | object h ih => exact Nat.succ_le_succ (depthOfMembers_le ih)

end Json

namespace Wire

variable {α : Type} {write : α → Json} {read : Reader α} {ms ns : List (String × Json)}

/-! ### Values -/

/-- Every form of what is written is read as what it was written from. -/
def Reads (write : α → Json) (read : Reader α) : Prop :=
  ∀ x j, (write x).Recasts j → read j = some x

theorem reads_text : Reads .string Json.text? := by
  rintro s j ⟨-⟩
  rfl

theorem reads_flag : Reads .bool Json.bool? := by
  rintro b j ⟨-⟩
  rfl

theorem reads_word64 : Reads ofWord64 word64? := by
  rintro n j ⟨-⟩
  rw [ofWord64, word64?, if_pos n.toNat_lt_size, UInt64.ofNat_toNat]

theorem reads_word32 : Reads ofWord32 word32? := by
  rintro n j ⟨-⟩
  rw [ofWord32, word32?, if_pos n.toNat_lt_size, UInt32.ofNat_toNat]

theorem reads_name {name : α → String} {ofName? : String → Option α}
    (h : ∀ x, ofName? (name x) = some x) : Reads (fun x => .string (name x)) (name? ofName?) := by
  rintro x j ⟨-⟩
  exact h x

theorem mapM_of_forall₂ (h : Reads write read) {xs : List α} {ks : List Json}
    (hks : List.Forall₂ Json.Recasts (xs.map write) ks) : ks.mapM read = some xs := by
  induction xs generalizing ks with
  | nil =>
    cases hks
    rfl
  | cons x xs ih =>
    rw [List.map_cons] at hks
    cases hks with
    | cons hx hxs =>
      rw [List.mapM_cons, h x _ hx, ih hxs]
      rfl

theorem Reads.list (h : Reads write read) :
    Reads (fun xs => .array (xs.map write)) (list? read) := by
  rintro xs j (hdepth | hitems)
  · exact absurd hdepth (Nat.succ_ne_zero _)
  · exact mapM_of_forall₂ h hitems

/-! ### Fields -/

/-- The values found for the fields of a record are forms of those that were written. -/
def Fields.Holds (f : Fields) (ms : List (String × Json)) : Prop :=
  ∀ i m, ms[i]? = some m → ∃ k, f.value? i = some k ∧ m.2.Recasts k

theorem Fields.holds_of_forall₂ {ks : List Json}
    (h : List.Forall₂ Json.Recasts (ms.map Prod.snd) ks) (byName : Bool) :
    Fields.Holds ⟨byName, ks.map some⟩ ms := by
  intro i m hm
  obtain ⟨hlength, hrecasts⟩ := List.forall₂_iff_get.1 h
  obtain ⟨hi, rfl⟩ := List.getElem?_eq_some_iff.1 hm
  rw [List.length_map] at hlength
  have hk : i < ks.length := hlength ▸ hi
  have hrecast := hrecasts i (by rwa [List.length_map]) hk
  refine ⟨ks[i], ?_, ?_⟩
  · rw [Fields.value?, List.getElem?_map, List.getElem?_eq_getElem hk]
    rfl
  · rw [List.get_eq_getElem, List.get_eq_getElem, List.getElem_map] at hrecast
    exact hrecast

theorem onlyMember?_of_mem {name : String} {j : Json} (hd : (ns.map Prod.fst).Nodup)
    (h : (name, j) ∈ ns) : onlyMember? name ns = some (some j) := by
  have hfilter : ns.filter (·.1 == name) = [(name, j)] := by
    induction ns with
    | nil => cases h
    | cons n ns ih =>
      obtain ⟨hn, hd⟩ := List.nodup_cons.1 hd
      rcases List.mem_cons.1 h with rfl | h
      · have hrest : ns.filter (·.1 == name) = [] := List.filter_eq_nil_iff.2 fun m hm heq =>
          hn (List.mem_map.2 ⟨m, hm, beq_iff_eq.1 heq⟩)
        rw [List.filter_cons, if_pos (beq_self_eq_true name), hrest]
      · rw [List.filter_cons_of_neg, ih hd h]
        intro heq
        exact hn (List.mem_map.2 ⟨_, h, (beq_iff_eq.1 heq).symm⟩)
  rw [onlyMember?, hfilter]

theorem membersOf?_of_forall (h : ∀ m ∈ ms, onlyMember? m.1 ns = some (some m.2)) :
    membersOf? ns (ms.map Prod.fst) = some ((ms.map Prod.snd).map some) := by
  induction ms with
  | nil => rfl
  | cons m ms ih =>
    obtain ⟨hm, hms⟩ := List.forall_mem_cons.1 h
    rw [List.map_cons, membersOf?, hm, ih hms]
    rfl

theorem positions?_of_length {ks : List Json} {names : List String}
    (h : names.length = ks.length) : positions? ks names = some (ks.map some) := by
  induction ks generalizing names with
  | nil =>
    rw [List.length_eq_zero_iff.1 h]
    rfl
  | cons k ks ih =>
    cases names with
    | nil => cases h
    | cons name names =>
      rw [positions?, ih (Nat.succ.inj h)]
      rfl

theorem Fields.exists_of_object (extra : List (String × Json))
    (hnames : ns.map Prod.fst = ms.map Prod.fst)
    (h : List.Forall₂ Json.Recasts (ms.map Prod.snd) (ns.map Prod.snd))
    (hd : ((extra ++ ns).map Prod.fst).Nodup) :
    ∃ f, Fields.ofJson? (ms.map Prod.fst) (.object (extra ++ ns)) = some f ∧ f.Holds ms := by
  refine ⟨_, ?_, Fields.holds_of_forall₂ h true⟩
  rw [Fields.ofJson?, ← hnames, membersOf?_of_forall fun m hm =>
    onlyMember?_of_mem hd (List.mem_append_right extra hm)]
  rfl

theorem Fields.exists_of_array {ks : List Json}
    (h : List.Forall₂ Json.Recasts (ms.map Prod.snd) ks) :
    ∃ f, Fields.ofJson? (ms.map Prod.fst) (.array ks) = some f ∧ f.Holds ms := by
  have hlength := h.length_eq
  rw [List.length_map] at hlength
  refine ⟨_, ?_, Fields.holds_of_forall₂ h false⟩
  rw [Fields.ofJson?, positions?_of_length ((List.length_map ..).trans hlength)]
  rfl

/-- The fields of a record are found in every form of it. -/
theorem Fields.exists_of_recasts {j : Json} (h : (Json.object ms).Recasts j)
    (hd : (ms.map Prod.fst).Nodup) :
    ∃ f, Fields.ofJson? (ms.map Prod.fst) j = some f ∧ f.Holds ms := by
  cases h with
  | plain hdepth => exact absurd hdepth (Nat.succ_ne_zero _)
  | object hnames h => exact Fields.exists_of_object [] hnames h (hnames ▸ hd)
  | positional h => exact Fields.exists_of_array h

theorem Fields.bind_ofJson? {j : Json} {x : α} (h : (Json.object ms).Recasts j)
    (hd : (ms.map Prod.fst).Nodup) {g : Fields → Option α}
    (hg : ∀ f : Fields, f.Holds ms → g f = some x) :
    (Fields.ofJson? (ms.map Prod.fst) j).bind g = some x := by
  obtain ⟨f, hf, hold⟩ := Fields.exists_of_recasts h hd
  rw [hf, Option.bind_some, hg f hold]

namespace Fields.Holds

variable {f : Fields} {β : Type} {name : String} {x : α} {y : β}

theorem required (hf : f.Holds ms) (i : ℕ) (hr : Reads write read)
    (hi : ms[i]? = some (name, write x)) {g : α → Option β} (hg : g x = some y) :
    (f.required? i read).bind g = some y := by
  obtain ⟨k, hk, hrecast⟩ := hf i _ hi
  rw [Fields.required?, hk, Option.bind_some, hr x k hrecast, Option.bind_some, hg]

/-- A field that may be `null` is told apart from it, since `null` is no value of its kind. -/
theorem optional (hf : f.Holds ms) (i : ℕ) (hr : Reads write read) (hnull : read .null = none)
    {x : Option α} (hi : ms[i]? = some (name, ofOption write x)) {g : Option α → Option β}
    (hg : g x = some y) : (f.optional? i read).bind g = some y := by
  obtain ⟨k, hk, hrecast⟩ := hf i _ hi
  have hvalue : f.optional? i read = some x := by
    rw [Fields.optional?, hk]
    cases x with
    | none =>
      cases hrecast
      rfl
    | some x =>
      have hread := hr x k hrecast
      cases k with
      | null => rw [hnull] at hread; cases hread
      | bool | natural | negative | real | string | array | object =>
        exact congrArg (Option.map some) hread
  rw [hvalue, Option.bind_some, hg]

theorem defaulted (hf : f.Holds ms) (i : ℕ) (hr : Reads write read)
    (hi : ms[i]? = some (name, write x)) {d : α} {g : α → Option β} (hg : g x = some y) :
    (f.defaulted? i read d).bind g = some y := by
  obtain ⟨k, hk, hrecast⟩ := hf i _ hi
  rw [Fields.defaulted?, hk]
  dsimp only
  rw [hr x k hrecast, Option.bind_some, hg]

end Fields.Holds

end Wire

end Parley
