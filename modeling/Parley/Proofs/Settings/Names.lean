import Mathlib.Data.List.Forall2
import Parley.Proofs.Settings.Fields

/-!
# Names that are put together

Putting a table together changes names: they are kept in lower case, and those that stand outside the
sections are cut at their points.  A name that is known keeps the value it has in the table if no
other name comes to the same.

* `Tidy` : of the names in a table, none comes to a known one but this name itself, and that once.
* `Tree.rootName` : what comes of a name outside the sections, or of its part before the first point.
* `Tree.Put.member?_of_filter_eq` : what is found then is the value as it is put where nothing is,
  `Tree.planted`; `Tree.Put.member?_of_filter_nil` says when nothing is found.
-/

namespace Parley.Settings

/-- Of the names in a table that come to one of some names, there is none but that name itself, and it
is there once at most. -/
def Tidy {τ : Type} (norm : String → String) (names : List String) (ms : List (String × τ)) : Prop :=
  ∀ n ∈ names, (ms.filter fun m => norm m.1 == n).map Prod.fst ∈ [[], [n]]

instance {τ : Type} (norm : String → String) (names : List String) (ms : List (String × τ)) :
    Decidable (Tidy norm names ms) :=
  inferInstanceAs (Decidable (∀ n ∈ names, _ ∈ [[], [n]]))

variable {norm : String → String} {names : List String}

section

variable {τ : Type} {ms : List (String × τ)} {n : String}

theorem Tidy.filter_eq (h : Tidy norm names ms) (hn : n ∈ names) :
    (ms.filter fun m => norm m.1 == n) = [] ∨ ∃ w, (ms.filter fun m => norm m.1 == n) = [(n, w)] := by
  have hfst := h n hn
  simp only [List.mem_cons, List.not_mem_nil, or_false, List.map_eq_nil_iff] at hfst
  refine hfst.imp_right fun hone => ?_
  obtain ⟨⟨_, w⟩, hmem, hname⟩ := List.map_eq_singleton_iff.1 hone
  exact ⟨w, hmem.trans (by rw [← hname])⟩

theorem filter_name_eq (hknown : norm n = n) : (ms.filter fun m => m.1 == n) =
    (ms.filter fun m => norm m.1 == n).filter fun m => m.1 == n := by
  rw [List.filter_filter]
  congr 1
  funext m
  by_cases hm : m.1 = n <;> simp [hm, hknown]

theorem Tidy.once (h : Tidy norm names ms) (hknown : ∀ n ∈ names, norm n = n) : Tidy id names ms := by
  intro n hn
  show (ms.filter fun m => m.1 == n).map Prod.fst ∈ _
  rw [filter_name_eq (hknown n hn)]
  rcases h.filter_eq hn with hnil | ⟨w, hone⟩
  · simp [hnil]
  · simp [hone]

end

namespace Tree

variable {step : String → Tree → Tree → Tree} {n : String} {t v : Tree} {ms : List (String × Tree)}

/-- A value as it is put where nothing is: a table is put together anew. -/
def planted : Tree → Tree
  | table ms => putAll ms (table [])
  | v => v

/-- A way to put values under names: what comes of the name is set, and where nothing is the value is
planted. -/
structure Put (norm : String → String) (step : String → Tree → Tree → Tree) (names : List String) :
    Prop where
  set : ∀ name v t, ∃ w, step name v t = t.set (norm name) w
  plant : ∀ n ∈ names, ∀ v t, t.member? n = none → step n v t = t.set n v.planted
  known : ∀ n ∈ names, norm n = n

namespace Put

theorem member?_of_filter_nil (h : Put norm step names)
    (hms : (ms.filter fun m => norm m.1 == n) = []) (t : Tree) :
    (ms.foldl (fun t m => step m.1 m.2 t) t).member? n = t.member? n := by
  induction ms generalizing t with
  | nil => rfl
  | cons m ms ih =>
    obtain ⟨w, hw⟩ := h.set m.1 m.2 t
    rw [List.filter_cons] at hms
    split at hms
    · cases hms
    next hne => rw [List.foldl_cons, ih hms, hw, member?_set_of_ne (by simpa using hne)]

theorem member?_of_filter_eq (h : Put norm step names) (hn : n ∈ names)
    (hms : (ms.filter fun m => norm m.1 == n) = [(n, v)]) (ht : t.member? n = none) :
    (ms.foldl (fun t m => step m.1 m.2 t) t).member? n = some v.planted := by
  induction ms generalizing t with
  | nil => cases hms
  | cons m ms ih =>
    rw [List.filter_cons] at hms
    split at hms
    · obtain ⟨rfl, hrest⟩ := List.cons.inj hms
      rw [List.foldl_cons, h.member?_of_filter_nil hrest, h.plant n hn v t ht, member?_set_self]
    next hne =>
      obtain ⟨w, hw⟩ := h.set m.1 m.2 t
      refine ih hms ?_
      show (step m.1 m.2 t).member? n = none
      rw [hw, member?_set_of_ne (by simpa using hne), ht]

end Put

/-! ### In a section -/

theorem putAll_eq_foldl (ms : List (String × Tree)) (t : Tree) :
    putAll ms t = ms.foldl (fun t m => put m.1 m.2 t) t := by
  induction ms generalizing t with
  | nil => rfl
  | cons m ms ih => exact ih _

theorem exists_put_eq (name : String) (v t : Tree) :
    ∃ w, put name v t = t.set (Text.lowercaseText name) w := by
  cases v <;> exact ⟨_, rfl⟩

theorem put_eq_of_none {name : String} (ht : t.member? (Text.lowercaseText name) = none) (v : Tree) :
    put name v t = t.set (Text.lowercaseText name) v.planted := by
  cases v with
  | table ms => simp only [put, ht, Option.getD_none, planted]
  | nothing | flag _ | whole _ | real _ | text _ | items _ => rfl

theorem isTable_putAll (ht : t.isTable = true) (ms : List (String × Tree)) :
    (putAll ms t).isTable = true := by
  induction ms generalizing t with
  | nil => exact ht
  | cons m ms ih =>
    obtain ⟨w, hw⟩ := exists_put_eq m.1 m.2 t
    exact ih (hw ▸ isTable_set ..)

theorem isTable_planted (v : Tree) : v.planted.isTable = v.isTable := by
  cases v with
  | table ms => exact isTable_putAll rfl ms
  | nothing | flag _ | whole _ | real _ | text _ | items _ => rfl

theorem put_section (s : String) : Put Text.lowercaseText put (namesIn s) := by
  have hlower : ∀ f : Field, Text.lowercaseText f.name = f.name := by decide +kernel
  have hknown : ∀ n ∈ namesIn s, Text.lowercaseText n = n := by
    intro n hn
    obtain ⟨f, -, rfl⟩ := List.mem_map.1 hn
    exact hlower f
  refine ⟨exists_put_eq, fun n hn v t ht => ?_, hknown⟩
  rw [← hknown n hn] at ht
  rw [put_eq_of_none ht, hknown n hn]

/-! ### Outside the sections -/

/-- What comes of a name outside the sections: the first name on its path, in lower case. -/
def rootName (key : String) : String := Text.lowercaseText (((path? key).getD [key]).headD key)

theorem exists_putKey_eq (key : String) (v t : Tree) : ∃ w, putKey key v t = t.set (rootName key) w := by
  unfold putKey rootName
  cases hpath : path? key with
  | none => exact exists_put_eq key v t
  | some names =>
    obtain ⟨name, path, rfl⟩ := List.exists_cons_of_ne_nil (path?_ne_nil hpath)
    cases path with
    | nil => exact exists_put_eq name v t
    | cons _ _ => exact ⟨_, rfl⟩

theorem put_root : Put rootName putKey rootNames := by
  have hpath : ∀ n ∈ rootNames, path? n = some [n] := by decide +kernel
  have hlower : ∀ n ∈ rootNames, Text.lowercaseText n = n := by decide +kernel
  refine ⟨exists_putKey_eq, fun n hn v t ht => ?_, fun n hn => ?_⟩
  · have hput : putKey n v t = put n v t := by rw [putKey, hpath n hn]; rfl
    rw [← hlower n hn] at ht
    rw [hput, put_eq_of_none ht, hlower n hn]
  · rw [rootName, hpath n hn]
    exact hlower n hn

theorem isTable_putKeys (ht : t.isTable = true) (es : List (String × Tree)) :
    (putKeys es t).isTable = true := by
  induction es generalizing t with
  | nil => exact ht
  | cons e es ih =>
    obtain ⟨w, hw⟩ := exists_putKey_eq e.1 e.2 t
    exact ih (t := putKey e.1 e.2 t) (hw ▸ isTable_set ..)

end Tree

end Parley.Settings
