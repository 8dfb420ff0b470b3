import Mathlib.Data.List.Basic
import Parley.Settings.Tree

/-!
# The leaves of a tree of settings

Settings are put into a tree entry by entry, and an entry may be a table of tables. It comes to the
same to write the leaves of the entry one after another, each at its own path.

* `Tree.leaves` : what stands at the ends of the paths of a tree.
* `Tree.write` : a tree in which one leaf was written at a path.
* `Tree.putKeys_eq_writeAll` : putting entries is writing their leaves.
* `Tree.at?_write_self`, `Tree.at?_write_of_apart` : what was written is found at its path, and
  what stands on a path apart from it stays.
-/

namespace Parley.Settings.Tree

variable {t v : Tree} {name : String} {path : List String}

/-! ### Tables -/

/-- The tree is a table. -/
def isTable : Tree → Bool
  | table _ => true
  | _ => false

theorem isTable_iff : t.isTable = true ↔ ∃ ms, t = table ms := by
  cases t <;> simp [isTable]

@[simp] theorem isTable_set (t : Tree) (name : String) (v : Tree) : (t.set name v).isTable = true := by
  unfold set
  split <;> rfl

theorem member?_set (t : Tree) (name : String) (v : Tree) (other : String) :
    (t.set name v).member? other = if name = other then some v else t.member? other := by
  -- whether an entry is the one that is looked for does not change when values are replaced
  have hkey : ((·.1 == other) ∘ fun m : String × Tree => if m.1 == name then (name, v) else m) =
      (·.1 == other) := by
    funext m
    by_cases hm : m.1 = name <;> simp [hm]
  unfold set
  by_cases hin : (t.member? name).isSome
  · rw [if_pos hin]
    show (List.find? _ (t.members.map _)).map _ = _
    rw [List.find?_map, hkey]
    by_cases hname : name = other
    · subst hname
      rw [if_pos rfl]
      cases hfind : t.members.find? (·.1 == name) with
      | none => simp [member?, hfind] at hin
      | some m =>
        have hm : m.1 = name := by simpa using List.find?_some hfind
        simp [hm]
    · rw [if_neg hname, member?]
      cases hfind : t.members.find? (·.1 == other) with
      | none => rfl
      | some m =>
        have hm : m.1 = other := by simpa using List.find?_some hfind
        simp [hm, Ne.symm hname]
  · rw [if_neg hin]
    show (List.find? _ (t.members ++ [(name, v)])).map _ = _
    rw [List.find?_append, Option.map_or]
    show (t.member? other).or _ = _
    by_cases hname : name = other
    · subst hname
      simp [Option.not_isSome_iff_eq_none.1 hin]
    · simp [hname]

theorem member?_set_self (t : Tree) (name : String) (v : Tree) :
    (t.set name v).member? name = some v := by
  rw [member?_set, if_pos rfl]

theorem member?_set_of_ne {other : String} (h : name ≠ other) (t v : Tree) :
    (t.set name v).member? other = t.member? other := by
  rw [member?_set, if_neg h]

theorem set_set (t : Tree) (name : String) (v w : Tree) :
    (t.set name v).set name w = t.set name w := by
  have hin : ((t.set name v).member? name).isSome = true := by rw [member?_set_self]; rfl
  rw [set, if_pos hin]
  unfold set
  split
  next =>
    show table ((t.members.map _).map _) = _
    rw [List.map_map]
    congr 2
    funext m
    by_cases hm : m.1 = name <;> simp [hm]
  next hnot =>
    have hnot : ∀ m ∈ t.members, m.1 ≠ name := by
      intro m hm heq
      refine hnot ?_
      rw [member?, Option.isSome_map, List.find?_isSome]
      exact ⟨m, hm, beq_iff_eq.2 heq⟩
    show table ((t.members ++ [(name, v)]).map _) = _
    rw [List.map_append, List.map_congr_left (g := id) fun m hm => by simp [hnot m hm]]
    simp

/-! ### Leaves -/

/-- The value at a path. -/
def at? : List String → Tree → Option Tree
  | [], t => some t
  | name :: path, t => (t.member? name).bind (at? path)

/-- A tree in which a leaf was written at a path. A table without entries says that there is a table,
and nothing about what is in it. -/
def write : (path : List String) → (leaf : Tree) → Tree → Tree
  | [], _, t => t
  | [name], leaf, t =>
    t.set name (if leaf.isTable then (t.member? name).getD (table []) else leaf)
  | name :: path, leaf, t => t.set name (write path leaf ((t.member? name).getD nothing))

/-- A tree in which leaves were written one after another. -/
def writeAll (leaves : List (List String × Tree)) (t : Tree) : Tree :=
  leaves.foldl (fun t leaf => write leaf.1 leaf.2 t) t

/-- What is at some paths, seen from a place above. -/
def under (path : List String) (leaves : List (List String × Tree)) : List (List String × Tree) :=
  leaves.map fun leaf => (path ++ leaf.1, leaf.2)

mutual

/-- The values in a tree that are no tables, and the tables without entries, with their paths. Names
are in lower case. -/
def leaves : Tree → List (List String × Tree)
  | table ms => if ms.isEmpty then [([], table [])] else leavesOf ms
  | v => [([], v)]

/-- The leaves of some named values. -/
def leavesOf : List (String × Tree) → List (List String × Tree)
  | [] => []
  | (name, v) :: ms => under [Text.lowercaseText name] v.leaves ++ leavesOf ms

end

/-- The path of a key, in lower case. A key that is no path is a single name. -/
def keyPath (key : String) : List String := ((path? key).getD [key]).map Text.lowercaseText

/-- The leaves of the values of some keys. -/
def leavesAt (entries : List (String × Tree)) : List (List String × Tree) :=
  entries.flatMap fun (key, v) => under (keyPath key) v.leaves

theorem under_under (p q : List String) (L : List (List String × Tree)) :
    under p (under q L) = under (p ++ q) L := by
  simp [under]

theorem writeAll_append (L M : List (List String × Tree)) (t : Tree) :
    writeAll (L ++ M) t = writeAll M (writeAll L t) := List.foldl_append

theorem write_cons (name : String) (hpath : path ≠ []) (v t : Tree) :
    write (name :: path) v t = t.set name (write path v ((t.member? name).getD nothing)) := by
  cases path with
  | nil => exact absurd rfl hpath
  | cons _ _ => rfl

theorem exists_write_cons (name : String) (path : List String) (v t : Tree) :
    ∃ w, write (name :: path) v t = t.set name w := by
  cases path with
  | nil => exact ⟨_, rfl⟩
  | cons _ _ => exact ⟨_, rfl⟩

theorem write_nothing (hpath : path ≠ []) (v : Tree) :
    write path v nothing = write path v (table []) := by
  cases path with
  | nil => exact absurd rfl hpath
  | cons name path => cases path <;> rfl

/-! ### Putting and writing -/

/-- Leaves below a name are written into what the name stands for. -/
theorem writeAll_under_singleton (name : String) {L : List (List String × Tree)} (hne : L ≠ [])
    (hpath : ∀ leaf ∈ L, leaf.1 ≠ []) (t : Tree) :
    writeAll (under [name] L) t = t.set name (writeAll L ((t.member? name).getD nothing)) := by
  induction L generalizing t with
  | nil => exact absurd rfl hne
  | cons leaf L ih =>
    have hfirst : write (name :: leaf.1) leaf.2 t =
        t.set name (write leaf.1 leaf.2 ((t.member? name).getD nothing)) :=
      write_cons name (hpath leaf List.mem_cons_self) leaf.2 t
    cases L with
    | nil => exact hfirst
    | cons next L =>
      show writeAll (under [name] (next :: L)) (write (name :: leaf.1) leaf.2 t) = _
      rw [hfirst, ih (List.cons_ne_nil _ _) fun l hl => hpath l (List.mem_cons_of_mem _ hl),
        member?_set_self, set_set]
      rfl

theorem leaves_ne_nil : (v : Tree) → v.leaves ≠ []
  | table [] => by simp [leaves]
  | table ((name, v) :: ms) => by
    have hv := leaves_ne_nil v
    simp [leaves, leavesOf, under, hv]
  | nothing | flag _ | whole _ | real _ | text _ | items _ => by simp [leaves]

theorem leavesOf_ne_nil {ms : List (String × Tree)} (h : ms ≠ []) : leavesOf ms ≠ [] := by
  cases ms with
  | nil => exact absurd rfl h
  | cons m ms => simp [leavesOf, under, leaves_ne_nil]

theorem path_ne_nil_of_mem_leavesOf {ms : List (String × Tree)} {leaf : List String × Tree}
    (h : leaf ∈ leavesOf ms) : leaf.1 ≠ [] := by
  induction ms with
  | nil => cases h
  | cons m ms ih =>
    rw [leavesOf, List.mem_append] at h
    obtain h | h := h
    · obtain ⟨l, -, rfl⟩ := List.mem_map.1 h
      exact List.cons_ne_nil _ _
    · exact ih h

theorem writeAll_nothing {L : List (List String × Tree)} (hne : L ≠ [])
    (hpath : ∀ leaf ∈ L, leaf.1 ≠ []) : writeAll L nothing = writeAll L (table []) := by
  cases L with
  | nil => exact absurd rfl hne
  | cons leaf L =>
    show writeAll L (write leaf.1 leaf.2 nothing) = writeAll L (write leaf.1 leaf.2 (table []))
    rw [write_nothing (hpath leaf List.mem_cons_self)]

mutual

/-- **Putting a value is writing its leaves.** -/
theorem put_eq_writeAll (name : String) : (v t : Tree) →
    put name v t = writeAll (under [Text.lowercaseText name] v.leaves) t
  | table [], t => by
    simp only [put, putAll, leaves, List.isEmpty_nil, if_true]
    rfl
  | table (m :: ms), t => by
    have hne : leavesOf (m :: ms) ≠ [] := leavesOf_ne_nil (List.cons_ne_nil _ _)
    have hpath : ∀ leaf ∈ leavesOf (m :: ms), leaf.1 ≠ [] := fun _ => path_ne_nil_of_mem_leavesOf
    simp only [put, leaves, List.isEmpty_cons, Bool.false_eq_true, if_false]
    rw [putAll_eq_writeAll (m :: ms), writeAll_under_singleton _ hne hpath]
    cases t.member? (Text.lowercaseText name) with
    | none => exact congrArg (t.set _) (writeAll_nothing hne hpath).symm
    | some _ => rfl
  | nothing, t | flag _, t | whole _, t | real _, t | text _, t | items _, t => by
    simp only [put, leaves]
    rfl

theorem putAll_eq_writeAll : (ms : List (String × Tree)) → (t : Tree) →
    putAll ms t = writeAll (leavesOf ms) t
  | [], t => by
    simp only [putAll, leavesOf]
    rfl
  | (name, v) :: ms, t => by
    rw [putAll, put_eq_writeAll name v, putAll_eq_writeAll ms, leavesOf, writeAll_append]

end

theorem putAt_eq_writeAll (hpath : path ≠ []) (v t : Tree) :
    putAt path v t = writeAll (under (path.map Text.lowercaseText) v.leaves) t := by
  induction path generalizing t with
  | nil => exact absurd rfl hpath
  | cons name path ih =>
    cases path with
    | nil => exact put_eq_writeAll name v t
    | cons next path =>
      have hne : under ((next :: path).map Text.lowercaseText) v.leaves ≠ [] :=
        mt List.map_eq_nil_iff.1 (leaves_ne_nil v)
      have hpath' : ∀ leaf ∈ under ((next :: path).map Text.lowercaseText) v.leaves,
          leaf.1 ≠ [] := by
        intro leaf hleaf
        obtain ⟨l, -, rfl⟩ := List.mem_map.1 hleaf
        exact List.cons_ne_nil _ _
      calc putAt (name :: next :: path) v t
        _ = t.set (Text.lowercaseText name)
              (putAt (next :: path) v ((t.member? (Text.lowercaseText name)).getD nothing)) := rfl
        _ = writeAll (under [Text.lowercaseText name]
              (under ((next :: path).map Text.lowercaseText) v.leaves)) t := by
            rw [ih (List.cons_ne_nil _ _), writeAll_under_singleton _ hne hpath']
        _ = _ := by rw [under_under]; rfl

theorem path?_ne_nil {key : String} {names : List String} (h : path? key = some names) :
    names ≠ [] := by
  simp only [path?] at h
  split at h
  · cases h
    simpa using Text.splitAt_ne_nil '.' key.toList
  · cases h

theorem putKey_eq_writeAll (key : String) (v t : Tree) :
    putKey key v t = writeAll (under (keyPath key) v.leaves) t := by
  unfold putKey keyPath
  cases hpath : path? key with
  | some names => exact putAt_eq_writeAll (path?_ne_nil hpath) v t
  | none => exact put_eq_writeAll key v t

/-- **Putting entries is writing their leaves**, one after another. -/
theorem putKeys_eq_writeAll (entries : List (String × Tree)) (t : Tree) :
    putKeys entries t = writeAll (leavesAt entries) t := by
  induction entries generalizing t with
  | nil => rfl
  | cons entry entries ih =>
    show putKeys entries (putKey entry.1 entry.2 t) = _
    rw [ih, putKey_eq_writeAll, ← writeAll_append]
    rfl

/-! ### Looking up what was written -/

theorem at?_cons (name : String) (path : List String) (t : Tree) :
    t.at? (name :: path) = (t.member? name).bind (at? path) := rfl

theorem at?_singleton (name : String) (t : Tree) : t.at? [name] = t.member? name :=
  Option.bind_fun_some _

theorem at?_nothing (hpath : path ≠ []) : nothing.at? path = none := by
  cases path with
  | nil => exact absurd rfl hpath
  | cons _ _ => rfl

theorem at?_getD_nothing (hpath : path ≠ []) (o : Option Tree) :
    (o.getD nothing).at? path = o.bind (at? path) := by
  cases o with
  | none => exact at?_nothing hpath
  | some _ => rfl

theorem at?_write_self (hpath : path ≠ []) (hv : v.isTable = false) (t : Tree) :
    (write path v t).at? path = some v := by
  induction path generalizing t with
  | nil => exact absurd rfl hpath
  | cons name path ih =>
    rw [at?_cons]
    cases path with
    | nil => rw [write, member?_set_self, hv]; rfl
    | cons next path =>
      rw [write_cons _ (List.cons_ne_nil _ _), member?_set_self]
      exact ih (List.cons_ne_nil _ _) _

/-- What is found on a path stays when a leaf is written on another, neither leading on from the
other. -/
theorem at?_write_of_apart {other : List String} (h : ¬path <+: other) (h' : ¬other <+: path)
    (v t : Tree) : (write path v t).at? other = t.at? other := by
  induction path generalizing other t with
  | nil => exact absurd List.nil_prefix h
  | cons name path ih =>
    cases other with
    | nil => exact absurd List.nil_prefix h'
    | cons name' other =>
      rw [at?_cons, at?_cons]
      by_cases hname : name = name'
      · subst hname
        rw [List.prefix_cons_inj] at h h'
        cases path with
        | nil => exact absurd List.nil_prefix h
        | cons next path =>
          have hother : other ≠ [] := fun hnil => h' (hnil ▸ List.nil_prefix)
          rw [write_cons _ (List.cons_ne_nil _ _), member?_set_self]
          exact (ih h h' _).trans (at?_getD_nothing hother _)
      · obtain ⟨w, hw⟩ := exists_write_cons name path v t
        rw [hw, member?_set_of_ne hname]

theorem at?_write_table (hv : v.isTable = true) {other : List String} (h : ¬other <+: [name])
    (t : Tree) : (write [name] v t).at? other = t.at? other := by
  cases other with
  | nil => exact absurd List.nil_prefix h
  | cons name' below =>
    rw [at?_cons, at?_cons, write, if_pos hv]
    by_cases hname : name = name'
    · subst hname
      have hbelow : below ≠ [] := fun hnil => h (hnil ▸ List.prefix_refl _)
      rw [member?_set_self]
      cases t.member? name with
      | some _ => rfl
      | none =>
        obtain ⟨next, rest, rfl⟩ := List.exists_cons_of_ne_nil hbelow
        rfl
    · rw [member?_set_of_ne hname]

end Parley.Settings.Tree
