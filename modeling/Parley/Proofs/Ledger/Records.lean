import Mathlib.Data.List.Nodup
import Parley.Ledger.Desk

/-!
# The ledger as a map from ids to records

An id has at most one record, so a ledger is read through `Ledger.record?`, and every operation is
described by what it does to the record of each id.

* `record?_put`, `record?_remove`, `record?_setLease` : the three ways in which records change.
* `blocker?_eq_none_iff` : a worker may touch a record iff its lease is the worker's own or expired.
* `save_eq_ok`, `release_eq_ok`, `delete_eq_ok` : what the operations do that nobody blocks, and
  `checkLease_eq_error` how they fail for somebody who is blocked.
* `mem_batch` : a batch holds stored negotiations of its state that nobody holds, and
  `record?_leaseNext` says whose leases there are afterwards.
-/

namespace Parley

theorem Lease.blocks_eq_false_iff {l : Lease} {holder : String} {now : Moment} :
    l.blocks holder now = false ↔ l.holder = holder ∨ l.expiry ≤ now := by
  simp only [Lease.blocks, Lease.isHeldBy, Lease.isExpired]
  by_cases h : l.holder = holder <;> simp [h]

namespace Record

theorem blocker?_eq_none_iff {r : Record} {holder : String} {now : Moment} :
    r.blocker? holder now = none ↔
      ∀ le, r.lease = some le → le.holder = holder ∨ le.expiry ≤ now := by
  unfold blocker?
  cases hl : r.lease with
  | none => simp
  | some le =>
    simp only [Option.some.injEq, forall_eq']
    rw [← Lease.blocks_eq_false_iff]
    cases le.blocks holder now <;> simp

theorem blocker?_eq_some {r : Record} {le : Lease} {holder : String} {now : Moment}
    (hl : r.lease = some le) (hh : le.holder ≠ holder) (hn : now < le.expiry) :
    r.blocker? holder now = some le.holder := by
  have hb : le.blocks holder now = true := (le.blocks_eq holder now).2 ⟨hh, hn⟩
  simp [blocker?, hl, hb]

theorem isFree_eq_false {r : Record} {le : Lease} {now : Moment} (hl : r.lease = some le)
    (hn : now < le.expiry) : r.isFree now = false := by
  simpa [isFree, hl, Lease.isExpired] using hn

theorem isFree_last (r : Record) : r.isFree Moment.last = true := by
  unfold isFree
  cases r.lease with
  | none => rfl
  | some le =>
    simp only [Lease.isExpired, decide_eq_true_eq]
    exact UInt64.le_iff_toNat_le.2 (Nat.le_of_lt_succ le.expiry.toNat_lt)

@[simp] theorem withLease_negotiation (r : Record) (ids : List String) (lease : Option Lease) :
    (r.withLease ids lease).negotiation = r.negotiation := by
  unfold withLease; split <;> rfl

theorem withLease_of_mem {r : Record} {ids : List String} (lease : Option Lease)
    (h : r.id ∈ ids) : r.withLease ids lease = ⟨r.negotiation, lease⟩ := by
  simp [withLease, h]

theorem withLease_of_not_mem {r : Record} {ids : List String} (lease : Option Lease)
    (h : r.id ∉ ids) : r.withLease ids lease = r := by
  simp [withLease, h]

end Record

namespace Ledger

variable {l : Ledger} {id holder : String} {now : Moment}

/-! ### Looking records up -/

theorem eq_of_mem_of_id_eq {r s : Record} (hr : r ∈ l.records) (hs : s ∈ l.records)
    (h : r.id = s.id) : r = s :=
  List.inj_on_of_nodup_map l.nodup hr hs h

theorem record?_eq_some_iff {r : Record} :
    l.record? id = some r ↔ r ∈ l.records ∧ r.id = id := by
  constructor
  · intro h
    exact ⟨List.mem_of_find?_eq_some h, by simpa using List.find?_some h⟩
  · rintro ⟨hr, rfl⟩
    obtain ⟨s, hs⟩ : ∃ s, l.record? r.id = some s := by
      rw [← Option.isSome_iff_exists]
      simp only [record?, List.find?_isSome]
      exact ⟨r, hr, by simp⟩
    have hid : s.id = r.id := by simpa using List.find?_some hs
    rw [hs, eq_of_mem_of_id_eq (List.mem_of_find?_eq_some hs) hr hid]

theorem id_of_record? {r : Record} (h : l.record? id = some r) : r.id = id :=
  (record?_eq_some_iff.1 h).2

theorem contains_eq_true_iff : l.contains id = true ↔ ∃ r, l.record? id = some r := by
  simp only [contains, List.any_eq_true, beq_iff_eq, record?_eq_some_iff]

theorem contains_eq_false_iff : l.contains id = false ↔ l.record? id = none := by
  rw [← Bool.not_eq_true, contains_eq_true_iff, Option.eq_none_iff_forall_ne_some]
  simp

theorem find?_eq_some_iff {n : Negotiation} :
    l.find? id = some n ↔ ∃ lease, l.record? id = some ⟨n, lease⟩ := by
  simp only [find?, Option.map_eq_some_iff]
  constructor
  · rintro ⟨⟨m, lease⟩, h, rfl⟩; exact ⟨lease, h⟩
  · rintro ⟨lease, h⟩; exact ⟨_, h, rfl⟩

theorem id_of_find? {n : Negotiation} (h : l.find? id = some n) : n.id = id := by
  obtain ⟨lease, h⟩ := find?_eq_some_iff.1 h
  exact id_of_record? h

/-! ### Changing records -/

theorem record?_mapRecords {f : Record → Record} (h : ∀ r, (f r).id = r.id) :
    (l.mapRecords f h).record? id = (l.record? id).map f := by
  simp only [mapRecords, record?, List.find?_map]
  congr 2
  funext r
  simp [h]

theorem record?_put {r : Record} :
    (l.put r).record? id = if r.id = id then some r else l.record? id := by
  unfold put
  split_ifs with hc hid hid
  · subst hid
    obtain ⟨s, hs⟩ := contains_eq_true_iff.1 hc
    rw [record?_mapRecords, hs, Option.map_some, Record.replaceBy, if_pos (id_of_record? hs)]
  · rw [record?_mapRecords]
    cases hs : l.record? id with
    | none => rfl
    | some s =>
      have hne : s.id ≠ r.id := fun h => hid (h.symm.trans (id_of_record? hs))
      rw [Option.map_some, Record.replaceBy, if_neg hne]
  · subst hid
    have hn : l.record? r.id = none := contains_eq_false_iff.1 (by simpa using hc)
    unfold record? at hn ⊢
    rw [List.find?_append, hn]
    simp
  · unfold record?
    simp [List.find?_append, hid]

theorem record?_remove {gone : String} :
    (l.remove gone).record? id = if gone = id then none else l.record? id := by
  simp only [remove, record?, List.find?_filter]
  split_ifs with h
  · subst h
    simp only [List.find?_eq_none]
    intro r _
    simp
  · congr 1
    funext r
    by_cases hr : r.id = id
    · simp [hr, Ne.symm h]
    · simp [hr]

theorem record?_setLease {ids : List String} {lease : Option Lease} :
    (l.setLease ids lease).record? id = (l.record? id).map (·.withLease ids lease) :=
  record?_mapRecords _

theorem record?_setLease_of_not_mem {ids : List String} {lease : Option Lease} (h : id ∉ ids) :
    (l.setLease ids lease).record? id = l.record? id := by
  rw [record?_setLease]
  cases hr : l.record? id with
  | none => rfl
  | some r =>
    rw [Option.map_some, Record.withLease_of_not_mem]
    rwa [id_of_record? hr]

@[simp] theorem find?_put {r : Record} :
    (l.put r).find? id = if r.id = id then some r.negotiation else l.find? id := by
  unfold find?
  rw [record?_put]
  split_ifs <;> rfl

@[simp] theorem find?_setLease {ids : List String} {lease : Option Lease} :
    (l.setLease ids lease).find? id = l.find? id := by
  unfold find?
  rw [record?_setLease, Option.map_map]
  congr 1
  funext r
  simp

/-! ### Which ids there are -/

/-- The ids that have a record. -/
def ids (l : Ledger) : List String := l.records.map Record.id

theorem length_ids (l : Ledger) : l.ids.length = l.size := List.length_map ..

@[simp] theorem ids_setLease {ids : List String} {lease : Option Lease} :
    (l.setLease ids lease).ids = l.ids := ids_map (fun r => r.id_withLease ids lease) l.records

theorem ids_put {r s : Record} (h : l.record? r.id = some s) : (l.put r).ids = l.ids := by
  rw [put, dif_pos (contains_eq_true_iff.2 ⟨s, h⟩)]
  exact ids_map r.id_replaceBy l.records

/-! ### Operations that respect leases -/

theorem checkLease_eq_ok (h : ∀ r, l.record? id = some r → r.blocker? holder now = none) :
    l.checkLease id holder now = .ok () := by
  unfold checkLease
  cases hr : l.record? id with
  | none => rfl
  | some r => simp [h r hr]

theorem checkLease_eq_error {r : Record} {other : String} (hr : l.record? id = some r)
    (hb : r.blocker? holder now = some other) :
    l.checkLease id holder now = .error (.alreadyLeased id other) := by
  simp [checkLease, hr, hb]

/-- The operations that respect leases either go through or find the record blocked. -/
theorem checkLease_cases (l : Ledger) (id holder : String) (now : Moment) :
    (l.checkLease id holder now = .ok () ∧
      ∀ r, l.record? id = some r → r.blocker? holder now = none) ∨
    ∃ r other, l.record? id = some r ∧ r.blocker? holder now = some other ∧
      l.checkLease id holder now = .error (.alreadyLeased id other) := by
  cases hr : l.record? id with
  | none => exact .inl ⟨checkLease_eq_ok (by simp [hr]), by simp⟩
  | some r =>
    cases hb : r.blocker? holder now with
    | none => exact .inl ⟨checkLease_eq_ok (by simp [hr, hb]), by simp [hb]⟩
    | some other => exact .inr ⟨r, other, rfl, hb, checkLease_eq_error hr hb⟩

theorem blocker?_of_own {r : Record} (hr : l.record? id = some r)
    (hown : ∀ le, r.lease = some le → le.holder = holder) (x : Record)
    (hx : l.record? id = some x) : x.blocker? holder now = none := by
  obtain rfl : r = x := Option.some.inj (hr.symm.trans hx)
  exact Record.blocker?_eq_none_iff.2 fun le hle => .inl (hown le hle)

theorem save_eq_ok {n : Negotiation}
    (h : ∀ r, l.record? n.id = some r → r.blocker? holder now = none) :
    l.save n holder now = .ok (l.put ⟨n, none⟩) := by
  rw [save, checkLease_eq_ok h]; rfl

theorem release_eq_ok (h : ∀ r, l.record? id = some r → r.blocker? holder now = none) :
    l.release id holder now = .ok (l.setLease [id] none) := by
  rw [release, checkLease_eq_ok h]; rfl

theorem delete_eq_ok {r : Record} (hr : l.record? id = some r)
    (h : r.blocker? holder now = none) : l.delete id holder now = .ok (l.remove id) := by
  rw [delete, if_pos (contains_eq_true_iff.2 ⟨r, hr⟩), checkLease_eq_ok (by simp [hr, h])]
  rfl

/-! ### Batches -/

theorem mem_candidates {state : State} {r : Record} :
    r ∈ l.candidates state now ↔
      r ∈ l.records ∧ r.negotiation.state = state ∧ r.isFree now = true := by
  simp [candidates]

theorem mem_batch {limit : ℕ} {state : State} {n : Negotiation}
    (h : n ∈ l.batch limit state now) :
    ∃ r, l.record? n.id = some r ∧ r.negotiation = n ∧ n.state = state ∧ r.isFree now = true := by
  obtain ⟨r, hr, rfl⟩ := List.mem_map.1 h
  obtain ⟨hm, hs, hf⟩ := mem_candidates.1 (List.mem_of_mem_take hr)
  exact ⟨r, record?_eq_some_iff.2 ⟨hm, rfl⟩, rfl, hs, hf⟩

theorem mem_batch_of_size_le {limit : ℕ} {state : State} {r : Record} (hlimit : l.size ≤ limit)
    (hr : l.record? id = some r) (hs : r.negotiation.state = state) (hf : r.isFree now = true) :
    r.negotiation ∈ l.batch limit state now := by
  have hmem : r ∈ l.candidates state now :=
    mem_candidates.2 ⟨(record?_eq_some_iff.1 hr).1, hs, hf⟩
  have hlength : (l.candidates state now).length ≤ l.size := by
    rw [candidates, List.length_mergeSort]
    exact List.length_filter_le ..
  rw [batch, List.take_of_length_le (Nat.le_trans hlength hlimit)]
  exact List.mem_map_of_mem hmem

theorem nodup_candidates (l : Ledger) (state : State) (now : Moment) :
    ((l.candidates state now).map Record.id).Nodup := by
  have hp := (List.mergeSort_perm
    (l.records.filter fun r => r.negotiation.state == state && r.isFree now)
    Record.before).map Record.id
  exact hp.nodup_iff.2 (l.nodup.sublist (List.filter_sublist.map _))

theorem nodup_batch (l : Ledger) (limit : ℕ) (state : State) (now : Moment) :
    ((l.batch limit state now).map (·.id)).Nodup := by
  unfold batch
  rw [List.map_map, List.map_take]
  exact (l.nodup_candidates state now).sublist (List.take_sublist _ _)

/-- Leasing a batch puts the new lease on its members and leaves the other records alone. -/
theorem record?_leaseNext {limit : ℕ} {state : State} {span : Moment} :
    (l.leaseNext limit state holder span now).2.record? id =
      if id ∈ (l.batch limit state now).map (·.id) then
        (l.find? id).map (⟨·, some ⟨holder, now, span⟩⟩)
      else l.record? id := by
  show (l.setLease _ _).record? id = _
  split_ifs with h
  · rw [record?_setLease, find?, Option.map_map]
    cases hr : l.record? id with
    | none => rfl
    | some r =>
      have hid : r.id ∈ (l.batch limit state now).map (·.id) := by rwa [id_of_record? hr]
      rw [Option.map_some, Record.withLease_of_mem _ hid]
      rfl
  · exact record?_setLease_of_not_mem h

theorem record?_leaseNext_of_mem {limit : ℕ} {state : State} {span : Moment} {n : Negotiation}
    (hn : n ∈ l.batch limit state now) :
    (l.leaseNext limit state holder span now).2.record? n.id =
      some ⟨n, some ⟨holder, now, span⟩⟩ := by
  obtain ⟨r, hr, rfl, -, -⟩ := mem_batch hn
  rw [record?_leaseNext, if_pos (List.mem_map_of_mem hn), find?, hr]
  rfl

theorem record?_leaseNext_of_not_mem {limit : ℕ} {state : State} {span : Moment}
    (hid : id ∉ (l.batch limit state now).map (·.id)) :
    (l.leaseNext limit state holder span now).2.record? id = l.record? id :=
  record?_leaseNext.trans (if_neg hid)

end Ledger

end Parley
