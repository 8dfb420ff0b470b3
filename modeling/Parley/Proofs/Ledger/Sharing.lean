import Mathlib.Data.List.Flatten
import Parley.Proofs.Ledger.Batches
import Parley.Proofs.Ledger.Exclusion
import Parley.Proofs.Ledger.Histories

/-!
# Work that is shared out

Several workers ask one ledger for batches of a state, each as many as it likes.  As long as no
lease expires, what one of them is handed is gone for the others, so together they are handed what
one worker would be who asked for all of it at once.

* `Ledger.Queue` : the negotiations of a state, in the order in which they are served.
* `candidates_leaseNext` : a batch takes the first candidates away and leaves the others as they
  are.
* `exists_batches` : so a sequence of batches takes away one beginning of the candidates, part by
  part.
* `batches_partition` : the batches are disjoint, and one after the other they are the beginning of
  the queue.
-/

namespace Parley

theorem Moment.later_le_later {t u : Moment} (h : t ≤ u) (span : Moment) :
    t.later span ≤ u.later span := by
  have htu := UInt64.le_iff_toNat_le.1 h
  rw [UInt64.le_iff_toNat_le, Moment.toNat_later, Moment.toNat_later]
  omega

/-- What stands behind the first `k` elements of a list is what has none of their keys. -/
theorem mem_drop_iff {α β : Type} {key : α → β} {xs : List α} (hxs : (xs.map key).Nodup) (k : ℕ)
    (x : α) : x ∈ xs.drop k ↔ x ∈ xs ∧ key x ∉ (xs.take k).map key := by
  have hdisjoint : ((xs.take k).map key).Disjoint ((xs.drop k).map key) := by
    rw [List.map_take, List.map_drop]
    exact List.disjoint_take_drop hxs (Nat.le_refl k)
  constructor
  · intro hx
    exact ⟨List.mem_of_mem_drop hx, fun hk => hdisjoint hk (List.mem_map_of_mem hx)⟩
  · rintro ⟨hx, hk⟩
    rw [← List.take_append_drop k xs, List.mem_append] at hx
    exact hx.resolve_left fun ht => hk (List.mem_map_of_mem ht)

/-- A request for a batch, made through one of the handles at a moment. -/
structure Ask where
  /-- The handle. -/
  handle : ℕ
  /-- What the clock showed. -/
  now : Moment
  /-- How many negotiations are asked for at most. -/
  limit : ℕ
  deriving DecidableEq, Repr

/-- The call that asks for a batch of a state. -/
def Ask.call (state : State) (a : Ask) : Call := ⟨a.handle, a.now, .next state a.limit⟩

namespace Ledger

variable {handles : ℕ → Handle} {l : Ledger} {state : State}

/-- The negotiations of a state, by the moment at which they entered it, then by their ids. -/
structure Queue (l : Ledger) (state : State) (queue : List Negotiation) : Prop where
  /-- Each stands in the queue once. -/
  perm : queue.Perm ((l.records.map (·.negotiation)).filter (·.state == state))
  /-- They stand in order. -/
  ordered : queue.Pairwise fun n m =>
    n.stateSince < m.stateSince ∨ (n.stateSince = m.stateSince ∧ n.id < m.id)

theorem queue_candidates (hfree : ∀ r ∈ l.records, r.lease = none) (state : State)
    (now : Moment) : l.Queue state ((l.candidates state now).map (·.negotiation)) where
  perm := by
    have hfilter : (l.records.filter fun r => r.negotiation.state == state && r.isFree now) =
        l.records.filter fun r => r.negotiation.state == state := by
      refine List.filter_congr fun r hr => ?_
      rw [Record.isFree, hfree r hr, Bool.and_true]
    rw [List.filter_map, candidates, hfilter]
    exact (List.mergeSort_perm ..).map _
  ordered := by
    rw [List.pairwise_map]
    exact (l.pairwise_candidates state now).imp fun h => Record.lt_of_before h.1 h.2

theorem length_queue {queue : List Negotiation} (h : l.Queue state queue) :
    queue.length = l.records.countP (·.negotiation.state == state) := by
  rw [h.perm.length_eq, ← List.countP_eq_length_filter, List.countP_map]
  rfl

/-- **A batch takes the first candidates away**, as long as its leases are live, and leaves the
others as they are, in their order. -/
theorem candidates_leaseNext {limit : ℕ} {holder : String} {span u now : Moment}
    (hlive : now < u.later span) (hsame : l.candidates state now = l.candidates state u) :
    (l.leaseNext limit state holder span u).2.candidates state now =
      (l.candidates state u).drop limit := by
  set l' := (l.leaseNext limit state holder span u).2 with hl'
  have hbatch : (l.batch limit state u).map (·.id) =
      ((l.candidates state u).take limit).map Record.id := by
    rw [batch, List.map_map]
    rfl
  -- what is in the batch is leased now, and all other records are what they were
  have hmem (r : Record) :
      r ∈ l'.candidates state now ↔ r ∈ (l.candidates state u).drop limit := by
    rw [mem_drop_iff (l.nodup_candidates state u), ← hbatch, ← hsame, mem_candidates,
      mem_candidates]
    have hrecord : r ∈ l'.records ↔ l'.record? r.id = some r :=
      ⟨fun h => record?_eq_some_iff.2 ⟨h, rfl⟩, fun h => (record?_eq_some_iff.1 h).1⟩
    rw [hrecord, hl', record?_leaseNext]
    split_ifs with hid
    · refine iff_of_false ?_ fun h => h.2 hid
      rintro ⟨hr, -, hf⟩
      obtain ⟨n, -, rfl⟩ := Option.map_eq_some_iff.1 hr
      rw [Record.isFree_eq_false rfl hlive] at hf
      cases hf
    · rw [record?_eq_some_iff]
      simp only [and_true, hid, not_false_eq_true]
  have hperm : (l'.candidates state now).Perm ((l.candidates state u).drop limit) := by
    rw [List.perm_ext_iff_of_nodup]
    · exact hmem
    · exact (l'.nodup_candidates state now).of_map _
    · exact ((l.nodup_candidates state u).of_map _).sublist (List.drop_sublist ..)
  refine hperm.eq_of_pairwise ?_ ((l'.pairwise_candidates state now).imp And.left)
    (((l.pairwise_candidates state u).imp And.left).sublist (List.drop_sublist ..))
  intro r s hr hs hrs hsr
  have hr' := (mem_candidates.1 hr).1
  have hs' := (mem_candidates.1 ((hmem s).2 hs)).1
  exact eq_of_mem_of_id_eq hr' hs' (Record.id_eq_of_before hrs hsr)

/-- Batches that are leased while the leases of all of them are live take one beginning of the
candidates away, part by part. -/
theorem exists_batches {span t : Moment} (asks : List Ask)
    (hasks : ∀ a ∈ asks, (handles a.handle).span = span ∧ t ≤ a.now ∧ a.now < t.later span)
    {line : List Record}
    (hline : ∀ now, t ≤ now → now < t.later span → l.candidates state now = line) :
    ∃ batches : List (List Negotiation),
      (l.transcript handles (asks.map (·.call state))).map Prod.snd = batches.map Reply.leased ∧
      batches.flatten = (line.take (asks.map Ask.limit).sum).map (·.negotiation) := by
  induction asks generalizing l line with
  | nil => exact ⟨[], rfl, by simp⟩
  | cons a asks ih =>
    obtain ⟨hspan, hfrom, hto⟩ := hasks a List.mem_cons_self
    have hfirst : l.candidates state a.now = line := hline a.now hfrom hto
    -- the others are handed what is left, and the leases of this batch outlive all of them
    have hleft : ∀ now, t ≤ now → now < t.later span →
        (l.answer handles (a.call state)).2.candidates state now = line.drop a.limit := by
      intro now hnow hlt
      have hlive : now < a.now.later (handles a.handle).span :=
        UInt64.lt_of_lt_of_le hlt (hspan ▸ Moment.later_le_later hfrom _)
      have hsame : l.candidates state now = l.candidates state a.now := by
        rw [hfirst, hline now hnow hlt]
      rw [← hfirst]
      exact candidates_leaseNext hlive hsame
    obtain ⟨batches, hreplies, hflatten⟩ :=
      ih (fun b hb => hasks b (List.mem_cons_of_mem a hb)) hleft
    refine ⟨l.batch a.limit state a.now :: batches, ?_, ?_⟩
    · exact congrArg (Reply.leased (l.batch a.limit state a.now) :: ·) hreplies
    · rw [List.flatten_cons, hflatten, batch, hfirst, ← List.map_append, List.map_cons,
        List.sum_cons, List.take_add]

/-- **Batches partition the work.**  Nobody holds anything at first, and then workers of any names
ask for batches of a state, all at moments of one span of time, which is how long their leases hold.
However many each of them asks for, no two of them are handed the same negotiation, and one after
the other the batches are the beginning of the queue that is as long as all that was asked for, or
the whole queue if that is shorter. -/
theorem batches_partition (handles : ℕ → Handle) (l : Ledger)
    (hfree : ∀ r ∈ l.records, r.lease = none) (state : State) {span t : Moment} (asks : List Ask)
    (hasks : ∀ a ∈ asks, (handles a.handle).span = span ∧ t ≤ a.now ∧ a.now < t.later span) :
    ∃ (queue : List Negotiation) (batches : List (List Negotiation)), l.Queue state queue ∧
      (l.transcript handles (asks.map (·.call state))).map Prod.snd = batches.map Reply.leased ∧
      (batches.Pairwise fun b b' => (b.map (·.id)).Disjoint (b'.map (·.id))) ∧
      batches.flatten = queue.take (asks.map Ask.limit).sum ∧
      batches.flatten.length = min (asks.map Ask.limit).sum
        (l.records.countP (·.negotiation.state == state)) := by
  have hqueue := queue_candidates hfree state t
  have hline (now : Moment) : l.candidates state now = l.candidates state t := by
    unfold candidates
    refine congrArg (List.mergeSort · _) (List.filter_congr fun r hr => ?_)
    rw [Record.isFree, Record.isFree, hfree r hr]
  obtain ⟨batches, hreplies, hflatten⟩ := exists_batches asks hasks fun now _ _ => hline now
  rw [List.map_take] at hflatten
  refine ⟨_, batches, hqueue, hreplies, ?_, hflatten, ?_⟩
  · -- no id stands twice in the queue, so none stands in two parts of its beginning
    have hids : ((batches.map (·.map (·.id))).flatten).Nodup := by
      rw [← List.map_flatten, hflatten, ← List.map_take, List.map_map]
      exact (l.nodup_candidates state t).sublist ((List.take_sublist ..).map _)
    exact List.pairwise_map.1 (List.nodup_flatten.1 hids).2
  · rw [hflatten, List.length_take, length_queue hqueue]

/-- Two offers that are as old as each other. -/
def twins : Ledger :=
  (empty.put ⟨{ Negotiation.specimen with id := "negotiation-2" }, none⟩).put ⟨.specimen, none⟩

/-- One worker asks for nothing and then for one, another one asks for more than there is. -/
theorem batches_partition_twins :
    let asks : List Ask := [⟨0, 5000, 0⟩, ⟨2, 64999, 1⟩, ⟨1, 5001, 7⟩]
    (∀ r ∈ twins.records, r.lease = none) ∧
    (∀ a ∈ asks, (namesakes a.handle).span = 60000 ∧ 5000 ≤ a.now ∧
      a.now < Moment.later 5000 60000) ∧
    ∃ (queue : List Negotiation) (batches : List (List Negotiation)),
      twins.Queue .offering queue ∧
      (twins.transcript namesakes (asks.map (·.call .offering))).map Prod.snd =
        batches.map Reply.leased ∧
      (batches.Pairwise fun b b' => (b.map (·.id)).Disjoint (b'.map (·.id))) ∧
      batches.flatten = queue.take 8 ∧ batches.flatten.length = min 8 2 := by
  intro asks
  have hfree : ∀ r ∈ twins.records, r.lease = none := by decide +kernel
  have hasks : ∀ a ∈ asks, (namesakes a.handle).span = 60000 ∧ 5000 ≤ a.now ∧
      a.now < Moment.later 5000 60000 := by decide
  exact ⟨hfree, hasks, batches_partition namesakes twins hfree .offering asks hasks⟩

end Ledger

end Parley
