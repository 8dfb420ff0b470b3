import Parley.Proofs.Ledger.Records

/-!
# Who is in a batch

A batch holds the first of the candidates, so whether a record is in it depends on how many
candidates are served before it.

* `Record.before_trans`, `Record.before_total`, `Record.id_eq_of_before` : the order in which
  records are served is a total order on the records of a ledger; `lt_of_before` is its strict part.
* `exists_mem_take_iff` : when the beginning of a strictly ordered list holds an element of some
  kind.
* `Ledger.exists_mem_batch_iff` : a batch holds a negotiation of some kind iff, for one of that
  kind, less than a batch of the other kind are served before it.
-/

namespace Parley

namespace Record

variable {r s t : Record}

theorem before_iff : r.before s = true ↔
    r.negotiation.stateSince < s.negotiation.stateSince ∨
      (r.negotiation.stateSince = s.negotiation.stateSince ∧ r.id ≤ s.id) := by
  simp [before]

theorem before_trans (h : r.before s = true) (h' : s.before t = true) : r.before t = true := by
  rw [before_iff] at h h' ⊢
  rcases h with h | ⟨h, hid⟩
  · rcases h' with h' | ⟨h', -⟩
    · exact .inl (UInt64.lt_trans h h')
    · exact .inl (h' ▸ h)
  · rcases h' with h' | ⟨h', hid'⟩
    · exact .inl (h ▸ h')
    · exact .inr ⟨h.trans h', String.le_trans hid hid'⟩

theorem before_total (r s : Record) : (r.before s || s.before r) = true := by
  rw [Bool.or_eq_true, before_iff, before_iff]
  rcases Nat.lt_trichotomy r.negotiation.stateSince.toNat s.negotiation.stateSince.toNat with
    h | h | h
  · exact .inl (.inl h)
  · have heq := UInt64.toNat_inj.1 h
    rcases String.le_total r.id s.id with hid | hid
    · exact .inl (.inr ⟨heq, hid⟩)
    · exact .inr (.inr ⟨heq.symm, hid⟩)
  · exact .inr (.inl h)

theorem id_eq_of_before (h : r.before s = true) (h' : s.before r = true) : r.id = s.id := by
  rw [before_iff] at h h'
  rcases h with h | ⟨h, hid⟩
  · rcases h' with h' | ⟨h', -⟩
    · exact absurd h' (UInt64.lt_asymm h)
    · exact absurd (h' ▸ h) (UInt64.lt_irrefl _)
  · rcases h' with h' | ⟨-, hid'⟩
    · exact absurd (h ▸ h') (UInt64.lt_irrefl _)
    · exact String.le_antisymm hid hid'

theorem lt_of_before (h : r.before s = true) (h' : s.before r = false) :
    r.negotiation.stateSince < s.negotiation.stateSince ∨
      (r.negotiation.stateSince = s.negotiation.stateSince ∧ r.id < s.id) := by
  rcases before_iff.1 h with hlt | ⟨heq, -⟩
  · exact .inl hlt
  · -- two records of one id would each be served before the other
    refine .inr ⟨heq, String.not_le.1 fun hge => ?_⟩
    rw [before_iff.2 (.inr ⟨heq.symm, hge⟩)] at h'
    cases h'

end Record

/-- In a list that is strictly ordered, one of the first `k` elements is of a kind iff there is an
element of the kind with fewer than `k` elements of the other kind before it. -/
theorem exists_mem_take_iff {α : Type} {before : α → α → Bool} (kind : α → Bool) {xs : List α}
    (hxs : xs.Pairwise fun x y => before x y = true ∧ before y x = false) (k : ℕ) :
    (∃ x ∈ xs.take k, kind x = true) ↔
      ∃ x ∈ xs, kind x = true ∧ xs.countP (fun y => !kind y && before y x) < k := by
  induction xs generalizing k with
  | nil => simp
  | cons a xs ih =>
    obtain ⟨ha, hxs⟩ := List.pairwise_cons.1 hxs
    cases k with
    | zero => simp
    | succ k =>
      rw [List.take_succ_cons]
      cases hk : kind a with
      | true =>
        -- nothing is before the first element, so it will do on both sides
        have hnone : xs.countP (fun y => !kind y && before y a) = 0 := by
          rw [List.countP_eq_zero]
          intro y hy
          simp [(ha y hy).2]
        refine iff_of_true ⟨a, List.mem_cons_self, hk⟩ ⟨a, List.mem_cons_self, hk, ?_⟩
        rw [List.countP_cons_of_neg (by simp [hk]), hnone]
        exact Nat.succ_pos k
      | false =>
        -- the first element takes one of the places away from each of the others
        have hcount {x : α} (hx : x ∈ xs) : (a :: xs).countP (fun y => !kind y && before y x) =
            xs.countP (fun y => !kind y && before y x) + 1 :=
          List.countP_cons_of_pos (by simp [hk, (ha x hx).1])
        have hrest := ih hxs k
        constructor
        · rintro ⟨x, hx, hkx⟩
          rcases List.mem_cons.1 hx with rfl | hx
          · rw [hk] at hkx; cases hkx
          · obtain ⟨y, hy, hky, hlt⟩ := hrest.1 ⟨x, hx, hkx⟩
            refine ⟨y, List.mem_cons_of_mem a hy, hky, ?_⟩
            rw [hcount hy]
            exact Nat.succ_lt_succ hlt
        · rintro ⟨x, hx, hkx, hlt⟩
          rcases List.mem_cons.1 hx with rfl | hx
          · rw [hk] at hkx; cases hkx
          · rw [hcount hx] at hlt
            obtain ⟨y, hy, hky⟩ := hrest.2 ⟨x, hx, hkx, Nat.lt_of_succ_lt_succ hlt⟩
            exact ⟨y, List.mem_cons_of_mem a hy, hky⟩

namespace Ledger

theorem pairwise_candidates (l : Ledger) (state : State) (now : Moment) :
    (l.candidates state now).Pairwise fun r s => r.before s = true ∧ s.before r = false := by
  have htrans (r s t : Record) : r.before s = true → s.before t = true → r.before t = true :=
    Record.before_trans
  have hsorted : (l.candidates state now).Pairwise fun r s => r.before s = true :=
    List.pairwise_mergeSort htrans Record.before_total _
  have hids : (l.candidates state now).Pairwise fun r s => r.id ≠ s.id :=
    List.pairwise_map.1 (l.nodup_candidates state now)
  refine (hsorted.and hids).imp ?_
  rintro r s ⟨hrs, hne⟩
  refine ⟨hrs, ?_⟩
  rw [← Bool.not_eq_true]
  exact fun hsr => hne (Record.id_eq_of_before hrs hsr)

/-- **A batch holds a negotiation of some kind** iff there is a record of that kind, in the state
and held by nobody, with less than a batch of such records of the other kind served before it. -/
theorem exists_mem_batch_iff (l : Ledger) (limit : ℕ) (state : State) (now : Moment)
    (kind : Negotiation → Bool) :
    (∃ n ∈ l.batch limit state now, kind n = true) ↔
      ∃ r ∈ l.records, r.negotiation.state = state ∧ r.isFree now = true ∧
        kind r.negotiation = true ∧
        l.records.countP (fun q => (q.negotiation.state == state && q.isFree now) &&
          (!kind q.negotiation && q.before r)) < limit := by
  have hcount (r : Record) : (l.candidates state now).countP
      (fun q => !kind q.negotiation && q.before r) =
      l.records.countP (fun q => (q.negotiation.state == state && q.isFree now) &&
        (!kind q.negotiation && q.before r)) := by
    rw [candidates, (List.mergeSort_perm ..).countP_eq, List.countP_filter]
    simp only [Bool.and_comm]
  have htake := exists_mem_take_iff (fun r => kind r.negotiation)
    (l.pairwise_candidates state now) limit
  simp only [batch, List.mem_map, exists_exists_and_eq_and, htake, hcount, mem_candidates,
    and_assoc]

end Ledger

end Parley
