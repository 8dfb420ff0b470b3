import Parley.Proofs.Ledger.Batches
import Parley.Proofs.Ledger.Calls

/-!
# What a worker is handed

A worker who asks for negotiations of a state is handed the beginning of a line: the negotiations of
that state which nobody holds, in the order in which they are served.

* `Negotiation.Precedes` : the order in which negotiations are served.
* `Ledger.Line` : who stands in line, and in which order; `Line.unique` : there is one line only.
* `line_candidates` : the candidates of the ledger are the line.
* `handed_out_exactly` : who is handed out, who is left standing, and what the ledger holds then.
-/

namespace Parley

/-- The one negotiation is served before the other: its state was entered earlier, or at the same
moment and its id is smaller. -/
def Negotiation.Precedes (n m : Negotiation) : Prop :=
  n.stateSince < m.stateSince ∨ (n.stateSince = m.stateSince ∧ n.id < m.id)

theorem Negotiation.Precedes.asymm {n m : Negotiation} (h : n.Precedes m) : ¬ m.Precedes n := by
  rcases h with hlt | ⟨heq, hid⟩
  · rintro (hgt | ⟨heq, -⟩)
    · exact UInt64.lt_asymm hlt hgt
    · exact UInt64.lt_irrefl _ (heq ▸ hlt)
  · rintro (hgt | ⟨-, hid'⟩)
    · exact UInt64.lt_irrefl _ (heq ▸ hgt)
    · exact String.lt_asymm hid hid'

theorem Record.isFree_iff {r : Record} {now : Moment} :
    r.isFree now = true ↔ ∀ le, r.lease = some le → le.expiry ≤ now := by
  unfold isFree
  cases r.lease with
  | none => simp
  | some le => simp [Lease.isExpired]

namespace Ledger

variable {l : Ledger} {state : State} {now : Moment}

/-- The negotiations of a state that nobody holds at a moment, each once and in the order in which
they are served. -/
structure Line (l : Ledger) (state : State) (now : Moment) (line : List Negotiation) : Prop where
  /-- In line stands what is stored in the state under no lease or under one that has expired. -/
  mem_iff : ∀ n, n ∈ line ↔ n.state = state ∧ ∃ lease, l.record? n.id = some ⟨n, lease⟩ ∧
    ∀ le, lease = some le → le.expiry ≤ now
  /-- Each precedes all that stand behind it. -/
  ordered : line.Pairwise Negotiation.Precedes

theorem Line.unique {line line' : List Negotiation} (h : l.Line state now line)
    (h' : l.Line state now line') : line = line' := by
  have hnodup {ns : List Negotiation} (hns : ns.Pairwise Negotiation.Precedes) : ns.Nodup := by
    refine List.nodup_iff_pairwise_ne.2 (hns.imp ?_)
    rintro n m hnm rfl
    exact hnm.asymm hnm
  have hperm : line.Perm line' := (List.perm_ext_iff_of_nodup (hnodup h.ordered)
    (hnodup h'.ordered)).2 fun n => (h.mem_iff n).trans (h'.mem_iff n).symm
  exact hperm.eq_of_pairwise (fun _ _ _ _ hnm hmn => absurd hmn hnm.asymm) h.ordered h'.ordered

/-- **The candidates are the line.** -/
theorem line_candidates (l : Ledger) (state : State) (now : Moment) :
    l.Line state now ((l.candidates state now).map (·.negotiation)) where
  mem_iff n := by
    rw [List.mem_map]
    constructor
    · rintro ⟨r, hr, rfl⟩
      obtain ⟨hmem, hstate, hfree⟩ := mem_candidates.1 hr
      exact ⟨hstate, r.lease, record?_eq_some_iff.2 ⟨hmem, rfl⟩, Record.isFree_iff.1 hfree⟩
    · rintro ⟨hstate, lease, hr, hfree⟩
      refine ⟨⟨n, lease⟩, mem_candidates.2 ⟨(record?_eq_some_iff.1 hr).1, hstate, ?_⟩, rfl⟩
      exact Record.isFree_iff.2 hfree
  ordered := by
    rw [List.pairwise_map]
    exact (l.pairwise_candidates state now).imp fun h => Record.lt_of_before h.1 h.2

/-- What comes of asking for at most `limit` negotiations out of a line: `chosen` is handed out, and
the ledger becomes `l'`. -/
structure Serves (l : Ledger) (lease : Lease) (limit : ℕ) (line chosen : List Negotiation)
    (l' : Ledger) : Prop where
  /-- The beginning of the line is handed out. -/
  chosen_eq : chosen = line.take limit
  /-- As many as were asked for, unless the line is shorter. -/
  length_eq : chosen.length = min limit line.length
  /-- Nothing is handed out twice. -/
  nodup : (chosen.map (·.id)).Nodup
  /-- What is left standing comes after all that is handed out. -/
  left : ∀ n ∈ line, n ∉ chosen → ∀ m ∈ chosen, m.Precedes n ∧ ¬ n.Precedes m
  /-- What is handed out is under the new lease. -/
  leased : ∀ n ∈ chosen, l'.record? n.id = some ⟨n, some lease⟩
  /-- The other records are as they were. -/
  others : ∀ id, id ∉ chosen.map (·.id) → l'.record? id = l.record? id
  /-- So are all negotiations. -/
  find?_eq : ∀ id, l'.find? id = l.find? id
  /-- No record comes or goes. -/
  ids_eq : l'.ids = l.ids

/-- **A worker is handed the beginning of the line, and nothing else happens.**  Whatever a ledger
holds, whoever asks for negotiations of a state, for however many and at whatever moment, is handed
those that come first among the ones which nobody holds; they are under the worker's lease then,
and nothing else has changed. -/
theorem handed_out_exactly (h : Handle) (now : Moment) (l : Ledger) (state : State) (limit : ℕ) :
    ∃ line chosen l', l.Line state now line ∧
      (Request.next state limit).serve h now l = (.leased chosen, l') ∧
      l.Serves ⟨h.holder, now, h.span⟩ limit line chosen l' := by
  have hline := l.line_candidates state now
  set line := (l.candidates state now).map (·.negotiation) with hdef
  have hchosen : l.batch limit state now = line.take limit := List.map_take
  refine ⟨line, l.batch limit state now, (l.leaseNext limit state h.holder h.span now).2, hline,
    rfl, ?_⟩
  refine ⟨hchosen, ?_, l.nodup_batch limit state now, ?_, ?_, ?_, ?_, ?_⟩
  · rw [hchosen, List.length_take]
  · intro n hn hout m hm
    rw [hchosen] at hout hm
    -- what is not in the beginning of the line stands in the rest of it
    have hn' : n ∈ line.take limit ++ line.drop limit := by rwa [List.take_append_drop]
    have hrest : n ∈ line.drop limit := (List.mem_append.1 hn').resolve_left hout
    have hordered := hline.ordered
    rw [← List.take_append_drop limit line, List.pairwise_append] at hordered
    have hmn : m.Precedes n := hordered.2.2 m hm n hrest
    exact ⟨hmn, hmn.asymm⟩
  · exact fun n hn => record?_leaseNext_of_mem hn
  · exact fun id hid => record?_leaseNext_of_not_mem hid
  · exact fun id => find?_setLease
  · exact ids_setLease

end Ledger

end Parley
