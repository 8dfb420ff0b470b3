import Parley.Proofs.Workshop.Order
import Parley.Proofs.Workshop.Rounds

/-!
# Shifts

Workers that have a ledger to themselves one after the other.  A shift is any number of turns of one
worker, which begins with an empty bench; where it stops, the next worker may begin.

* `Orderly.find?_take` : in a turn a stored negotiation stays as it is, or what a duty makes of it
  takes its place; `Orderly.ids_take` : no record is put in or taken out.
* `Ledger.afterShifts` : the ledger after some shifts; `exists_shift_of_tick` : a round of a manager
  is one.
* `Orderly.run_induct`, `Ledger.afterShifts_induct` : what no duty breaks, no run and no shift does.
-/

namespace Parley

namespace Member

variable {ctx : Context} {side : Side} {d : Duty} {holder : String} {c : Chance} {l l' : Ledger}
  {m m' : Member} {es : List Event}

/-- A step of a member stores what its duty makes of the copy, in place of the copy, or nothing;
that it is stored can be noticed. -/
theorem Goes.find?_cases (h : Goes ctx d holder c l m m' l' es)
    (hd : Duty.of? side m.negotiation.state = some d)
    (hstored : m.holds = true → l.find? m.negotiation.id = some m.negotiation) (id : String) :
    l'.find? id = l.find? id ∨ ∃ answer changed, l.find? id = some m.negotiation ∧
      d.Makes ctx m.negotiation answer changed ∧ l'.find? id = some changed ∧
      .saved m.negotiation answer changed ∈ es := by
  cases h with
  | begins | passes | sends | finds | misses | rests => exact .inl rfl
  | delays | releases => exact .inl Ledger.find?_setLease
  -- only what is stored takes the place of something
  | @stores n changed h hm =>
    have hid : Record.id ⟨changed, none⟩ = n.id := hm.id_eq hd
    rw [Ledger.find?_put, hid]
    split_ifs with hn
    · subst hn
      exact .inr ⟨_, changed, hstored rfl, hm, rfl, List.mem_cons_self ..⟩
    · exact .inl rfl

theorem Goes.ids_eq (h : Goes ctx d holder c l m m' l' es)
    (hd : Duty.of? side m.negotiation.state = some d)
    (hstored : m.holds = true → l.find? m.negotiation.id = some m.negotiation) :
    l'.ids = l.ids := by
  cases h with
  | begins | passes | sends | finds | misses | rests => rfl
  | delays | releases => exact Ledger.ids_setLease
  | @stores n changed h hm =>
    have hid : Record.id ⟨changed, none⟩ = n.id := hm.id_eq hd
    obtain ⟨lease, hr⟩ := Ledger.find?_eq_some_iff.1 (hstored rfl)
    exact Ledger.ids_put (hid ▸ hr)

end Member

namespace Workshop

variable {ι : Type} [DecidableEq ι] {workers : ι → Worker} {W : Workshop ι}

namespace Orderly

omit [DecidableEq ι] in
theorem find?_of_holds (ho : W.Orderly workers) {w : ι} {place : ℕ} {j : Job}
    (hj : W.job? w place = some j) (hh : j.member.holds = true) :
    W.ledger.find? j.id = some j.member.negotiation :=
  Ledger.find?_eq_some_iff.2 ⟨_, ho.held w place j hj hh⟩

/-- **What a turn does to a negotiation** is that what a duty makes of it is stored, if anything. -/
theorem find?_take (ho : W.Orderly workers) (t : Turn ι) (id : String) :
    (W.take workers t).ledger.find? id = W.ledger.find? id ∨
    ∃ d n answer changed, W.ledger.find? id = some n ∧
      Duty.of? (workers t.worker).manager.side n.state = some d ∧
      d.Makes (workers t.worker).manager.context n answer changed ∧
      (W.take workers t).ledger.find? id = some changed ∧
      (t.worker, .saved n answer changed) ∈ W.events workers t := by
  rcases take_cases workers W t with
    ⟨h, -⟩ | ⟨h, -⟩ | ⟨p, ps, -, -, h, -⟩ | ⟨place, j, -, hj, h, he⟩
  · rw [h]; exact .inl rfl
  · rw [h]; exact .inl rfl
  · rw [h]; exact .inl Ledger.find?_setLease
  · obtain ⟨d, hd, -, hgoes⟩ := ho.goes hj
    rw [h, he]
    rcases hgoes.find?_cases hd (ho.find?_of_holds hj) id with
      hsame | ⟨answer, changed, hn, hm, hchanged, hmem⟩
    · exact .inl hsame
    · exact .inr ⟨d, _, answer, changed, hn, hd, hm, hchanged, List.mem_map_of_mem hmem⟩

theorem ids_take (ho : W.Orderly workers) (t : Turn ι) :
    (W.take workers t).ledger.ids = W.ledger.ids := by
  rcases take_cases workers W t with
    ⟨h, -⟩ | ⟨h, -⟩ | ⟨p, ps, -, -, h, -⟩ | ⟨place, j, -, hj, h, -⟩
  · rw [h]
  · rw [h, ledger_started]
  · rw [h]; exact Ledger.ids_setLease
  · obtain ⟨d, hd, -, hgoes⟩ := ho.goes hj
    rw [h]
    exact hgoes.ids_eq hd (ho.find?_of_holds hj)

/-- What no duty breaks about a negotiation, no run in time breaks. -/
theorem run_induct {Q : Option Negotiation → Prop}
    (hstep : ∀ w d n answer changed, Duty.of? (workers w).manager.side n.state = some d →
      d.Makes (workers w).manager.context n answer changed → Q (some n) → Q (some changed))
    (ho : W.Orderly workers) (hinj : Function.Injective fun w => (workers w).holder)
    {ts : List (Turn ι)} (ht : W.Timely workers ts) {id : String} (hQ : Q (W.ledger.find? id)) :
    Q ((W.run workers ts).ledger.find? id) := by
  induction ts generalizing W with
  | nil => exact hQ
  | cons t ts ih =>
    -- the induction goes over all workshops, so the rest of the run begins after this turn
    refine ih (ho.take hinj ht.1) ht.2 ?_
    rcases ho.find?_take t id with hsame | ⟨d, n, answer, changed, hn, hd, hm, hchanged, -⟩
    · rw [hsame]
      exact hQ
    · rw [hchanged]
      exact hstep _ d n answer changed hd hm (hn ▸ hQ)

theorem ids_run (ho : W.Orderly workers)
    (hinj : Function.Injective fun w => (workers w).holder) {ts : List (Turn ι)}
    (ht : W.Timely workers ts) : (W.run workers ts).ledger.ids = W.ledger.ids := by
  induction ts generalizing W with
  | nil => rfl
  | cons t ts ih => exact (ih (ho.take hinj ht.1) ht.2).trans (ho.ids_take t)

end Orderly

theorem orderly_run_opening (k : Worker) (l : Ledger) (ts : List (Turn Unit)) :
    ((opening l).run (fun _ => k) ts).Orderly fun _ => k :=
  (orderly_opening l).run (fun _ _ _ => rfl) (timely_of_subsingleton _ _ ts)

end Workshop

/-! ### One worker after the other -/

/-- The turns of a worker that has a ledger to itself. -/
structure Shift where
  /-- The worker. -/
  worker : Worker
  /-- Its turns. -/
  turns : List (Turn Unit)

namespace Ledger

/-- The ledger after a shift. -/
def afterShift (l : Ledger) (s : Shift) : Ledger :=
  ((Workshop.opening l).run (fun _ => s.worker) s.turns).ledger

/-- The ledger after some shifts, one after the other. -/
def afterShifts (l : Ledger) (ss : List Shift) : Ledger := ss.foldl afterShift l

variable {l : Ledger} {ss : List Shift} {id : String}

/-- What no duty of anybody breaks about a negotiation, no shift breaks. -/
theorem afterShifts_induct {Q : Option Negotiation → Prop}
    (hstep : ∀ (k : Worker) d n answer changed, Duty.of? k.manager.side n.state = some d →
      d.Makes k.manager.context n answer changed → Q (some n) → Q (some changed))
    (hQ : Q (l.find? id)) : Q ((l.afterShifts ss).find? id) := by
  induction ss generalizing l with
  | nil => exact hQ
  | cons s ss ih =>
    refine ih ?_
    exact (Workshop.orderly_opening l).run_induct (fun _ => hstep s.worker) (fun _ _ _ => rfl)
      (Workshop.timely_of_subsingleton _ _ _) hQ

end Ledger

/-- A round of a manager, in a venue in which nobody else touches the ledger, is a shift. -/
theorem Workshop.exists_shift_of_tick {σ : Type} {v : Venue σ} {k : Worker}
    {sent : σ → List (Message × Answer)} (hv : v.Quiet k sent) (s : σ) :
    ∃ ts, (v.desk (k.manager.tick v s).2).ledger = (v.desk s).ledger.afterShift ⟨k, ts⟩ := by
  have hjobs : (Bench.mk [] []).isIdle = true := rfl
  obtain ⟨jobs, -, ts, hrun, -⟩ := leads_tick hv hjobs s
  exact ⟨ts, (congrArg Workshop.ledger hrun).symm⟩

end Parley
