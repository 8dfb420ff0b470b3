import Parley.Proofs.Workshop.Order

/-!
# What is overlooked

A processor is handed what is in its state and held by nobody.  So a record is safe from a worker
that takes no care of its state, and from everybody as long as a lease on it is live.

* `Workshop.Overlooks` : no processor of the worker whose turn it is would be handed the record.
* `Orderly.untouched_take`, `Orderly.untouched_run` : then neither the record nor the lease on it
  changes, and nothing can be noticed of the negotiation, in a turn and in a run.
* `overlooks_of_no_duty` : so it is with a negotiation about which the worker's side has no duty.
-/

namespace Parley

theorem Manager.state_mem_states {m : Manager} {p : Processor} (h : p ∈ m.processors) :
    p.state ∈ m.states := by
  obtain ⟨x, hx, rfl⟩ := List.mem_map.1 h
  exact List.mem_map_of_mem hx

namespace Workshop

variable {ι : Type} {workers : ι → Worker} {W : Workshop ι} {t : Turn ι} {id : String}
  {r : Record}

/-- Nobody has a job about the negotiation of an id. -/
def Idle (W : Workshop ι) (id : String) : Prop := ∀ w place j, W.job? w place = some j → j.id ≠ id

theorem idle_opening (l : Ledger) (id : String) : (opening l : Workshop ι).Idle id := by
  rintro w place j ⟨⟩

/-- The record is handed to none of the processors of the worker whose turn it is: they take care of
other states, or the record is held. -/
def Overlooks (workers : ι → Worker) (t : Turn ι) (r : Record) : Prop :=
  ∀ p ∈ (workers t.worker).manager.processors,
    p.state = r.negotiation.state → r.isFree t.chance.now = false

theorem overlooks_of_no_duty
    (h : Duty.of? (workers t.worker).manager.side r.negotiation.state = none) :
    Overlooks workers t r := by
  intro p hp hstate
  obtain ⟨d, hd, -⟩ := Manager.mem_processors hp
  rw [hstate, h] at hd
  cases hd

theorem Overlooks.not_mem_batch (h : Overlooks workers t r) {p : Processor}
    (hp : p ∈ (workers t.worker).manager.processors) (hr : W.ledger.record? id = some r) :
    id ∉ (W.ledger.batch p.batchSize p.state t.chance.now).map (·.id) := by
  intro hid
  obtain ⟨m, hm, rfl⟩ := List.mem_map.1 hid
  obtain ⟨s, hs, rfl, hstate, hfree⟩ := Ledger.mem_batch hm
  obtain rfl : r = s := by rw [hr] at hs; exact Option.some.inj hs
  rw [h p hp hstate.symm] at hfree
  cases hfree

namespace Orderly

variable [DecidableEq ι]

/-- A turn leaves a record alone that it overlooks, if nobody has a job about it. -/
theorem untouched_take (ho : W.Orderly workers) (hidle : W.Idle id)
    (hr : W.ledger.record? id = some r) (hover : Overlooks workers t r) :
    (W.take workers t).ledger.record? id = some r ∧ (W.take workers t).Idle id ∧
      ∀ e ∈ W.events workers t, e.2.copy.id ≠ id := by
  refine ⟨?_, fun w place j hj => ?_, fun e he => ?_⟩
  · rcases take_cases workers W t with
      ⟨h, -⟩ | ⟨h, -⟩ | ⟨p, ps, hp, -, h, -⟩ | ⟨place, j, -, hj, h, -⟩
    · rw [h, hr]
    · rw [h, ledger_started, hr]
    · have hbatch := hover.not_mem_batch (ho.ahead _ p (hp ▸ List.mem_cons_self ..)) hr
      rw [h, ledger_leased, Ledger.record?_leaseNext_of_not_mem hbatch, hr]
    · -- the step of a job, which is about another negotiation
      obtain ⟨d, hd, -, hgoes⟩ := ho.goes hj
      rw [h, ledger_stepped, hgoes.record?_of_ne hd (hidle _ _ _ hj).symm, hr]
  · rcases job?_take_cases hj with hbefore | ⟨rfl, p, hp, n, hn, rfl⟩ | ⟨rfl, i, hi, rfl⟩
    · exact hidle w place j hbefore
    · rintro rfl
      exact hover.not_mem_batch (ho.ahead _ p hp) hr (List.mem_map_of_mem hn)
    · exact (congrArg Negotiation.id (ho.negotiation_proceed hi)).trans_ne (hidle _ place i hi)
  · obtain ⟨-, place, j, hj, he⟩ := exists_job_of_mem_events he
    exact (congrArg Negotiation.id (ho.copy_eq hj he)).trans_ne (hidle _ place j hj)

/-- **A run leaves a record alone that it overlooks**, if nobody has a job about it. -/
theorem untouched_run (ho : W.Orderly workers)
    (hinj : Function.Injective fun w => (workers w).holder) {ts : List (Turn ι)}
    (ht : W.Timely workers ts) (hidle : W.Idle id) (hr : W.ledger.record? id = some r)
    (hover : ∀ t ∈ ts, Overlooks workers t r) :
    (W.run workers ts).ledger.record? id = some r ∧
      ∀ e ∈ W.history workers ts, e.2.copy.id ≠ id := by
  induction ts generalizing W with
  | nil => exact ⟨hr, List.forall_mem_nil _⟩
  | cons t ts ih =>
    obtain ⟨hover, hovers⟩ := List.forall_mem_cons.1 hover
    obtain ⟨hr', hidle', hevents⟩ := ho.untouched_take hidle hr hover
    obtain ⟨hrest, hhistory⟩ := ih (ho.take hinj ht.1) ht.2 hidle' hr' hovers
    exact ⟨hrest, List.forall_mem_append.2 ⟨hevents, hhistory⟩⟩

end Orderly

end Workshop

end Parley
