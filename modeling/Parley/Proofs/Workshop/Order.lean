import Mathlib.Data.Fintype.Basic
import Parley.Proofs.Ledger.Exclusion
import Parley.Proofs.Workshop.Steps

/-!
# Workshops in order

What the leases of a shared ledger guarantee to workers of different names that save or give back in
time what they leased.

* `Workshop.Orderly` is the invariant: the record of every job that still relies on its lease holds
  the copy that was handed out, under that very lease.
* `Workshop.Timely` says that nobody sees the ledger's clock at the expiry of a lease that somebody
  else still relies on; a lone worker is always in time.
* `Orderly.take`, `Orderly.run` : the invariant is kept by turns that are in time.
* `Orderly.eq_of_holds` : so no negotiation is held twice.
-/

namespace Parley

theorem Manager.mem_processors {m : Manager} {p : Processor} (h : p ∈ m.processors) :
    ∃ d, Duty.of? m.side p.state = some d ∧ p.handler = d.begin m.context := by
  obtain ⟨⟨st, d⟩, hmem, rfl⟩ := List.mem_map.1 h
  exact ⟨d, Duty.of?_of_mem_duties hmem, rfl⟩

/-- The job is done by way of the duty that the worker has about the negotiation. -/
def Job.Sound (k : Worker) (j : Job) : Prop :=
  ∃ d, Duty.of? k.manager.side j.member.negotiation.state = some d ∧
    j.processor.handler = d.begin k.manager.context ∧ j.member.Follows k.manager.context d

namespace Workshop

variable {ι : Type} {workers : ι → Worker} {W : Workshop ι} {t : Turn ι}

/-- The workshop is in order. -/
structure Orderly (workers : ι → Worker) (W : Workshop ι) : Prop where
  /-- The workers go through their own processors. -/
  ahead : ∀ w, ∀ p ∈ (W.bench w).ahead, p ∈ (workers w).manager.processors
  /-- The jobs are done the way they should be. -/
  sound : ∀ w place j, W.job? w place = some j → j.Sound (workers w)
  /-- The jobs on a bench are about different negotiations. -/
  distinct : ∀ w place place' j j', W.job? w place = some j → W.job? w place' = some j' →
    j.id = j'.id → place = place'
  /-- What a job relies on is there. -/
  held : ∀ w place j, W.job? w place = some j → j.member.holds = true →
    W.ledger.record? j.id = some ⟨j.member.negotiation, some (j.lease (workers w))⟩

/-- The turn is made before the leases expire that others rely on. -/
def InTime (workers : ι → Worker) (W : Workshop ι) (t : Turn ι) : Prop :=
  ∀ w, w ≠ t.worker → ∀ j ∈ (W.bench w).jobs, j.member.holds = true →
    t.chance.now < (j.lease (workers w)).expiry

/-- All turns are made before the leases expire that others rely on at the time. -/
def Timely [DecidableEq ι] (workers : ι → Worker) (W : Workshop ι) : List (Turn ι) → Prop
  | [] => True
  | t :: ts => W.InTime workers t ∧ Timely workers (W.take workers t) ts

instance [Fintype ι] [DecidableEq ι] : Decidable (W.InTime workers t) :=
  inferInstanceAs (Decidable (∀ w, w ≠ t.worker → ∀ j ∈ (W.bench w).jobs, j.member.holds = true →
    t.chance.now < (j.lease (workers w)).expiry))

instance decidableTimely [Fintype ι] [DecidableEq ι] (workers : ι → Worker) :
    (W : Workshop ι) → (ts : List (Turn ι)) → Decidable (W.Timely workers ts)
  | _, [] => .isTrue trivial
  | W, t :: ts =>
    have := decidableTimely workers (W.take workers t) ts
    inferInstanceAs (Decidable (W.InTime workers t ∧ (W.take workers t).Timely workers ts))

theorem timely_of_subsingleton [Subsingleton ι] [DecidableEq ι] (workers : ι → Worker)
    (W : Workshop ι) (ts : List (Turn ι)) : W.Timely workers ts := by
  induction ts generalizing W with
  | nil => trivial
  | cons t ts ih => exact ⟨fun w hw => absurd (Subsingleton.elim w t.worker) hw, ih _⟩

theorem orderly_opening (l : Ledger) : (opening l : Workshop ι).Orderly workers where
  ahead _ _ h := by cases h
  sound _ _ _ h := by cases h
  distinct _ _ _ _ _ h := by cases h
  held _ _ _ h := by cases h

namespace Orderly

/-- Different names cannot hold the same record. -/
theorem eq_of_holds (ho : W.Orderly workers)
    (hinj : Function.Injective fun w => (workers w).holder) {w w' : ι} {place place' : ℕ}
    {j j' : Job} (hj : W.job? w place = some j) (hj' : W.job? w' place' = some j')
    (hh : j.member.holds = true) (hh' : j'.member.holds = true) (hid : j.id = j'.id) :
    w = w' ∧ place = place' := by
  have hr := ho.held w place j hj hh
  have hr' := ho.held w' place' j' hj' hh'
  rw [hid, hr'] at hr
  simp only [Option.some.injEq, Record.mk.injEq] at hr
  obtain rfl : w = w' := hinj (congrArg Lease.holder hr.2).symm
  exact ⟨rfl, ho.distinct w place place' j j' hj hj' hid⟩

theorem goes (ho : W.Orderly workers) {place : ℕ} {j : Job}
    (hj : W.job? t.worker place = some j) :
    ∃ d, Duty.of? (workers t.worker).manager.side j.member.negotiation.state = some d ∧
      j.processor.handler = d.begin (workers t.worker).manager.context ∧
      j.member.Goes (workers t.worker).manager.context d (workers t.worker).holder t.chance
        W.ledger (W.proceed workers t j).1 (W.proceed workers t j).2
        (W.eventsOf workers t j) := by
  obtain ⟨d, hd, hhandler, hf⟩ := ho.sound _ _ _ hj
  refine ⟨d, hd, hhandler, ?_⟩
  have hgoes := Member.goes_of_step (c := t.chance) hd hf (ho.held _ _ _ hj)
  unfold eventsOf proceed venue
  rw [hhandler]
  exact hgoes

theorem negotiation_proceed (ho : W.Orderly workers) {place : ℕ} {j : Job}
    (hj : W.job? t.worker place = some j) :
    (W.proceed workers t j).1.negotiation = j.member.negotiation := by
  obtain ⟨d, -, -, hgoes⟩ := ho.goes hj
  exact hgoes.negotiation_eq

theorem copy_eq (ho : W.Orderly workers) {place : ℕ} {j : Job}
    (hj : W.job? t.worker place = some j) {e : Event} (he : e ∈ W.eventsOf workers t j) :
    e.copy = j.member.negotiation := by
  obtain ⟨d, -, -, hgoes⟩ := ho.goes hj
  exact hgoes.copy_eq e he

/-- What another job relies on is not touched by the step of a job. -/
theorem record?_proceed (ho : W.Orderly workers)
    (hinj : Function.Injective fun w => (workers w).holder) (ht : W.InTime workers t)
    {place : ℕ} {j : Job} (hj : W.job? t.worker place = some j) {w : ι} {place' : ℕ} {j' : Job}
    (hj' : W.job? w place' = some j') (hh : j'.member.holds = true)
    (hne : ¬ (w = t.worker ∧ place' = place)) :
    (W.proceed workers t j).2.record? j'.id = W.ledger.record? j'.id := by
  obtain ⟨d, hd, -, hgoes⟩ := ho.goes hj
  by_cases hid : j'.id = j.id
  · -- the other job is another worker's, since a batch has no negotiation twice
    have hw : w ≠ t.worker := by
      rintro rfl
      exact hne ⟨rfl, ho.distinct _ _ _ _ _ hj' hj hid⟩
    have hreleased : j.member.holds = false := by
      rw [← Bool.not_eq_true]
      exact fun h => hw (ho.eq_of_holds hinj hj' hj hh h hid).1
    have hr := ho.held w place' j' hj' hh
    -- so this one gave its lease back already, and the lease of the other one blocks it
    have hblocked := Record.blocker?_eq_some (r := ⟨j'.member.negotiation, _⟩) rfl
      (show (workers w).holder ≠ (workers t.worker).holder from fun h => hw (hinj h))
      (ht w hw j' (List.mem_of_getElem? hj') hh)
    rw [hid] at hr
    rw [hgoes.ledger_eq_of_blocked hreleased hr hblocked]
  · exact hgoes.record?_of_ne hd hid

variable [DecidableEq ι]

theorem sound_take (ho : W.Orderly workers) {w : ι} {place : ℕ} {j : Job}
    (hj : (W.take workers t).job? w place = some j) : j.Sound (workers w) := by
  rcases job?_take_cases hj with hbefore | ⟨rfl, p, hp, n, hn, rfl⟩ | ⟨rfl, i, hi, rfl⟩
  · exact ho.sound w place j hbefore
  · obtain ⟨d, hd, hhandler⟩ := Manager.mem_processors (ho.ahead _ p hp)
    obtain ⟨r, -, -, hstate, -⟩ := Ledger.mem_batch hn
    exact ⟨d, hstate ▸ hd, hhandler, trivial⟩
  · obtain ⟨d, hd, hhandler, hgoes⟩ := ho.goes hi
    exact ⟨d, hgoes.negotiation_eq ▸ hd, hhandler, hgoes.follows⟩

/-- What is relied on is there after a batch was leased: the members are leased for those who were
handed them, and what somebody else relies on is under a live lease and so in no batch. -/
theorem held_leased (ho : W.Orderly workers) (ht : W.InTime workers t) {p : Processor}
    {ps : List Processor} {w : ι} {place : ℕ} {j : Job}
    (hj : (W.leased workers t p ps).job? w place = some j) (hh : j.member.holds = true) :
    (W.leased workers t p ps).ledger.record? j.id =
      some ⟨j.member.negotiation, some (j.lease (workers w))⟩ := by
  rcases job?_leased_cases hj with ⟨rfl, n, hn, rfl⟩ | ⟨hw, hj⟩
  · exact Ledger.record?_leaseNext_of_mem (List.mem_of_getElem? hn)
  · have hr := ho.held w place j hj hh
    have hlive := ht w hw j (List.mem_of_getElem? hj) hh
    exact (Ledger.record?_leaseNext_of_not_mem
      (Ledger.not_mem_batch_of_live hr rfl hlive)).trans hr

/-- And after the step of a job: a job that relies on its lease after its step has not touched the
ledger. -/
theorem held_stepped (ho : W.Orderly workers)
    (hinj : Function.Injective fun w => (workers w).holder) (ht : W.InTime workers t)
    {place : ℕ} {j : Job} (hj : W.job? t.worker place = some j) {w : ι} {place' : ℕ} {i : Job}
    (hi : (W.stepped workers t place j).job? w place' = some i) (hh : i.member.holds = true) :
    (W.stepped workers t place j).ledger.record? i.id =
      some ⟨i.member.negotiation, some (i.lease (workers w))⟩ := by
  show (W.proceed workers t j).2.record? i.id = _
  rcases job?_stepped_cases hj hi with ⟨rfl, rfl, rfl⟩ | ⟨hne, hi⟩
  · obtain ⟨d, -, -, hgoes⟩ := ho.goes hj
    obtain ⟨hh', hl⟩ := hgoes.ledger_eq_of_holds hh
    rw [hl, id_proceed, ho.held _ _ _ hj hh', hgoes.negotiation_eq]
    rfl
  · exact (ho.record?_proceed hinj ht hj hi hh hne).trans (ho.held w place' i hi hh)

/-- **A turn in time leaves a workshop in order.** -/
theorem take (ho : W.Orderly workers)
    (hinj : Function.Injective fun w => (workers w).holder) (ht : W.InTime workers t) :
    (W.take workers t).Orderly workers where
  ahead w p hp := (mem_ahead_take hp).elim (ho.ahead w p) id
  sound _ _ _ := ho.sound_take
  distinct := Distinct.take ho.distinct t
  held w place j hj hh := by
    rcases take_cases workers W t with
      ⟨h, -⟩ | ⟨h, -⟩ | ⟨p, ps, -, -, h, -⟩ | ⟨place', i, -, hi, h, -⟩ <;> rw [h] at hj ⊢
    · exact ho.held w place j hj hh
    · rw [job?_started] at hj
      exact ho.held w place j hj hh
    · exact ho.held_leased ht hj hh
    · exact ho.held_stepped hinj ht hi hj hh

/-- **A run in time leaves a workshop in order.** -/
theorem run (ho : W.Orderly workers)
    (hinj : Function.Injective fun w => (workers w).holder) {ts : List (Turn ι)}
    (ht : W.Timely workers ts) : (W.run workers ts).Orderly workers := by
  induction ts generalizing W with
  | nil => exact ho
  | cons t ts ih => exact ih (ho.take hinj ht.1) ht.2

end Orderly

end Workshop

end Parley
