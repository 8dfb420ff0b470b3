import Parley.Proofs.Workshop.Overlooked
import Parley.Proofs.Workshop.Shifts

/-!
# Leases come to an end

A worker leases what it is handed, and a lease of its is in the ledger only as long as there is a
job on its bench that relies on it.  So a round leaves no lease behind.

* `Goes.leaseOf?_cases` : a member stops relying on its lease in the step in which it is ended.
* `Workshop.Accounted` is the invariant: every lease was there at first, or a job relies on it;
  `Orderly.accounted_take`, `Orderly.accounted_run` : turns and runs keep it.
* `tidy_run` : a run at one moment, at whose end nothing is left to do, is tidy: it leaves no lease
  behind, and touches nothing that is held or in a state that the worker takes no care of.
* `rounds_tidy` : so is a round of a manager.

The members of a batch may give their leases back in any order, and several processors may be handed
the same negotiation one after the other; the invariant speaks of whoever holds it last.
-/

namespace Parley

namespace Ledger

variable {l : Ledger} {id : String}

theorem leaseOf?_congr {l' : Ledger} (h : l'.record? id = l.record? id) :
    l'.leaseOf? id = l.leaseOf? id := congrArg (·.bind Record.lease) h

theorem leaseOf?_put_none {n : Negotiation} (h : n.id = id) :
    (l.put ⟨n, none⟩).leaseOf? id = none := by
  have hr : (l.put ⟨n, none⟩).record? id = some ⟨n, none⟩ := record?_put.trans (if_pos h)
  rw [leaseOf?, hr]
  rfl

theorem leaseOf?_setLease_none : (l.setLease [id] none).leaseOf? id = none := by
  rw [leaseOf?, record?_setLease]
  cases hr : l.record? id with
  | none => rfl
  | some r =>
    rw [Option.map_some, Record.withLease_of_mem]
    · rfl
    · rw [id_of_record? hr]
      exact List.mem_singleton_self id

end Ledger

namespace Member

variable {ctx : Context} {side : Side} {d : Duty} {holder : String} {c : Chance} {l l' : Ledger}
  {m m' : Member} {es : List Event}

/-- After a step, a member relies on its lease, or the lease is ended, or the ledger is what it was
and the member had nothing left to do but to give its lease back. -/
theorem Goes.leaseOf?_cases (h : Goes ctx d holder c l m m' l' es)
    (hd : Duty.of? side m.negotiation.state = some d) :
    m'.holds = true ∨ l'.leaseOf? m.negotiation.id = none ∨
      (l' = l ∧ (m.holds = false ∨ ∃ n v, m = .releasing n v)) := by
  cases h with
  | begins | sends | finds => exact .inl rfl
  | passes hp hnot => exact .inl (decide_eq_true hnot)
  | @stores n changed h hm => exact .inr (.inl (Ledger.leaseOf?_put_none (hm.id_eq hd)))
  | delays | releases => exact .inr (.inl Ledger.leaseOf?_setLease_none)
  | @misses n v => exact .inr (.inr ⟨rfl, .inr ⟨n, v, rfl⟩⟩)
  | rests => exact .inr (.inr ⟨rfl, .inl rfl⟩)

end Member

namespace Workshop

variable {ι : Type} {workers : ι → Worker} {W : Workshop ι} {t : Turn ι} {l : Ledger}

/-- Every lease in the workshop is one that a ledger had, or a job relies on it. -/
def Accounted (W : Workshop ι) (l : Ledger) : Prop := ∀ id le, W.ledger.leaseOf? id = some le →
  l.leaseOf? id = some le ∨
    ∃ w place j, W.job? w place = some j ∧ j.id = id ∧ j.member.holds = true

theorem accounted_opening (l : Ledger) : (opening l : Workshop ι).Accounted l :=
  fun _ _ h => .inl h

/-- Where nothing is left to do, all leases are those that were there. -/
theorem Accounted.leaseOf?_of_idle (ha : W.Accounted l)
    (hidle : ∀ w, (W.bench w).isIdle = true) {id : String} {le : Lease}
    (h : W.ledger.leaseOf? id = some le) : l.leaseOf? id = some le := by
  rcases ha id le h with hl | ⟨w, place, j, hj, -, hh⟩
  · exact hl
  · obtain ⟨n, v, hn⟩ := settled_of_isIdle (hidle w) hj
    rw [hn] at hh
    cases hh

namespace Orderly

/-- Nobody refuses to take back a lease that a job relies on, since it is the worker's own. -/
theorem proceed_of_releasing (ho : W.Orderly workers) {place : ℕ} {j : Job}
    (hj : W.job? t.worker place = some j) {n : Negotiation} {v : Verdict}
    (hm : j.member = .releasing n v) (hh : j.member.holds = true) :
    (W.proceed workers t j).2 = W.ledger.setLease [j.id] none := by
  have hheld := ho.held _ _ _ hj hh
  rw [Job.id, hm] at hheld ⊢
  have hrelease := Desk.release_eq_ok (d := ⟨⟨(workers t.worker).holder, (workers t.worker).span,
    []⟩, W.ledger, t.chance.now⟩) rfl (Member.blocker?_own t.chance.now hheld)
  rw [Workshop.proceed, hm]
  exact congrArg (fun x => x.2.ledger) hrelease

/-- A lease that is there after the step of a job is one that the job relies on, or it was there
before, and the job did not rely on it. -/
theorem leaseOf?_proceed_cases (ho : W.Orderly workers) {place : ℕ} {j : Job}
    (hj : W.job? t.worker place = some j) {id : String} {le : Lease}
    (hle : (W.proceed workers t j).2.leaseOf? id = some le) :
    (j.id = id ∧ (W.proceed workers t j).1.holds = true) ∨
      (W.ledger.leaseOf? id = some le ∧ (j.id = id → j.member.holds = false)) := by
  obtain ⟨d, hd, -, hgoes⟩ := ho.goes hj
  by_cases hid : j.id = id
  · subst hid
    rcases hgoes.leaseOf?_cases hd with hholds | hnone | ⟨hsame, hend⟩
    · exact .inl ⟨rfl, hholds⟩
    · rw [show (W.proceed workers t j).2.leaseOf? j.member.negotiation.id = some le from hle]
        at hnone
      cases hnone
    · refine .inr ⟨hsame ▸ hle, fun _ => ?_⟩
      rcases hend with hfalse | ⟨n, v, hm⟩
      · exact hfalse
      · rw [← Bool.not_eq_true]
        intro hh
        rw [ho.proceed_of_releasing hj hm hh, Ledger.leaseOf?_setLease_none] at hle
        cases hle
  · have hsame := Ledger.leaseOf?_congr (hgoes.record?_of_ne hd (Ne.symm hid))
    exact .inr ⟨hsame ▸ hle, fun h => absurd h hid⟩

variable [DecidableEq ι]

theorem accounted_stepped (ho : W.Orderly workers) (ha : W.Accounted l) {place : ℕ} {j : Job}
    (hj : W.job? t.worker place = some j) : (W.stepped workers t place j).Accounted l := by
  intro id le hle
  rcases ho.leaseOf?_proceed_cases hj hle with ⟨hid, hh⟩ | ⟨hbefore, hnot⟩
  · refine .inr ⟨t.worker, place, ⟨j.processor, j.since, (W.proceed workers t j).1⟩, ?_, ?_, hh⟩
    · rw [job?_stepped hj, if_pos ⟨rfl, rfl⟩]
    · exact (id_proceed ..).trans hid
  · refine (ha id le hbefore).imp_right ?_
    rintro ⟨w, k, i, hi, hid, hh⟩
    refine ⟨w, k, i, ?_, hid, hh⟩
    rw [job?_stepped hj, if_neg]
    · exact hi
    · -- the job that made the step is not the one that relies on the lease
      rintro ⟨rfl, rfl⟩
      obtain rfl : j = i := by rw [hj] at hi; exact Option.some.inj hi
      rw [hnot hid] at hh
      cases hh

theorem accounted_leased (ha : W.Accounted l) (hidle : (W.bench t.worker).isIdle = true)
    (p : Processor) (ps : List Processor) : (W.leased workers t p ps).Accounted l := by
  intro id le hle
  by_cases hid : id ∈ (W.ledger.batch p.batchSize p.state t.chance.now).map (·.id)
  · -- the lease is a new one, and so is the job
    obtain ⟨n, hn, rfl⟩ := List.mem_map.1 hid
    obtain ⟨k, hk⟩ := List.getElem?_of_mem hn
    refine .inr ⟨t.worker, k, ⟨p, t.chance.now, .received n⟩, ?_, rfl, rfl⟩
    rw [job?_leased_self, hk]
    rfl
  · have hbefore : W.ledger.leaseOf? id = some le := by
      rw [← hle]
      exact (Ledger.leaseOf?_congr (Ledger.record?_leaseNext_of_not_mem hid)).symm
    refine (ha id le hbefore).imp_right ?_
    rintro ⟨w, k, i, hi, hid', hh⟩
    -- the job is another worker's, since this one has nothing left to do
    have hw : w ≠ t.worker := by
      rintro rfl
      obtain ⟨n, v, hn⟩ := settled_of_isIdle hidle hi
      rw [hn] at hh
      cases hh
    exact ⟨w, k, i, (job?_leased_of_ne hw).trans hi, hid', hh⟩

theorem accounted_take (ho : W.Orderly workers) (ha : W.Accounted l) (t : Turn ι) :
    (W.take workers t).Accounted l := by
  rcases take_cases workers W t with
    ⟨h, -⟩ | ⟨h, -⟩ | ⟨p, ps, -, hidle, h, -⟩ | ⟨place, j, -, hj, h, -⟩
  · rw [h]; exact ha
  · rw [h]
    intro id le hle
    simp only [job?_started]
    exact ha id le hle
  · rw [h]; exact accounted_leased ha hidle p ps
  · rw [h]; exact ho.accounted_stepped ha hj

theorem accounted_run (ho : W.Orderly workers)
    (hinj : Function.Injective fun w => (workers w).holder) {ts : List (Turn ι)}
    (ht : W.Timely workers ts) (ha : W.Accounted l) : (W.run workers ts).Accounted l := by
  induction ts generalizing W with
  | nil => exact ha
  | cons t ts ih => exact ih (ho.take hinj ht.1) ht.2 (ho.accounted_take ha t)

end Orderly

end Workshop

/-! ### Rounds -/

/-- What a round of a manager at one moment leaves behind: no lease of its own, and nothing changed
that is none of its business. -/
structure Ledger.TidyAfter (m : Manager) (now : Moment) (l l' : Ledger) : Prop where
  /-- All leases were there before. -/
  leases : ∀ id le, l'.leaseOf? id = some le → l.leaseOf? id = some le
  /-- What is in a state that the manager takes no care of, or was held, is what it was. -/
  untouched : ∀ id r, l.record? id = some r →
    (r.negotiation.state ∉ m.states ∨ r.isFree now = false) → l'.record? id = some r
  /-- No record was put in or taken out. -/
  ids : l'.ids = l.ids

namespace Workshop

/-- A run of a worker that has the ledger to itself is tidy, if it is made at one moment and nothing
is left to do at its end. -/
theorem tidy_run (k : Worker) (l : Ledger) {now : Moment} {ts : List (Turn Unit)}
    (hnow : ∀ t ∈ ts, t.chance.now = now)
    (hidle : (((opening l).run (fun _ => k) ts).bench ()).isIdle = true) :
    l.TidyAfter k.manager now ((opening l).run (fun _ => k) ts).ledger := by
  have ho : (opening l : Workshop Unit).Orderly fun _ => k := orderly_opening l
  have hinj : Function.Injective fun _ : Unit => k.holder := fun _ _ _ => rfl
  have ht := timely_of_subsingleton (fun _ : Unit => k) (opening l) ts
  refine ⟨fun id le hle => ?_, fun id r hr hother => ?_, ho.ids_run hinj ht⟩
  · have ha := ho.accounted_run hinj ht (accounted_opening l)
    exact ha.leaseOf?_of_idle (fun _ => hidle) hle
  · refine (ho.untouched_run hinj ht (idle_opening l id) hr ?_).1
    intro t hmem p hp hstate
    rcases hother with hnot | hheld
    · exact absurd (hstate ▸ Manager.state_mem_states hp) hnot
    · rw [hnow t hmem]
      exact hheld

/-- **A round leaves no lease behind and touches only its own work**, whatever answers it gets, if
the clock stands still and nobody else is there: whatever the order in which the members of its
batches make their steps, and in particular if they make them one after the other. -/
theorem rounds_tidy (k : Worker) (now : Moment) :
    (∀ (l : Ledger) (ts : List (Turn Unit)), (∀ t ∈ ts, t.chance.now = now) →
      (((opening l).run (fun _ => k) ts).bench ()).isIdle = true →
      l.TidyAfter k.manager now ((opening l).run (fun _ => k) ts).ledger) ∧
    ∀ {σ : Type} {v : Venue σ} {sent : σ → List (Message × Answer)}, v.Quiet k sent →
      (∀ u, (v.desk u).now = now) → ∀ s,
      (v.desk s).ledger.TidyAfter k.manager now (v.desk (k.manager.tick v s).2).ledger := by
  refine ⟨fun l ts hnow hidle => tidy_run k l hnow hidle, ?_⟩
  intro σ v sent hv hclock s
  have hempty : (Bench.mk [] []).isIdle = true := rfl
  obtain ⟨jobs, hjobs, ts, hrun, -, -, hseen⟩ := leads_tick hv hempty s
  have hnow : ∀ t ∈ ts, t.chance.now = now := by
    intro t hmem
    obtain ⟨u, hu⟩ := hseen t hmem
    exact hu.trans (hclock u)
  have hrun : (opening (v.desk s).ledger).run (fun _ => k) ts =
      alone v (k.manager.tick v s).2 ⟨[], jobs⟩ := hrun
  have htidy := tidy_run k (v.desk s).ledger hnow (by rw [hrun]; exact hjobs)
  rwa [hrun] at htidy

/-- A ledger with an offer to send, one that somebody else holds, and a request that is not agreed
to without asking. -/
def crowded : Ledger :=
  ((Ledger.empty.put ⟨.specimen, none⟩).put
    ⟨{ Negotiation.specimen with id := "negotiation-2" }, some ⟨"other", 4000, 60000⟩⟩).put
    ⟨{ Negotiation.specimen with id := "negotiation-3", state := .requested }, none⟩

/-- The offer is sent and not taken, and its lease is given back with the record of that. -/
theorem rounds_tidy_crowded :
    let k : Worker := ⟨"worker", 60000, .provider, "provider", {}, 5, false⟩
    let c : Chance := ⟨5000, 5000, "message-1", .error (.timeout 100)⟩
    let ts : List (Turn Unit) := [.start, .lease, .proceed 0, .proceed 0, .proceed 0,
      .proceed 0].map fun act => ⟨(), act, c⟩
    (∀ t ∈ ts, t.chance.now = 5000) ∧
    (((opening crowded).run (fun _ => k) ts).bench ()).isIdle = true ∧
    crowded.TidyAfter k.manager 5000 ((opening crowded).run (fun _ => k) ts).ledger ∧
    (steady c k).Quiet k Prod.snd ∧ (∀ u, ((steady c k).desk u).now = 5000) ∧
    crowded.TidyAfter k.manager 5000 (k.manager.tick (steady c k) (crowded, [])).2.1 := by
  intro k c ts
  obtain ⟨hruns, hticks⟩ := rounds_tidy k 5000
  have hnow : ∀ t ∈ ts, t.chance.now = 5000 := by
    intro t ht
    obtain ⟨act, -, rfl⟩ := List.mem_map.1 ht
    rfl
  have hidle : (((opening crowded).run (fun _ => k) ts).bench ()).isIdle = true := by
    decide +kernel
  have hquiet := quiet_steady c k
  exact ⟨hnow, hidle, hruns crowded ts hnow hidle, hquiet, fun _ => rfl,
    hticks hquiet (fun _ => rfl) (crowded, [])⟩

end Workshop

end Parley
