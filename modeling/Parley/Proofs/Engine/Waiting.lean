import Parley.Proofs.Ledger.Batches
import Parley.Proofs.Negotiation.Moves
import Parley.Proofs.Workshop.Rounds

/-!
# Waiting and due negotiations

A processor leases the negotiations that have been in its state for longest, whether they are due or
still wait for another try.  Only the handler looks at that, and it gives back what waits.  So what
waits takes up room in the batch.

* `Processor.map_negotiation_run` : a processor handles the batch that the ledger hands out.
* `due_handed_out_iff` : a processor is handed a negotiation that is due iff there is one with less
  than a batch of waiting ones before it.
* `waiting_holds_back` : if there are as many as that, a due negotiation is not handed out.

What this does **not** say is that a due negotiation is kept out for ever: what waits is due some
time, and is moved behind the others then.
-/

namespace Parley

variable {σ : Type}

/-! ### What a processor handles -/

theorem Member.negotiation_run (v : Venue σ) (handler : Handler) (m : Member) (s : σ) :
    (m.run v handler s).1.negotiation = m.negotiation := by
  induction hr : m.rank using Nat.strongRecOn generalizing m s with
  | ind r ih =>
    by_cases hm : m.rank = 0
    · rw [run_of_rank_eq_zero hm]
    · have hlt := rank_step_lt v handler m s hm
      rw [run_of_rank_ne_zero hm, ih _ (hr ▸ hlt) _ _ rfl, negotiation_step]

namespace Processor

theorem map_negotiation_runAll (v : Venue σ) (handler : Handler) (ms : List Member) (s : σ) :
    (runAll v handler ms s).1.map Member.negotiation = ms.map Member.negotiation := by
  induction ms generalizing s with
  | nil => rfl
  | cons m ms ih =>
    show (m.run v handler s).1.negotiation :: _ = m.negotiation :: _
    rw [Member.negotiation_run]
    exact congrArg _ (ih _)

theorem map_negotiation_run {v : Venue σ} {holder : String} {span : Moment}
    (hv : v.Serves holder span) (p : Processor) (s : σ) :
    (p.run v s).1.map Member.negotiation =
      (v.desk s).ledger.batch p.batchSize p.state (v.desk s).now := by
  show (runAll v p.handler (p.lease v s).1 (p.lease v s).2).1.map _ = _
  rw [map_negotiation_runAll, p.lease_of_serves hv s, List.map_map]
  exact List.map_id _

theorem exists_mem_run_iff {v : Venue σ} {holder : String} {span : Moment}
    (hv : v.Serves holder span) (p : Processor) (s : σ) (kind : Negotiation → Prop) :
    (∃ x ∈ (p.run v s).1, kind x.negotiation) ↔
      ∃ n ∈ (v.desk s).ledger.batch p.batchSize p.state (v.desk s).now, kind n := by
  rw [← p.map_negotiation_run hv s]
  simp only [List.mem_map, exists_exists_and_eq_and]

end Processor

/-! ### Who is handed out -/

/-- The number of negotiations that are served before a record although they still wait. -/
def Ledger.waitingBefore (l : Ledger) (policy : RetryPolicy) (state : State) (now : Moment)
    (r : Record) : ℕ :=
  l.records.countP fun q => (q.negotiation.state == state && q.isFree now) &&
    (now < Attempt.dueAt policy q.negotiation && q.before r)

theorem Manager.batchSize_of_mem_processors {m : Manager} {p : Processor}
    (h : p ∈ m.processors) : p.batchSize = m.context.batchSize := by
  obtain ⟨⟨state, duty⟩, -, rfl⟩ := List.mem_map.1 h
  rfl

/-- **A due negotiation is handed out iff there is room for one.**  A processor is handed some
negotiation that is due iff, before some due one that nobody holds, there are fewer waiting ones
than a batch has places. -/
theorem due_handed_out_iff {v : Venue σ} {holder : String} {span : Moment}
    (hv : v.Serves holder span) {m : Manager} {p : Processor} (hp : p ∈ m.processors) (s : σ) :
    let l := (v.desk s).ledger
    let now := (v.desk s).now
    (∃ x ∈ (p.run v s).1, Attempt.dueAt m.context.policy x.negotiation ≤ now) ↔
      ∃ r ∈ l.records, r.negotiation.state = p.state ∧ r.isFree now = true ∧
        Attempt.dueAt m.context.policy r.negotiation ≤ now ∧
        l.waitingBefore m.context.policy p.state now r < m.context.batchSize := by
  intro l now
  have hwaits (n : Negotiation) : (!decide (Attempt.dueAt m.context.policy n ≤ now)) =
      decide (now < Attempt.dueAt m.context.policy n) := by
    rw [← decide_not, decide_eq_decide, UInt64.not_le]
  have hbatch := l.exists_mem_batch_iff m.context.batchSize p.state now
    (fun n => decide (Attempt.dueAt m.context.policy n ≤ now))
  simp only [decide_eq_true_eq, hwaits] at hbatch
  rw [p.exists_mem_run_iff hv s (Attempt.dueAt m.context.policy · ≤ now),
    Manager.batchSize_of_mem_processors hp]
  exact hbatch

/-- A third attempt at an offer, which still has to wait. -/
def waitingOffer : Negotiation := { Negotiation.specimen with stateCount := 3 }

/-- A younger offer, which was not tried yet. -/
def dueOffer : Negotiation :=
  { Negotiation.specimen with id := "negotiation-2", stateSince := 2000 }

/-- The ledger with the two offers in it. -/
def twoOffers : Ledger := (Ledger.empty.put ⟨waitingOffer, none⟩).put ⟨dueOffer, none⟩

/-- A provider whose batches are of a size. -/
def providerOf (batchSize : ℕ) : Manager := ⟨.provider, "provider", {}, batchSize, false⟩

/-- The processor that sends its offers. -/
def offersOf (batchSize : ℕ) : Processor :=
  ⟨.offering, batchSize, Duty.begin (providerOf batchSize).context .sendOffer⟩

theorem offersOf_mem (batchSize : ℕ) : offersOf batchSize ∈ (providerOf batchSize).processors :=
  List.mem_cons_self

/-- In a batch of two there is room for the one that is due. -/
theorem due_handed_out_iff_two_offers :
    let c : Chance := ⟨2500, 2500, "message-1", .error (.timeout 100)⟩
    (c.venue "worker" 60000).Serves "worker" 60000 ∧
    offersOf 2 ∈ (providerOf 2).processors ∧
    ∃ x ∈ ((offersOf 2).run (c.venue "worker" 60000) twoOffers).1,
      Attempt.dueAt {} x.negotiation ≤ 2500 := by
  intro c
  have hv := c.serves "worker" 60000
  refine ⟨hv, offersOf_mem 2, (due_handed_out_iff hv (offersOf_mem 2) twoOffers).2 ?_⟩
  exact ⟨⟨dueOffer, none⟩, by decide +kernel, rfl, rfl, by decide +kernel, by decide +kernel⟩

/-- **What waits holds back what is due.**  A batch of one is taken up by the older offer, which has
to wait, although there is one that is due. -/
theorem waiting_holds_back :
    ¬ ∀ (m : Manager) (p : Processor) (c : Chance) (l : Ledger), p ∈ m.processors →
      1 ≤ m.context.batchSize →
      (∃ r ∈ l.records, r.negotiation.state = p.state ∧ r.isFree c.now = true ∧
        Attempt.dueAt m.context.policy r.negotiation ≤ c.now) →
      ∃ x ∈ (p.run (c.venue "worker" 60000) l).1,
        Attempt.dueAt m.context.policy x.negotiation ≤ c.now := by
  intro h
  let c : Chance := ⟨2500, 2500, "message-1", .error (.timeout 100)⟩
  have hhanded := h (providerOf 1) (offersOf 1) c twoOffers (offersOf_mem 1) (Nat.le_refl 1)
    ⟨⟨dueOffer, none⟩, by decide +kernel, rfl, rfl, by decide +kernel⟩
  obtain ⟨n, hn, hdue⟩ := ((offersOf 1).exists_mem_run_iff (c.serves "worker" 60000) twoOffers
    (Attempt.dueAt {} · ≤ 2500)).1 hhanded
  have hroom := (twoOffers.exists_mem_batch_iff 1 .offering 2500
    (fun n => decide (Attempt.dueAt {} n ≤ 2500))).1 ⟨n, hn, decide_eq_true hdue⟩
  -- the only place goes to the one that waits
  exact absurd hroom (by decide +kernel)

end Parley
