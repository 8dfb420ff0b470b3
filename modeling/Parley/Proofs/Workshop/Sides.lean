import Parley.Proofs.Workshop.Overlooked
import Parley.Proofs.Workshop.Shifts

/-!
# The sides of a shared ledger

A ledger may hold negotiations of both sides.  A manager looks for the states in which its side has
something to do, and nothing it does depends on the side that a negotiation belongs to.

* `Workshop.LeavesAlone` : a worker neither changes nor leases a negotiation, nor does anything that
  can be noticed of it, whatever it meets with.
* `leavesAlone_of_no_duty` : so it is with a negotiation in a state that is none of its side's.
* `exists_touched` : any other negotiation is leased by some worker of the side.
* `keeps_to_side_iff` : so a side keeps its hands off the negotiations of the other side iff none of
  them is in one of its own states.
* `provider_takes_up_consumer` : a provider finalizes the consumer's record.

The proof of `exists_touched` needs a worker that is not blocked: one of another name than the
holder of the lease that may be there, whose batches are large enough for the whole ledger and whose
clock says a moment at which every lease is over.
-/

namespace Parley

theorem Duty.mem_duties_of_of? {side : Side} {st : State} {d : Duty}
    (h : Duty.of? side st = some d) : (st, d) ∈ side.duties true := by
  cases side <;> cases st <;> cases h <;> decide

namespace Workshop

variable {id : String}

/-- A worker that has the ledger to itself leaves a negotiation alone: neither the record nor the
lease on it changes, and no message is sent about it, nor is anything else to be noticed of it. -/
def LeavesAlone (k : Worker) (l : Ledger) (id : String) : Prop :=
  ∀ ts : List (Turn Unit), ((opening l).run (fun _ => k) ts).ledger.record? id = l.record? id ∧
    ∀ e ∈ (opening l).history (fun _ => k) ts, e.2.copy.id ≠ id

/-! ### States that are none of a side's -/

theorem leavesAlone_of_no_duty {k : Worker} {l : Ledger} {n : Negotiation}
    (hn : l.find? id = some n) (hnone : Duty.of? k.manager.side n.state = none) :
    LeavesAlone k l id := by
  intro ts
  obtain ⟨lease, hr⟩ := Ledger.find?_eq_some_iff.1 hn
  rw [hr]
  exact (orderly_opening l).untouched_run (fun _ _ _ => rfl) (timely_of_subsingleton _ _ ts)
    (idle_opening l id) hr fun _ _ => overlooks_of_no_duty hnone

/-! ### States of a side -/

/-- A worker that asks for batches of a size, and takes up all that its side can take up. -/
def eager (side : Side) (holder : String) (size : ℕ) : Worker :=
  ⟨holder, 0, side, "participant", {}, size, true⟩

theorem exists_holder_ne (lease : Option Lease) :
    ∃ holder : String, ∀ le, lease = some le → le.holder ≠ holder := by
  by_cases ha : ∃ le, lease = some le ∧ le.holder = "a"
  · obtain ⟨le, rfl, ha⟩ := ha
    refine ⟨"b", ?_⟩
    rintro le' ⟨rfl⟩
    rw [ha]
    decide
  · exact ⟨"a", fun le hle h => ha ⟨le, hle, h⟩⟩

/-- A worker comes to each of its processors with nothing left to do for the ones before. -/
theorem exists_run_to_processor (k : Worker) (l : Ledger) {p : Processor}
    (hp : p ∈ k.manager.processors) :
    ∃ ts ps jobs, (Bench.mk (p :: ps) jobs).isIdle = true ∧
      ((opening l).run (fun _ => k) ts).bench () = ⟨p :: ps, jobs⟩ := by
  obtain ⟨before, after, hsplit⟩ := List.append_of_mem hp
  -- the processors before it are run somehow
  have hidle : (Bench.mk (before ++ p :: after) []).isIdle = true := rfl
  obtain ⟨jobs, hjobs, hlead⟩ :=
    leads_processors_append (quiet_steady default k) before (p :: after) hidle (l, [])
  have hstart : Leads (steady default k) k Prod.snd (l, []) ⟨[], []⟩ [] (l, [])
      ⟨before ++ p :: after, []⟩ := hsplit ▸ leads_start rfl (l, [])
  obtain ⟨ts, hrun, -, -⟩ := hstart.trans hlead
  refine ⟨ts, after, jobs, hjobs, ?_⟩
  exact congrFun (congrArg Workshop.bench hrun) ()

/-- At a moment at which nobody is kept out, a processor whose batches are large enough leases every
negotiation in its state. -/
theorem record?_take_lease_ne {k : Worker} {W : Workshop Unit} {p : Processor}
    {ps : List Processor} {jobs : List Job} {n : Negotiation} {lease : Option Lease}
    (hbench : W.bench () = ⟨p :: ps, jobs⟩) (hjobs : (Bench.mk (p :: ps) jobs).isIdle = true)
    (hsize : W.ledger.size ≤ p.batchSize) (hr : W.ledger.record? id = some ⟨n, lease⟩)
    (hstate : n.state = p.state) (hholder : ∀ le, lease = some le → le.holder ≠ k.holder) :
    (W.take (fun _ => k) ⟨(), .lease, ⟨Moment.last, 0, "", default⟩⟩).ledger.record? id ≠
      some ⟨n, lease⟩ := by
  have hbatch : n ∈ W.ledger.batch p.batchSize p.state Moment.last :=
    Ledger.mem_batch_of_size_le hsize hr hstate (Record.isFree_last _)
  have hfind : W.ledger.find? id = some n := Ledger.find?_eq_some_iff.2 ⟨_, hr⟩
  have hmem : id ∈ (W.ledger.batch p.batchSize p.state Moment.last).map (·.id) :=
    Ledger.id_of_find? hfind ▸ List.mem_map_of_mem hbatch
  rw [take_lease rfl (by rw [hbench]) (by rw [hbench]; exact hjobs)]
  show (W.ledger.leaseNext p.batchSize p.state k.holder k.span Moment.last).2.record? id ≠ _
  rw [Ledger.record?_leaseNext, if_pos hmem, hfind]
  intro hsame
  have hlease : lease = some ⟨k.holder, Moment.last, k.span⟩ :=
    (congrArg Record.lease (Option.some.inj hsame)).symm
  exact hholder _ hlease rfl

/-- A negotiation in whose state a side has something to do is touched by a worker of the side: when
the worker comes to that state, either the record is not what it was, or it is leased. -/
theorem exists_touched {side : Side} {l : Ledger} {n : Negotiation} {d : Duty}
    (hn : l.find? id = some n) (hd : Duty.of? side n.state = some d) :
    ∃ k : Worker, k.manager.side = side ∧
      ∃ ts : List (Turn Unit), ((opening l).run (fun _ => k) ts).ledger.record? id ≠ l.record? id := by
  obtain ⟨lease, hr⟩ := Ledger.find?_eq_some_iff.1 hn
  obtain ⟨holder, hholder⟩ := exists_holder_ne lease
  set k := eager side holder l.size with hk
  have hp : ⟨n.state, l.size, d.begin k.manager.context⟩ ∈ k.manager.processors :=
    List.mem_map_of_mem (f := fun x => Processor.mk x.1 l.size (x.2.begin k.manager.context))
      (Duty.mem_duties_of_of? hd)
  obtain ⟨ts, ps, jobs, hjobs, hbench⟩ := exists_run_to_processor k l hp
  refine ⟨k, rfl, ?_⟩
  by_cases htouched : ((opening l).run (fun _ => k) ts).ledger.record? id = l.record? id
  · refine ⟨ts ++ [⟨(), .lease, ⟨Moment.last, 0, "", default⟩⟩], ?_⟩
    -- there are as many records as at first, so one batch can hold them all
    have hids : ((opening l).run (fun _ => k) ts).ledger.ids = l.ids :=
      (orderly_opening l).ids_run (fun _ _ _ => rfl) (timely_of_subsingleton _ _ ts)
    have hsize : ((opening l).run (fun _ => k) ts).ledger.size ≤ l.size := by
      rw [← Ledger.length_ids, hids, Ledger.length_ids]
    rw [run_append, run_cons, run_nil, hr]
    exact record?_take_lease_ne hbench hjobs hsize (htouched.trans hr) rfl hholder
  · exact ⟨ts, htouched⟩

/-- **A side keeps to its own negotiations iff none of the others is in its states.**  Nobody of a
side ever changes, leases or sends a message about a negotiation of the other side that a ledger
holds iff the side has nothing to do in the state that it is in. -/
theorem keeps_to_side_iff (side : Side) (l : Ledger) :
    (∀ k : Worker, k.manager.side = side → ∀ id n, l.find? id = some n → n.side ≠ side →
      LeavesAlone k l id) ↔
    ∀ id n, l.find? id = some n → n.side ≠ side → Duty.of? side n.state = none := by
  constructor
  · intro h id n hn hside
    cases hd : Duty.of? side n.state with
    | none => rfl
    | some d =>
      obtain ⟨k, hk, ts, hts⟩ := exists_touched hn hd
      exact absurd (h k hk id n hn hside ts).1 hts
  · rintro h k rfl id n hn hside
    exact leavesAlone_of_no_duty hn (h id n hn hside)

/-- The consumer's record of a contract that it approved. -/
def approved : Negotiation :=
  { Negotiation.specimen with
    side := .consumer
    state := .verified
    agreement := some ⟨"definition:asset:9999", "provider", "consumer", 1, "asset", default⟩ }

/-- A provider comes to the state in which contracts are approved, and handles one of them. -/
def handleApproved : List (Turn Unit) :=
  let c : Chance := ⟨5000, 5000, "message-1", .error default⟩
  [.start, .lease, .lease, .lease, .proceed 0, .proceed 0].map fun act => ⟨(), act, c⟩

/-- **A provider takes up the consumer's negotiation.**  It waits, on the consumer's side, for the
provider's closing notice, and the provider moves it on as if the notice were its own to send. -/
theorem provider_takes_up_consumer :
    ¬ ∀ (k : Worker) (l : Ledger) (id : String) (n : Negotiation), l.find? id = some n →
      n.side ≠ k.manager.side → LeavesAlone k l id := by
  intro h
  have halone := h ⟨"worker", 60000, .provider, "provider", {}, 5, false⟩
    (Ledger.empty.put ⟨approved, none⟩) "negotiation-1" approved (by decide +kernel) (by decide)
  have hsame := (halone handleApproved).1
  revert hsame
  decide +kernel

end Workshop

end Parley
