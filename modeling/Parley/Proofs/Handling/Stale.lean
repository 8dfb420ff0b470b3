import Parley.Proofs.Handling.Duty
import Parley.Proofs.Handling.Run

/-!
# Stale copies

A worker handles the copy of a negotiation that it was handed, and by the time it comes to write the
stored negotiation may have moved on or be gone.

* `unchanged_of_sends` : a duty that sends a message looks again before it writes, and then stores
  nothing.
* `stored_of_not_sends` : a duty that moves on at once does not look again, and stores what became
  of the copy.
* `unchanged_iff_sends_or_same` : so what is stored stays as it is exactly if the duty sends a
  message, or if what it stores is there already.
* `stale_request_overwrites` : an agreement in force falls back to being agreed on.
-/

namespace Parley

namespace Duty

variable {σ : Type} {v : Venue σ} {holder : String} {span : Moment} {side : Side} {d : Duty}
  {n : Negotiation} {s : σ} (ctx : Context) (messageId : String) (now : Moment)

theorem arrival_of_not_sends (hd : of? side n.state = some d) (hs : d.sends = false) :
    (d.begin ctx messageId now n).arrival v s = s := by
  rcases begin_cases hd ctx messageId now with ⟨-, moved, -, hbegin⟩ | ⟨hs', -⟩
  · rw [hbegin]
    rfl
  · rw [hs] at hs'; cases hs'

/-- A duty that sends a message stores nothing if the stored negotiation moved on or is gone by the
time there is an answer. -/
theorem unchanged_of_sends (hv : v.Serves holder span) (hd : of? side n.state = some d)
    (hs : d.sends = true)
    (hstale : ∀ current, (v.desk ((d.begin ctx messageId now n).arrival v s)).ledger.find? n.id =
      some current → current.state ≠ n.state) (id : String) :
    (v.desk ((d.begin ctx messageId now n).run v s).2).ledger.find? id =
      (v.desk ((d.begin ctx messageId now n).arrival v s)).ledger.find? id := by
  have hout (s : σ) : (v.desk s).handle.outages = [] := by rw [hv.handle_desk]
  rcases begin_cases hd ctx messageId now with
    ⟨hs', -⟩ | ⟨-, ⟨p, stage, -, rfl | rfl, hbegin⟩ | hbegin | ⟨e, hbegin⟩⟩
  · rw [hs] at hs'; cases hs'
  · -- the message is sent, and its answer is dropped
    rw [hbegin] at hstale ⊢
    rw [Handling.run_sending, Handling.snd_run_answered_of_moved (Desk.find_eq (hout _) n.id)
      hstale, hv.ledger_setDesk]
    rfl
  · -- it is too early: all that is written is that the lease is given back
    rw [hbegin, Handling.snd_run_early, hv.ledger_setDesk, Desk.find?_release (hout s)]
    rfl
  · rw [hbegin, Handling.run_finished]
    rfl
  · rw [hbegin, Handling.run_finished]
    rfl

/-- A duty that moves on at once stores the copy, moved on, whatever is stored by then. -/
theorem stored_of_not_sends (hv : v.Serves holder span) (hd : of? side n.state = some d)
    (hs : d.sends = false)
    (hfree : ∀ r, (v.desk s).ledger.record? n.id = some r →
      r.blocker? holder (v.desk s).now = none) :
    ∃ moved, n.moveTo d.goal now = .ok moved ∧
      ∀ id, (v.desk ((d.begin ctx messageId now n).run v s).2).ledger.find? id =
        if n.id = id then some moved else (v.desk s).ledger.find? id := by
  obtain ⟨moved, hmoved, hbegin⟩ : ∃ moved, n.moveTo d.goal now = .ok moved ∧
      d.begin ctx messageId now n = .storing moved := by
    rcases begin_cases hd ctx messageId now with ⟨-, h⟩ | ⟨hs', -⟩
    · exact h
    · rw [hs] at hs'; cases hs'
  have hid := Negotiation.id_of_moveTo hmoved
  refine ⟨moved, hmoved, fun id => ?_⟩
  have hsave := Desk.save_eq_ok (d := v.desk s) (n := moved) (by rw [hv.handle_desk])
    (by rw [hid, hv.handle_desk]; exact hfree)
  rw [hbegin, Handling.snd_run_storing, hsave, hv.ledger_setDesk, Ledger.find?_put]
  show (if moved.id = id then _ else _) = _
  rw [hid]

/-- **Only the duties that look again spare what has moved on.**  A stale copy is handled: when the
worker comes to write, the negotiation is gone or in another state than the copy, and nobody keeps
the worker out.  Then every stored negotiation, and which ids there are, stays exactly as it was iff
the duty is one that sends a message, or what the copy moves on to is what is stored already. -/
theorem unchanged_iff_sends_or_same (hv : v.Serves holder span) (hd : of? side n.state = some d)
    (hstale : ∀ current, (v.desk ((d.begin ctx messageId now n).arrival v s)).ledger.find? n.id =
      some current → current.state ≠ n.state)
    (hfree : ∀ r, (v.desk ((d.begin ctx messageId now n).arrival v s)).ledger.record? n.id =
      some r → r.blocker? holder
        (v.desk ((d.begin ctx messageId now n).arrival v s)).now = none) :
    (∀ id, (v.desk ((d.begin ctx messageId now n).run v s).2).ledger.find? id =
        (v.desk ((d.begin ctx messageId now n).arrival v s)).ledger.find? id) ↔
      d.sends = true ∨ ∃ moved, n.moveTo d.goal now = .ok moved ∧
        (v.desk ((d.begin ctx messageId now n).arrival v s)).ledger.find? n.id = some moved := by
  cases hs : d.sends with
  | true => exact iff_of_true (unchanged_of_sends ctx messageId now hv hd hs hstale) (.inl rfl)
  | false =>
    rw [arrival_of_not_sends ctx messageId now hd hs] at hfree ⊢
    obtain ⟨moved, hmoved, hafter⟩ :=
      stored_of_not_sends ctx messageId now hv hd hs hfree
    constructor
    · intro hsame
      have hid := hsame n.id
      rw [hafter, if_pos rfl] at hid
      exact .inr ⟨moved, hmoved, hid.symm⟩
    · rintro (hs' | ⟨same, hsame, hstored⟩) id
      · cases hs'
      · obtain rfl : moved = same := by rw [hmoved] at hsame; exact Except.ok.inj hsame
        rw [hafter]
        split_ifs with hid
        · rw [← hid, hstored]
        · rfl

/-- A request that waits to be agreed to. -/
def staleRequest : Negotiation := { Negotiation.specimen with state := .requested }

/-- The ledger after everything about that negotiation is settled: the contract is in force. -/
def settledLedger : Ledger :=
  Ledger.empty.put ⟨{ Negotiation.specimen with state := .finalized, stateSince := 4000 }, none⟩

/-- What a provider meets with who handles the request late. -/
def lateChance : Chance := ⟨5000, 5000, "message-1", .error default⟩

theorem find?_settledLedger {current : Negotiation}
    (h : settledLedger.find? staleRequest.id = some current) : current.state = .finalized := by
  have hfind : settledLedger.find? staleRequest.id =
      some { Negotiation.specimen with state := .finalized, stateSince := 4000 } := by
    decide +kernel
  rw [hfind] at h
  cases h
  rfl

theorem blocker?_settledLedger {r : Record}
    (h : settledLedger.record? staleRequest.id = some r) : r.blocker? "worker" 5000 = none := by
  have hrecord : settledLedger.record? staleRequest.id =
      some ⟨{ Negotiation.specimen with state := .finalized, stateSince := 4000 }, none⟩ := by
    decide +kernel
  rw [hrecord] at h
  cases h
  rfl

theorem unchanged_iff_sends_or_same_stale_request :
    (∀ id, (((takeRequest.begin default "message-1" 5000 staleRequest).run
        (lateChance.venue "worker" 60000) settledLedger).2).find? id = settledLedger.find? id) ↔
      takeRequest.sends = true ∨ ∃ moved, staleRequest.moveTo takeRequest.goal 5000 = .ok moved ∧
        settledLedger.find? staleRequest.id = some moved :=
  unchanged_iff_sends_or_same default "message-1" 5000 (s := settledLedger)
    (lateChance.serves "worker" 60000) (show of? .provider staleRequest.state = _ from rfl)
    (fun current h => by
      rw [find?_settledLedger h]
      decide)
    (fun r h => blocker?_settledLedger h)

/-- **A contract in force is overwritten.**  A provider that agrees to a request late puts the
negotiation back to where the agreement is still to be sent. -/
theorem stale_request_overwrites :
    ¬ ∀ (c : Chance) (ctx : Context) (side : Side) (d : Duty) (n : Negotiation) (l : Ledger),
      of? side n.state = some d →
      (∀ current, l.find? n.id = some current → current.state ≠ n.state) →
      (∀ r, l.record? n.id = some r → r.blocker? "worker" c.now = none) →
      ∀ id, ((d.begin ctx c.messageId c.clock n).run (c.venue "worker" 60000) l).2.find? id =
        l.find? id := by
  intro h
  have hsame := h lateChance default .provider takeRequest staleRequest settledLedger rfl
    (fun current hc => by rw [find?_settledLedger hc]; decide)
    (fun r hr => blocker?_settledLedger hr) "negotiation-1"
  revert hsame
  decide +kernel

/-- A negotiation that was deleted is put in again. -/
example : ((takeRequest.begin default "message-1" 5000 staleRequest).run
    (lateChance.venue "worker" 60000) Ledger.empty).2.contains "negotiation-1" = true := by
  decide +kernel

end Duty

end Parley
