import Mathlib.Tactic.SplitIfs
import Parley.Negotiation.Basic

/-!
# Moves of a negotiation

What a move, a termination and a giving up do to a negotiation, when they are allowed.

* `moveTo_eq_ok_iff` : a move is allowed iff the table of moves has it, and this is the negotiation
  afterwards.
* `terminate_eq_ok_iff`, `giveUp_eq_ok_iff` : the two ways to an end are moves with a detail.
* `Change.apply_eq_ok_cases` : what each change does that is not refused.
* `SameTerms` : what a move does not touch, who negotiates with whom and over what.
-/

namespace Parley

namespace State

theorem canMoveTo_self {s : State} (h : s.isFinal = false) : s.canMoveTo s = true := by
  simp [canMoveTo, h]

theorem canMoveTo_terminating {s : State} (h : s.isFinal = false) :
    s.canMoveTo terminating = true := by simp [canMoveTo, h]

theorem canMoveTo_terminated {s : State} (h : s.isFinal = false) :
    s.canMoveTo terminated = true := by simp [canMoveTo, h]

end State

namespace Negotiation

variable {n m : Negotiation} {target : State} {now : Moment}

theorem moveTo_eq_ok_iff :
    n.moveTo target now = .ok m ↔ n.state.canMoveTo target = true ∧
      m = { n with
        state := target
        stateCount := if target = n.state then n.stateCount + 1 else 1
        stateSince := now
        updatedAt := now } := by
  unfold moveTo
  by_cases h : n.state.canMoveTo target = true
  · rw [if_pos h, Except.ok.injEq, eq_comm]
    exact (and_iff_right h).symm
  · rw [if_neg h]
    exact ⟨nofun, fun e => absurd e.1 h⟩

theorem exists_moveTo (h : n.state.canMoveTo target = true) (now : Moment) :
    ∃ m, n.moveTo target now = .ok m := ⟨_, moveTo_eq_ok_iff.2 ⟨h, rfl⟩⟩

section

variable (h : n.moveTo target now = .ok m)
include h

theorem id_of_moveTo : m.id = n.id := by
  obtain ⟨-, rfl⟩ := moveTo_eq_ok_iff.1 h; rfl

theorem state_of_moveTo : m.state = target := by
  obtain ⟨-, rfl⟩ := moveTo_eq_ok_iff.1 h; rfl

theorem stateCount_of_moveTo :
    m.stateCount = if target = n.state then n.stateCount + 1 else 1 := by
  obtain ⟨-, rfl⟩ := moveTo_eq_ok_iff.1 h; rfl

theorem agreement_of_moveTo : m.agreement = n.agreement := by
  obtain ⟨-, rfl⟩ := moveTo_eq_ok_iff.1 h; rfl

theorem errorDetail_of_moveTo : m.errorDetail = n.errorDetail := by
  obtain ⟨-, rfl⟩ := moveTo_eq_ok_iff.1 h; rfl

end

theorem terminate_eq_ok_iff {detail : Option String} :
    n.terminate detail now = .ok m ↔
      ∃ moved, n.moveTo .terminating now = .ok moved ∧ m = moved.withDetail detail := by
  unfold terminate
  cases n.moveTo .terminating now <;> simp [Except.map, eq_comm]

theorem giveUp_eq_ok_iff {detail : Option String} :
    n.giveUp detail now = .ok m ↔
      ∃ moved, n.moveTo .terminated now = .ok moved ∧ m = moved.withDetail detail := by
  unfold giveUp
  cases n.moveTo .terminated now <;> simp [Except.map, eq_comm]

@[simp] theorem id_withDetail (detail : Option String) : (n.withDetail detail).id = n.id := by
  cases detail <;> rfl

@[simp] theorem state_withDetail (detail : Option String) :
    (n.withDetail detail).state = n.state := by cases detail <;> rfl

@[simp] theorem stateCount_withDetail (detail : Option String) :
    (n.withDetail detail).stateCount = n.stateCount := by cases detail <;> rfl

@[simp] theorem agreement_withDetail (detail : Option String) :
    (n.withDetail detail).agreement = n.agreement := by cases detail <;> rfl

@[simp] theorem errorDetail_withDetail (detail : Option String) :
    (n.withDetail detail).errorDetail = detail.or n.errorDetail := by cases detail <;> rfl

/-! ### Changes -/

end Negotiation

namespace Change

/-- The state that the change is a move to, if it is one. -/
def target? : Change → Option State
  | move target => some target
  | terminate _ => some .terminating
  | giveUp _ => some .terminated
  | _ => none

/-- The detail that comes with the change, if one does. -/
def detail? : Change → Option String
  | terminate detail | giveUp detail => detail
  | _ => none

variable {n m : Negotiation} {c : Change} {now : Moment}

/-- **What a change does** that is not refused: it is a move, with the detail that comes with it;
or the id of the other side, which was not known or is the same, is known then; or there is one
more offer; or an agreement. -/
theorem apply_eq_ok_cases (h : c.apply now n = .ok m) :
    (∃ target moved, c.target? = some target ∧ n.moveTo target now = .ok moved ∧
      m = moved.withDetail c.detail?) ∨
    (∃ id, c = .correlate id ∧ (n.correlationId = none ∨ n.correlationId = some id) ∧
      m = { n with correlationId := some id }) ∨
    (∃ o, c = .addOffer o ∧ m = n.addOffer o) ∨
    ∃ a, c = .setAgreement a ∧ m = n.setAgreement a := by
  cases c with
  | move target => exact .inl ⟨target, m, rfl, h, rfl⟩
  | terminate detail =>
    obtain ⟨moved, hmoved, hm⟩ := Negotiation.terminate_eq_ok_iff.1 h
    exact .inl ⟨.terminating, moved, rfl, hmoved, hm⟩
  | giveUp detail =>
    obtain ⟨moved, hmoved, hm⟩ := Negotiation.giveUp_eq_ok_iff.1 h
    exact .inl ⟨.terminated, moved, rfl, hmoved, hm⟩
  | correlate id =>
    simp only [apply, Negotiation.correlate] at h
    split at h
    · next existing hexisting =>
      split_ifs at h with hsame
      cases h
      subst hsame
      exact .inr (.inl ⟨existing, rfl, .inr hexisting, by rw [← hexisting]⟩)
    · next hnone =>
      cases h
      exact .inr (.inl ⟨id, rfl, .inl hnone, rfl⟩)
  | addOffer o => cases h; exact .inr (.inr (.inl ⟨o, rfl, rfl⟩))
  | setAgreement a => cases h; exact .inr (.inr (.inr ⟨a, rfl, rfl⟩))

end Change

namespace Negotiation

variable {n m : Negotiation} {target : State} {now : Moment}

/-! ### Terms -/

/-- Two versions of a negotiation on the same terms: who negotiates with whom, how they reach each
other, and over what. -/
structure SameTerms (n m : Negotiation) : Prop where
  id_eq : m.id = n.id
  side_eq : m.side = n.side
  correlationId_eq : m.correlationId = n.correlationId
  counterPartyId_eq : m.counterPartyId = n.counterPartyId
  counterPartyAddress_eq : m.counterPartyAddress = n.counterPartyAddress
  protocol_eq : m.protocol = n.protocol
  callbackAddress_eq : m.callbackAddress = n.callbackAddress
  offers_eq : m.offers = n.offers
  createdAt_eq : m.createdAt = n.createdAt

theorem SameTerms.refl (n : Negotiation) : n.SameTerms n :=
  ⟨rfl, rfl, rfl, rfl, rfl, rfl, rfl, rfl, rfl⟩

theorem SameTerms.trans {p : Negotiation} (h : n.SameTerms m) (h' : m.SameTerms p) :
    n.SameTerms p where
  id_eq := h'.id_eq.trans h.id_eq
  side_eq := h'.side_eq.trans h.side_eq
  correlationId_eq := h'.correlationId_eq.trans h.correlationId_eq
  counterPartyId_eq := h'.counterPartyId_eq.trans h.counterPartyId_eq
  counterPartyAddress_eq := h'.counterPartyAddress_eq.trans h.counterPartyAddress_eq
  protocol_eq := h'.protocol_eq.trans h.protocol_eq
  callbackAddress_eq := h'.callbackAddress_eq.trans h.callbackAddress_eq
  offers_eq := h'.offers_eq.trans h.offers_eq
  createdAt_eq := h'.createdAt_eq.trans h.createdAt_eq

theorem sameTerms_of_moveTo (h : n.moveTo target now = .ok m) : n.SameTerms m := by
  obtain ⟨-, rfl⟩ := moveTo_eq_ok_iff.1 h
  exact ⟨rfl, rfl, rfl, rfl, rfl, rfl, rfl, rfl, rfl⟩

theorem sameTerms_withDetail (n : Negotiation) (detail : Option String) :
    n.SameTerms (n.withDetail detail) := by
  cases detail <;> exact ⟨rfl, rfl, rfl, rfl, rfl, rfl, rfl, rfl, rfl⟩

/-- An offer of a provider that waits to be sent. -/
def specimen : Negotiation where
  id := "negotiation-1"
  side := .provider
  state := .offering
  stateCount := 1
  stateSince := 1000
  correlationId := some "process-7"
  counterPartyId := "consumer"
  counterPartyAddress := "http://consumer"
  protocol := "dataspace-protocol-http"
  callbackAddress := none
  offers := [⟨"definition:asset:1234", "asset", default⟩]
  agreement := none
  errorDetail := none
  createdAt := 1000
  updatedAt := 1000

end Negotiation

end Parley
