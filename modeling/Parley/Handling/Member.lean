import Parley.Handling.Basic

/-!
# Members of a batch

A negotiation that was leased goes through its handler; unless it was processed, its lease is then
given back. The members of a batch are handled side by side, each step by step.

* `Member.step` makes the next step of a member.
* `Member.run` takes a member to its end, `Member.runUnless` stops before a message that is held back;
  `rank_step_lt` is why they come to an end.
-/

namespace Parley

/-- How far a leased negotiation has come. -/
inductive Member where
  /-- It was handed out. -/
  | received (negotiation : Negotiation)
  /-- It is being handled. -/
  | handling (negotiation : Negotiation) (handling : Handling)
  /-- It was handled, and its lease is to be given back. -/
  | releasing (negotiation : Negotiation) (verdict : Verdict)
  /-- All is done. -/
  | settled (negotiation : Negotiation) (verdict : Verdict)
  deriving Inhabited

namespace Member

variable {σ : Type}

/-- The negotiation as it was handed out. -/
def negotiation : Member → Negotiation
  | received n | handling n _ | releasing n _ | settled n _ => n

/-- The message that is to be sent next, if one is. -/
def outgoing? : Member → Option Message
  | handling _ h => h.outgoing?
  | _ => none

/-- The member once its message was answered. -/
def receive (answer : Answer) : Member → Member
  | handling n h => .handling n (h.receive answer)
  | other => other

/-- How the handling ended, once all is done. -/
def verdict? : Member → Option Verdict
  | settled _ v => some v
  | _ => none

/-- The member whose handling has come this far. -/
def ofHandling (n : Negotiation) : Handling → Member
  | .finished (.outcome .processed) => .settled n (.outcome .processed)
  | .finished v => .releasing n v
  | h => .handling n h

/-- The next step. -/
def step (v : Venue σ) (handler : Handler) : Member → σ → Member × σ
  | received n, s =>
    let (messageId, s) := v.freshId s
    (ofHandling n (handler messageId (v.now s) n), s)
  | handling n h, s =>
    let (h, s) := h.step v s
    (ofHandling n h, s)
  | releasing n verdict, s =>
    let (_, s) := v.atDesk (·.release n.id) s
    (.settled n verdict, s)
  | settled n verdict, s => (.settled n verdict, s)

/-! ### Running to the end -/

/-- The steps left at most. -/
def rank : Member → Nat
  | received _ => 6
  | handling _ h => h.rank + 2
  | releasing .. => 1
  | settled .. => 0

theorem rank_ofHandling_le (n : Negotiation) (h : Handling) : (ofHandling n h).rank ≤ h.rank + 2 := by
  unfold ofHandling
  split <;> simp [rank, Handling.rank]

theorem rank_ofHandling_finished (n : Negotiation) (v : Verdict) :
    (ofHandling n (.finished v)).rank ≤ 1 := by
  unfold ofHandling; split <;> simp_all [rank]

theorem rank_step_lt (v : Venue σ) (handler : Handler) (m : Member) (s : σ) (h : m.rank ≠ 0) :
    (m.step v handler s).1.rank < m.rank := by
  cases m with
  | received n =>
    have h1 := rank_ofHandling_le n (handler (v.freshId s).1 (v.now (v.freshId s).2) n)
    have h2 := Handling.rank_le (handler (v.freshId s).1 (v.now (v.freshId s).2) n)
    show (ofHandling n (handler (v.freshId s).1 (v.now (v.freshId s).2) n)).rank < 6
    omega
  | handling n g =>
    show (ofHandling n (g.step v s).1).rank < g.rank + 2
    rcases Handling.step_lt v g s with ⟨w, hw⟩ | hlt
    · rw [hw]
      have := rank_ofHandling_finished n w
      omega
    · have := rank_ofHandling_le n (g.step v s).1
      omega
  | releasing n w => simp [step, rank]
  | settled n w => simp [rank] at h

/-- A member taken as far as it gets: to its end, or to a message that is held back. -/
def runUnless (holds : Message → σ → Bool) (v : Venue σ) (handler : Handler) (m : Member) (s : σ) :
    Member × σ :=
  if h : m.rank = 0 then (m, s)
  else if m.outgoing?.any (holds · s) then (m, s)
  else
    have := rank_step_lt v handler m s h
    runUnless holds v handler (m.step v handler s).1 (m.step v handler s).2
termination_by m.rank

/-- A member taken to its end. -/
def run (v : Venue σ) (handler : Handler) (m : Member) (s : σ) : Member × σ :=
  m.runUnless (fun _ _ => false) v handler s

end Member

end Parley
