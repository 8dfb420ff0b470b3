import Mathlib.Logic.Relation
import Parley.Proofs.Workshop.Overlooked
import Parley.Proofs.Workshop.Reasons

/-!
# The protocol is followed

What a manager may do to the negotiations of a ledger, in a round and in any run in which nobody
else writes.

* `Manager.targets` is the manager's own table of moves, and `Manager.Reaches` what can be reached
  by moves that are both in it and in the table of all moves.
* `Duty.Makes.moves` : what a duty makes of a negotiation is such a move away.
* `Negotiation.ComesTo` : what may become of a negotiation: it goes such a way, its terms stay, and
  a detail is noted only on the way to its end.  `ComesTo.trans` strings two of them together.
* `Workshop.Assigned` is the invariant: a worker's jobs are about negotiations in its own states.
* `Ledger.Obeys` : what a ledger may come to; `rounds_obey` says that it does.

The duties do not know whether requests are agreed to without asking; it is the list of processors
that leaves them out.  This is why the invariant is about the states of the manager.
-/

namespace Parley

/-! ### The table of moves -/

/-- Where the answer to a message may leave a negotiation: where the message leads, in the same
state once more, or on one of the two ways to its end. -/
def State.outcomes (s success : State) : List State := [success, s, terminated, terminating]

namespace Manager

/-- The states to which a manager may move a negotiation, by the state that it is in. -/
def targets (m : Manager) (s : State) : List State :=
  match m.side, s with
  | .provider, .offering => s.outcomes .offered
  | .provider, .requested => if m.context.autoAgree then [.agreeing] else []
  | .provider, .agreeing => s.outcomes .agreed
  | .provider, .verified => [.finalizing]
  | .provider, .finalizing => s.outcomes .finalized
  | .consumer, .initial => [.requesting]
  | .consumer, .requesting => s.outcomes .requested
  | .consumer, .accepting => s.outcomes .accepted
  | .consumer, .agreed => [.verifying]
  | .consumer, .verifying => s.outcomes .verified
  | _, .terminating => [.terminated, .terminating]
  | _, _ => []

/-- The move is in the table of all moves and in the manager's own. -/
def Moves (m : Manager) (s t : State) : Prop := s.canMoveTo t = true ∧ t ∈ m.targets s

/-- There is a way of a manager's moves from a state to another one. -/
def Reaches (m : Manager) : State → State → Prop := Relation.ReflTransGen m.Moves

variable {m : Manager} {st : State} {d : Duty}

/-- Requests are among the states of a provider only if they are agreed to without asking. -/
theorem autoAgree_of_requested (hside : m.side = .provider) (h : .requested ∈ m.states) :
    m.context.autoAgree = true := by
  cases ha : m.context.autoAgree with
  | true => rfl
  | false => simp [states, hside, ha, Side.duties] at h

theorem moves_goal (hd : Duty.of? m.side st = some d) (hst : st ∈ m.states) :
    m.Moves st d.goal := by
  refine ⟨Duty.canMoveTo_goal hd, ?_⟩
  have hrequested : m.side = .provider → st = .requested → m.context.autoAgree = true :=
    fun hside h => autoAgree_of_requested hside (h ▸ hst)
  unfold targets
  cases hside : m.side <;> rw [hside] at hd hrequested <;> cases st <;> cases hd <;>
    simp_all [State.outcomes, Duty.goal]

theorem mem_targets_of_sends (hd : Duty.of? m.side st = some d) (hs : d.sends = true) {t : State}
    (ht : t = st ∨ t = .terminated ∨ t = .terminating) : t ∈ m.targets st := by
  unfold targets
  cases hside : m.side <;> rw [hside] at hd <;> cases st <;> cases hd <;>
    first
    | exact absurd hs (by decide)
    | rcases ht with rfl | rfl | rfl <;> simp [State.outcomes]

theorem moves_after (hd : Duty.of? m.side st = some d) (hst : st ∈ m.states)
    (hs : d.sends = true) (r : Route) : m.Moves st (d.after st r) := by
  have hfinal := Duty.isFinal_of_of? hd
  have hterminated : m.Moves st .terminated :=
    ⟨State.canMoveTo_terminated hfinal, mem_targets_of_sends hd hs (.inr (.inl rfl))⟩
  cases r with
  | success content => exact moves_goal hd hst
  | failure cause => exact ⟨State.canMoveTo_self hfinal, mem_targets_of_sends hd hs (.inl rfl)⟩
  | fatal f => exact hterminated
  | exhausted cause =>
    unfold Duty.after
    split_ifs
    · exact hterminated
    · exact ⟨State.canMoveTo_terminating hfinal, mem_targets_of_sends hd hs (.inr (.inr rfl))⟩

end Manager

/-! ### What becomes of a negotiation -/

/-- The negotiation is over without a contract, or on its way there. -/
def State.isEnding (s : State) : Prop := s = .terminating ∨ s = .terminated

theorem State.isEnding_of_canMoveTo {s t : State} (hs : s.isEnding) (h : s.canMoveTo t = true) :
    t.isEnding := by
  rcases hs with rfl | rfl
  · cases t <;> first | exact .inl rfl | exact .inr rfl | cases h
  · rw [State.canMoveTo_of_isFinal rfl] at h
    cases h

/-- What may become of a negotiation by way of a manager. -/
structure Negotiation.ComesTo (m : Manager) (n n' : Negotiation) : Prop where
  /-- It goes a way of the manager's moves. -/
  reaches : m.Reaches n.state n'.state
  /-- Its terms stay as they are. -/
  sameTerms : n.SameTerms n'
  /-- A detail is noted on the way to its end only. -/
  isEnding : n'.errorDetail ≠ n.errorDetail → n'.state.isEnding

namespace Negotiation.ComesTo

variable {m : Manager} {n n' n'' : Negotiation}

theorem refl (m : Manager) (n : Negotiation) : n.ComesTo m n :=
  ⟨.refl, .refl n, fun h => absurd rfl h⟩

theorem isEnding_of_reaches {s t : State} (h : m.Reaches s t) (hs : s.isEnding) : t.isEnding := by
  induction h with
  | refl => exact hs
  | tail _ hmove ih => exact State.isEnding_of_canMoveTo ih hmove.1

theorem trans (h : n.ComesTo m n') (h' : n'.ComesTo m n'') : n.ComesTo m n'' where
  reaches := Relation.ReflTransGen.trans h.reaches h'.reaches
  sameTerms := h.sameTerms.trans h'.sameTerms
  isEnding := by
    intro hne
    by_cases hlater : n''.errorDetail = n'.errorDetail
    · -- the detail was noted before, and from there the way leads to the end
      exact isEnding_of_reaches h'.reaches (h.isEnding (hlater ▸ hne))
    · exact h'.isEnding hlater

end Negotiation.ComesTo

namespace Duty

variable {m : Manager} {d : Duty} {n changed : Negotiation} {answer : Option Answer}

theorem Makes.moves (h : d.Makes m.context n answer changed)
    (hd : of? m.side n.state = some d) (hst : n.state ∈ m.states) :
    m.Moves n.state changed.state := by
  rcases h.cases hd with ⟨-, -, hgoal, -⟩ | ⟨hs, a, -, hafter, -⟩
  · rw [hgoal]; exact Manager.moves_goal hd hst
  · rw [hafter]; exact Manager.moves_after hd hst hs _

theorem Makes.comesTo (h : d.Makes m.context n answer changed)
    (hd : of? m.side n.state = some d) (hst : n.state ∈ m.states) : n.ComesTo m changed where
  reaches := .single (h.moves hd hst)
  sameTerms := h.sameTerms hd
  isEnding := by
    intro hne
    rcases h.detail_cases hd with ⟨-, hsame⟩ | ⟨f, -, hstate, -⟩ | ⟨-, detail, hstate, -⟩
    · exact absurd hsame hne
    · exact .inr hstate
    · rw [hstate]
      split_ifs
      · exact .inr rfl
      · exact .inl rfl

end Duty

/-! ### Runs -/

namespace Workshop

variable {ι : Type} {workers : ι → Worker} {W : Workshop ι} {id : String}

/-- The workers have jobs about negotiations in their managers' states only. -/
def Assigned (workers : ι → Worker) (W : Workshop ι) : Prop := ∀ w place j,
  W.job? w place = some j → j.member.negotiation.state ∈ (workers w).manager.states

theorem assigned_opening (l : Ledger) : (opening l : Workshop ι).Assigned workers := by
  rintro w place j ⟨⟩

variable [DecidableEq ι]

theorem Orderly.assigned_take (ho : W.Orderly workers) (ha : W.Assigned workers) (t : Turn ι) :
    (W.take workers t).Assigned workers := by
  intro w place j hj
  rcases job?_take_cases hj with hbefore | ⟨rfl, p, hp, n, hn, rfl⟩ | ⟨rfl, i, hi, rfl⟩
  · exact ha w place j hbefore
  · -- the members of the batch are in the state of the processor
    obtain ⟨r, -, -, hstate, -⟩ := Ledger.mem_batch hn
    show n.state ∈ (workers t.worker).manager.states
    rw [hstate]
    exact Manager.state_mem_states (ho.ahead _ p hp)
  · show (W.proceed workers t i).1.negotiation.state ∈ _
    rw [ho.negotiation_proceed hi]
    exact ha _ place i hi

/-- **What becomes of a negotiation in a run** of a worker that has the ledger to itself. -/
theorem exists_comesTo_run {k : Worker} {W : Workshop Unit} (ho : W.Orderly fun _ => k)
    (ha : W.Assigned fun _ => k) (ts : List (Turn Unit)) {n : Negotiation}
    (hn : W.ledger.find? id = some n) :
    ∃ n', (W.run (fun _ => k) ts).ledger.find? id = some n' ∧ n.ComesTo k.manager n' := by
  induction ts generalizing W n with
  | nil => exact ⟨n, hn, .refl _ n⟩
  | cons t ts ih =>
    have ho' := ho.take (fun _ _ _ => rfl) (timely_of_subsingleton _ W [t]).1
    have hstep : ∃ n₁, (W.take (fun _ => k) t).ledger.find? id = some n₁ ∧
        n.ComesTo k.manager n₁ := by
      rcases ho.find?_take t id with hsame | ⟨d, n', answer, changed, hn', hd, hm, hchanged, he⟩
      · exact ⟨n, hsame.trans hn, .refl _ n⟩
      · obtain rfl : n = n' := by rw [hn] at hn'; exact Option.some.inj hn'
        obtain ⟨-, place, j, hj, he⟩ := exists_job_of_mem_events he
        have hst : n.state ∈ k.manager.states := by
          rw [show n = _ from ho.copy_eq hj he]
          exact ha _ place j hj
        exact ⟨changed, hchanged, hm.comesTo hd hst⟩
    obtain ⟨n₁, hn₁, hfirst⟩ := hstep
    obtain ⟨n', hn', hrest⟩ := ih ho' (ho.assigned_take ha t) hn₁
    exact ⟨n', hn', hfirst.trans hrest⟩

end Workshop

/-- What a ledger may come to by way of a manager. -/
structure Ledger.Obeys (m : Manager) (l l' : Ledger) : Prop where
  /-- Every negotiation goes a way that it may go. -/
  comesTo : ∀ id n, l.find? id = some n → ∃ n', l'.find? id = some n' ∧ n.ComesTo m n'
  /-- A negotiation that is over is left alone, and so is the lease on it. -/
  final : ∀ id r, l.record? id = some r → r.negotiation.state.isFinal = true →
    l'.record? id = some r
  /-- No record is put in or taken out. -/
  ids : l'.ids = l.ids

namespace Workshop

theorem obeys_run (k : Worker) (l : Ledger) (ts : List (Turn Unit)) :
    l.Obeys k.manager ((opening l).run (fun _ => k) ts).ledger := by
  have ho : (opening l : Workshop Unit).Orderly fun _ => k := orderly_opening l
  have hinj : Function.Injective fun _ : Unit => k.holder := fun _ _ _ => rfl
  have ht := timely_of_subsingleton (fun _ : Unit => k) (opening l) ts
  refine ⟨fun id n hn => ?_, fun id r hr hfinal => ?_, ho.ids_run hinj ht⟩
  · exact exists_comesTo_run ho (assigned_opening l) ts hn
  · have hnone : Duty.of? k.manager.side r.negotiation.state = none := by
      cases hd : Duty.of? k.manager.side r.negotiation.state with
      | none => rfl
      | some d => rw [Duty.isFinal_of_of? hd] at hfinal; cases hfinal
    exact (ho.untouched_run hinj ht (idle_opening l id) hr fun _ _ => overlooks_of_no_duty hnone).1

/-- **The protocol is followed.**  Whatever a manager does in a ledger that nobody else writes to,
and whatever answers it gets, every negotiation goes a way of the manager's moves on the terms that
it was begun on, and what is over stays as it is.  In particular this holds of a round. -/
theorem rounds_obey (k : Worker) :
    (∀ (l : Ledger) (ts : List (Turn Unit)),
      l.Obeys k.manager ((opening l).run (fun _ => k) ts).ledger) ∧
    ∀ {σ : Type} {v : Venue σ} {sent : σ → List (Message × Answer)}, v.Quiet k sent → ∀ s,
      (v.desk s).ledger.Obeys k.manager (v.desk (k.manager.tick v s).2).ledger := by
  refine ⟨obeys_run k, ?_⟩
  intro σ v sent hv s
  obtain ⟨ts, hts⟩ := exists_shift_of_tick hv s
  rw [hts]
  exact obeys_run k _ ts

/-- A round in which the offer that waits is taken. -/
theorem rounds_obey_specimen :
    let k : Worker := ⟨"worker", 60000, .provider, "provider", {}, 5, false⟩
    let c : Chance := ⟨5000, 5000, "message-1", .ok (.succeeded default)⟩
    (steady c k).Quiet k Prod.snd ∧
    Ledger.specimen.Obeys k.manager (k.manager.tick (steady c k) (Ledger.specimen, [])).2.1 := by
  intro k c
  have hquiet := quiet_steady c k
  exact ⟨hquiet, (rounds_obey k).2 hquiet (Ledger.specimen, [])⟩

end Workshop

end Parley
