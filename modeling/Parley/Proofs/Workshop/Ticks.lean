import Parley.Proofs.Workshop.Releases
import Parley.Proofs.Workshop.Shifts

/-!
# Ticks of a lone worker

A worker that has a ledger to itself makes one round after the other.  A tick is one such round, in
which both clocks show the same reading all the time; from tick to tick the reading may go anywhere.

* `Tick`, `Tick.IsOf`, `Ticks` : a tick of a worker, and ticks one after the other.
* `take_cases_within` : what a turn can be within a round.
* `Passed` : a state that was taken care of in the round.
* `Underway` : the invariant within a round; no processor that is still ahead takes care of the
  state of what is being handled, since each state has one processor.
* `Rests` : a negotiation that nobody handles; `Rests.take` : it rests, or is handed out as it is
  stored.
* `take_of_unsettled` : what is being handled changes by its own steps only.
-/

namespace Parley

theorem Manager.nodup_states (m : Manager) : m.states.Nodup := by
  unfold states
  generalize m.side = side
  generalize m.context.autoAgree = autoAgree
  cases side <;> cases autoAgree <;> decide

theorem Manager.map_state_processors (m : Manager) :
    m.processors.map Processor.state = m.states := by
  rw [processors, states, List.map_map]
  rfl

namespace Workshop

/-! ### Ticks -/

/-- Nothing is under way, and nothing lies ahead in the round. -/
structure AtRest (W : Workshop Unit) : Prop where
  lastBatch : (W.bench ()).ahead = []
  idle : (W.bench ()).isIdle = true

instance (W : Workshop Unit) : Decidable W.AtRest :=
  decidable_of_iff ((W.bench ()).ahead.isEmpty = true ∧ (W.bench ()).isIdle = true)
    ⟨fun h => ⟨List.isEmpty_iff.1 h.1, h.2⟩, fun h => ⟨List.isEmpty_iff.2 h.1, h.2⟩⟩

end Workshop

/-- A round of a lone worker, and what the clocks show in it. -/
structure Tick where
  /-- What the clocks show. -/
  reading : Moment
  /-- The beginning of the round. -/
  start : Chance
  /-- The turns after that. -/
  turns : List (Turn Unit)

namespace Tick

/-- All turns of the round. -/
def all (τ : Tick) : List (Turn Unit) := ⟨(), .start, τ.start⟩ :: τ.turns

open Workshop in
/-- The worker makes the round in a workshop: it begins no other one, the clocks show the same all
the time, and everything is at its end afterwards. -/
structure IsOf (k : Worker) (W : Workshop Unit) (τ : Tick) : Prop where
  one : ∀ t ∈ τ.turns, t.act ≠ .start
  now : ∀ t ∈ τ.turns, t.chance.now = τ.reading
  clock : ∀ t ∈ τ.turns, t.chance.clock = τ.reading
  ends : (W.run (fun _ => k) τ.all).AtRest

end Tick

namespace Workshop

variable {k : Worker} {W : Workshop Unit} {t : Turn Unit} {c : Negotiation}

/-- The worker makes these ticks one after the other, and each of them has a property in the
workshop in which it begins. -/
def Ticks (k : Worker) (P : Workshop Unit → Tick → Prop) : Workshop Unit → List Tick → Prop
  | _, [] => True
  | W, τ :: τs => τ.IsOf k W ∧ P W τ ∧ Ticks k P (W.run (fun _ => k) τ.all) τs

/-- The turns of some ticks. -/
def turnsOf (τs : List Tick) : List (Turn Unit) := τs.flatMap Tick.all

@[simp] theorem turnsOf_singleton (τ : Tick) : turnsOf [τ] = τ.all := List.append_nil _

theorem turnsOf_cons (τ : Tick) (τs : List Tick) : turnsOf (τ :: τs) = τ.all ++ turnsOf τs := rfl

theorem turnsOf_append (τs υs : List Tick) : turnsOf (τs ++ υs) = turnsOf τs ++ turnsOf υs :=
  List.flatMap_append

theorem ticks_append {P : Workshop Unit → Tick → Prop} {τs υs : List Tick} :
    Ticks k P W (τs ++ υs) ↔
      Ticks k P W τs ∧ Ticks k P (W.run (fun _ => k) (turnsOf τs)) υs := by
  induction τs generalizing W with
  | nil => exact (and_iff_right trivial).symm
  | cons τ τs ih =>
    rw [turnsOf_cons, run_append, List.cons_append]
    simp only [Ticks, ih, and_assoc]

/-- All that is handed out in some turns. -/
def handedOut (k : Worker) (W : Workshop Unit) : List (Turn Unit) → List Negotiation
  | [] => []
  | t :: ts => (W.handedOut? t).getD [] ++ handedOut k (W.take (fun _ => k) t) ts

/-- The workshop between two ticks. -/
structure Between (k : Worker) (W : Workshop Unit) : Prop extends
  W.Orderly fun _ => k, W.AtRest

theorem between_opening (k : Worker) (l : Ledger) : (opening l).Between k :=
  ⟨orderly_opening l, rfl, rfl⟩

theorem orderly_take (ho : W.Orderly fun _ => k) (t : Turn Unit) :
    (W.take (fun _ => k) t).Orderly fun _ => k :=
  ho.take (fun _ _ _ => rfl) (timely_of_subsingleton _ _ [t]).1

theorem orderly_run (ho : W.Orderly fun _ => k) (ts : List (Turn Unit)) :
    (W.run (fun _ => k) ts).Orderly fun _ => k :=
  ho.run (fun _ _ _ => rfl) (timely_of_subsingleton _ _ ts)

theorem Between.after (h : W.Between k) {τ : Tick} (hτ : τ.IsOf k W) :
    (W.run (fun _ => k) τ.all).Between k := ⟨orderly_run h.toOrderly _, hτ.ends⟩

theorem Between.afterAll {P : Workshop Unit → Tick → Prop} (h : W.Between k) {τs : List Tick}
    (hτs : Ticks k P W τs) : (W.run (fun _ => k) (turnsOf τs)).Between k := by
  induction τs generalizing W with
  | nil => exact h
  | cons τ τs ih =>
    rw [turnsOf_cons, run_append]
    exact ih (h.after hτs.1) hτs.2.2

theorem exists_turn_of_mem_history {e : Unit × Event} {ts : List (Turn Unit)}
    (h : e ∈ W.history (fun _ => k) ts) : ∃ before t after, ts = before ++ t :: after ∧
      e ∈ (W.run (fun _ => k) before).events (fun _ => k) t := by
  induction ts generalizing W with
  | nil => cases h
  | cons t ts ih =>
    rcases List.mem_append.1 h with h | h
    · exact ⟨[], t, ts, rfl, h⟩
    · obtain ⟨before, u, after, rfl, he⟩ := ih h
      exact ⟨t :: before, u, after, rfl, he⟩

/-! ### Within a round -/

theorem take_cases_within (k : Worker) (W : Workshop Unit) (hact : t.act ≠ .start) :
    (W.take (fun _ => k) t = W ∧ W.events (fun _ => k) t = [] ∧ W.handedOut? t = none) ∨
    (∃ p ps, (W.bench ()).ahead = p :: ps ∧ (W.bench ()).isIdle = true ∧
      W.take (fun _ => k) t = W.leased (fun _ => k) t p ps ∧
      W.events (fun _ => k) t = [] ∧
      W.handedOut? t = some (W.ledger.batch p.batchSize p.state t.chance.now)) ∨
    ∃ place j, W.job? () place = some j ∧
      W.take (fun _ => k) t = W.stepped (fun _ => k) t place j ∧
      W.events (fun _ => k) t = (W.eventsOf (fun _ => k) t j).map ((), ·) ∧
      W.handedOut? t = none := by
  obtain ⟨w, act, chance⟩ := t
  cases act with
  | start => exact absurd rfl hact
  | lease =>
    cases ha : (W.bench ()).ahead with
    | nil => exact .inl ⟨by simp only [take, ha], rfl, by simp only [handedOut?, ha]⟩
    | cons p ps =>
      by_cases hb : (W.bench ()).isIdle = true
      · exact .inr (.inl ⟨p, ps, rfl, hb, take_lease rfl ha hb, rfl,
          by simp only [handedOut?, ha, hb, if_true]⟩)
      · exact .inl ⟨by simp only [take, ha, hb, if_false, Bool.false_eq_true], rfl,
          by simp only [handedOut?, ha, hb, if_false, Bool.false_eq_true]⟩
  | proceed place =>
    cases hj : W.job? () place with
    | none => exact .inl ⟨by simp only [take, hj], by simp only [events, hj], rfl⟩
    | some j =>
      exact .inr (.inr ⟨place, j, hj, take_proceed rfl hj, by simp only [events, hj], rfl⟩)

/-- No processor that is still ahead in the round takes care of a state. -/
def Passed (W : Workshop Unit) (st : State) : Prop := ∀ p ∈ (W.bench ()).ahead, p.state ≠ st

theorem Passed.take {st : State} (h : W.Passed st) (hact : t.act ≠ .start) :
    (W.take (fun _ => k) t).Passed st := by
  rcases take_cases_within k W hact with
    ⟨ht, -⟩ | ⟨p, ps, hp, -, ht, -⟩ | ⟨place, j, -, ht, -⟩
  · rw [ht]
    exact h
  · rw [ht, Passed, bench_leased, if_pos rfl]
    exact fun q hq => h q (hp ▸ List.mem_cons_of_mem p hq)
  · rw [ht, Passed, bench_stepped, if_pos rfl]
    exact h

/-- A round is under way as it should be. -/
structure Underway (k : Worker) (W : Workshop Unit) : Prop extends W.Orderly fun _ => k where
  /-- The processors ahead take care of different states. -/
  nodup : ((W.bench ()).ahead.map Processor.state).Nodup
  /-- What is being handled is in a state that was taken care of. -/
  passed : ∀ place j, W.job? () place = some j → j.member.verdict? = none →
    W.Passed j.member.negotiation.state

theorem proceed_of_isSome {j : Job} (h : j.member.verdict?.isSome = true) :
    W.proceed (fun _ => k) t j = (j.member, W.ledger) ∧ W.eventsOf (fun _ => k) t j = [] := by
  cases hm : j.member with
  | settled n v =>
    rw [eventsOf, proceed, hm]
    exact ⟨rfl, rfl⟩
  | received n | handling n g | releasing n v => rw [hm] at h; cases h

theorem Underway.take (h : W.Underway k) (hact : t.act ≠ .start) :
    (W.take (fun _ => k) t).Underway k := by
  refine { toOrderly := orderly_take h.toOrderly t, nodup := ?_, passed := ?_ }
  · rcases take_cases_within k W hact with
      ⟨ht, -⟩ | ⟨p, ps, hp, -, ht, -⟩ | ⟨place, j, -, ht, -⟩
    · rw [ht]
      exact h.nodup
    · rw [ht, bench_leased, if_pos rfl]
      have hnodup := h.nodup
      rw [hp] at hnodup
      exact (List.nodup_cons.1 hnodup).2
    · rw [ht, bench_stepped, if_pos rfl]
      exact h.nodup
  · intro place j hj hun
    rcases take_cases_within k W hact with
      ⟨ht, -⟩ | ⟨p, ps, hp, -, ht, -⟩ | ⟨place', i, hi, ht, -⟩
    · rw [ht] at hj
      exact (h.passed place j hj hun).take hact
    · -- the batch is in the state of the processor that is not ahead any more
      rw [ht, job?_leased_self (t := t)] at hj
      obtain ⟨n, hn, rfl⟩ := Option.map_eq_some_iff.1 hj
      obtain ⟨-, -, -, hstate, -⟩ := Ledger.mem_batch (List.mem_of_getElem? hn)
      rw [ht, Passed, bench_leased, if_pos rfl]
      have hnodup := h.nodup
      rw [hp] at hnodup
      intro q hq heq
      refine (List.nodup_cons.1 hnodup).1 (List.mem_map.2 ⟨q, hq, ?_⟩)
      exact heq.trans hstate
    · rw [ht] at hj
      rcases job?_stepped_cases hi hj with ⟨-, rfl, rfl⟩ | ⟨-, hj⟩
      · have hn := h.negotiation_proceed (t := t) hi
        show (W.take (fun _ => k) t).Passed (W.proceed (fun _ => k) t i).1.negotiation.state
        rw [hn]
        refine (h.passed place i hi (Option.not_isSome_iff_eq_none.1 fun hsome => ?_)).take hact
        -- what is at its end stays so
        have hsame : (W.proceed (fun _ => k) t i).1.verdict? = none := hun
        rw [(proceed_of_isSome (k := k) (W := W) (t := t) hsome).1] at hsame
        rw [hsame] at hsome
        cases hsome
      · exact (h.passed place j hj hun).take hact

theorem Underway.run (h : W.Underway k) {ts : List (Turn Unit)} (hts : ∀ t ∈ ts, t.act ≠ .start) :
    (W.run (fun _ => k) ts).Underway k := by
  induction ts generalizing W with
  | nil => exact h
  | cons t ts ih =>
    obtain ⟨ht, hts⟩ := List.forall_mem_cons.1 hts
    exact ih (h.take ht) hts

/-- The workshop once a round was begun. -/
def begun (k : Worker) (W : Workshop Unit) : Workshop Unit :=
  ⟨W.ledger, Function.update W.bench ()
    { W.bench () with ahead := k.manager.processors }⟩

theorem take_start (h : W.AtRest) (chance : Chance) :
    W.take (fun _ => k) ⟨(), .start, chance⟩ = W.begun k := by
  have hempty : ((W.bench ()).ahead.isEmpty && (W.bench ()).isIdle) = true := by
    rw [h.lastBatch, h.idle]
    rfl
  exact if_pos hempty

@[simp] theorem job?_begun {w : Unit} {place : ℕ} :
    (W.begun k).job? w place = W.job? w place := rfl

theorem Between.underway (h : W.Between k) : (W.begun k).Underway k where
  toOrderly := take_start h.toAtRest default ▸ orderly_take h.toOrderly _
  nodup := by
    show (k.manager.processors.map Processor.state).Nodup
    exact k.manager.map_state_processors ▸ k.manager.nodup_states
  passed place j hj hun := by
    rw [job?_begun] at hj
    obtain ⟨n, v, hm⟩ := settled_of_isIdle h.idle hj
    rw [hm] at hun
    cases hun

theorem Between.tick (h : W.Between k) (τ : Tick) :
    W.run (fun _ => k) τ.all = (W.begun k).run (fun _ => k) τ.turns ∧
    W.history (fun _ => k) τ.all = (W.begun k).history (fun _ => k) τ.turns ∧
    handedOut k W τ.all = handedOut k (W.begun k) τ.turns := by
  have htake := take_start (k := k) h.toAtRest τ.start
  refine ⟨?_, ?_, ?_⟩
  · rw [Tick.all, run_cons, htake]
  · rw [Tick.all, history, htake]
    rfl
  · rw [Tick.all, handedOut, htake]
    rfl

/-- What is kept by each turn of a round, with what was noticed and handed out until then, is kept
by the rest of the round. -/
theorem Underway.run_induct {now : Moment}
    {P : Workshop Unit → List (Unit × Event) → List Negotiation → Prop}
    (hstep : ∀ {W es ns t}, W.Underway k → t.act ≠ .start → t.chance.clock = now → P W es ns →
      P (W.take (fun _ => k) t) (es ++ W.events (fun _ => k) t) (ns ++ (W.handedOut? t).getD []))
    (hun : W.Underway k) {ts : List (Turn Unit)} (hts : ∀ t ∈ ts, t.act ≠ .start)
    (hclock : ∀ t ∈ ts, t.chance.clock = now) {es : List (Unit × Event)} {ns : List Negotiation}
    (h : P W es ns) :
    P (W.run (fun _ => k) ts) (es ++ W.history (fun _ => k) ts) (ns ++ handedOut k W ts) := by
  induction ts generalizing W es ns with
  | nil =>
    rw [history, handedOut, List.append_nil, List.append_nil]
    exact h
  | cons t ts ih =>
    obtain ⟨ht, hts⟩ := List.forall_mem_cons.1 hts
    obtain ⟨hc, hclock⟩ := List.forall_mem_cons.1 hclock
    have hrest := ih (hun.take ht) hts hclock (hstep hun ht hc h)
    rw [List.append_assoc, List.append_assoc] at hrest
    exact hrest

theorem Between.tick_induct {τ : Tick}
    {P : Workshop Unit → List (Unit × Event) → List Negotiation → Prop}
    (hstep : ∀ {W es ns t}, W.Underway k → t.act ≠ .start → t.chance.clock = τ.reading →
      P W es ns →
      P (W.take (fun _ => k) t) (es ++ W.events (fun _ => k) t) (ns ++ (W.handedOut? t).getD []))
    (hb : W.Between k) (hτ : τ.IsOf k W) (h : P (W.begun k) [] []) :
    P (W.run (fun _ => k) τ.all) (W.history (fun _ => k) τ.all) (handedOut k W τ.all) := by
  obtain ⟨hrun, hhistory, hout⟩ := hb.tick τ
  rw [hrun, hhistory, hout]
  exact hb.underway.run_induct hstep hτ.one hτ.clock h

/-! ### Negotiations at rest -/

/-- A negotiation is stored as `c`, and nobody is handling it. -/
structure Rests (W : Workshop Unit) (c : Negotiation) : Prop where
  stored : W.ledger.find? c.id = some c
  settled : ∀ place j, W.job? () place = some j → j.id = c.id → ∃ n v, j.member = .settled n v

theorem AtRest.rests (h : W.AtRest) (hc : W.ledger.find? c.id = some c) : W.Rests c :=
  ⟨hc, fun _ _ hj _ => settled_of_isIdle h.idle hj⟩

theorem Between.rests (h : W.Between k) (hc : W.ledger.find? c.id = some c) :
    (W.begun k).Rests c := by
  refine ⟨hc, fun place j hj _ => ?_⟩
  rw [job?_begun] at hj
  exact settled_of_isIdle h.idle hj

/-- Leasing a batch leaves a negotiation at rest, with its lease, unless it is in the batch; then it
is in the state of the processor, which was still ahead. -/
theorem Rests.leased (h : W.Rests c) {p : Processor} {ps : List Processor}
    (hp : (W.bench ()).ahead = p :: ps) :
    let batch := W.ledger.batch p.batchSize p.state t.chance.now
    (W.leased (fun _ => k) t p ps).ledger.find? c.id = some c ∧
    ((W.leased (fun _ => k) t p ps).Rests c ∧
        (W.leased (fun _ => k) t p ps).ledger.leaseOf? c.id = W.ledger.leaseOf? c.id ∧
        (∀ n ∈ batch, n.id ≠ c.id) ∨
      ¬W.Passed c.state ∧ c ∈ batch ∧ ∃ place,
        (W.leased (fun _ => k) t p ps).job? () place = some ⟨p, t.chance.now, .received c⟩) := by
  intro batch
  have hfind : (W.leased (fun _ => k) t p ps).ledger.find? c.id = some c :=
    Ledger.find?_setLease.trans h.stored
  refine ⟨hfind, ?_⟩
  by_cases hid : c.id ∈ batch.map (·.id)
  · obtain ⟨n, hn, hnid⟩ := List.mem_map.1 hid
    obtain ⟨r, hr, rfl, hstate, -⟩ := Ledger.mem_batch hn
    obtain rfl : r.negotiation = c := by
      have hstored := h.stored
      rw [← hnid, Ledger.find?, hr] at hstored
      exact Option.some.inj hstored
    obtain ⟨place, hplace⟩ := List.mem_iff_getElem?.1 hn
    refine .inr ⟨fun hpassed => hpassed p (hp ▸ List.mem_cons_self) hstate.symm, hn, place, ?_⟩
    rw [job?_leased_self (t := t), hplace]
    rfl
  · refine .inl ⟨⟨hfind, fun place j hj hjid => ?_⟩,
      Ledger.leaseOf?_congr (Ledger.record?_leaseNext_of_not_mem hid),
      fun n hn hnid => hid (List.mem_map.2 ⟨n, hn, hnid⟩)⟩
    rw [job?_leased_self (t := t)] at hj
    obtain ⟨n, hn, rfl⟩ := Option.map_eq_some_iff.1 hj
    exact absurd (List.mem_map.2 ⟨n, List.mem_of_getElem? hn, hjid⟩) hid

/-- What the step of a job does is nothing to a negotiation at rest: it has no step left if the job
is about the negotiation, and else it is about another one. -/
theorem Rests.proceed (h : W.Rests c) (ho : W.Orderly fun _ => k) {place : ℕ} {i : Job}
    (hi : W.job? () place = some i) :
    (∀ e ∈ W.eventsOf (fun _ => k) t i, e.copy.id ≠ c.id) ∧
    (W.proceed (fun _ => k) t i).2.record? c.id = W.ledger.record? c.id ∧
    (i.id = c.id → ∃ n v, (W.proceed (fun _ => k) t i).1 = .settled n v) := by
  by_cases hid : i.id = c.id
  · obtain ⟨n, v, hm⟩ := h.settled place i hi hid
    obtain ⟨hproceed, hevents⟩ :=
      proceed_of_isSome (k := k) (W := W) (t := t) (j := i) (by rw [hm]; rfl)
    rw [hevents, hproceed, hm]
    exact ⟨List.forall_mem_nil _, rfl, fun _ => ⟨n, v, rfl⟩⟩
  · obtain ⟨d, hd, -, hgoes⟩ := ho.goes (t := t) hi
    refine ⟨fun e he => ?_, hgoes.record?_of_ne hd fun heq => hid heq.symm, fun h => absurd h hid⟩
    exact (congrArg Negotiation.id (ho.copy_eq hi he)).trans_ne hid

theorem Rests.stepped (h : W.Rests c) (ho : W.Orderly fun _ => k) {place : ℕ} {i : Job}
    (hi : W.job? () place = some i) : (W.stepped (fun _ => k) t place i).Rests c := by
  obtain ⟨-, hrecord, hend⟩ := h.proceed (t := t) ho hi
  refine ⟨?_, fun place' j hj hjid => ?_⟩
  · show (W.proceed (fun _ => k) t i).2.find? c.id = some c
    rw [Ledger.find?, hrecord]
    exact h.stored
  · rcases job?_stepped_cases hi hj with ⟨-, rfl, rfl⟩ | ⟨-, hj⟩
    · rw [id_proceed] at hjid
      exact hend hjid
    · exact h.settled place' j hj hjid

/-- A turn leaves a negotiation at rest, with its lease, and nothing is noticed of it; or it is
handed out, by a processor of its state. -/
theorem Rests.take (h : W.Rests c) (ho : W.Orderly fun _ => k) (hact : t.act ≠ .start) :
    (∀ e ∈ W.events (fun _ => k) t, e.2.copy.id ≠ c.id) ∧
    (((W.take (fun _ => k) t).Rests c ∧
        (W.take (fun _ => k) t).ledger.leaseOf? c.id = W.ledger.leaseOf? c.id ∧
        ∀ n ∈ (W.handedOut? t).getD [], n.id ≠ c.id) ∨
      ¬W.Passed c.state ∧ c ∈ (W.handedOut? t).getD [] ∧
        (W.take (fun _ => k) t).ledger.find? c.id = some c ∧
        ∃ place p, (W.take (fun _ => k) t).job? () place =
          some ⟨p, t.chance.now, .received c⟩) := by
  rcases take_cases_within k W hact with
    ⟨ht, he, hout⟩ | ⟨p, ps, hp, -, ht, he, hout⟩ | ⟨place, i, hi, ht, he, hout⟩ <;>
    rw [ht, he, hout]
  · exact ⟨List.forall_mem_nil _, .inl ⟨h, rfl, List.forall_mem_nil _⟩⟩
  · obtain ⟨hfind, hrests | ⟨hpassed, hmem, place, hj⟩⟩ := h.leased (k := k) (t := t) hp
    · exact ⟨List.forall_mem_nil _, .inl hrests⟩
    · exact ⟨List.forall_mem_nil _, .inr ⟨hpassed, hmem, hfind, place, p, hj⟩⟩
  · obtain ⟨hevents, hrecord, -⟩ := h.proceed (t := t) ho hi
    refine ⟨fun e hmem => ?_, .inl ⟨h.stepped ho hi, Ledger.leaseOf?_congr hrecord,
      List.forall_mem_nil _⟩⟩
    obtain ⟨e', he', rfl⟩ := List.mem_map.1 hmem
    exact hevents e' he'

theorem Rests.run (h : W.Rests c) (hun : W.Underway k) (hpassed : W.Passed c.state)
    {ts : List (Turn Unit)} (hts : ∀ t ∈ ts, t.act ≠ .start) :
    (W.run (fun _ => k) ts).Rests c := by
  induction ts generalizing W with
  | nil => exact h
  | cons t ts ih =>
    obtain ⟨ht, hts⟩ := List.forall_mem_cons.1 hts
    rcases (h.take hun.toOrderly ht).2 with ⟨hrests, -⟩ | ⟨hnot, -⟩
    · exact ih hrests (hun.take ht) (hpassed.take ht) hts
    · exact absurd hpassed hnot

theorem Rests.run_of_not_handedOut (h : W.Rests c) (ho : W.Orderly fun _ => k)
    {ts : List (Turn Unit)} (hts : ∀ t ∈ ts, t.act ≠ .start)
    (hout : ∀ n ∈ handedOut k W ts, n.id ≠ c.id) :
    (W.run (fun _ => k) ts).Rests c ∧ ∀ e ∈ W.history (fun _ => k) ts, e.2.copy.id ≠ c.id := by
  induction ts generalizing W with
  | nil => exact ⟨h, List.forall_mem_nil _⟩
  | cons t ts ih =>
    obtain ⟨ht, hts⟩ := List.forall_mem_cons.1 hts
    obtain ⟨hfirst, hout⟩ := List.forall_mem_append.1 hout
    obtain ⟨hevents, ⟨hrests, -⟩ | ⟨-, hmem, -⟩⟩ := h.take ho ht
    · obtain ⟨hend, hhistory⟩ := ih hrests (orderly_take ho t) hts hout
      exact ⟨hend, List.forall_mem_append.2 ⟨hevents, hhistory⟩⟩
    · exact absurd rfl (hfirst c hmem)

theorem take_of_unsettled (ho : W.Orderly fun _ => k) {place : ℕ} {j : Job}
    (hj : W.job? () place = some j) (hun : j.member.verdict? = none) (hact : t.act ≠ .start) :
    ((W.take (fun _ => k) t).job? () place = some j ∧
        (W.take (fun _ => k) t).ledger.record? j.id = W.ledger.record? j.id ∧
        ∀ e ∈ W.events (fun _ => k) t, e.2.copy.id ≠ j.id) ∨
      (W.take (fun _ => k) t).job? () place =
          some ⟨j.processor, j.since, (W.proceed (fun _ => k) t j).1⟩ ∧
        (W.take (fun _ => k) t).ledger = (W.proceed (fun _ => k) t j).2 ∧
        W.events (fun _ => k) t = (W.eventsOf (fun _ => k) t j).map ((), ·) := by
  rcases take_cases_within k W hact with
    ⟨ht, he, -⟩ | ⟨p, ps, hp, hidle, ht, he, -⟩ | ⟨place', i, hi, ht, he, -⟩
  · rw [ht, he]
    exact .inl ⟨hj, rfl, List.forall_mem_nil _⟩
  · obtain ⟨n, v, hm⟩ := settled_of_isIdle hidle hj
    rw [hm] at hun
    cases hun
  · rw [ht, he, job?_stepped hi]
    by_cases hplace : place = place'
    · subst hplace
      obtain rfl : j = i := Option.some.inj (hj.symm.trans hi)
      exact .inr ⟨if_pos ⟨rfl, rfl⟩, rfl, rfl⟩
    · have hid : j.id ≠ i.id := fun heq => hplace (ho.distinct () place place' j i hj hi heq)
      obtain ⟨d, hd, -, hgoes⟩ := ho.goes (t := t) hi
      refine .inl ⟨(if_neg fun hk => hplace hk.2).trans hj, hgoes.record?_of_ne hd hid,
        fun e hmem => ?_⟩
      obtain ⟨e', he', rfl⟩ := List.mem_map.1 hmem
      exact (congrArg Negotiation.id (ho.copy_eq hi he')).trans_ne hid.symm

end Workshop

end Parley
