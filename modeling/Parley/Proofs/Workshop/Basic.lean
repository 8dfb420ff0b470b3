import Mathlib.Logic.Function.Basic
import Parley.Engine.Manager
import Parley.Proofs.Handling.Run

/-!
# Workshops

Any number of workers share a ledger.  Each has a bench, on which it goes through its processors one
after the other: it leases a batch and handles the members side by side, and only when all of them
are at their ends it turns to the next processor.  A turn is one step of one worker.  The turns may
come in any order, and each brings its own readings of the clocks and its own answer with it.

* `Workshop.take` is one turn, `Workshop.run` is any number of them.
* `Workshop.history` is what can be noticed of a run: the messages sent, the negotiations stored,
  and how the members of the batches ended.
* `take_cases` : what a turn can be, `started`, `leased` or `stepped`; `job?_leased_cases` and
  `job?_stepped_cases` say who works on what afterwards, and `job?_take_cases` what a job can be
  then.
* `exists_job_of_mem_events` : whose events there are.
-/

namespace Parley

/-- Someone who runs a manager and leases in a name. -/
structure Worker where
  /-- The name. -/
  holder : String
  /-- How long its leases hold. -/
  span : Moment
  /-- What it runs. -/
  manager : Manager
  deriving DecidableEq, Repr, Inhabited

/-- A member of a batch on a bench. -/
structure Job where
  /-- The processor that leased it. -/
  processor : Processor
  /-- When it was leased. -/
  since : Moment
  /-- How far it has come. -/
  member : Member

/-- The id of the negotiation. -/
def Job.id (j : Job) : String := j.member.negotiation.id

/-- The lease it was leased under, if a worker leased it. -/
def Job.lease (k : Worker) (j : Job) : Lease := ⟨k.holder, j.since, k.span⟩

/-- What a worker has before it. -/
structure Bench where
  /-- The processors whose turn comes later in the round. -/
  ahead : List Processor := []
  /-- The batch that was leased last. -/
  jobs : List Job := []

/-- All that was begun is at its end. -/
def Bench.isIdle (b : Bench) : Bool := b.jobs.all (·.member.verdict?.isSome)

/-- A ledger and the benches of the workers. -/
structure Workshop (ι : Type) where
  /-- The ledger. -/
  ledger : Ledger
  /-- The benches. -/
  bench : ι → Bench

/-- What a worker does in a turn. -/
inductive Act where
  /-- It begins a round. -/
  | start
  /-- It leases the batch of the next processor. -/
  | lease
  /-- It makes the next step of the member at a place on its bench. -/
  | proceed (place : ℕ)
  deriving DecidableEq, Repr

/-- One step of one worker. -/
structure Turn (ι : Type) where
  /-- The worker. -/
  worker : ι
  /-- What it does. -/
  act : Act
  /-- What it meets with. -/
  chance : Chance

/-! ### What can be noticed -/

/-- What can be noticed of a handling of a negotiation; each names the copy that was handed out. -/
inductive Event where
  /-- A message was sent, and this is the answer. -/
  | sent (copy : Negotiation) (message : Message) (answer : Answer)
  /-- A changed negotiation was stored: to record an answer, or without one. -/
  | saved (copy : Negotiation) (answer : Option Answer) (changed : Negotiation)
  /-- The ledger refused to store. -/
  | refused (copy : Negotiation) (error : StoreError)
  /-- The handling ended. -/
  | ended (copy : Negotiation) (verdict : Verdict)

namespace Event

/-- The copy that was handed out. -/
def copy : Event → Negotiation
  | sent n _ _ | saved n _ _ | refused n _ | ended n _ => n

/-- The event of storing. -/
def ofSave (n : Negotiation) (answer : Option Answer) (changed : Negotiation) :
    Except StoreError Ledger → Event
  | .ok _ => .saved n answer changed
  | .error e => .refused n e

end Event

/-- The event of the next step of a handling, if there is one, where `save` is how the ledger takes
what is stored. -/
def Handling.event? (c : Chance) (save : Negotiation → Except StoreError Ledger) (n : Negotiation) :
    Handling → Option Event
  | storing changed => some (.ofSave n none changed (save changed))
  | attempting m _ .sending => some (.sent n m c.answer)
  | attempting _ t (.found answer current) =>
    match t.settle c.clock answer current with
    | .ok changed => some (.ofSave n (some answer) changed (save changed))
    | .error _ => none
  | _ => none

/-- The events of the next step of a member, and the member it leads to. -/
def Member.events (c : Chance) (save : Negotiation → Except StoreError Ledger) :
    Member → (next : Member) → List Event
  | handling n h, next => (h.event? c save n).toList ++ (next.verdict?.map (.ended n)).toList
  | received n, next | releasing n _, next => (next.verdict?.map (.ended n)).toList
  | settled .., _ => []

namespace Member

variable {σ : Type}

theorem negotiation_ofHandling (n : Negotiation) (h : Handling) :
    (ofHandling n h).negotiation = n := by
  unfold ofHandling
  split <;> rfl

theorem negotiation_step (v : Venue σ) (handler : Handler) (m : Member) (s : σ) :
    (m.step v handler s).1.negotiation = m.negotiation := by
  cases m with
  | received n | handling n h => exact negotiation_ofHandling ..
  | releasing n w | settled n w => rfl

end Member

theorem Processor.lease_of_serves {σ : Type} {v : Venue σ} {holder : String} {span : Moment}
    (hv : v.Serves holder span) (p : Processor) (s : σ) :
    p.lease v s =
      (((v.desk s).ledger.batch p.batchSize p.state (v.desk s).now).map .received,
        v.setDesk { v.desk s with ledger := ((v.desk s).ledger.leaseNext p.batchSize p.state holder
          span (v.desk s).now).2 } s) := by
  have hnext := Desk.next_eq (congrArg Handle.outages (hv.handle_desk s)) p.batchSize p.state
  unfold Processor.lease Venue.atDesk
  simp only [hnext, hv.handle_desk s]
  rfl

theorem Processor.lease_eq (p : Processor) (c : Chance) (holder : String) (span : Moment)
    (l : Ledger) :
    p.lease (c.venue holder span) l =
      ((l.batch p.batchSize p.state c.now).map .received,
        (l.leaseNext p.batchSize p.state holder span c.now).2) :=
  p.lease_of_serves (c.serves holder span) l

namespace Workshop

variable {ι : Type}

/-- A workshop at its opening: nothing was leased in it yet. -/
def opening (l : Ledger) : Workshop ι := ⟨l, fun _ => {}⟩

/-- The job at a place on a bench. -/
def job? (W : Workshop ι) (w : ι) (place : ℕ) : Option Job := (W.bench w).jobs[place]?

variable (workers : ι → Worker)

/-- The venue of a turn. -/
def venue (t : Turn ι) : Venue Ledger :=
  t.chance.venue (workers t.worker).holder (workers t.worker).span

/-- What comes of the next step of a job in a turn: the member and the ledger. -/
def proceed (W : Workshop ι) (t : Turn ι) (j : Job) : Member × Ledger :=
  j.member.step (venue workers t) j.processor.handler W.ledger

/-- The events of the next step of a job in a turn. -/
def eventsOf (W : Workshop ι) (t : Turn ι) (j : Job) : List Event :=
  j.member.events t.chance (W.ledger.save · (workers t.worker).holder t.chance.now)
    (W.proceed workers t j).1

/-- The events of a turn, and whose they are. -/
def events (W : Workshop ι) (t : Turn ι) : List (ι × Event) :=
  match t.act with
  | .proceed place =>
    match W.job? t.worker place with
    | some j => (W.eventsOf workers t j).map (t.worker, ·)
    | none => []
  | _ => []

variable [DecidableEq ι]

/-- The workshop after a turn.  A turn that the worker is not ready for changes nothing. -/
def take (W : Workshop ι) (t : Turn ι) : Workshop ι :=
  let b := W.bench t.worker
  match t.act with
  | .start =>
    if b.ahead.isEmpty && b.isIdle then
      ⟨W.ledger, Function.update W.bench t.worker
        { b with ahead := (workers t.worker).manager.processors }⟩
    else W
  | .lease =>
    match b.ahead with
    | [] => W
    | p :: ps =>
      if b.isIdle then
        let (ms, l) := p.lease (venue workers t) W.ledger
        ⟨l, Function.update W.bench t.worker ⟨ps, ms.map (⟨p, t.chance.now, ·⟩)⟩⟩
      else W
  | .proceed place =>
    match W.job? t.worker place with
    | none => W
    | some j =>
      let (m, l) := W.proceed workers t j
      ⟨l, Function.update W.bench t.worker
        { b with jobs := b.jobs.set place { j with member := m } }⟩

/-- The workshop after some turns. -/
def run (W : Workshop ι) (ts : List (Turn ι)) : Workshop ι := ts.foldl (take workers) W

/-- The events of some turns, in their order. -/
def history (W : Workshop ι) : List (Turn ι) → List (ι × Event)
  | [] => []
  | t :: ts => W.events workers t ++ history (W.take workers t) ts

/-- The workshop after the worker of a turn began a round. -/
def started (W : Workshop ι) (t : Turn ι) : Workshop ι :=
  ⟨W.ledger, Function.update W.bench t.worker
    { W.bench t.worker with ahead := (workers t.worker).manager.processors }⟩

/-- The workshop after the worker of a turn leased the batch of a processor, with `ps` still
ahead. -/
def leased (W : Workshop ι) (t : Turn ι) (p : Processor) (ps : List Processor) : Workshop ι :=
  ⟨(W.ledger.leaseNext p.batchSize p.state (workers t.worker).holder (workers t.worker).span
      t.chance.now).2,
    Function.update W.bench t.worker ⟨ps, (W.ledger.batch p.batchSize p.state
      t.chance.now).map fun n => ⟨p, t.chance.now, .received n⟩⟩⟩

/-- The workshop after the job at a place on the bench of a turn's worker made its next step. -/
def stepped (W : Workshop ι) (t : Turn ι) (place : ℕ) (j : Job) : Workshop ι :=
  ⟨(W.proceed workers t j).2, Function.update W.bench t.worker
    ⟨(W.bench t.worker).ahead, (W.bench t.worker).jobs.set place
      ⟨j.processor, j.since, (W.proceed workers t j).1⟩⟩⟩

/-- The jobs on a bench are about different negotiations. -/
def Distinct (W : Workshop ι) : Prop :=
  ∀ w place place' j j', W.job? w place = some j → W.job? w place' = some j' → j.id = j'.id →
    place = place'

/-! ### Laws -/

variable {workers}

@[simp] theorem run_nil (W : Workshop ι) : W.run workers [] = W := rfl

@[simp] theorem run_cons (W : Workshop ι) (t : Turn ι) (ts : List (Turn ι)) :
    W.run workers (t :: ts) = (W.take workers t).run workers ts := rfl

theorem run_append (W : Workshop ι) (ts us : List (Turn ι)) :
    W.run workers (ts ++ us) = (W.run workers ts).run workers us := List.foldl_append

theorem history_append (W : Workshop ι) (ts us : List (Turn ι)) :
    W.history workers (ts ++ us) =
      W.history workers ts ++ (W.run workers ts).history workers us := by
  induction ts generalizing W with
  | nil => rfl
  | cons t ts ih => simp [history, ih]

omit [DecidableEq ι] in
theorem settled_of_isIdle {W : Workshop ι} {w : ι} {place : ℕ} {j : Job}
    (h : (W.bench w).isIdle = true) (hj : W.job? w place = some j) :
    ∃ n v, j.member = .settled n v := by
  have hv : j.member.verdict?.isSome = true := by
    rw [Bench.isIdle, List.all_eq_true] at h
    exact h j (List.mem_of_getElem? hj)
  cases hm : j.member with
  | settled n v => exact ⟨n, v, rfl⟩
  | received n => simp [hm, Member.verdict?] at hv
  | handling n h => simp [hm, Member.verdict?] at hv
  | releasing n v => simp [hm, Member.verdict?] at hv

theorem take_lease {W : Workshop ι} {t : Turn ι} {p : Processor} {ps : List Processor}
    (hact : t.act = .lease) (ha : (W.bench t.worker).ahead = p :: ps)
    (hb : (W.bench t.worker).isIdle = true) : W.take workers t = W.leased workers t p ps := by
  simp only [take, hact, ha, hb, venue, if_true]
  rw [Processor.lease_eq, List.map_map]
  rfl

theorem take_proceed {W : Workshop ι} {t : Turn ι} {place : ℕ} {j : Job}
    (hact : t.act = .proceed place) (hj : W.job? t.worker place = some j) :
    W.take workers t = W.stepped workers t place j := by
  simp only [take, hact, hj]
  rfl

theorem take_proceed_of_none {W : Workshop ι} {t : Turn ι} {place : ℕ}
    (hact : t.act = .proceed place) (hj : W.job? t.worker place = none) :
    W.take workers t = W := by
  simp only [take, hact, hj]

/-- What a turn can be: one that the worker is not ready for, the beginning of a round, the leasing
of a batch, or a step of a member. -/
theorem take_cases (workers : ι → Worker) (W : Workshop ι) (t : Turn ι) :
    (W.take workers t = W ∧ W.events workers t = []) ∨
    (W.take workers t = W.started workers t ∧ W.events workers t = []) ∨
    (∃ p ps, (W.bench t.worker).ahead = p :: ps ∧ (W.bench t.worker).isIdle = true ∧
      W.take workers t = W.leased workers t p ps ∧ W.events workers t = []) ∨
    ∃ place j, t.act = .proceed place ∧ W.job? t.worker place = some j ∧
      W.take workers t = W.stepped workers t place j ∧
      W.events workers t = (W.eventsOf workers t j).map (t.worker, ·) := by
  obtain ⟨w, act, c⟩ := t
  cases act with
  | start =>
    by_cases hb : ((W.bench w).ahead.isEmpty && (W.bench w).isIdle) = true
    · exact .inr (.inl ⟨if_pos hb, rfl⟩)
    · exact .inl ⟨if_neg hb, rfl⟩
  | lease =>
    cases ha : (W.bench w).ahead with
    | nil => exact .inl ⟨by simp only [take, ha], rfl⟩
    | cons p ps =>
      by_cases hb : (W.bench w).isIdle = true
      · exact .inr (.inr (.inl ⟨p, ps, rfl, hb, take_lease rfl ha hb, rfl⟩))
      · exact .inl ⟨by simp only [take, ha, hb, if_false, Bool.false_eq_true], rfl⟩
  | proceed place =>
    cases hj : W.job? w place with
    | none => exact .inl ⟨by simp only [take, hj], by simp only [events, hj]⟩
    | some j =>
      exact .inr (.inr (.inr ⟨place, j, rfl, hj, take_proceed rfl hj, by simp only [events, hj]⟩))

section

variable {W : Workshop ι} {t : Turn ι} {p : Processor} {ps : List Processor} {w : ι}
  {place place' : ℕ} {i j : Job}

@[simp] theorem ledger_started : (W.started workers t).ledger = W.ledger := rfl

@[simp] theorem ledger_leased : (W.leased workers t p ps).ledger =
    (W.ledger.leaseNext p.batchSize p.state (workers t.worker).holder (workers t.worker).span
      t.chance.now).2 := rfl

@[simp] theorem ledger_stepped :
    (W.stepped workers t place j).ledger = (W.proceed workers t j).2 := rfl

theorem bench_started (workers : ι → Worker) (W : Workshop ι) (t : Turn ι) (w : ι) :
    (W.started workers t).bench w =
      if w = t.worker then { W.bench t.worker with ahead := (workers t.worker).manager.processors }
      else W.bench w := Function.update_apply ..

@[simp] theorem job?_started : (W.started workers t).job? w place = W.job? w place := by
  rw [job?, bench_started]
  split_ifs with hw
  · subst hw; rfl
  · rfl

theorem bench_leased (workers : ι → Worker) (W : Workshop ι) (t : Turn ι) (p : Processor)
    (ps : List Processor) (w : ι) :
    (W.leased workers t p ps).bench w =
      if w = t.worker then ⟨ps, (W.ledger.batch p.batchSize p.state t.chance.now).map
        fun n => ⟨p, t.chance.now, .received n⟩⟩
      else W.bench w := Function.update_apply ..

theorem job?_leased_self : (W.leased workers t p ps).job? t.worker place =
    ((W.ledger.batch p.batchSize p.state t.chance.now)[place]?).map
      fun n => ⟨p, t.chance.now, .received n⟩ := by
  rw [job?, bench_leased, if_pos rfl, List.getElem?_map]

theorem job?_leased_of_ne (hw : w ≠ t.worker) :
    (W.leased workers t p ps).job? w place = W.job? w place := by
  rw [job?, bench_leased, if_neg hw]
  rfl

theorem job?_leased_cases (hj : (W.leased workers t p ps).job? w place = some j) :
    (w = t.worker ∧ ∃ n, (W.ledger.batch p.batchSize p.state t.chance.now)[place]? = some n ∧
      j = ⟨p, t.chance.now, .received n⟩) ∨
    (w ≠ t.worker ∧ W.job? w place = some j) := by
  by_cases hw : w = t.worker
  · subst hw
    rw [job?_leased_self] at hj
    obtain ⟨n, hn, rfl⟩ := Option.map_eq_some_iff.1 hj
    exact .inl ⟨rfl, n, hn, rfl⟩
  · rw [job?_leased_of_ne hw] at hj
    exact .inr ⟨hw, hj⟩

theorem bench_stepped (workers : ι → Worker) (W : Workshop ι) (t : Turn ι) (place : ℕ) (j : Job)
    (w : ι) :
    (W.stepped workers t place j).bench w =
      if w = t.worker then ⟨(W.bench t.worker).ahead, (W.bench t.worker).jobs.set place
        ⟨j.processor, j.since, (W.proceed workers t j).1⟩⟩
      else W.bench w := Function.update_apply ..

theorem job?_stepped (hj : W.job? t.worker place = some j) :
    (W.stepped workers t place j).job? w place' =
      if w = t.worker ∧ place' = place then
        some ⟨j.processor, j.since, (W.proceed workers t j).1⟩
      else W.job? w place' := by
  rw [job?, bench_stepped]
  by_cases hw : w = t.worker
  · subst hw
    have hlt : place < (W.bench t.worker).jobs.length := (List.getElem?_eq_some_iff.1 hj).1
    rw [if_pos rfl, List.getElem?_set]
    by_cases hk : place = place'
    · simp [hk, hk ▸ hlt]
    · simp [hk, Ne.symm hk, job?]
  · rw [if_neg hw, if_neg fun h => hw h.1]
    rfl

theorem job?_stepped_cases (hj : W.job? t.worker place = some j)
    (hi : (W.stepped workers t place j).job? w place' = some i) :
    (w = t.worker ∧ place' = place ∧ i = ⟨j.processor, j.since, (W.proceed workers t j).1⟩) ∨
    (¬(w = t.worker ∧ place' = place) ∧ W.job? w place' = some i) := by
  rw [job?_stepped hj] at hi
  split_ifs at hi with h
  · exact .inl ⟨h.1, h.2, (Option.some.inj hi).symm⟩
  · exact .inr ⟨h, hi⟩

theorem mem_ahead_take (hp : p ∈ ((W.take workers t).bench w).ahead) :
    p ∈ (W.bench w).ahead ∨ p ∈ (workers w).manager.processors := by
  rcases take_cases workers W t with
    ⟨h, -⟩ | ⟨h, -⟩ | ⟨q, ps, ha, -, h, -⟩ | ⟨place, j, -, -, h, -⟩
  · exact .inl (h ▸ hp)
  · rw [h, bench_started] at hp
    split_ifs at hp with hw
    · exact .inr (hw ▸ hp)
    · exact .inl hp
  · rw [h, bench_leased] at hp
    split_ifs at hp with hw
    · subst hw
      exact .inl (ha ▸ List.mem_cons_of_mem q hp)
    · exact .inl hp
  · rw [h, bench_stepped] at hp
    split_ifs at hp with hw
    · exact .inl (hw ▸ hp)
    · exact .inl hp

/-- What a job can be after a turn: the job it was before, one about a negotiation of the batch that
was leased, or the job that made a step. -/
theorem job?_take_cases (hj : (W.take workers t).job? w place = some j) :
    W.job? w place = some j ∨
    (w = t.worker ∧ ∃ p ∈ (W.bench t.worker).ahead,
      ∃ n ∈ W.ledger.batch p.batchSize p.state t.chance.now,
        j = ⟨p, t.chance.now, .received n⟩) ∨
    (w = t.worker ∧ ∃ i, W.job? t.worker place = some i ∧
      j = ⟨i.processor, i.since, (W.proceed workers t i).1⟩) := by
  rcases take_cases workers W t with
    ⟨h, -⟩ | ⟨h, -⟩ | ⟨p, ps, hp, -, h, -⟩ | ⟨place', i, -, hi, h, -⟩
  · exact .inl (h ▸ hj)
  · rw [h, job?_started] at hj
    exact .inl hj
  · rw [h] at hj
    rcases job?_leased_cases hj with ⟨rfl, n, hn, rfl⟩ | ⟨-, hj⟩
    · exact .inr (.inl ⟨rfl, p, hp ▸ List.mem_cons_self, n, List.mem_of_getElem? hn, rfl⟩)
    · exact .inl hj
  · rw [h] at hj
    rcases job?_stepped_cases hi hj with ⟨rfl, rfl, rfl⟩ | ⟨-, hj⟩
    · exact .inr (.inr ⟨rfl, i, hi, rfl⟩)
    · exact .inl hj

omit [DecidableEq ι] in
theorem id_proceed (workers : ι → Worker) (W : Workshop ι) (t : Turn ι) (j : Job) :
    (⟨j.processor, j.since, (W.proceed workers t j).1⟩ : Job).id = j.id :=
  congrArg Negotiation.id (Member.negotiation_step ..)

theorem Distinct.leased (h : W.Distinct) : (W.leased workers t p ps).Distinct := by
  intro w place place' j j' hj hj' hid
  rcases job?_leased_cases hj with ⟨rfl, n, hn, rfl⟩ | ⟨hw, hj⟩
  · rcases job?_leased_cases hj' with ⟨-, n', hn', rfl⟩ | ⟨hw, -⟩
    · -- a batch has no negotiation twice
      have hlt := (List.getElem?_eq_some_iff.1 hn).1
      refine (List.getElem?_inj (by rwa [List.length_map])
        (W.ledger.nodup_batch p.batchSize p.state t.chance.now)).1 ?_
      rw [List.getElem?_map, List.getElem?_map, hn, hn']
      exact congrArg some hid
    · exact absurd rfl hw
  · rcases job?_leased_cases hj' with ⟨hw', -⟩ | ⟨-, hj'⟩
    · exact absurd hw' hw
    · exact h w place place' j j' hj hj' hid

theorem Distinct.stepped (h : W.Distinct) (hj : W.job? t.worker place = some j) :
    (W.stepped workers t place j).Distinct := by
  -- every job has a job of its id in its place before the turn
  have hbefore {w : ι} {k : ℕ} {i : Job}
      (hi : (W.stepped workers t place j).job? w k = some i) :
      ∃ i', W.job? w k = some i' ∧ i'.id = i.id := by
    rcases job?_stepped_cases hj hi with ⟨rfl, rfl, rfl⟩ | ⟨-, hi⟩
    · exact ⟨j, hj, (id_proceed workers W t j).symm⟩
    · exact ⟨i, hi, rfl⟩
  intro w k k' i i' hi hi' hid
  obtain ⟨b, hb, hbid⟩ := hbefore hi
  obtain ⟨b', hb', hbid'⟩ := hbefore hi'
  exact h w k k' b b' hb hb' (by rw [hbid, hbid', hid])

theorem Distinct.take (h : W.Distinct) (t : Turn ι) : (W.take workers t).Distinct := by
  rcases take_cases workers W t with
    ⟨ht, -⟩ | ⟨ht, -⟩ | ⟨p, ps, -, -, ht, -⟩ | ⟨place, j, -, hj, ht, -⟩
  · rw [ht]; exact h
  · rw [ht]
    intro w place place' j j' hj hj'
    rw [job?_started] at hj hj'
    exact h w place place' j j' hj hj'
  · rw [ht]; exact h.leased
  · rw [ht]; exact h.stepped hj

end

theorem exists_job_of_mem_events {W : Workshop ι} {t : Turn ι} {e : ι × Event}
    (he : e ∈ W.events workers t) : e.1 = t.worker ∧
      ∃ place j, W.job? t.worker place = some j ∧ e.2 ∈ W.eventsOf workers t j := by
  rcases take_cases workers W t with
    ⟨-, hnone⟩ | ⟨-, hnone⟩ | ⟨p, ps, -, -, -, hnone⟩ | ⟨place, j, -, hj, -, hevents⟩
  · rw [hnone] at he; cases he
  · rw [hnone] at he; cases he
  · rw [hnone] at he; cases he
  · rw [hevents] at he
    obtain ⟨e', he', rfl⟩ := List.mem_map.1 he
    exact ⟨rfl, place, j, hj, he'⟩

end Workshop

end Parley
