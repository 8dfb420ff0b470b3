import Parley.Proofs.Workshop.Footprint

/-!
# Whose leases are given back

A worker that could not act on a negotiation gives the lease on it back.  If the lease expired in
the meantime, or the worker gave it back before, as it does when it was too early, then there may be
a later lease on the record by now.

* `Workshop.Chronicle` : the turns of a run are numbered, and the numbers of those are kept in
  which each worker was handed a batch last, and each negotiation was handed out last.  So a lease
  is later than the batch of a worker if its number is larger.
* `Workshop.Dated` is the invariant, `Dated.take` and `Dated.run` keep it: a lease is in the name of
  a worker that was handed a batch when the record was handed out last, or after that.
* `leases_given_back` : a lease that is given back is in the worker's own name.  So where nobody
  else has that name it is none that somebody else made later, and what is being worked on is not
  handed out again before the lease expires.
* `namesake_loses_lease` : a later lease in the same name is lost, though it is live.

What this does **not** say: that a worker is refused to give back a lease that is not the one it
made itself.  Leases are compared by names alone.
-/

namespace Parley

namespace Workshop

variable {ι : Type} [DecidableEq ι]

/-! ### What is remembered of a run -/

section

variable (workers : ι → Worker)

/-- What is handed out in a turn, if it is one in which a batch is leased. -/
def handedOut? (W : Workshop ι) (t : Turn ι) : Option (List Negotiation) :=
  match t.act, (W.bench t.worker).ahead with
  | .lease, p :: _ =>
    if (W.bench t.worker).isIdle then some (W.ledger.batch p.batchSize p.state t.chance.now)
    else none
  | _, _ => none

/-- What is remembered of a run.  Its turns are numbered from one, and zero stands for never. -/
structure Chronicle (ι : Type) where
  /-- How many turns there were. -/
  turns : ℕ := 0
  /-- The turn in which each worker was handed a batch last. -/
  leased : ι → ℕ := fun _ => 0
  /-- What the ledger's clock showed since then. -/
  seen : ι → List Moment := fun _ => []
  /-- The turn in which the negotiation of each id was handed out last. -/
  given : String → ℕ := fun _ => 0

/-- What is remembered after one more turn, in which a batch was handed out or nothing. -/
def Chronicle.note (k : Chronicle ι) (t : Turn ι) : Option (List Negotiation) → Chronicle ι
  | none => { k with turns := k.turns + 1, seen := fun w => t.chance.now :: k.seen w }
  | some batch =>
    { turns := k.turns + 1
      leased := Function.update k.leased t.worker (k.turns + 1)
      seen := Function.update (fun w => t.chance.now :: k.seen w) t.worker [t.chance.now]
      given := fun id => if id ∈ batch.map (·.id) then k.turns + 1 else k.given id }

/-- What is remembered after some turns. -/
def chronicle (W : Workshop ι) (k : Chronicle ι) : List (Turn ι) → Chronicle ι
  | [] => k
  | t :: ts => chronicle (W.take workers t) (k.note t (W.handedOut? t)) ts

end

variable {workers : ι → Worker} {W : Workshop ι} {k : Chronicle ι}

theorem take_cases_of_handedOut (workers : ι → Worker) (W : Workshop ι) (t : Turn ι) :
    (∃ p ps, (W.bench t.worker).ahead = p :: ps ∧ (W.bench t.worker).isIdle = true ∧
      W.handedOut? t = some (W.ledger.batch p.batchSize p.state t.chance.now) ∧
      W.take workers t = W.leased workers t p ps) ∨
    (W.handedOut? t = none ∧
      (W.take workers t = W ∨ W.take workers t = W.started workers t ∨
        ∃ place j, W.job? t.worker place = some j ∧
          W.take workers t = W.stepped workers t place j)) := by
  obtain ⟨w, act, c⟩ := t
  cases act with
  | start =>
    refine .inr ⟨rfl, ?_⟩
    by_cases hb : ((W.bench w).ahead.isEmpty && (W.bench w).isIdle) = true
    · exact .inr (.inl (if_pos hb))
    · exact .inl (if_neg hb)
  | lease =>
    cases ha : (W.bench w).ahead with
    | nil => exact .inr ⟨by simp only [handedOut?, ha], .inl (by simp only [take, ha])⟩
    | cons p ps =>
      by_cases hb : (W.bench w).isIdle = true
      · exact .inl ⟨p, ps, rfl, hb, by simp only [handedOut?, ha, hb, if_true],
          take_lease rfl ha hb⟩
      · exact .inr ⟨by simp only [handedOut?, ha, hb, if_false, Bool.false_eq_true],
          .inl (by simp only [take, ha, hb, if_false, Bool.false_eq_true])⟩
  | proceed place =>
    refine .inr ⟨rfl, ?_⟩
    cases hj : W.job? w place with
    | none => exact .inl (by simp only [take, hj])
    | some j => exact .inr (.inr ⟨place, j, hj, take_proceed rfl hj⟩)

section

variable (k : Chronicle ι) (t : Turn ι) (batch : List Negotiation)

theorem leased_note (w : ι) : (k.note t (some batch)).leased w =
    if w = t.worker then k.turns + 1 else k.leased w := Function.update_apply ..

theorem seen_note_of_ne {w : ι} (hw : w ≠ t.worker) :
    (k.note t (some batch)).seen w = t.chance.now :: k.seen w := by
  show Function.update (fun w => t.chance.now :: k.seen w) t.worker _ w = _
  rw [Function.update_of_ne hw]

theorem given_note (id : String) : (k.note t (some batch)).given id =
    if id ∈ batch.map (·.id) then k.turns + 1 else k.given id := rfl

end

/-! ### The invariant -/

/-- Nobody else leases in the name of the worker. -/
def OwnName (workers : ι → Worker) (w : ι) : Prop :=
  ∀ w', (workers w').holder = (workers w).holder → w' = w

/-- Where the leases of a workshop come from. -/
structure Dated (workers : ι → Worker) (W : Workshop ι) (k : Chronicle ι) : Prop where
  /-- The processors to come are about what they are handed. -/
  ahead : ∀ w, ∀ p ∈ (W.bench w).ahead, p.handler.Proper
  /-- So are the jobs. -/
  sound : ∀ w place j, W.job? w place = some j → j.processor.handler.Proper ∧ j.member.Concerns
  /-- The jobs on a bench are about different negotiations. -/
  distinct : ∀ w place place' j j', W.job? w place = some j → W.job? w place' = some j' →
    j.id = j'.id → place = place'
  /-- All leasing is in the past. -/
  past : ∀ w, k.leased w ≤ k.turns
  /-- A lease was made when the record was handed out last: it is in the name of a worker that was
  handed a batch then, and may have been handed another one since. -/
  dated : ∀ id le, W.ledger.leaseOf? id = some le → k.given id = 0 ∨
    ∃ w, le.holder = (workers w).holder ∧ k.given id ≤ k.leased w
  /-- A job of a worker with a name of its own has the lease that it relies on, if the clock was not
  seen at its expiry, and the record was not handed out again. -/
  kept : ∀ w, OwnName workers w → ∀ place j, W.job? w place = some j → j.member.holds = true →
    (∀ now ∈ k.seen w, now < (j.lease (workers w)).expiry) →
    W.ledger.leaseOf? j.id = some (j.lease (workers w)) ∧ k.given j.id = k.leased w

omit [DecidableEq ι] in
theorem dated_opening (l : Ledger) : (opening l : Workshop ι).Dated workers {} where
  ahead _ _ h := by cases h
  sound _ _ _ h := by cases h
  distinct _ _ _ _ _ h := by cases h
  past _ := Nat.le_refl 0
  dated _ _ _ := .inl rfl
  kept _ _ _ _ h := by cases h

namespace Dated

variable {t : Turn ι}

omit [DecidableEq ι] in
theorem ledger_proceed_of_blocked (hd : W.Dated workers k) {place : ℕ} {j : Job}
    (hj : W.job? t.worker place = some j) {le : Lease} (hle : W.ledger.leaseOf? j.id = some le)
    (hlive : t.chance.now < le.expiry) (hname : le.holder ≠ (workers t.worker).holder) :
    (W.proceed workers t j).2 = W.ledger := by
  obtain ⟨hp, hc⟩ := hd.sound _ _ _ hj
  rcases Member.step_cases hp hc t.chance (workers t.worker).holder (workers t.worker).span
    W.ledger with hsame | ⟨-, -, hfree⟩
  · exact hsame
  · obtain ⟨r, hr, hl⟩ := Option.bind_eq_some_iff.1 hle
    have hblocked := Record.blocker?_eq_some hl hname hlive
    rw [hfree r hr] at hblocked
    cases hblocked

omit [DecidableEq ι] in
/-- A release ends a lease in the worker's own name, whichever call made it. -/
theorem leaseOf?_proceed_of_releasing {j : Job} {n : Negotiation} {v : Verdict} {le : Lease}
    (hm : j.member = .releasing n v) (hle : W.ledger.leaseOf? n.id = some le)
    (hname : le.holder = (workers t.worker).holder) :
    (W.proceed workers t j).2.leaseOf? n.id = none := by
  obtain ⟨r, hr, hl⟩ := Option.bind_eq_some_iff.1 hle
  have hown : ∀ le', r.lease = some le' → le'.holder = (workers t.worker).holder := by
    intro le' hl'
    obtain rfl : le = le' := Option.some.inj (hl.symm.trans hl')
    exact hname
  have hrelease := Desk.release_eq_ok (d := ⟨⟨(workers t.worker).holder,
    (workers t.worker).span, []⟩, W.ledger, t.chance.now⟩) rfl (Ledger.blocker?_of_own hr hown)
  rw [Workshop.proceed, hm]
  show (Desk.release ⟨⟨(workers t.worker).holder, (workers t.worker).span, []⟩, W.ledger,
    t.chance.now⟩ n.id).2.ledger.leaseOf? n.id = none
  rw [hrelease]
  exact Ledger.leaseOf?_setLease_none

theorem sound_take (hd : W.Dated workers k) {w : ι} {place : ℕ} {j : Job}
    (hj : (W.take workers t).job? w place = some j) :
    j.processor.handler.Proper ∧ j.member.Concerns := by
  rcases job?_take_cases hj with hbefore | ⟨rfl, p, hp, n, -, rfl⟩ | ⟨rfl, i, hi, rfl⟩
  · exact hd.sound w place j hbefore
  · exact ⟨hd.ahead _ p hp, trivial⟩
  · obtain ⟨hp, hc⟩ := hd.sound _ _ _ hi
    exact ⟨hp, Member.concerns_step hp hc ..⟩

theorem past_note (hd : W.Dated workers k) (t : Turn ι) (batch? : Option (List Negotiation))
    (w : ι) : (k.note t batch?).leased w ≤ (k.note t batch?).turns := by
  cases batch? with
  | none => exact Nat.le_succ_of_le (hd.past w)
  | some batch =>
    rw [leased_note]
    split_ifs
    · exact Nat.le_refl _
    · exact Nat.le_succ_of_le (hd.past w)

/-! #### Leasing a batch -/

theorem dated_leased (hd : W.Dated workers k) {p : Processor} {ps : List Processor} {id : String}
    {le : Lease} (hle : (W.leased workers t p ps).ledger.leaseOf? id = some le) :
    let k' := k.note t (some (W.ledger.batch p.batchSize p.state t.chance.now))
    k'.given id = 0 ∨ ∃ w, le.holder = (workers w).holder ∧ k'.given id ≤ k'.leased w := by
  intro k'
  by_cases hid : id ∈ (W.ledger.batch p.batchSize p.state t.chance.now).map (·.id)
  · refine .inr ⟨t.worker, ?_, ?_⟩
    · obtain ⟨n, hn, rfl⟩ := List.mem_map.1 hid
      rw [Ledger.leaseOf?, ledger_leased, Ledger.record?_leaseNext_of_mem hn] at hle
      exact (congrArg Lease.holder (Option.some.inj hle)).symm
    · rw [given_note, if_pos hid, leased_note, if_pos rfl]
  · have hsame : W.ledger.leaseOf? id = some le := by
      rw [← hle]
      exact (Ledger.leaseOf?_congr (Ledger.record?_leaseNext_of_not_mem hid)).symm
    rw [given_note, if_neg hid]
    refine (hd.dated id le hsame).imp_right ?_
    rintro ⟨w, hname, hgiven⟩
    refine ⟨w, hname, hgiven.trans ?_⟩
    rw [leased_note]
    split_ifs
    · exact Nat.le_succ_of_le (hd.past w)
    · exact Nat.le_refl _

/-- A job has the lease it relies on after a batch was leased: it is a member of the batch, or its
lease is live, so that its record is not handed out. -/
theorem kept_leased (hd : W.Dated workers k) {p : Processor} {ps : List Processor} {w : ι}
    (hname : OwnName workers w) {place : ℕ} {j : Job}
    (hj : (W.leased workers t p ps).job? w place = some j) (hh : j.member.holds = true) :
    let k' := k.note t (some (W.ledger.batch p.batchSize p.state t.chance.now))
    (∀ now ∈ k'.seen w, now < (j.lease (workers w)).expiry) →
    (W.leased workers t p ps).ledger.leaseOf? j.id = some (j.lease (workers w)) ∧
      k'.given j.id = k'.leased w := by
  intro k' hseen
  rcases job?_leased_cases hj with ⟨rfl, n, hn, rfl⟩ | ⟨hw, hj⟩
  · have hmem := List.mem_of_getElem? hn
    refine ⟨congrArg (·.bind Record.lease) (Ledger.record?_leaseNext_of_mem hmem), ?_⟩
    show k'.given n.id = _
    rw [given_note, if_pos (List.mem_map_of_mem hmem), leased_note, if_pos rfl]
  · rw [seen_note_of_ne k t _ hw] at hseen
    obtain ⟨hlive, hseen⟩ := List.forall_mem_cons.1 hseen
    obtain ⟨hle, hgiven⟩ := hd.kept w hname place j hj hh hseen
    obtain ⟨r, hr, hl⟩ := Option.bind_eq_some_iff.1 hle
    have hid : j.id ∉ (W.ledger.batch p.batchSize p.state t.chance.now).map (·.id) :=
      Ledger.not_mem_batch_of_live hr hl hlive
    refine ⟨(Ledger.leaseOf?_congr (Ledger.record?_leaseNext_of_not_mem hid)).trans hle, ?_⟩
    rw [given_note, if_neg hid, leased_note, if_neg hw, hgiven]

/-! #### The step of a job -/

omit [DecidableEq ι] in
theorem leaseOf?_of_stepped (hd : W.Dated workers k) {place : ℕ} {j : Job}
    (hj : W.job? t.worker place = some j) {id : String} {le : Lease}
    (hle : (W.proceed workers t j).2.leaseOf? id = some le) : W.ledger.leaseOf? id = some le := by
  obtain ⟨hp, hc⟩ := hd.sound _ _ _ hj
  rw [← hle]
  by_cases hid : id = j.id
  · subst hid
    rcases Member.step_cases hp hc t.chance (workers t.worker).holder (workers t.worker).span
      W.ledger with hsame | ⟨-, hnone, -⟩
    · exact congrArg (Ledger.leaseOf? · j.id) hsame.symm
    · rw [show (W.proceed workers t j).2.leaseOf? j.id = none from hnone] at hle
      cases hle
  · exact (Ledger.leaseOf?_congr (Member.record?_step_of_ne hp hc t.chance _ _ W.ledger hid)).symm

omit [DecidableEq ι] in
theorem ledger_proceed_of_holds (hd : W.Dated workers k) {place : ℕ} {j : Job}
    (hj : W.job? t.worker place = some j) (hh : (W.proceed workers t j).1.holds = true) :
    (W.proceed workers t j).2 = W.ledger := by
  obtain ⟨hp, hc⟩ := hd.sound _ _ _ hj
  rcases Member.step_cases hp hc t.chance (workers t.worker).holder (workers t.worker).span
    W.ledger with hsame | ⟨hnot, -, -⟩
  · exact hsame
  · rw [show (W.proceed workers t j).1.holds = false from hnot] at hh
    cases hh

omit [DecidableEq ι] in
/-- The step of a job leaves the live lease alone that another worker's job relies on. -/
theorem leaseOf?_proceed_of_kept (hd : W.Dated workers k) {place : ℕ} {j : Job}
    (hj : W.job? t.worker place = some j) {w : ι} (hname : OwnName workers w) {place' : ℕ}
    {i : Job} (hi : W.job? w place' = some i) (hne : ¬(w = t.worker ∧ place' = place))
    (hle : W.ledger.leaseOf? i.id = some (i.lease (workers w)))
    (hlive : t.chance.now < (i.lease (workers w)).expiry) :
    (W.proceed workers t j).2.leaseOf? i.id = some (i.lease (workers w)) := by
  obtain ⟨hp, hc⟩ := hd.sound _ _ _ hj
  by_cases hid : i.id = j.id
  · -- the other job is another worker's, since a batch has no negotiation twice
    have hw : w ≠ t.worker := by
      rintro rfl
      exact hne ⟨rfl, hd.distinct _ _ _ _ _ hi hj hid⟩
    rwa [hd.ledger_proceed_of_blocked hj (hid ▸ hle) hlive fun hn => hw (hname _ hn.symm).symm]
  · exact (Ledger.leaseOf?_congr (Member.record?_step_of_ne hp hc t.chance _ _ W.ledger hid)).trans
      hle

theorem kept_stepped (hd : W.Dated workers k) {place : ℕ} {j : Job}
    (hj : W.job? t.worker place = some j) {w : ι} (hname : OwnName workers w) {place' : ℕ}
    {i : Job} (hi : (W.stepped workers t place j).job? w place' = some i)
    (hh : i.member.holds = true)
    (hseen : ∀ now ∈ t.chance.now :: k.seen w, now < (i.lease (workers w)).expiry) :
    (W.stepped workers t place j).ledger.leaseOf? i.id = some (i.lease (workers w)) ∧
      k.given i.id = k.leased w := by
  obtain ⟨hlive, hseen⟩ := List.forall_mem_cons.1 hseen
  rcases job?_stepped_cases hj hi with ⟨rfl, rfl, rfl⟩ | ⟨hne, hi⟩
  · obtain ⟨hp, hc⟩ := hd.sound _ _ _ hj
    have hheld : j.member.holds = true := Member.holds_of_holds_step hp hc _ _ _ hh
    rw [id_proceed, ledger_stepped, hd.ledger_proceed_of_holds hj hh]
    exact hd.kept _ hname place' j hj hheld hseen
  · obtain ⟨hle, hgiven⟩ := hd.kept w hname place' i hi hh hseen
    exact ⟨hd.leaseOf?_proceed_of_kept hj hname hi hne hle hlive, hgiven⟩

/-! #### Turns -/

theorem take (hd : W.Dated workers k) (t : Turn ι) :
    (W.take workers t).Dated workers (k.note t (W.handedOut? t)) where
  ahead w p hp := (mem_ahead_take hp).elim (hd.ahead w p) Manager.proper_of_mem_processors
  sound _ _ _ := hd.sound_take
  distinct := Distinct.take hd.distinct t
  past := hd.past_note t _
  dated id le hle := by
    rcases take_cases_of_handedOut workers W t with
      ⟨p, ps, -, -, hout, h⟩ | ⟨hout, h | h | ⟨place, j, hj, h⟩⟩ <;> rw [hout] <;> rw [h] at hle
    · exact hd.dated_leased hle
    · exact hd.dated id le hle
    · exact hd.dated id le hle
    · exact hd.dated id le (hd.leaseOf?_of_stepped hj hle)
  kept w hname place i hi hh hseen := by
    -- unless a batch is handed out, a turn adds to what was seen, and that is all
    have hmore {P : Moment → Prop} (h : ∀ now ∈ (k.note t none).seen w, P now) :
        ∀ now ∈ k.seen w, P now := fun now hnow => h now (List.mem_cons_of_mem _ hnow)
    rcases take_cases_of_handedOut workers W t with
      ⟨p, ps, -, -, hout, h⟩ | ⟨hout, h | h | ⟨place', j, hj, h⟩⟩ <;>
      rw [hout] at hseen ⊢ <;> rw [h] at hi ⊢
    · exact hd.kept_leased hname hi hh hseen
    · exact hd.kept w hname place i hi hh (hmore hseen)
    · rw [job?_started] at hi
      exact hd.kept w hname place i hi hh (hmore hseen)
    · exact hd.kept_stepped hj hname hi hh hseen

theorem run (hd : W.Dated workers k) (ts : List (Turn ι)) :
    (W.run workers ts).Dated workers (W.chronicle workers k ts) := by
  induction ts generalizing W k with
  | nil => exact hd
  | cons t ts ih => exact ih (hd.take t)

omit [DecidableEq ι] in
/-- Where nobody else has the name of a worker, the lease that was made since the worker was handed
its batch is somebody else's. -/
theorem holder_ne_of_later (hd : W.Dated workers k) {w : ι} (hname : OwnName workers w)
    {id : String} {le : Lease} (hle : W.ledger.leaseOf? id = some le)
    (hlater : k.leased w < k.given id) : le.holder ≠ (workers w).holder := by
  intro hn
  rcases hd.dated id le hle with hzero | ⟨w', hw', hgiv⟩
  · exact absurd hlater (hzero ▸ Nat.not_lt_zero _)
  · obtain rfl := hname w' (hw'.symm.trans hn)
    exact absurd hlater (Nat.not_lt.2 hgiv)

end Dated

/-! ### What workers can count on -/

/-- What the giving back of leases comes to, in a workshop of which this is remembered. -/
structure GivesBack (workers : ι → Worker) (W : Workshop ι) (k : Chronicle ι) : Prop where
  /-- Where a negotiation could not be acted on, the release ends a live lease if it is in the
  worker's own name, and else changes nothing. -/
  own_name : ∀ t place j n v le, t.act = .proceed place → W.job? t.worker place = some j →
    j.member = .releasing n v → W.ledger.leaseOf? n.id = some le → t.chance.now < le.expiry →
    ((W.take workers t).ledger.leaseOf? n.id = none ↔ le.holder = (workers t.worker).holder) ∧
    (le.holder ≠ (workers t.worker).holder → (W.take workers t).ledger = W.ledger)
  /-- If nobody else has the worker's name, it leaves a record alone that a live lease is on which
  was made after the worker was handed its batch. -/
  spares_later : ∀ t place j le, OwnName workers t.worker → t.act = .proceed place →
    W.job? t.worker place = some j → k.leased t.worker < k.given j.id →
    W.ledger.leaseOf? j.id = some le → t.chance.now < le.expiry →
    (W.take workers t).ledger = W.ledger
  /-- If nobody else has the worker's name, what it relies on was not handed out again and is not
  handed out now, as long as the clock is not seen at the expiry of the lease. -/
  kept : ∀ w place j, OwnName workers w → W.job? w place = some j → j.member.holds = true →
    (∀ now ∈ k.seen w, now < (j.lease (workers w)).expiry) →
    W.ledger.leaseOf? j.id = some (j.lease (workers w)) ∧ k.given j.id = k.leased w ∧
    ∀ t batch, t.chance.now < (j.lease (workers w)).expiry → W.handedOut? t = some batch →
      j.id ∉ batch.map (·.id)

/-- **A lease that is given back is in the worker's own name.**  Workers share a ledger and take
their steps in any order, at any readings of the clock.  What a worker gives back in the end may not
be the lease it made, which may be gone by then, but it is one that was made in its name.  So where
nobody else leases in that name, the worker ends no live lease that was made later, and what it is
working on is not handed out again before the lease expires. -/
theorem leases_given_back (workers : ι → Worker) (l : Ledger) (ts : List (Turn ι)) :
    GivesBack workers ((opening l).run workers ts) ((opening l).chronicle workers {} ts) := by
  have hd : Dated workers ((opening l).run workers ts) ((opening l).chronicle workers {} ts) :=
    (dated_opening l).run ts
  set W := (opening l).run workers ts
  constructor
  · intro t place j n v le hact hj hm hle hlive
    have hid : j.id = n.id := by rw [Job.id, hm]; rfl
    rw [take_proceed hact hj]
    show ((W.proceed workers t j).2.leaseOf? n.id = none ↔ _) ∧
      (_ → (W.proceed workers t j).2 = W.ledger)
    by_cases hname : le.holder = (workers t.worker).holder
    · have hended := Dated.leaseOf?_proceed_of_releasing hm hle hname
      exact ⟨iff_of_true hended hname, fun h => absurd hname h⟩
    · have hsame := hd.ledger_proceed_of_blocked hj (hid ▸ hle) hlive hname
      refine ⟨iff_of_false ?_ hname, fun _ => hsame⟩
      rw [hsame, hle]
      exact Option.some_ne_none le
  · intro t place j le hown hact hj hlater hle hlive
    rw [take_proceed hact hj]
    exact hd.ledger_proceed_of_blocked hj hle hlive (hd.holder_ne_of_later hown hle hlater)
  · intro w place j hown hj hh hseen
    obtain ⟨hle, hgiv⟩ := hd.kept w hown place j hj hh hseen
    refine ⟨hle, hgiv, fun t batch hlive hout => ?_⟩
    obtain ⟨r, hr, hl⟩ := Option.bind_eq_some_iff.1 hle
    rcases take_cases_of_handedOut workers W t with
      ⟨p, ps, -, -, hout', -⟩ | ⟨hnone, -⟩
    · obtain rfl := Option.some.inj (hout'.symm.trans hout)
      exact Ledger.not_mem_batch_of_live hr hl hlive
    · rw [hnone] at hout
      cases hout

end Workshop

/-! ### Two managers and one negotiation to terminate -/

/-- The negotiation that a job is about to give back, and how its handling ended. -/
def Job.releasing? (j : Job) : Option (Negotiation × Verdict) :=
  match j.member with
  | .releasing n v => some (n, v)
  | _ => none

theorem Job.member_of_releasing? {j : Job} {n : Negotiation} {v : Verdict}
    (h : j.releasing? = some (n, v)) : j.member = .releasing n v := by
  unfold Job.releasing? at h
  split at h
  · next n' v' hm =>
    obtain ⟨rfl, rfl⟩ := Prod.mk.inj (Option.some.inj h)
    exact hm
  · cases h

namespace Workshop

/-- A provider and a consumer, who both take care of what is to be terminated. -/
def quitters (names : Bool → String) (w : Bool) : Worker :=
  ⟨names w, 60000, ⟨if w then .provider else .consumer, ⟨"participant", {}, 5, false⟩⟩⟩

/-- A negotiation whose notice of termination was not taken and is due again at 5000. -/
def quitting : Negotiation :=
  { Negotiation.specimen with state := .terminating, stateCount := 2, stateSince := 4000 }

/-- The provider is handed the negotiation before it is due and gives the lease back; then the
consumer is handed it and is about to send the notice. -/
def quittingTurns : List (Turn Bool) :=
  let early : List Act := [.start, .lease, .lease, .lease, .lease, .lease, .proceed 0, .proceed 0]
  let due : List Act := [.start, .lease, .lease, .lease, .lease, .lease, .lease, .proceed 0]
  (early.map (⟨true, ·, ⟨4500, 4500, "message-1", default⟩⟩)) ++
    due.map (⟨false, ·, ⟨5000, 5000, "message-2", default⟩⟩)

/-- The provider gives the lease back once more. -/
def secondRelease : Turn Bool := ⟨true, .proceed 0, ⟨5000, 5000, "message-3", default⟩⟩

/-- Under different names, the second release leaves the lease of the consumer alone, and nobody is
handed the negotiation as long as it is live. -/
theorem leases_given_back_quitters :
    let workers := quitters fun w => if w then "provider" else "consumer"
    let l := Ledger.empty.put ⟨quitting, none⟩
    let W := (opening l).run workers quittingTurns
    let k := (opening l).chronicle workers {} quittingTurns
    (∀ w, OwnName workers w) ∧
    (∃ j v le, W.job? true 0 = some j ∧ j.member = .releasing quitting v ∧
      W.ledger.leaseOf? quitting.id = some le ∧ secondRelease.chance.now < le.expiry ∧
      k.leased true < k.given quitting.id ∧
      ((W.take workers secondRelease).ledger.leaseOf? quitting.id = none ↔
        le.holder = (workers true).holder) ∧
      (W.take workers secondRelease).ledger = W.ledger) ∧
    ∃ j, W.job? false 0 = some j ∧ j.member.holds = true ∧
      (∀ now ∈ k.seen false, now < (j.lease (workers false)).expiry) ∧
      W.ledger.leaseOf? j.id = some (j.lease (workers false)) ∧
      ∀ t batch, t.chance.now < (j.lease (workers false)).expiry → W.handedOut? t = some batch →
        j.id ∉ batch.map (·.id) := by
  intro workers l W k
  obtain ⟨hown, hspares, hkept⟩ := leases_given_back workers l quittingTurns
  have hnames : ∀ w, OwnName workers w := by
    intro w w'
    revert w w'
    decide
  have hreleasing : (W.job? true 0).bind Job.releasing? =
      some (quitting, .outcome .delayed) := by decide +kernel
  have hle : W.ledger.leaseOf? quitting.id = some ⟨"consumer", 5000, 60000⟩ := by decide +kernel
  have hlater : k.leased true < k.given quitting.id := by decide +kernel
  obtain ⟨j, hj, hrel⟩ := Option.bind_eq_some_iff.1 hreleasing
  have hm := Job.member_of_releasing? hrel
  have hid : j.id = quitting.id := by rw [Job.id, hm]; rfl
  have hholding : (W.job? false 0).map (fun j => (j.member.holds, j.since)) =
      some (true, 5000) := by decide +kernel
  obtain ⟨i, hi, hfacts⟩ := Option.map_eq_some_iff.1 hholding
  obtain ⟨hholds, hsince⟩ := Prod.mk.inj hfacts
  have hclock : (k.seen false).all (· < Lease.expiry ⟨"consumer", 5000, 60000⟩) = true := by
    decide +kernel
  have hseen : ∀ now ∈ k.seen false, now < (i.lease (workers false)).expiry := by
    rw [Job.lease, hsince]
    exact fun now hnow => of_decide_eq_true (List.all_eq_true.1 hclock now hnow)
  obtain ⟨hlease, -, hnot⟩ := hkept false 0 i (hnames false) hi hholds hseen
  exact ⟨hnames,
    ⟨j, _, _, hj, hm, hle, by decide, hlater,
      (hown secondRelease 0 j _ _ _ rfl hj hm hle (by decide)).1,
      hspares secondRelease 0 j _ (hnames true) rfl hj (hid ▸ hlater) (hid ▸ hle) (by decide)⟩,
    i, hi, hholds, hseen, hlease, hnot⟩

/-- **Names do not tell leases apart.**  Under one name, the second release of the provider ends the
live lease that the consumer made later; and then the negotiation is handed out again though the
consumer is still at work on it and its lease would not have expired. -/
theorem namesake_loses_lease :
    (¬ ∀ (workers : Bool → Worker) (l : Ledger) (ts : List (Turn Bool)) (t : Turn Bool) (place : ℕ)
      (j : Job) (n : Negotiation) (v : Verdict) (le : Lease),
      let W := (opening l).run workers ts
      let k := (opening l).chronicle workers {} ts
      t.act = .proceed place → W.job? t.worker place = some j → j.member = .releasing n v →
      k.leased t.worker < k.given n.id → W.ledger.leaseOf? n.id = some le →
      t.chance.now < le.expiry → (W.take workers t).ledger.leaseOf? n.id = some le) ∧
    ¬ ∀ (workers : Bool → Worker) (l : Ledger) (ts : List (Turn Bool)) (t : Turn Bool) (w : Bool)
      (place : ℕ) (j : Job) (batch : List Negotiation),
      let W := (opening l).run workers ts
      let k := (opening l).chronicle workers {} ts
      W.job? w place = some j → j.member.holds = true →
      (∀ now ∈ k.seen w, now < (j.lease (workers w)).expiry) →
      t.chance.now < (j.lease (workers w)).expiry → W.handedOut? t = some batch →
      j.id ∉ batch.map (·.id) := by
  constructor
  · intro h
    have hreleasing : (((opening (Ledger.empty.put ⟨quitting, none⟩)).run
        (quitters fun _ => "worker") quittingTurns).job? true 0).bind Job.releasing? =
        some (quitting, .outcome .delayed) := by decide +kernel
    obtain ⟨j, hj, hrel⟩ := Option.bind_eq_some_iff.1 hreleasing
    have hkept := h (quitters fun _ => "worker") (Ledger.empty.put ⟨quitting, none⟩) quittingTurns
      secondRelease 0 j quitting _ ⟨"worker", 5000, 60000⟩ rfl hj (Job.member_of_releasing? hrel)
      (by decide +kernel) (by decide +kernel) (by decide)
    revert hkept
    decide +kernel
  · intro h
    -- the provider goes on, and its next round comes to what is to be terminated
    let again : List (Turn Bool) := [.start, .lease, .lease, .lease, .lease].map
      (⟨true, ·, ⟨5000, 5000, "message-4", default⟩⟩)
    have hholding : (((opening (Ledger.empty.put ⟨quitting, none⟩)).run
        (quitters fun _ => "worker") (quittingTurns ++ secondRelease :: again)).job? false 0).map
        (fun j => (j.member.holds, j.since, j.id)) = some (true, 5000, quitting.id) := by
      decide +kernel
    obtain ⟨j, hj, hfacts⟩ := Option.map_eq_some_iff.1 hholding
    obtain ⟨hholds, hfacts⟩ := Prod.mk.inj hfacts
    obtain ⟨hsince, hid⟩ := Prod.mk.inj hfacts
    have hclock : (((opening (Ledger.empty.put ⟨quitting, none⟩)).chronicle
        (quitters fun _ => "worker") {} (quittingTurns ++ secondRelease :: again)).seen false).all
        (· < Lease.expiry ⟨"worker", 5000, 60000⟩) = true := by decide +kernel
    have hnot := h (quitters fun _ => "worker") (Ledger.empty.put ⟨quitting, none⟩)
      (quittingTurns ++ secondRelease :: again)
      ⟨true, .lease, ⟨5000, 5000, "message-4", default⟩⟩ false 0 j [quitting] hj hholds
      (by
        rw [Job.lease, hsince]
        exact fun now hnow => of_decide_eq_true (List.all_eq_true.1 hclock now hnow))
      (by rw [Job.lease, hsince]; decide)
      (by decide +kernel)
    rw [hid] at hnot
    exact hnot (by decide)

end Workshop

end Parley
