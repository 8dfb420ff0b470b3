import Mathlib.Data.Fintype.Basic
import Parley.Proofs.Workshop.Course

/-!
# Workers sharing a ledger

* `serial_of_timely` : workers of different names whose leases hold as long as they need them do not
  get in each other's way.
* `timely_of_punctual`, `serial_of_punctual` : the leases hold that long, and nobody gets in
  anybody's way, if the ledger's clock never goes back and every worker saves, or gives its lease
  back, before the lease expires.
-/

namespace Parley

namespace Workshop

variable {ι : Type} [DecidableEq ι] {workers : ι → Worker} {W : Workshop ι}

/-- What workers that share a ledger can count on in a run. -/
structure Serial (workers : ι → Worker) (l : Ledger) (ts : List (Turn ι)) : Prop where
  /-- No negotiation is held by two workers at once, nor by one in two places. -/
  exclusive : ∀ w w' place place' j j', ((opening l).run workers ts).job? w place = some j →
    ((opening l).run workers ts).job? w' place' = some j' → j.member.holds = true →
    j'.member.holds = true → j.id = j'.id → w = w' ∧ place = place'
  /-- What is stored about a negotiation that is held is the copy that was handed out. -/
  stored : ∀ w place j, ((opening l).run workers ts).job? w place = some j →
    j.member.holds = true →
    ((opening l).run workers ts).ledger.find? j.id = some j.member.negotiation
  /-- What was read again after a message is the copy that was handed out. -/
  found : ∀ w place j n m t a current, ((opening l).run workers ts).job? w place = some j →
    j.member = .handling n (.attempting m t (.found a current)) → current = n
  /-- No worker is refused to store anything. -/
  not_refused : ∀ w n e, (w, Event.refused n e) ∉ (opening l).history workers ts
  /-- What happens to each negotiation is a course of it, from what was stored to what is stored. -/
  course : ∀ id, ∃ s, Standing.Course workers id ⟨l.find? id, none⟩
    ((opening l).history workers ts) s ∧ ((opening l).run workers ts).Shows id s
  /-- A message that was sent is followed by the recording of its answer, before anything else
  happens to the negotiation; if it is not followed by anything, the answer is still to be recorded
  by the worker that sent it. -/
  recorded : ∀ before w n m a after,
    (opening l).history workers ts = before ++ (w, Event.sent n m a) :: after →
    (∃ between changed rest d, after = between ++ (w, .saved n (some a) changed) :: rest ∧
      (∀ e ∈ between, Standing.Passes n.id e.2) ∧
      Duty.of? (workers w).manager.side n.state = some d ∧
      d.Makes (workers w).manager.context n (some a) changed) ∨
    ((∀ e ∈ after, Standing.Passes n.id e.2) ∧
      ∃ place j, ((opening l).run workers ts).job? w place = some j ∧ j.id = n.id ∧
        j.member.answer? = some a)

/-- Workers in order, with a course of each negotiation behind them, did not get in each other's
way. -/
theorem Orderly.serial (hinj : Function.Injective fun w => (workers w).holder) {l : Ledger}
    {ts : List (Turn ι)} (ho : ((opening l).run workers ts).Orderly workers)
    (hcourse : ∀ id, ∃ s, Standing.Course workers id ⟨l.find? id, none⟩
      ((opening l).history workers ts) s ∧ ((opening l).run workers ts).Shows id s) :
    Serial workers l ts where
  exclusive w w' place place' j j' hj hj' hh hh' hid := ho.eq_of_holds hinj hj hj' hh hh' hid
  stored w place j hj hh := Ledger.find?_eq_some_iff.2 ⟨_, ho.held w place j hj hh⟩
  found w place j n m t a current hj hm := by
    obtain ⟨d, -, -, hf⟩ := ho.sound w place j hj
    rw [hm] at hf
    cases hf with
    | attempting hp hfound => exact hfound a current rfl
  not_refused w n e := by
    obtain ⟨s, hs, -⟩ := hcourse n.id
    exact hs.not_mem_refused w
  course := hcourse
  recorded before w n m a after hsplit := by
    obtain ⟨s, hs, hshows⟩ := hcourse n.id
    rw [hsplit] at hs
    obtain ⟨s', -, hs'⟩ := hs.split
    rcases hs'.after_sent with ⟨hp, hpasses⟩ | ⟨between, changed, rest, d, he, hb, hd, hm⟩
    · exact .inr ⟨hpasses, (hshows.pending w a).1 hp⟩
    · exact .inl ⟨between, changed, rest, d, he, hb, hd, hm⟩

/-- **Workers sharing a ledger send each attempt once.**  If no two workers have the same name and
nobody sees the ledger's clock at the expiry of a lease that somebody else still relies on, then, in
whatever order the workers take their steps and whatever the answers are, no negotiation is held
twice, what is read again is what was leased, nothing is refused, and each message sent is followed
by the recording of its answer on the copy that it was about. -/
theorem serial_of_timely (hinj : Function.Injective fun w => (workers w).holder) (l : Ledger)
    {ts : List (Turn ι)} (ht : (opening l).Timely workers ts) : Serial workers l ts :=
  ((orderly_opening l).run hinj ht).serial hinj fun id =>
    (orderly_opening l).course_run hinj ht (shows_opening l id)

/-- Two providers that lease in different names. -/
def rivals (w : Bool) : Worker :=
  ⟨if w then "worker-a" else "worker-b", 60000, .provider, ⟨"provider", {}, 5, true⟩⟩

/-- One provider leases the offer that waits to be sent, the other one finds nothing to lease; the
message is not taken, and the offer is stored to be sent again. -/
def rivalTurns : List (Turn Bool) :=
  let at' (now : Moment) : Chance := ⟨now, now, "message-1", .error default⟩
  [⟨true, .start, at' 2000⟩, ⟨false, .start, at' 2001⟩, ⟨true, .lease, at' 2002⟩,
    ⟨false, .lease, at' 2003⟩, ⟨true, .proceed 0, at' 2004⟩, ⟨false, .lease, at' 2005⟩,
    ⟨true, .proceed 0, at' 2006⟩, ⟨true, .proceed 0, at' 2007⟩, ⟨true, .proceed 0, at' 2008⟩]

theorem injective_rivals : Function.Injective fun w => (rivals w).holder := by
  intro w w' h
  revert w w'
  decide

theorem serial_rivals :
    (Function.Injective fun w => (rivals w).holder) ∧
    (opening Ledger.specimen).Timely rivals rivalTurns ∧
    Serial rivals Ledger.specimen rivalTurns := by
  have ht : (opening Ledger.specimen).Timely rivals rivalTurns := by decide +kernel
  exact ⟨injective_rivals, ht, serial_of_timely injective_rivals Ledger.specimen ht⟩

/-- What happens to the offer: it is sent, then stored, and with that the handling ends. -/
example : ((opening Ledger.specimen).history rivals rivalTurns).map (fun e => match e.2 with
    | .sent .. => "sent"
    | .saved .. => "saved"
    | .refused .. => "refused"
    | .ended .. => "ended") = ["sent", "saved", "ended"] := by decide +kernel

/-! ### Being in time -/

/-- The ledger's clock never goes back, every worker saves or gives its lease back before the lease
expires, and no lease that is still relied on at the end has expired by then. -/
def Punctual (workers : ι → Worker) (W : Workshop ι) : List (Turn ι) → Prop
  | [] => True
  | t :: ts =>
    (∀ u ∈ ts, t.chance.now ≤ u.chance.now) ∧
    (∀ place j, t.act = .proceed place → W.job? t.worker place = some j → j.member.holds = true →
      (W.proceed workers t j).1.holds = false →
      t.chance.now < (j.lease (workers t.worker)).expiry) ∧
    (ts = [] → ∀ w place j, (W.take workers t).job? w place = some j → j.member.holds = true →
      t.chance.now < (j.lease (workers w)).expiry) ∧
    Punctual workers (W.take workers t) ts

/-- A job that a worker relies on is still there after a turn, under the same lease, unless the turn
was the step in which the worker stopped relying on it. -/
theorem exists_job?_take (workers : ι → Worker) (t : Turn ι) {w : ι} {place : ℕ} {j : Job}
    (hj : W.job? w place = some j) (hh : j.member.holds = true) :
    (t.worker = w ∧ t.act = .proceed place ∧ (W.proceed workers t j).1.holds = false) ∨
    ∃ j', (W.take workers t).job? w place = some j' ∧ j'.member.holds = true ∧
      j'.since = j.since := by
  rcases take_cases workers W t with
    ⟨h, -⟩ | ⟨h, -⟩ | ⟨p, ps, -, hidle, h, -⟩ | ⟨place', j', hact, hj', h, -⟩
  · rw [h]
    exact .inr ⟨j, hj, hh, rfl⟩
  · rw [h]
    exact .inr ⟨j, by rw [job?_started, hj], hh, rfl⟩
  · -- a worker that leases a batch is done with the last one
    have hw : w ≠ t.worker := by
      rintro rfl
      obtain ⟨n, v, hn⟩ := settled_of_isIdle hidle hj
      rw [hn] at hh
      cases hh
    rw [h]
    exact .inr ⟨j, (job?_leased_of_ne hw).trans hj, hh, rfl⟩
  · -- the step may be that of the job itself
    rw [h]
    by_cases hplace : w = t.worker ∧ place = place'
    · obtain ⟨rfl, rfl⟩ := hplace
      obtain rfl : j = j' := by rw [hj] at hj'; exact Option.some.inj hj'
      cases hholds : (W.proceed workers t j).1.holds with
      | false => exact .inl ⟨rfl, hact, rfl⟩
      | true =>
        exact .inr ⟨⟨j.processor, j.since, (W.proceed workers t j).1⟩,
          by rw [job?_stepped hj, if_pos ⟨rfl, rfl⟩], hholds, rfl⟩
    · exact .inr ⟨j, by rw [job?_stepped hj', if_neg hplace, hj], hh, rfl⟩

theorem Punctual.lt_expiry {ts : List (Turn ι)} (hp : W.Punctual workers ts) (hne : ts ≠ [])
    {w : ι} {place : ℕ} {j : Job} (hj : W.job? w place = some j) (hh : j.member.holds = true)
    {now : Moment} (hnow : ∀ u ∈ ts, now ≤ u.chance.now) :
    now < (j.lease (workers w)).expiry := by
  induction ts generalizing W j now with
  | nil => exact absurd rfl hne
  | cons t ts ih =>
    obtain ⟨hlater, hstep, hend, hp⟩ := hp
    refine UInt64.lt_of_le_of_lt (hnow t List.mem_cons_self) ?_
    rcases exists_job?_take workers t hj hh with
      ⟨rfl, hact, hfreed⟩ | ⟨j', hj', hh', hsince⟩
    · exact hstep place j hact hj hh hfreed
    · have hlease : j'.lease (workers w) = j.lease (workers w) := by unfold Job.lease; rw [hsince]
      rw [← hlease]
      by_cases hts : ts = []
      · exact hend hts w place j' hj' hh'
      · exact ih hp hts hj' hh' hlater

theorem timely_of_punctual {ts : List (Turn ι)} (hp : W.Punctual workers ts) :
    W.Timely workers ts := by
  induction ts generalizing W with
  | nil => trivial
  | cons t ts ih =>
    refine ⟨fun w _ j hj hh => ?_, ih hp.2.2.2⟩
    obtain ⟨place, hj⟩ := List.mem_iff_getElem?.1 hj
    refine hp.lt_expiry (List.cons_ne_nil t ts) hj hh fun u hu => ?_
    rcases List.mem_cons.1 hu with rfl | hu
    · exact UInt64.le_refl _
    · exact hp.1 u hu

/-- **Punctual workers send each attempt once.**  It is enough that no two workers have the same
name, that the ledger's clock never goes back and that every worker saves, or gives its lease back,
before the lease expires. -/
theorem serial_of_punctual (hinj : Function.Injective fun w => (workers w).holder) (l : Ledger)
    {ts : List (Turn ι)} (hp : (opening l).Punctual workers ts) : Serial workers l ts :=
  have ht := timely_of_punctual hp
  ((orderly_opening l).run hinj ht).serial hinj fun id =>
    (orderly_opening l).course_run hinj ht (shows_opening l id)

end Workshop

end Parley
