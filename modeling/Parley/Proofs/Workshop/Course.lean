import Parley.Proofs.Workshop.Order

/-!
# The course of a negotiation

What workers of different names do to one negotiation is the same as if a single one did it: a
message is sent about the copy that is stored, and then the answer is recorded on that very copy,
before anything else happens to it.

* `Standing.Next` says what may happen to a negotiation, `Standing.Course` strings it together.
* `course_take`, `course_run` : what can be noticed of a turn, and of a run, is a course of each
  negotiation.
* `Course.after_sent` : in a course, what happens next after a message was sent is that its answer
  is recorded.
-/

namespace Parley

/-- How a negotiation stands. -/
structure Standing (ι : Type) where
  /-- What is stored. -/
  stored : Option Negotiation
  /-- The answer that is not recorded yet, and whose message it is an answer to. -/
  pending : Option (ι × Answer)

namespace Standing

variable {ι : Type}

/-- What may happen to the negotiation of an id.  Nothing is stored about another copy than the
stored one, and nothing but the answer is while there is one to record. -/
inductive Next (workers : ι → Worker) (id : String) :
    Standing ι → ι × Event → Standing ι → Prop where
  /-- It happens to another negotiation. -/
  | other {s : Standing ι} {w : ι} {e : Event} (h : e.copy.id ≠ id) : Next workers id s (w, e) s
  /-- The handling of a copy ends. -/
  | ended {s : Standing ι} {w : ι} {n : Negotiation} {v : Verdict} :
      Next workers id s (w, .ended n v) s
  /-- The message of a duty is sent about the stored copy. -/
  | sent {w : ι} {n : Negotiation} {answer : Answer} {d : Duty} {messageId : String}
      {now : Moment} {s : Sending} (hid : n.id = id)
      (hd : Duty.of? (workers w).manager.side n.state = some d)
      (hp : d.plan (workers w).manager.context messageId now n = .send s) :
      Next workers id ⟨some n, none⟩ (w, .sent n s.message answer) ⟨some n, some (w, answer)⟩
  /-- What a duty, or the answer there is, makes of the stored copy is stored in its place. -/
  | saved {w : ι} {n changed : Negotiation} {answer : Option Answer} {d : Duty} (hid : n.id = id)
      (hd : Duty.of? (workers w).manager.side n.state = some d)
      (hm : d.Makes (workers w).manager.context n answer changed) :
      Next workers id ⟨some n, answer.map (w, ·)⟩ (w, .saved n answer changed) ⟨some changed, none⟩

/-- What may happen to the negotiation of an id, one thing after the other. -/
inductive Course (workers : ι → Worker) (id : String) :
    Standing ι → List (ι × Event) → Standing ι → Prop where
  /-- Nothing happens. -/
  | nil {s : Standing ι} : Course workers id s [] s
  /-- Something happens, and then the rest. -/
  | cons {s s' s'' : Standing ι} {e : ι × Event} {es : List (ι × Event)}
      (h : Next workers id s e s') (hs : Course workers id s' es s'') :
      Course workers id s (e :: es) s''

variable {workers : ι → Worker} {id : String} {s s' s'' : Standing ι} {es fs : List (ι × Event)}

theorem Course.append (h : Course workers id s es s') (h' : Course workers id s' fs s'') :
    Course workers id s (es ++ fs) s'' := by
  induction h with
  | nil => exact h'
  | cons hn _ ih => exact .cons hn (ih h')

theorem Course.split (h : Course workers id s (es ++ fs) s'') :
    ∃ s', Course workers id s es s' ∧ Course workers id s' fs s'' := by
  induction es generalizing s with
  | nil => exact ⟨s, .nil, h⟩
  | cons e es ih =>
    cases h with
    | cons hn hs =>
      obtain ⟨s', h₁, h₂⟩ := ih hs
      exact ⟨s', .cons hn h₁, h₂⟩

/-- The event is nothing that happens to the negotiation of an id. -/
def Passes (id : String) (e : Event) : Prop := e.copy.id = id → ∃ n v, e = .ended n v

theorem Next.of_passes {w : ι} {e : Event} (h : Passes id e) : Next workers id s (w, e) s := by
  by_cases hid : e.copy.id = id
  · obtain ⟨n, v, rfl⟩ := h hid
    exact .ended
  · exact .other hid

theorem Course.of_passes {w : ι} {es : List Event} (h : ∀ e ∈ es, Passes id e) :
    Course workers id s (es.map (w, ·)) s := by
  induction es with
  | nil => exact .nil
  | cons e es ih =>
    exact .cons (.of_passes (h e (by simp))) (ih fun f hf => h f (by simp [hf]))

theorem Next.cases_of_pending {w w' : ι} {n : Negotiation} {a : Answer} {e : Event}
    (h : Next workers id ⟨some n, some (w, a)⟩ (w', e) s') :
    (Passes id e ∧ s' = ⟨some n, some (w, a)⟩) ∨
    ∃ changed d, w' = w ∧ e = .saved n (some a) changed ∧
      Duty.of? (workers w).manager.side n.state = some d ∧
      d.Makes (workers w).manager.context n (some a) changed := by
  generalize hs : (⟨some n, some (w, a)⟩ : Standing ι) = s at h
  cases h with
  | other hne => exact .inl ⟨fun hid => absurd hid hne, rfl⟩
  | ended => exact .inl ⟨fun _ => ⟨_, _, rfl⟩, rfl⟩
  | sent hid hd hp => cases hs
  | @saved _ _ changed answer d hid hd hm =>
    simp only [Standing.mk.injEq, Option.some.injEq] at hs
    obtain ⟨rfl, hs⟩ := hs
    obtain ⟨b, rfl, hb⟩ := Option.map_eq_some_iff.1 hs.symm
    obtain ⟨rfl, rfl⟩ := Prod.mk.inj hb
    exact .inr ⟨changed, d, rfl, rfl, hd, hm⟩

theorem Course.of_pending {w : ι} {n : Negotiation} {a : Answer}
    (h : Course workers id ⟨some n, some (w, a)⟩ es s') :
    (s'.pending = some (w, a) ∧ ∀ e ∈ es, Passes id e.2) ∨
    ∃ before changed after d, es = before ++ (w, .saved n (some a) changed) :: after ∧
      (∀ e ∈ before, Passes id e.2) ∧
      Duty.of? (workers w).manager.side n.state = some d ∧
      d.Makes (workers w).manager.context n (some a) changed := by
  induction es with
  | nil =>
    cases h
    exact .inl ⟨rfl, by simp⟩
  | cons e es ih =>
    obtain ⟨w', e⟩ := e
    cases h with
    | cons hn hs =>
      rcases hn.cases_of_pending with ⟨hp, rfl⟩ | ⟨changed, d, rfl, rfl, hd, hm⟩
      · rcases ih hs with ⟨hs', hes⟩ | ⟨before, changed, after, d, rfl, hes, hd, hm⟩
        · refine .inl ⟨hs', fun f hf => ?_⟩
          rcases List.mem_cons.1 hf with rfl | hf
          · exact hp
          · exact hes f hf
        · refine .inr ⟨(w', e) :: before, changed, after, d, rfl, fun f hf => ?_, hd, hm⟩
          rcases List.mem_cons.1 hf with rfl | hf
          · exact hp
          · exact hes f hf
      · -- the answer is recorded at once
        exact .inr ⟨[], changed, es, d, rfl, by simp, hd, hm⟩

/-- **A message is followed by the recording of its answer.**  In a course, what happens to the
negotiation after a message was sent about it, if anything, is that the one who sent it stores what
the answer makes of the very copy that the message was about. -/
theorem Course.after_sent {w : ι} {n : Negotiation} {m : Message} {a : Answer}
    (h : Course workers n.id s ((w, .sent n m a) :: es) s') :
    (s'.pending = some (w, a) ∧ ∀ e ∈ es, Passes n.id e.2) ∨
    ∃ before changed after d, es = before ++ (w, .saved n (some a) changed) :: after ∧
      (∀ e ∈ before, Passes n.id e.2) ∧
      Duty.of? (workers w).manager.side n.state = some d ∧
      d.Makes (workers w).manager.context n (some a) changed := by
  cases h with
  | cons hn hs =>
    cases hn with
    | other hne => exact absurd rfl hne
    | sent hid hd hp => exact hs.of_pending

theorem Course.not_mem_refused {n : Negotiation} {e : StoreError}
    (h : Course workers n.id s es s') (w : ι) : (w, .refused n e) ∉ es := by
  intro he
  obtain ⟨before, after, rfl⟩ := List.append_of_mem he
  obtain ⟨s₁, -, h₁⟩ := h.split
  cases h₁ with
  | cons hn _ =>
    -- the refusal would have to be one of another negotiation
    cases hn with
    | other hne => exact hne rfl

end Standing

namespace Member

variable {ι : Type} {workers : ι → Worker} {w : ι} {d : Duty} {c : Chance} {l l' : Ledger}
  {m m' : Member} {es : List Event}

/-- A step of a member that relies on its lease takes the negotiation one thing further. -/
theorem Goes.course (h : Goes (workers w).manager.context d (workers w).holder c l m m' l' es)
    (hd : Duty.of? (workers w).manager.side m.negotiation.state = some d)
    (hstored : l.find? m.negotiation.id = some m.negotiation) (hh : m.holds = true) :
    Standing.Course workers m.negotiation.id
      ⟨some m.negotiation, m.answer?.map (w, ·)⟩ (es.map (w, ·))
      ⟨l'.find? m.negotiation.id, m'.answer?.map (w, ·)⟩ := by
  cases h with
  | begins hf ha =>
    rw [hstored, ha]
    exact .nil
  | passes hp hd =>
    rw [hstored]
    exact .nil
  | sends hp =>
    rw [hstored]
    exact .cons (.sent rfl hd hp) .nil
  | finds hp =>
    rw [hstored]
    exact .nil
  | @stores n changed h hm =>
    have hid : Record.id ⟨changed, none⟩ = n.id := hm.id_eq hd
    show Standing.Course _ n.id _ _ ⟨(l.put ⟨changed, none⟩).find? n.id, none⟩
    rw [Ledger.find?_put, if_pos hid]
    exact .cons (.saved rfl hd hm) (.cons .ended .nil)
  | delays =>
    rw [Ledger.find?_setLease, hstored]
    exact .nil
  | releases =>
    rw [Ledger.find?_setLease, hstored]
    exact .cons .ended .nil
  | misses =>
    rw [hstored]
    exact .cons .ended .nil
  | rests => cases hh

theorem Goes.of_not_holds {ctx : Context} {holder : String} (h : Goes ctx d holder c l m m' l' es)
    (hh : m.holds = false) :
    (∀ id, ∀ e ∈ es, Standing.Passes id e) ∧ (∀ id, l'.find? id = l.find? id) ∧
      m.answer? = none ∧ m'.answer? = none := by
  have hended {n : Negotiation} {v : Verdict} (id : String) :
      ∀ e ∈ [Event.ended n v], Standing.Passes id e := by
    intro e he _
    exact ⟨n, v, List.mem_singleton.1 he⟩
  cases h with
  | begins | passes | sends | finds | stores | delays => cases hh
  | releases => exact ⟨hended, fun id => Ledger.find?_setLease, rfl, rfl⟩
  | misses => exact ⟨hended, fun id => rfl, rfl, rfl⟩
  | rests => exact ⟨fun id e he => (by cases he), fun id => rfl, rfl, rfl⟩

theorem holds_of_answer? {a : Answer} (h : m.answer? = some a) : m.holds = true := by
  cases m with
  | handling n g => rfl
  | received n => cases h
  | releasing n v => cases h
  | settled n v => cases h

end Member

namespace Workshop

variable {ι : Type} {workers : ι → Worker} {W : Workshop ι} {t : Turn ι} {id : String}
  {s : Standing ι}

/-- The negotiation of an id stands like that in the workshop. -/
structure Shows (W : Workshop ι) (id : String) (s : Standing ι) : Prop where
  /-- This is stored. -/
  stored : s.stored = W.ledger.find? id
  /-- Pending is what a worker has to record. -/
  pending : ∀ w a, s.pending = some (w, a) ↔
    ∃ place j, W.job? w place = some j ∧ j.id = id ∧ j.member.answer? = some a

theorem shows_opening (l : Ledger) (id : String) :
    (opening l : Workshop ι).Shows id ⟨l.find? id, none⟩ where
  stored := rfl
  pending w a := ⟨nofun, by rintro ⟨place, j, hj, -⟩; cases hj⟩

theorem Shows.eq_of_holds (hs : W.Shows id s) (ho : W.Orderly workers)
    (hinj : Function.Injective fun w => (workers w).holder) {w : ι} {place : ℕ} {j : Job}
    (hj : W.job? w place = some j) (hh : j.member.holds = true) (hid : j.id = id) :
    s = ⟨some j.member.negotiation, j.member.answer?.map (w, ·)⟩ := by
  obtain ⟨stored, pending⟩ := s
  have hstored : stored = some j.member.negotiation := by
    rw [show stored = _ from hs.stored, ← hid]
    exact Ledger.find?_eq_some_iff.2 ⟨_, ho.held w place j hj hh⟩
  have hpending : pending = j.member.answer?.map (w, ·) := by
    cases ha : j.member.answer? with
    | some a => exact (hs.pending w a).2 ⟨place, j, hj, hid, ha⟩
    | none =>
      cases hp : pending with
      | none => rfl
      | some x =>
        -- a job with an answer relies on its lease, so it would be the same job
        obtain ⟨place', j', hj', hid', ha'⟩ := (hs.pending x.1 x.2).1 hp
        obtain ⟨rfl, rfl⟩ := ho.eq_of_holds hinj hj hj' hh (Member.holds_of_answer? ha')
          (hid.trans hid'.symm)
        obtain rfl : j = j' := by rw [hj] at hj'; exact Option.some.inj hj'
        rw [ha] at ha'
        cases ha'
  rw [hstored, hpending]

variable [DecidableEq ι]

/-- Leasing a batch leaves a negotiation as it stands: what is at its end has no answer, and what is
new has none yet. -/
theorem Shows.leased (hs : W.Shows id s) (hidle : (W.bench t.worker).isIdle = true)
    (p : Processor) (ps : List Processor) : (W.leased workers t p ps).Shows id s where
  stored := hs.stored.trans Ledger.find?_setLease.symm
  pending w a := by
    rw [hs.pending]
    constructor
    · rintro ⟨place, j, hj, hid, ha⟩
      have hw : w ≠ t.worker := by
        rintro rfl
        obtain ⟨n, v, hm⟩ := settled_of_isIdle hidle hj
        rw [hm] at ha
        cases ha
      exact ⟨place, j, (job?_leased_of_ne hw).trans hj, hid, ha⟩
    · rintro ⟨place, j, hj, hid, ha⟩
      rcases job?_leased_cases hj with ⟨-, n, -, rfl⟩ | ⟨-, hj⟩
      · cases ha
      · exact ⟨place, j, hj, hid, ha⟩

/-- A step of a job leaves a negotiation as it stands, if the job has no answer about it before and
after. -/
theorem Shows.stepped (hs : W.Shows id s) {place : ℕ} {j : Job}
    (hj : W.job? t.worker place = some j)
    (hfind : (W.proceed workers t j).2.find? id = W.ledger.find? id)
    (hbefore : j.id = id → j.member.answer? = none)
    (hafter : j.id = id → (W.proceed workers t j).1.answer? = none) :
    (W.stepped workers t place j).Shows id s where
  stored := hs.stored.trans hfind.symm
  pending w a := by
    rw [hs.pending]
    constructor
    · rintro ⟨k, i, hi, hid, ha⟩
      have hne : ¬(w = t.worker ∧ k = place) := by
        rintro ⟨rfl, rfl⟩
        obtain rfl : j = i := by rw [hj] at hi; exact Option.some.inj hi
        rw [hbefore hid] at ha
        cases ha
      exact ⟨k, i, by rw [job?_stepped hj, if_neg hne, hi], hid, ha⟩
    · rintro ⟨k, i, hi, hid, ha⟩
      rcases job?_stepped_cases hj hi with ⟨rfl, rfl, rfl⟩ | ⟨-, hi⟩
      · rw [id_proceed] at hid
        rw [hafter hid] at ha
        cases ha
      · exact ⟨k, i, hi, hid, ha⟩

/-- A step of a job takes the negotiation of its id further, and leaves all others as they stand. -/
theorem Orderly.course_proceed (ho : W.Orderly workers)
    (hinj : Function.Injective fun w => (workers w).holder) (hs : W.Shows id s) {place : ℕ}
    {j : Job} (hj : W.job? t.worker place = some j) :
    ∃ s', Standing.Course workers id s ((W.eventsOf workers t j).map (t.worker, ·)) s' ∧
      (W.stepped workers t place j).Shows id s' := by
  obtain ⟨d, hd, -, hgoes⟩ := ho.goes hj
  by_cases hid : j.id = id
  · cases hh : j.member.holds with
    | false =>
      -- after the lease was given back, all that happens is that the handling ends
      obtain ⟨hpasses, hfind, hbefore, hafter⟩ := hgoes.of_not_holds hh
      exact ⟨s, .of_passes (hpasses id),
        hs.stepped hj (hfind id) (fun _ => hbefore) fun _ => hafter⟩
    | true =>
      subst hid
      have hstored := Ledger.find?_eq_some_iff.2 ⟨_, ho.held _ _ _ hj hh⟩
      -- the negotiation stands as the job has it, before the step and after it
      rw [hs.eq_of_holds ho hinj hj hh rfl]
      refine ⟨_, hgoes.course hd hstored hh, rfl, fun w a => ?_⟩
      constructor
      · intro hp
        obtain ⟨a', ha', he⟩ := Option.map_eq_some_iff.1 hp
        obtain ⟨rfl, rfl⟩ := Prod.mk.inj he
        exact ⟨place, _, by rw [job?_stepped hj, if_pos ⟨rfl, rfl⟩], id_proceed .., ha'⟩
      · rintro ⟨k, i, hi, hid, ha⟩
        rcases job?_stepped_cases hj hi with ⟨rfl, rfl, rfl⟩ | ⟨hne, hi⟩
        · show (W.proceed workers t j).1.answer?.map (t.worker, ·) = _
          rw [show (W.proceed workers t j).1.answer? = some a from ha]
          rfl
        · exact absurd (ho.eq_of_holds hinj hi hj (Member.holds_of_answer? ha) hh hid) hne
  · refine ⟨s, .of_passes fun e he hc => absurd ?_ hid, ?_⟩
    · exact (congrArg Negotiation.id (hgoes.copy_eq e he)).symm.trans hc
    · refine hs.stepped hj ?_ (fun h => absurd h hid) fun h => absurd h hid
      unfold Ledger.find?
      rw [hgoes.record?_of_ne hd (Ne.symm hid)]

theorem Orderly.course_take (ho : W.Orderly workers)
    (hinj : Function.Injective fun w => (workers w).holder) (hs : W.Shows id s) :
    ∃ s', Standing.Course workers id s (W.events workers t) s' ∧
      (W.take workers t).Shows id s' := by
  rcases take_cases workers W t with
    ⟨h, he⟩ | ⟨h, he⟩ | ⟨p, ps, -, hidle, h, he⟩ | ⟨place, j, -, hj, h, he⟩
  · rw [h, he]
    exact ⟨s, .nil, hs⟩
  · rw [h, he]
    refine ⟨s, .nil, hs.stored, fun w a => ?_⟩
    simp only [job?_started]
    exact hs.pending w a
  · rw [h, he]
    exact ⟨s, .nil, hs.leased hidle p ps⟩
  · rw [h, he]
    exact ho.course_proceed hinj hs hj

theorem Orderly.course_run (ho : W.Orderly workers)
    (hinj : Function.Injective fun w => (workers w).holder) {ts : List (Turn ι)}
    (ht : W.Timely workers ts) (hs : W.Shows id s) :
    ∃ s', Standing.Course workers id s (W.history workers ts) s' ∧
      (W.run workers ts).Shows id s' := by
  induction ts generalizing W s with
  | nil => exact ⟨s, .nil, hs⟩
  | cons t ts ih =>
    obtain ⟨s₁, hc₁, hs₁⟩ := ho.course_take hinj hs
    obtain ⟨s₂, hc₂, hs₂⟩ := ih (ho.take hinj ht.1) ht.2 hs₁
    exact ⟨s₂, hc₁.append hc₂, hs₂⟩

end Workshop

end Parley
