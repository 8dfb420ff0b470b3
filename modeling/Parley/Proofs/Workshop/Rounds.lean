import Parley.Proofs.Workshop.Basic

/-!
# Rounds

A round of a manager, its processors one after the other and the members of each batch one after the
other, is a run of a workshop with that manager alone in it.  So is any number of rounds with pauses
between them.

* `Venue.Quiet` : a venue in which nobody but the worker touches the ledger.
* `step_chance` : a step of a member in such a venue is a step with the chance that is met there.
* `Workshop.Leads` : a run takes one bench to another, sends what was sent, and ends what was ended.
* `leads_run`, `leads_runAll`, `leads_processors_append` : members, batches and processors, from
  steps on.
* `processed_manager_tally` : what the manager counts as processed.
* `rounds_lead` : the rounds of a manager.
-/

namespace Parley

/-- A venue in which nobody but the worker touches the ledger.  The world remembers, as `sent`, the
messages that were sent and the answers to them. -/
structure Venue.Quiet {σ : Type} (v : Venue σ) (k : Worker) (sent : σ → List (Message × Answer)) :
    Prop extends v.Serves k.holder k.span where
  /-- Drawing an id leaves the ledger alone. -/
  ledger_freshId : ∀ s, (v.desk (v.freshId s).2).ledger = (v.desk s).ledger
  /-- So does everything that happens while a message is on its way. -/
  ledger_dispatch : ∀ m s, (v.desk (v.dispatch m s).2).ledger = (v.desk s).ledger
  /-- Nothing is sent at the desk. -/
  sent_setDesk : ∀ d s, sent (v.setDesk d s) = sent s
  /-- Nothing is sent to draw an id. -/
  sent_freshId : ∀ s, sent (v.freshId s).2 = sent s
  /-- What is sent is remembered. -/
  sent_dispatch : ∀ m s, sent (v.dispatch m s).2 = sent s ++ [(m, (v.dispatch m s).1)]

/-- What a member meets with in a venue. -/
def Venue.chance {σ : Type} (v : Venue σ) (s : σ) : Member → Chance
  | .received _ => ⟨(v.desk s).now, v.now (v.freshId s).2, (v.freshId s).1, default⟩
  | m => ⟨(v.desk s).now, v.now s, "",
      (m.outgoing?.map fun message => (v.dispatch message s).1).getD default⟩

namespace Event

/-- The message that was sent, and the answer. -/
def sent? : Event → Option (Message × Answer)
  | sent _ m a => some (m, a)
  | _ => none

/-- The negotiation whose handling ended, and how. -/
def ended? : Event → Option (Negotiation × Verdict)
  | ended n v => some (n, v)
  | _ => none

end Event

namespace Member

/-- The negotiation that was handed out, and how the handling ended, once all is done. -/
def ending? (m : Member) : Option (Negotiation × Verdict) := m.verdict?.map (m.negotiation, ·)

/-! ### Steps -/

variable {σ : Type} {v : Venue σ} {k : Worker} {sent : σ → List (Message × Answer)}

/-- Work at the desk of a quiet venue is work at the desk with the chance that is met there. -/
theorem atDesk_chance (hv : v.Quiet k sent) {α : Type} (work : Desk → α × Desk) (s : σ)
    {c : Chance} (hc : c.now = (v.desk s).now) :
    (c.venue k.holder k.span).atDesk work (v.desk s).ledger =
      ((v.atDesk work s).1, (v.desk (v.atDesk work s).2).ledger) := by
  have hdesk : (c.venue k.holder k.span).desk (v.desk s).ledger = v.desk s := by
    show Desk.mk ⟨k.holder, k.span, []⟩ (v.desk s).ledger c.now = _
    rw [hc, ← hv.handle_desk s]
  show ((work ((c.venue k.holder k.span).desk (v.desk s).ledger)).1,
    (work ((c.venue k.holder k.span).desk (v.desk s).ledger)).2.ledger) = _
  rw [hdesk]
  exact Prod.ext rfl (hv.ledger_setDesk ..).symm

theorem handling_step_chance (hv : v.Quiet k sent) (h : Handling) (s : σ) {c : Chance}
    (hnow : c.now = (v.desk s).now) (hclock : c.clock = v.now s)
    (hanswer : ∀ m, h.outgoing? = some m → c.answer = (v.dispatch m s).1) :
    h.step (c.venue k.holder k.span) (v.desk s).ledger =
      ((h.step v s).1, (v.desk (h.step v s).2).ledger) := by
  unfold Handling.step
  cases ho : h.outgoing? with
  | some m =>
    show (h.receive c.answer, (v.desk s).ledger) = _
    rw [hanswer m ho]
    exact Prod.ext rfl (hv.ledger_dispatch ..).symm
  | none =>
    cases h with
    | storing n =>
      have hwork := atDesk_chance hv (·.save n) s hnow
      simp only [Handling.stepAtDesk, hwork]
    | attempting m t stage =>
      have hwork := atDesk_chance hv (fun d => t.step (v.now s) d stage) s hnow
      have hclock : (c.venue k.holder k.span).now (v.desk s).ledger = v.now s := hclock
      simp only [Handling.stepAtDesk, hclock, hwork]
    | finished w => rfl

/-- **A step in a quiet venue** is a step with the chance that is met there. -/
theorem step_chance (hv : v.Quiet k sent) (handler : Handler) (m : Member) (s : σ) :
    m.step ((v.chance s m).venue k.holder k.span) handler (v.desk s).ledger =
      ((m.step v handler s).1, (v.desk (m.step v handler s).2).ledger) := by
  cases m with
  | received n => exact Prod.ext rfl (hv.ledger_freshId s).symm
  | handling n h =>
    have hstep := handling_step_chance hv h s (c := v.chance s (.handling n h)) rfl rfl
      fun m hm => by
        show ((h.outgoing?.map fun message => (v.dispatch message s).1).getD default) = _
        rw [hm]
        rfl
    simp only [step, hstep]
  | releasing n w =>
    have hwork := atDesk_chance hv (·.release n.id) s (c := v.chance s (.releasing n w)) rfl
    simp only [step, hwork]
  | settled n w => rfl

theorem sent_handling_step (hv : v.Quiet k sent) (h : Handling) (s : σ) :
    sent (h.step v s).2 =
      sent s ++ (h.outgoing?.map fun m => (m, (v.dispatch m s).1)).toList := by
  unfold Handling.step
  cases ho : h.outgoing? with
  | some m => exact hv.sent_dispatch m s
  | none =>
    rw [Option.map_none, Option.toList_none, List.append_nil]
    cases h with
    | storing n => exact hv.sent_setDesk ..
    | attempting m t stage => exact hv.sent_setDesk ..
    | finished w => rfl

/-- What can be noticed of a step of a handling, other than storing, is the sending of a message. -/
theorem filterMap_event? {α : Type} {f : Event → Option α} {n : Negotiation}
    (hf : ∀ a changed r, f (.ofSave n a changed r) = none) (h : Handling) (c : Chance)
    (save : Negotiation → Except StoreError Ledger) :
    (h.event? c save n).toList.filterMap f =
      (h.outgoing?.bind fun m => f (.sent n m c.answer)).toList := by
  have hsave (a : Option Answer) (changed : Negotiation) :
      [Event.ofSave n a changed (save changed)].filterMap f = [] := by
    rw [List.filterMap_cons, hf]
    rfl
  cases h with
  | storing changed => exact hsave none changed
  | finished w => rfl
  | attempting m t stage =>
    cases stage with
    | early | answered a => rfl
    | sending =>
      show [Event.sent n m c.answer].filterMap f = (f (.sent n m c.answer)).toList
      rw [List.filterMap_cons]
      cases f (.sent n m c.answer) <;> rfl
    | found a current =>
      simp only [Handling.event?]
      cases t.settle c.clock a current with
      | error e => rfl
      | ok changed => exact hsave (some a) changed

theorem sent_step (hv : v.Quiet k sent) (handler : Handler) (m : Member) (s : σ)
    (save : Negotiation → Except StoreError Ledger) :
    sent (m.step v handler s).2 = sent s ++
      (m.events (v.chance s m) save (m.step v handler s).1).filterMap Event.sent? := by
  have hended (n : Negotiation) (w : Option Verdict) :
      (w.map (Event.ended n)).toList.filterMap Event.sent? = [] := by cases w <;> rfl
  cases m with
  | received n =>
    rw [events, hended, List.append_nil]
    exact hv.sent_freshId s
  | releasing n w =>
    rw [events, hended, List.append_nil]
    exact hv.sent_setDesk ..
  | settled n w => exact (List.append_nil _).symm
  | handling n h =>
    have hsave (a : Option Answer) (changed : Negotiation) (r : Except StoreError Ledger) :
        (Event.ofSave n a changed r).sent? = none := by cases r <;> rfl
    rw [events, List.filterMap_append, hended, List.append_nil, filterMap_event? hsave]
    refine (sent_handling_step hv h s).trans ?_
    cases ho : h.outgoing? with
    | none => rfl
    | some m =>
      show _ = sent s ++ [(m, ((h.outgoing?.map fun m => (v.dispatch m s).1).getD default))]
      rw [ho]
      rfl

theorem ended_step {m : Member} (hm : m.rank ≠ 0) (c : Chance)
    (save : Negotiation → Except StoreError Ledger) {next : Member}
    (hn : next.negotiation = m.negotiation) :
    (m.events c save next).filterMap Event.ended? = next.ending?.toList := by
  have hended (n : Negotiation) (w : Option Verdict) :
      (w.map (Event.ended n)).toList.filterMap Event.ended? = (w.map (n, ·)).toList := by
    cases w <;> rfl
  unfold ending?
  rw [hn]
  cases m with
  | received n | releasing n w => exact hended ..
  | settled n w => exact absurd rfl hm
  | handling n h =>
    have hsave (a : Option Answer) (changed : Negotiation) (r : Except StoreError Ledger) :
        (Event.ofSave n a changed r).ended? = none := by cases r <;> rfl
    have hsent : (h.outgoing?.bind fun m => (Event.sent n m c.answer).ended?) = none := by
      cases h.outgoing? <;> rfl
    rw [events, List.filterMap_append, filterMap_event? hsave, hsent]
    exact hended ..

/-! ### Whole runs -/

theorem run_of_rank_eq_zero {handler : Handler} {m : Member} (hm : m.rank = 0) (s : σ) :
    m.run v handler s = (m, s) := by
  rw [run, runUnless, dif_pos hm]

theorem run_of_rank_ne_zero {handler : Handler} {m : Member} (hm : m.rank ≠ 0) (s : σ) :
    m.run v handler s = (m.step v handler s).1.run v handler (m.step v handler s).2 := by
  have hno : m.outgoing?.any (fun _ => false) = false := by cases m.outgoing? <;> rfl
  rw [run, runUnless, dif_neg hm, hno, if_neg Bool.false_ne_true]
  rfl

end Member

/-! ### Runs of the workshop -/

namespace Workshop

variable {σ : Type} {v : Venue σ} {k : Worker} {sent : σ → List (Message × Answer)}
  {s s' s'' : σ} {b b' b'' : Bench} {es es' : List (Negotiation × Verdict)}

/-- The venue in which a worker meets with the same chance again and again. -/
def steady (c : Chance) (k : Worker) : Venue (Ledger × List (Message × Answer)) where
  now _ := c.clock
  desk s := ⟨⟨k.holder, k.span, []⟩, s.1, c.now⟩
  setDesk d s := (d.ledger, s.2)
  freshId s := (c.messageId, s)
  dispatch m s := (c.answer, s.1, s.2 ++ [(m, c.answer)])

theorem quiet_steady (c : Chance) (k : Worker) : (steady c k).Quiet k Prod.snd where
  handle_desk _ := rfl
  ledger_setDesk _ _ := rfl
  ledger_freshId _ := rfl
  ledger_dispatch _ _ := rfl
  sent_setDesk _ _ := rfl
  sent_freshId _ := rfl
  sent_dispatch _ _ := rfl

/-- The workshop of a worker alone, in a world and with a bench. -/
def alone (v : Venue σ) (s : σ) (b : Bench) : Workshop Unit := ⟨(v.desk s).ledger, fun _ => b⟩

/-- A run of a workshop takes a world and a bench to another world and another bench.  What can be
noticed of it is what was sent, as the world remembers it, and these endings; and its turns see the
clock as the worlds show it. -/
def Leads (v : Venue σ) (k : Worker) (sent : σ → List (Message × Answer)) (s : σ) (b : Bench)
    (es : List (Negotiation × Verdict)) (s' : σ) (b' : Bench) : Prop :=
  ∃ ts : List (Turn Unit), (alone v s b).run (fun _ => k) ts = alone v s' b' ∧
    sent s' = sent s ++
      ((alone v s b).history (fun _ => k) ts).filterMap (·.2.sent?) ∧
    ((alone v s b).history (fun _ => k) ts).filterMap (·.2.ended?) = es ∧
    ∀ t ∈ ts, ∃ u, t.chance.now = (v.desk u).now

theorem Leads.of_eq (hledger : (v.desk s').ledger = (v.desk s).ledger) (hsent : sent s' = sent s)
    (b : Bench) : Leads v k sent s b [] s' b := by
  refine ⟨[], ?_, ?_, rfl, List.forall_mem_nil _⟩
  · rw [run_nil, alone, alone, hledger]
  · rw [hsent]
    exact (List.append_nil _).symm

theorem Leads.refl (s : σ) (b : Bench) : Leads v k sent s b [] s b := .of_eq rfl rfl b

theorem Leads.trans (h : Leads v k sent s b es s' b') (h' : Leads v k sent s' b' es' s'' b'') :
    Leads v k sent s b (es ++ es') s'' b'' := by
  obtain ⟨ts, hrun, hsent, hended, hnow⟩ := h
  obtain ⟨us, hrun', hsent', hended', hnow'⟩ := h'
  refine ⟨ts ++ us, ?_, ?_, ?_, List.forall_mem_append.2 ⟨hnow, hnow'⟩⟩
  · rw [run_append, hrun, hrun']
  · rw [history_append, hrun, List.filterMap_append, ← List.append_assoc, ← hsent, hsent']
  · rw [history_append, hrun, List.filterMap_append, hended, hended']

theorem Leads.of_take {t : Turn Unit} (htake : (alone v s b).take (fun _ => k) t = alone v s' b')
    (hevents : (alone v s b).events (fun _ => k) t = []) (hsent : sent s' = sent s)
    (hnow : t.chance.now = (v.desk s).now) : Leads v k sent s b [] s' b' := by
  refine ⟨[t], htake, ?_, ?_, List.forall_mem_singleton.2 ⟨s, hnow⟩⟩
  · rw [history, hevents, hsent]
    exact (List.append_nil _).symm
  · rw [history, hevents]
    rfl

/-- The bench on which a member stands between others. -/
def between (ahead : List Processor) (before : List Job) (p : Processor) (since : Moment)
    (m : Member) (after : List Job) : Bench :=
  ⟨ahead, before ++ ⟨p, since, m⟩ :: after⟩

variable (ahead : List Processor) (before : List Job) (p : Processor) (since : Moment)
  (after : List Job) {m : Member}

theorem update_alone (s : σ) (b b' : Bench) :
    Function.update (alone v s b).bench () b' = fun _ => b' := by
  funext u
  exact Function.update_self ..

theorem leads_step (hv : v.Quiet k sent) (hm : m.rank ≠ 0) (s : σ) :
    Leads v k sent s (between ahead before p since m after)
      (m.step v p.handler s).1.ending?.toList (m.step v p.handler s).2
      (between ahead before p since (m.step v p.handler s).1 after) := by
  set W := alone v s (between ahead before p since m after) with hW
  let t : Turn Unit := ⟨(), .proceed before.length, v.chance s m⟩
  have hj : W.job? () before.length = some ⟨p, since, m⟩ := by
    simp [hW, job?, alone, between]
  have hproceed : W.proceed (fun _ => k) t ⟨p, since, m⟩ = ((m.step v p.handler s).1,
      (v.desk (m.step v p.handler s).2).ledger) := Member.step_chance hv p.handler m s
  have htake : W.take (fun _ => k) t = alone v (m.step v p.handler s).2
      (between ahead before p since (m.step v p.handler s).1 after) := by
    simp only [take, t, hj]
    rw [hproceed, hW, update_alone]
    simp [alone, between]
  have hevents : W.history (fun _ => k) [t] = (m.events (v.chance s m)
      (W.ledger.save · k.holder (v.chance s m).now) (m.step v p.handler s).1).map ((), ·) := by
    show W.events (fun _ => k) t ++ [] = _
    rw [List.append_nil]
    simp only [events, t, hj]
    rw [eventsOf, hproceed]
  have hnow : t.chance.now = (v.desk s).now := by cases m <;> rfl
  refine ⟨[t], htake, ?_, ?_, List.forall_mem_singleton.2 ⟨s, hnow⟩⟩
  · rw [hevents, List.filterMap_map]
    exact Member.sent_step hv p.handler m s _
  · rw [hevents, List.filterMap_map]
    exact Member.ended_step hm _ _ (Member.negotiation_step v p.handler m s)

theorem leads_run (hv : v.Quiet k sent) (hm : m.rank ≠ 0) (s : σ) :
    ∃ w, (m.run v p.handler s).1 = .settled m.negotiation w ∧
      Leads v k sent s (between ahead before p since m after) [(m.negotiation, w)]
        (m.run v p.handler s).2
        (between ahead before p since (m.run v p.handler s).1 after) := by
  induction hr : m.rank using Nat.strongRecOn generalizing m s with
  | ind r ih =>
    have hstep := leads_step ahead before p since after hv hm s
    have hn := Member.negotiation_step v p.handler m s
    have hlt := Member.rank_step_lt v p.handler m s hm
    rw [Member.run_of_rank_ne_zero hm]
    cases hnext : (m.step v p.handler s).1 with
    | settled n w =>
      -- the step was the last one
      obtain rfl : n = m.negotiation := by rw [hnext] at hn; exact hn
      rw [Member.run_of_rank_eq_zero rfl]
      rw [hnext] at hstep
      exact ⟨w, rfl, hstep⟩
    | received n | handling n h | releasing n w =>
      rw [hnext] at hstep hn hlt
      obtain ⟨w, hw, hrest⟩ := ih _ (hr ▸ hlt) (by simp [Member.rank]) _ rfl
      rw [hn] at hw hrest
      exact ⟨w, hw, hstep.trans hrest⟩

theorem leads_runAll (hv : v.Quiet k sent) (ns : List Negotiation) (s : σ) :
    let r := Processor.runAll v p.handler (ns.map .received) s
    Leads v k sent s ⟨ahead, before ++ ns.map fun n => ⟨p, since, .received n⟩⟩
      (r.1.filterMap Member.ending?) r.2 ⟨ahead, before ++ r.1.map (⟨p, since, ·⟩)⟩ ∧
    ∀ m ∈ r.1, m.verdict?.isSome := by
  induction ns generalizing before s with
  | nil => exact ⟨.refl .., by simp [Processor.runAll]⟩
  | cons n ns ih =>
    have hrank : (Member.received n).rank ≠ 0 := Nat.succ_ne_zero 5
    obtain ⟨w, hw, hfirst⟩ := leads_run ahead before p since
      (ns.map fun n => ⟨p, since, .received n⟩) hv hrank s
    obtain ⟨hrest, hsettled⟩ := ih (before ++ [⟨p, since, .settled n w⟩])
      (Member.run v p.handler (.received n) s).2
    rw [List.append_assoc, List.append_assoc] at hrest
    rw [hw] at hfirst
    intro r
    have hr : r = (.settled n w ::
        (Processor.runAll v p.handler (ns.map .received)
          (Member.run v p.handler (.received n) s).2).1,
        (Processor.runAll v p.handler (ns.map .received)
          (Member.run v p.handler (.received n) s).2).2) := by
      show ((Member.run v p.handler (.received n) s).1 :: _, _) = _
      rw [hw]
      rfl
    rw [hr]
    refine ⟨hfirst.trans hrest, ?_⟩
    rintro m (_ | ⟨_, hm⟩)
    · rfl
    · exact hsettled m hm

theorem leads_processor (hv : v.Quiet k sent) (p : Processor) (ps : List Processor)
    {jobs : List Job} (hjobs : (Bench.mk (p :: ps) jobs).isIdle = true) (s : σ) :
    ∃ jobs', (Bench.mk ps jobs').isIdle = true ∧
      Leads v k sent s ⟨p :: ps, jobs⟩ ((p.run v s).1.filterMap Member.ending?) (p.run v s).2
        ⟨ps, jobs'⟩ := by
  have hlease := p.lease_of_serves hv.toServes s
  set ns := (v.desk s).ledger.batch p.batchSize p.state (v.desk s).now with hns
  set s₁ := v.setDesk { v.desk s with ledger := ((v.desk s).ledger.leaseNext p.batchSize p.state
    k.holder k.span (v.desk s).now).2 } s with hs₁
  have hrun : p.run v s = Processor.runAll v p.handler (ns.map .received) s₁ := by
    show Processor.runAll v p.handler (p.lease v s).1 (p.lease v s).2 = _
    rw [hlease]
  obtain ⟨hall, hsettled⟩ := leads_runAll ps [] p (v.desk s).now hv ns s₁
  rw [← hrun] at hall hsettled
  have hfirst : Leads v k sent s ⟨p :: ps, jobs⟩ [] s₁
      ⟨ps, ns.map fun n => ⟨p, (v.desk s).now, .received n⟩⟩ := by
    refine .of_take (t := ⟨(), .lease, ⟨(v.desk s).now, 0, "", default⟩⟩) ?_ rfl
      (hv.sent_setDesk ..) rfl
    have hledger : (v.desk s₁).ledger = ((v.desk s).ledger.leaseNext p.batchSize p.state k.holder
        k.span (v.desk s).now).2 := hv.ledger_setDesk ..
    rw [take_lease rfl rfl hjobs, leased, update_alone]
    show _ = Workshop.mk (v.desk s₁).ledger _
    rw [hledger]
    rfl
  refine ⟨(p.run v s).1.map (⟨p, (v.desk s).now, ·⟩), ?_, hfirst.trans hall⟩
  rw [Bench.isIdle, List.all_map, List.all_eq_true]
  exact hsettled

/-- The endings of the members of some batches. -/
def endings (mss : List (List Member)) : List (Negotiation × Verdict) :=
  mss.flatten.filterMap Member.ending?

theorem processed_ofVerdicts (vs : List Verdict) (t : Tally) :
    ((vs.map Tally.count).foldl Tally.add t).processed =
      t.processed + vs.countP (· == .outcome .processed) := by
  have hcount (w : Verdict) : (Tally.count w).processed = (w == .outcome .processed).toNat := by
    rcases w with (_ | _ | _) | _ | _ <;> rfl
  induction vs generalizing t with
  | nil => rfl
  | cons w vs ih =>
    rw [List.map_cons, List.foldl_cons, ih, List.countP_cons]
    show t.processed + (Tally.count w).processed + _ = _
    rw [hcount]
    cases w == .outcome .processed with
    | true => simp only [Bool.toNat_true, if_true]; omega
    | false => rfl

theorem map_snd_ending? (ms : List Member) :
    (ms.filterMap Member.ending?).map (·.2) = Processor.verdicts ms := by
  have hsnd : (Option.map (·.2) ∘ Member.ending? : Member → Option Verdict) = Member.verdict? := by
    funext m
    show (m.verdict?.map (m.negotiation, ·)).map (·.2) = m.verdict?
    cases m.verdict? <;> rfl
  rw [List.map_filterMap, Processor.verdicts, ← hsnd]
  rfl

theorem processed_manager_tally (mss : List (List Member)) :
    (Manager.tally mss).processed = (endings mss).countP (·.2 == .outcome .processed) := by
  have key (t : Tally) : ((mss.map Processor.tally).foldl Tally.add t).processed =
      t.processed + (endings mss).countP (·.2 == .outcome .processed) := by
    induction mss generalizing t with
    | nil => rfl
    | cons ms mss ih =>
      have hms : (Processor.tally ms).processed =
          (ms.filterMap Member.ending?).countP (·.2 == .outcome .processed) := by
        rw [Processor.tally, Tally.ofVerdicts, processed_ofVerdicts, ← map_snd_ending?,
          List.countP_map]
        exact Nat.zero_add _
      have hcons : (endings (ms :: mss)).countP (·.2 == .outcome .processed) =
          (Processor.tally ms).processed +
            (endings mss).countP (·.2 == .outcome .processed) := by
        rw [endings, List.flatten_cons, List.filterMap_append, List.countP_append, hms]
        rfl
      rw [List.map_cons, List.foldl_cons, ih, hcons, ← Nat.add_assoc]
      rfl
  exact (key Tally.zero).trans (Nat.zero_add _)

/-- Some processors are run, and others still lie ahead. -/
theorem leads_processors_append (hv : v.Quiet k sent) (ps qs : List Processor) {jobs : List Job}
    (hjobs : (Bench.mk (ps ++ qs) jobs).isIdle = true) (s : σ) :
    ∃ jobs', (Bench.mk qs jobs').isIdle = true ∧
      Leads v k sent s ⟨ps ++ qs, jobs⟩ (endings (Manager.runAll v ps s).1)
        (Manager.runAll v ps s).2 ⟨qs, jobs'⟩ := by
  induction ps generalizing jobs s with
  | nil => exact ⟨jobs, hjobs, .refl ..⟩
  | cons p ps ih =>
    obtain ⟨jobs₁, hjobs₁, hfirst⟩ := leads_processor hv p (ps ++ qs) hjobs s
    obtain ⟨jobs₂, hjobs₂, hrest⟩ := ih hjobs₁ (p.run v s).2
    refine ⟨jobs₂, hjobs₂, ?_⟩
    have hall := hfirst.trans hrest
    rwa [endings, ← List.filterMap_append] at hall

theorem leads_start {jobs : List Job} (hjobs : (Bench.mk [] jobs).isIdle = true) (s : σ) :
    Leads v k sent s ⟨[], jobs⟩ [] s ⟨k.manager.processors, jobs⟩ := by
  refine .of_take (t := ⟨(), .start, ⟨(v.desk s).now, 0, "", default⟩⟩) ?_ rfl rfl rfl
  have hidle : ((alone v s ⟨[], jobs⟩).bench ()).isIdle = true := hjobs
  have hempty : ((alone v s ⟨[], jobs⟩).bench ()).ahead.isEmpty = true := rfl
  simp only [take, hempty, hidle, Bool.and_true, if_true]
  rw [update_alone]
  rfl

theorem leads_tick (hv : v.Quiet k sent) {jobs : List Job}
    (hjobs : (Bench.mk [] jobs).isIdle = true) (s : σ) :
    ∃ jobs', (Bench.mk [] jobs').isIdle = true ∧
      Leads v k sent s ⟨[], jobs⟩ (endings (k.manager.tick v s).1) (k.manager.tick v s).2
        ⟨[], jobs'⟩ := by
  have hprocessors : k.manager.processors ++ [] = k.manager.processors := List.append_nil _
  obtain ⟨jobs', hjobs', hall⟩ := leads_processors_append hv k.manager.processors [] hjobs s
  rw [hprocessors] at hall
  exact ⟨jobs', hjobs', (leads_start hjobs s).trans hall⟩

end Workshop

/-- Rounds of a manager, with pauses between them in which nobody else touches the ledger.  In
`Rounds … s mss s'` the world `s` becomes `s'`, and `mss` are the batches of all rounds. -/
inductive Manager.Rounds {σ : Type} (v : Venue σ) (sent : σ → List (Message × Answer))
    (m : Manager) : σ → List (List Member) → σ → Prop where
  /-- No round. -/
  | nil {s : σ} : Rounds v sent m s [] s
  /-- Something else happens. -/
  | pause {s s₁ s' : σ} {mss : List (List Member)}
      (hledger : (v.desk s₁).ledger = (v.desk s).ledger) (hsent : sent s₁ = sent s)
      (h : Rounds v sent m s₁ mss s') : Rounds v sent m s mss s'
  /-- A round, and then the rest. -/
  | round {s s' : σ} {mss : List (List Member)} (h : Rounds v sent m (m.tick v s).2 mss s') :
      Rounds v sent m s ((m.tick v s).1 ++ mss) s'

namespace Workshop

/-- **Rounds of a manager are a run of its workshop.**  What is sent and what is ended in the run is
what is sent and ended in the rounds, in the same order. -/
theorem rounds_lead {σ : Type} {v : Venue σ} {k : Worker} {sent : σ → List (Message × Answer)}
    {s s' : σ} {mss : List (List Member)} (hv : v.Quiet k sent)
    (h : k.manager.Rounds v sent s mss s') {jobs : List Job}
    (hjobs : (Bench.mk [] jobs).isIdle = true) :
    ∃ jobs', Leads v k sent s ⟨[], jobs⟩ (endings mss) s' ⟨[], jobs'⟩ := by
  induction h generalizing jobs with
  | nil => exact ⟨jobs, .refl ..⟩
  | pause hledger hsent _ ih =>
    obtain ⟨jobs', hrest⟩ := ih hjobs
    exact ⟨jobs', (Leads.of_eq hledger hsent _).trans hrest⟩
  | @round s s' mss _ ih =>
    obtain ⟨jobs₁, hjobs₁, hfirst⟩ := leads_tick hv hjobs s
    obtain ⟨jobs', hrest⟩ := ih hjobs₁
    refine ⟨jobs', ?_⟩
    rw [endings, List.flatten_append, List.filterMap_append]
    exact hfirst.trans hrest

end Workshop

end Parley
