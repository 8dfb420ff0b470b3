import Parley.Proofs.Workshop.Budget

/-!
# How often messages are sent

* `Course.countP_add_le` : **the accounting.**  Whatever is counted in a course is paid for by a
  potential that every event lowers by what it costs.
* `Course.countP_sent_le`, `Course.countP_sentIn_le`, `Course.countP_saved_le` : the budgets of a
  negotiation pay for the messages sent about it, and for the times that it is stored.
* `Course.stays_or_leaves` : a state is left for good after exactly so many tries.
* `Orderly.countP_isProcessed` : to act on a negotiation is to store it.
* `sends_bounded` : **bounded sending** for a worker that has a ledger to itself.
-/

namespace Parley

namespace Event

/-- A message was sent about the negotiation of an id. -/
def isSent (id : String) : Event → Bool
  | sent n _ _ => n.id == id
  | _ => false

/-- A message was sent about the negotiation of an id while it was in a state. -/
def isSentIn (id : String) (st : State) : Event → Bool
  | sent n _ _ => n.id == id && n.state == st
  | _ => false

/-- The negotiation of an id was stored. -/
def isSaved (id : String) : Event → Bool
  | saved n _ _ => n.id == id
  | _ => false

/-- The negotiation of an id was stored out of a state into another one. -/
def isLeft (id : String) (st st' : State) : Event → Bool
  | saved n _ changed => n.id == id && n.state == st && changed.state == st'
  | _ => false

/-- If a message was sent, it may still be taken when it is sent again. -/
def isOpen : Event → Bool
  | sent _ _ a => a.isRetryable
  | _ => true

/-- The handling of the negotiation of an id counts as acting on it. -/
def isProcessed (id : String) : Event → Bool
  | ended n v => n.id == id && v == .outcome .processed
  | _ => false

variable {id : String} {st : State} {e : Event}

theorem exists_of_isLeft {st' : State} (h : e.isLeft id st st' = true) :
    ∃ n answer changed, e = saved n answer changed ∧ n.id = id ∧ n.state = st ∧
      changed.state = st' := by
  cases e with
  | saved n answer changed =>
    simp only [isLeft, Bool.and_eq_true, beq_iff_eq] at h
    exact ⟨n, answer, changed, rfl, h.1.1, h.1.2, h.2⟩
  | sent | refused | ended => cases h

theorem isSent_of_passes (h : Standing.Passes id e) : e.isSent id = false := by
  cases e with
  | sent n m a =>
    have hid : n.id ≠ id := by
      intro hid
      obtain ⟨n', v, he⟩ := h hid
      cases he
    simp [isSent, hid]
  | saved | refused | ended => rfl

theorem isSentIn_of_passes (st : State) (h : Standing.Passes id e) : e.isSentIn id st = false := by
  have hsent := isSent_of_passes h
  cases e with
  | sent n m a =>
    exact Bool.and_eq_false_imp.2 fun hid => absurd hid (by simpa [isSent] using hsent)
  | saved | refused | ended => rfl

theorem isSaved_of_passes (h : Standing.Passes id e) : e.isSaved id = false := by
  cases e with
  | saved n answer changed =>
    have hid : n.id ≠ id := by
      intro hid
      obtain ⟨n', v, he⟩ := h hid
      cases he
    simp [isSaved, hid]
  | sent | refused | ended => rfl

end Event

/-- All workers are on one side and send a message again equally often. -/
def Alike {ι : Type} (workers : ι → Worker) (side : Side) (max : UInt32) : Prop :=
  ∀ w, (workers w).manager.side = side ∧
    (workers w).manager.context.policy.maxRetries = max

namespace Standing

variable {ι : Type} {workers : ι → Worker} {side : Side} {max : UInt32} {id : String}
  {st : State} {s s' : Standing ι} {es : List (ι × Event)}

/-- What a potential of negotiations, with or without an answer to record, comes to. -/
def weigh (φ : Negotiation → Bool → ℕ) (s : Standing ι) : ℕ :=
  match s.stored with
  | none => 0
  | some n => φ n s.pending.isSome

theorem weigh_le {φ : Negotiation → Bool → ℕ} {bound : ℕ}
    (h : ∀ n, s.stored = some n → φ n s.pending.isSome ≤ bound) : s.weigh φ ≤ bound := by
  unfold weigh
  cases hs : s.stored with
  | none => exact Nat.zero_le _
  | some n => exact h n hs

/-- **The accounting.**  If a potential pays for every message that counts and for every storing
that counts, it pays for all that counts in a course. -/
theorem Course.countP_add_le {p : Event → Bool} {φ : Negotiation → Bool → ℕ}
    (hp : ∀ e, Passes id e → p e = false)
    (hsent : ∀ n m a d, Duty.of? side n.state = some d → d.sends = true →
      (p (.sent n m a)).toNat + φ n true ≤ φ n false)
    (hsaved : ∀ ctx n answer changed d, ctx.policy.maxRetries = max →
      Duty.of? side n.state = some d → Duty.Makes ctx d n answer changed →
      (p (.saved n answer changed)).toNat + φ changed false ≤ φ n answer.isSome)
    (ha : Alike workers side max) (h : Course workers id s es s') :
    es.countP (p ·.2) + s'.weigh φ ≤ s.weigh φ := by
  induction h with
  | nil => simp
  | @cons s s₁ s₂ e es hn _ ih =>
    have hstep : (p e.2).toNat + s₁.weigh φ ≤ s.weigh φ := by
      cases hn with
      | other hne => simp [hp _ fun hid => absurd hid hne]
      | ended => simp [hp _ fun _ => ⟨_, _, rfl⟩]
      | @sent w n a d messageId now snd hid hd hplan =>
        exact hsent n snd.message a d ((ha w).1 ▸ hd) (Duty.sends_of_plan hplan).1
      | @saved w n changed answer d hid hd hm =>
        have := hsaved _ n answer changed d (ha w).2 ((ha w).1 ▸ hd) hm
        show (p (.saved n answer changed)).toNat + φ changed false ≤
          φ n (answer.map (w, ·)).isSome
        rwa [Option.isSome_map]
    have hcount : (e :: es).countP (p ·.2) = es.countP (p ·.2) + (p e.2).toNat := by
      rw [List.countP_cons]
      cases p e.2 <;> rfl
    omega

section

variable (ha : Alike workers side max) (hmax : max.toNat < UInt32.size - 1)
  (h : Course workers id s es s')
include ha hmax h

theorem Course.countP_sent_le :
    es.countP (·.2.isSent id) ≤ s.weigh fun n pending => n.budget side max - pending.toNat := by
  refine le_trans (Nat.le_add_right _ _)
    (h.countP_add_le (fun e => Event.isSent_of_passes) ?_ ?_ ha)
  · intro n m a d hd hs
    have hpos := Negotiation.budget_pos max hd hs
    have hle := Bool.toNat_le ((Event.sent n m a).isSent id)
    rw [Bool.toNat_true, Bool.toNat_false]
    omega
  · rintro ctx n answer changed d rfl hd hm
    have hbudget := hm.budget_add_le hd hmax
    simp only [Event.isSent, Bool.toNat_false]
    omega

theorem Course.countP_sentIn_le {e : Duty} (he : Duty.of? side st = some e) :
    es.countP (·.2.isSentIn id st) ≤
      s.weigh fun n pending =>
        n.budgetIn side max st - if n.state = st then pending.toNat else 0 := by
  refine le_trans (Nat.le_add_right _ _)
    (h.countP_add_le (fun e => Event.isSentIn_of_passes st) ?_ ?_ ha)
  · intro n m a d hd hs
    by_cases hst : n.state = st
    · have hpos := sendsLeft_pos max n.stateCount
      have hle := Bool.toNat_le ((Event.sent n m a).isSentIn id st)
      rw [if_pos hst, if_pos hst, Bool.toNat_true, Bool.toNat_false, Negotiation.budgetIn,
        if_pos hst]
      omega
    · have hno : (Event.sent n m a).isSentIn id st = false := by simp [Event.isSentIn, hst]
      rw [hno, if_neg hst, if_neg hst, Bool.toNat_false, Nat.zero_add]
  · rintro ctx n answer changed d rfl hd hm
    have hbudget := hm.budgetIn_add_le hd hmax he
    simp only [Event.isSentIn, Bool.toNat_false]
    split_ifs at hbudget ⊢ <;> omega

omit hmax in
theorem Course.countP_sentIn_eq_zero (he : Duty.of? side st = none) :
    es.countP (·.2.isSentIn id st) = 0 := by
  have hle := h.countP_add_le (φ := fun _ _ => 0) (fun e => Event.isSentIn_of_passes st)
    (fun n m a d hd _ => ?_) (fun ctx n answer changed d _ _ _ => ?_) ha
  · have hzero : s.weigh (fun _ _ => 0) = 0 := Nat.le_zero.1 (weigh_le fun _ _ => le_refl 0)
    omega
  · have hst : n.state ≠ st := by
      rintro rfl
      rw [hd] at he
      cases he
    simp [Event.isSentIn, hst]
  · simp [Event.isSentIn]

theorem Course.countP_saved_le :
    es.countP (·.2.isSaved id) ≤ s.weigh fun n _ => n.saveBudget side max := by
  refine le_trans (Nat.le_add_right _ _)
    (h.countP_add_le (fun e => Event.isSaved_of_passes) ?_ ?_ ha)
  · intro n m a d hd hs
    simp [Event.isSaved]
  · rintro ctx n answer changed d rfl hd hm
    have hlt := hm.saveBudget_lt hd hmax
    have hle := Bool.toNat_le ((Event.saved n answer changed).isSaved id)
    omega

end

/-! ### Trying until it is often enough -/

/-- After `tries` messages sent in a state, none of which was taken, a negotiation that is in that
state was entered as often as an answer was recorded, and one that has yet to come there was not
sent a message in it. -/
def Tried (side : Side) (max : UInt32) (st : State) (s : Standing ι) (tries : ℕ) : Prop :=
  ∀ n, s.stored = some n →
    (n.state = st → n.stateCount.toNat + s.pending.isSome.toNat = tries + 1 ∧
      n.stateCount.toNat ≤ max.toNat + 1 ∧
      ∀ w a, s.pending = some (w, a) → a.isRetryable = true) ∧
    (side.leadsTo n.state st = true → tries = 0)

section

variable {e : Duty} {tries : ℕ} {x : ι × Event}

/-- What storing does to a negotiation that was tried so often: another try is counted, and the
state is left only when it was tried often enough. -/
theorem Tried.of_makes {ctx : Context} {d : Duty} {n changed : Negotiation}
    {answer : Option Answer} {w : ι} (hpolicy : ctx.policy.maxRetries = max)
    (hmax : max.toNat < UInt32.size - 1) (he : Duty.of? side st = some e)
    (ht : Tried side max st ⟨some n, answer.map (w, ·)⟩ tries)
    (hd : Duty.of? side n.state = some d) (hm : d.Makes ctx n answer changed) :
    Tried side max st (⟨some changed, none⟩ : Standing ι) tries ∧
      (n.state = st → e.sends = true →
        (changed.state = st ∧ tries ≤ max.toNat) ∨
        (changed.state = (if e = .sendTermination then .terminated else .terminating) ∧
          changed.state ≠ st ∧ tries = max.toNat + 1)) := by
  subst hpolicy
  obtain ⟨hin, hout⟩ := ht n rfl
  by_cases hst : n.state = st
  · subst hst
    obtain rfl : d = e := by rw [hd] at he; exact Option.some.inj he
    obtain ⟨hcount, hle, hpending⟩ := hin rfl
    cases answer with
    | none =>
      -- the duty is one that moves on at once
      rcases hm.cases hd with ⟨hs, -, hstate, -⟩ | ⟨-, a, ha, -⟩
      · have hne : changed.state ≠ n.state := hstate ▸ Duty.goal_ne hd
        have hlead := Duty.leadsTo_of_makes hm hd he hne
        refine ⟨?_, fun _ hs' => by rw [hs] at hs'; cases hs'⟩
        rintro _ ⟨rfl⟩
        refine ⟨fun h => absurd h hne, fun h => ?_⟩
        rw [Duty.not_leadsTo_self] at hlead
        exact absurd (hlead.2 h) Bool.false_ne_true
      · cases ha
    | some a =>
      have ha : a.isRetryable = true := hpending w a rfl
      simp only [Option.map_some, Option.isSome_some, Bool.toNat_true] at hcount
      rcases hm.retry_cases hd ha with ⟨hstate, hcount', hlt⟩ | ⟨hstate, hne, -, hlt⟩
      · -- another try
        have hnat := toNat_add_one hlt hmax
        rw [UInt32.lt_iff_toNat_lt] at hlt
        refine ⟨?_, fun _ _ => .inl ⟨hstate, by omega⟩⟩
        rintro _ ⟨rfl⟩
        rw [hstate, Duty.not_leadsTo_self, hcount', hnat]
        refine ⟨fun _ => ⟨?_, by omega, nofun⟩, nofun⟩
        simp only [Option.isSome_none, Bool.toNat_false]
        omega
      · -- it was tried often enough, and no way leads back
        rw [UInt32.lt_iff_toNat_lt] at hlt
        refine ⟨?_, fun _ _ => .inr ⟨hstate, hne, by omega⟩⟩
        have hlead := Duty.leadsTo_of_makes hm hd he hne
        rintro _ ⟨rfl⟩
        refine ⟨fun h => absurd h hne, fun h => ?_⟩
        rw [Duty.not_leadsTo_self] at hlead
        exact absurd (hlead.2 h) Bool.false_ne_true
  · refine ⟨?_, fun h => absurd h hst⟩
    rintro _ ⟨rfl⟩
    by_cases hsame : changed.state = n.state
    · rw [hsame]
      exact ⟨fun h => absurd h hst, hout⟩
    · -- the state is entered for the first time, or is not reached yet
      obtain ⟨henter, hlead⟩ := Duty.leadsTo_of_makes hm hd he hsame
      refine ⟨fun h => ?_, fun h => hout (hlead h)⟩
      obtain ⟨hl, hcount⟩ := henter h
      have h1 : (1 : UInt32).toNat = 1 := rfl
      rw [hcount, hout hl, h1]
      exact ⟨rfl, by omega, nofun⟩

theorem Next.tried (ha : Alike workers side max) (hmax : max.toNat < UInt32.size - 1)
    (he : Duty.of? side st = some e) (h : Next workers id s x s')
    (hretry : ∀ n m a, x.2 = .sent n m a → n.id = id → n.state = st → a.isRetryable = true)
    (ht : Tried side max st s tries) :
    Tried side max st s' (tries + (x.2.isSentIn id st).toNat) := by
  cases h with
  | other hne =>
    rw [Event.isSentIn_of_passes st fun hid => absurd hid hne]
    exact ht
  | ended =>
    rw [Event.isSentIn_of_passes st fun _ => ⟨_, _, rfl⟩]
    exact ht
  | @sent w n a d messageId now snd hid hd hplan =>
    obtain ⟨hin, hout⟩ := ht n rfl
    have hsent : (Event.sent n snd.message a).isSentIn id st = (n.state == st) := by
      simp [Event.isSentIn, hid]
    rw [hsent]
    rintro _ ⟨rfl⟩
    refine ⟨fun hst => ?_, fun hl => ?_⟩
    · obtain ⟨hcount, hle, -⟩ := hin hst
      refine ⟨?_, hle, ?_⟩
      · simp only [hst, beq_self_eq_true, Option.isSome_some, Bool.toNat_true]
        simp only [Option.isSome_none, Bool.toNat_false] at hcount
        omega
      · rintro w' a' ⟨rfl⟩
        exact hretry n snd.message a rfl hid hst
    · have hne : (n.state == st) = false := by
        rw [beq_eq_false_iff_ne]
        rintro rfl
        rw [Duty.not_leadsTo_self] at hl
        cases hl
      rw [hne, hout hl, Bool.toNat_false]
  | saved hid hd hm => exact (ht.of_makes (ha _).2 hmax he ((ha _).1 ▸ hd) hm).1

theorem Course.tried (ha : Alike workers side max) (hmax : max.toNat < UInt32.size - 1)
    (he : Duty.of? side st = some e) (h : Course workers id s es s')
    (hretry : ∀ x ∈ es, ∀ n m a, x.2 = .sent n m a → n.id = id → n.state = st →
      a.isRetryable = true)
    (ht : Tried side max st s tries) :
    Tried side max st s' (tries + es.countP (·.2.isSentIn id st)) := by
  induction h generalizing tries with
  | nil => exact ht
  | @cons s s₁ s₂ x es hn _ ih =>
    have ht₁ := hn.tried ha hmax he (hretry x List.mem_cons_self) ht
    have ht₂ := ih (fun y hy => hretry y (List.mem_cons_of_mem x hy)) ht₁
    have hcount : (x :: es).countP (·.2.isSentIn id st) =
        (x.2.isSentIn id st).toNat + es.countP (·.2.isSentIn id st) := by
      rw [List.countP_cons, Nat.add_comm]
      cases x.2.isSentIn id st <;> rfl
    rw [hcount, ← Nat.add_assoc]
    exact ht₂

/-- **A message is sent until it was sent often enough.**  If no message that was sent in a state
was taken, or refused for good, then a negotiation that was not entered into that state more than
once to begin with is stored in it again until the message was sent once and then again as often as
it may be, and then it is stored in the state that it is given up in. -/
theorem Course.stays_or_leaves {w : ι} {n changed : Negotiation} {answer : Option Answer}
    {after : List (ι × Event)} (ha : Alike workers side max) (hmax : max.toNat < UInt32.size - 1)
    (he : Duty.of? side st = some e) (hs : e.sends = true)
    (h : Course workers id s (es ++ (w, .saved n answer changed) :: after) s')
    (hretry : ∀ x ∈ es, ∀ n m a, x.2 = .sent n m a → n.id = id → n.state = st →
      a.isRetryable = true)
    (ht : Tried side max st s 0) (hid : n.id = id) (hst : n.state = st) :
    (changed.state = st ∧ es.countP (·.2.isSentIn id st) ≤ max.toNat) ∨
    (changed.state = (if e = .sendTermination then .terminated else .terminating) ∧
      changed.state ≠ st ∧ es.countP (·.2.isSentIn id st) = max.toNat + 1) := by
  obtain ⟨s₁, h₁, h₂⟩ := h.split
  have ht₁ := h₁.tried ha hmax he hretry ht
  rw [Nat.zero_add] at ht₁
  cases h₂ with
  | cons hn _ =>
    cases hn with
    | other hne => exact absurd hid hne
    | saved _ hd hm => exact (ht₁.of_makes (ha w).2 hmax he ((ha w).1 ▸ hd) hm).2 hst hs

end

end Standing

/-! ### What counts as acting on a negotiation -/

theorem Member.Goes.countP_isProcessed {ctx : Context} {d : Duty} {holder : String} {c : Chance}
    {l l' : Ledger} {m m' : Member} {es : List Event} (h : Goes ctx d holder c l m m' l' es)
    (id : String) : es.countP (·.isProcessed id) = es.countP (·.isSaved id) := by
  cases h with
  | begins | passes | sends | finds | delays | rests => rfl
  | releases hp | misses hp => simp [Event.isProcessed, Event.isSaved, hp]
  | stores => simp [Event.isProcessed, Event.isSaved, List.countP_cons]

namespace Workshop

variable {ι : Type} [DecidableEq ι] {workers : ι → Worker} {W : Workshop ι}

theorem Orderly.countP_isProcessed_take (ho : W.Orderly workers) (t : Turn ι) (id : String) :
    (W.events workers t).countP (·.2.isProcessed id) =
      (W.events workers t).countP (·.2.isSaved id) := by
  rcases take_cases workers W t with
    ⟨-, he⟩ | ⟨-, he⟩ | ⟨p, ps, -, -, -, he⟩ | ⟨place, j, -, hj, -, he⟩
  · rw [he]; rfl
  · rw [he]; rfl
  · rw [he]; rfl
  · obtain ⟨d, -, -, hgoes⟩ := ho.goes hj
    rw [he, List.countP_map, List.countP_map]
    exact hgoes.countP_isProcessed id

/-- The number of times that a negotiation is acted on is the number of times that it is stored. -/
theorem Orderly.countP_isProcessed (ho : W.Orderly workers)
    (hinj : Function.Injective fun w => (workers w).holder) {ts : List (Turn ι)}
    (ht : W.Timely workers ts) (id : String) :
    (W.history workers ts).countP (·.2.isProcessed id) =
      (W.history workers ts).countP (·.2.isSaved id) := by
  induction ts generalizing W with
  | nil => rfl
  | cons t ts ih =>
    rw [history, List.countP_append, List.countP_append, ho.countP_isProcessed_take,
      ih (ho.take hinj ht.1) ht.2]

/-- **Bounded sending.**  A worker that has a ledger to itself sends about a negotiation no more
messages in a state than the first and as many more as it may, and twice as many at all, and it acts
on it once more at most, whatever the clocks show and whatever the answers are.  If the negotiation
was entered into a state once, and no message that is sent there is taken or refused for good, then
it stays there until exactly so many messages were sent, and goes where it is given up. -/
theorem sends_bounded (k : Worker)
    (hmax : k.manager.context.policy.maxRetries.toNat < UInt32.size - 1) (l : Ledger) (id : String)
    (hcount : ∀ n, l.find? id = some n → 1 ≤ n.stateCount) (ts : List (Turn Unit)) :
    let max := k.manager.context.policy.maxRetries.toNat
    let history := (opening l).history (fun _ => k) ts
    (∀ st, history.countP (·.2.isSentIn id st) ≤ max + 1) ∧
    history.countP (·.2.isSent id) ≤ 2 * (max + 1) ∧
    history.countP (·.2.isProcessed id) ≤ 2 * (max + 1) + 1 ∧
    ∀ st d, Duty.of? k.manager.side st = some d → d.sends = true →
      (∀ n, l.find? id = some n → n.state = st → n.stateCount = 1) →
      ∀ before n answer changed after,
        history = before ++ ((), .saved n answer changed) :: after → n.id = id → n.state = st →
        (∀ x ∈ before, ∀ n m a, x.2 = .sent n m a → n.id = id → n.state = st →
          a.isRetryable = true) →
        (changed.state = st ∧ before.countP (·.2.isSentIn id st) ≤ max) ∨
        (changed.state = (if st = .terminating then .terminated else .terminating) ∧
          changed.state ≠ st ∧ before.countP (·.2.isSentIn id st) = max + 1) := by
  intro max history
  have hinj : Function.Injective fun _ : Unit => k.holder := fun _ _ _ => rfl
  have ht := timely_of_subsingleton (fun _ : Unit => k) (opening l) ts
  have ho : (opening l : Workshop Unit).Orderly fun _ => k := orderly_opening l
  have ha : Alike (fun _ : Unit => k) k.manager.side k.manager.context.policy.maxRetries :=
    fun _ => ⟨rfl, rfl⟩
  obtain ⟨s, hc, -⟩ := ho.course_run hinj ht (shows_opening l id)
  refine ⟨fun st => ?_, ?_, ?_, ?_⟩
  · -- the messages of one state are paid for by its budget, those of all states by the whole one
    cases he : Duty.of? k.manager.side st with
    | none => rw [hc.countP_sentIn_eq_zero ha he]; exact Nat.zero_le _
    | some e =>
      refine (hc.countP_sentIn_le ha hmax he).trans (Standing.weigh_le fun n hn => ?_)
      exact (Nat.sub_le _ _).trans (Negotiation.budgetIn_le _ _ st (hcount n hn))
  · refine (hc.countP_sent_le ha hmax).trans (Standing.weigh_le fun n hn => ?_)
    exact (Nat.sub_le _ _).trans (Negotiation.budget_le _ _ (hcount n hn))
  · rw [ho.countP_isProcessed hinj ht id]
    refine (hc.countP_saved_le ha hmax).trans (Standing.weigh_le fun n hn => ?_)
    exact Negotiation.saveBudget_le _ _ (hcount n hn)
  · intro st d hd hs hone before n answer changed after hsplit hid hst hretry
    have hstart : Standing.Tried k.manager.side k.manager.context.policy.maxRetries st
        (⟨l.find? id, none⟩ : Standing Unit) 0 := by
      refine fun n hn => ⟨fun hst => ?_, fun _ => rfl⟩
      have h1 : (1 : UInt32).toNat = 1 := rfl
      rw [hone n hn hst, h1]
      exact ⟨rfl, by omega, nofun⟩
    rw [show (opening l).history (fun _ => k) ts = _ from hsplit] at hc
    have hgoal := hc.stays_or_leaves ha hmax hd hs hretry hstart hid hst
    have hif : (if d = .sendTermination then State.terminated else .terminating) =
        if st = .terminating then .terminated else .terminating :=
      if_congr (Duty.eq_sendTermination_iff hd) rfl rfl
    rwa [hif] at hgoal

/-- A provider that sends a message again once. -/
def hasty : Worker := ⟨"worker-a", 60000, .provider, ⟨"provider", { maxRetries := 1 }, 5, true⟩⟩

/-- A round in which an offer is handled, sent without being taken, and stored. -/
def hastyRound (now : Moment) : List (Turn Unit) :=
  let acts : List Act :=
    .start :: .lease :: (List.replicate 4 (.proceed 0) ++ List.replicate 5 .lease)
  acts.map fun act => ⟨(), act, now, now, "message-1", .error default⟩

theorem sends_bounded_hasty :
    let history := (opening Ledger.specimen).history (fun _ => hasty)
      (hastyRound 2000 ++ hastyRound 9000)
    hasty.manager.context.policy.maxRetries.toNat < UInt32.size - 1 ∧
    (∀ n, Ledger.specimen.find? "negotiation-1" = some n → 1 ≤ n.stateCount) ∧
    (∀ st, history.countP (·.2.isSentIn "negotiation-1" st) ≤ 2) ∧
    history.countP (·.2.isSent "negotiation-1") ≤ 4 ∧
    history.countP (·.2.isProcessed "negotiation-1") ≤ 5 ∧
    (∀ n, Ledger.specimen.find? "negotiation-1" = some n → n.state = .offering →
      n.stateCount = 1) ∧
    ∃ before n answer changed after,
      (history = before ++ ((), .saved n answer changed) :: after ∧ n.id = "negotiation-1" ∧
        n.state = .offering ∧ ∀ x ∈ before, ∀ n m a, x.2 = .sent n m a → a.isRetryable = true) ∧
      changed.state = .terminating ∧ changed.state ≠ .offering ∧
      before.countP (·.2.isSentIn "negotiation-1" .offering) = 2 := by
  have hone : ∀ n, Ledger.specimen.find? "negotiation-1" = some n → n.stateCount = 1 := by
    intro n hn
    have hfind : Ledger.specimen.find? "negotiation-1" = some .specimen := by decide +kernel
    obtain rfl : .specimen = n := by rw [hfind] at hn; exact Option.some.inj hn
    rfl
  have hcount : ∀ n, Ledger.specimen.find? "negotiation-1" = some n → 1 ≤ n.stateCount :=
    fun n hn => by rw [hone n hn]; decide
  obtain ⟨hin, hall, hprocessed, hlast⟩ := sends_bounded hasty (by decide) Ledger.specimen
    "negotiation-1" hcount (hastyRound 2000 ++ hastyRound 9000)
  -- the offer is sent twice, and the fifth event is that it is given up
  let history := (opening Ledger.specimen).history (fun _ => hasty)
    (hastyRound 2000 ++ hastyRound 9000)
  have hfifth : history[4]?.any (·.2.isLeft "negotiation-1" .offering .terminating) := by
    decide +kernel
  have hopen : ∀ x ∈ history.take 4, x.2.isOpen := by decide +kernel
  obtain ⟨⟨_, e⟩, hx, hleft⟩ := (Option.any_eq_true _ _).1 hfifth
  obtain ⟨n, answer, changed, rfl, hid, hst, hchanged⟩ := Event.exists_of_isLeft hleft
  have hsplit : history = history.take 4 ++ ((), .saved n answer changed) :: history.drop 5 := by
    obtain ⟨hlt, hx⟩ := List.getElem?_eq_some_iff.1 hx
    rw [← hx, List.getElem_cons_drop, List.take_append_drop]
  have hretry (x) (hx : x ∈ history.take 4) (n m a) (he : x.2 = .sent n m a) :
      a.isRetryable = true := by
    simpa only [he, Event.isOpen] using hopen x hx
  have hend := (hlast .offering .sendOffer rfl rfl (fun n hn _ => hone n hn) _ _ _ _ _ hsplit hid
    hst fun x hx n m a he _ _ => hretry x hx n m a he).resolve_left
      fun h => absurd (hchanged ▸ h.1) (by decide)
  exact ⟨by decide, hcount, hin, hall, hprocessed, fun n hn _ => hone n hn, _, _, _, _, _,
    ⟨hsplit, hid, hst, hretry⟩, hend⟩

end Workshop

end Parley
