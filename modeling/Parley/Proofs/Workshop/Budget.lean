import Parley.Proofs.Workshop.Course

/-!
# The budget of a negotiation

A side enters the states in which it has something to do in an order of its own, and each time a
message is not taken the state it is in is entered once more.  So every negotiation comes with a
budget of messages, which shrinks whenever one is sent.

* `Side.leadsTo` is that order: `leadsTo_of_makes` says that no duty goes against it.
* `record_cases`, `retry_cases` : what an answer makes of a negotiation.
* `sendsLeft` is the number of messages that may still be sent in a state entered so many times.
* `budget`, `budgetIn` and `saveBudget` are what is left of a negotiation's budget: of messages at
  all, of messages in one state, and of times that it is stored; `budget_add_le`, `budgetIn_add_le`
  and `saveBudget_lt` say what storing it costs.
-/

namespace Parley

/-! ### Answers -/

/-- The message was not taken, but may be sent again. -/
def Answer.isRetryable : Answer → Bool
  | .ok (.succeeded _) => false
  | .ok (.failed f) => !f.isFatal
  | .error _ => true

namespace Attempt

variable (policy : RetryPolicy) (count : UInt32)

theorem retryable_cases (cause : String) :
    (retryable policy count cause = .failure cause ∧ ¬ policy.maxRetries < count) ∨
    (retryable policy count cause = .exhausted cause ∧ policy.maxRetries < count) := by
  unfold retryable RetryPolicy.isExhausted
  by_cases h : policy.maxRetries < count
  · exact .inr ⟨by simp [h], h⟩
  · exact .inl ⟨by simp [h], h⟩

theorem route_cases (a : Answer) :
    (a.isRetryable = false ∧
      ((∃ content, route policy count a = .success content) ∨
        ∃ f, route policy count a = .fatal f)) ∨
    (a.isRetryable = true ∧ ∃ cause,
      (route policy count a = .failure cause ∧ ¬ policy.maxRetries < count) ∨
      (route policy count a = .exhausted cause ∧ policy.maxRetries < count)) := by
  match a with
  | .ok (.succeeded content) => exact .inl ⟨rfl, .inl ⟨content, rfl⟩⟩
  | .ok (.failed f) =>
    cases hf : f.isFatal with
    | true => exact .inl ⟨by simp [Answer.isRetryable, hf], .inr ⟨f, by simp [route, hf]⟩⟩
    | false =>
      refine .inr ⟨by simp [Answer.isRetryable, hf], f.detail, ?_⟩
      simpa [route, hf] using retryable_cases policy count f.detail
  | .error e => exact .inr ⟨rfl, e.message, retryable_cases policy count e.message⟩

end Attempt

/-! ### The order of the states -/

/-- A side may come from a state to another one in which it has something to do. -/
def Side.leadsTo (side : Side) (st target : State) : Bool :=
  match Duty.of? side st with
  | none => false
  | some d => d ≠ .sendTermination && (target == .terminating || !d.sends && target == d.goal)

namespace Duty

variable {side : Side} {ctx : Context} {d e : Duty} {n changed : Negotiation}
  {answer : Option Answer} {target : State}

theorem leadsTo_iff (hd : of? side n.state = some d) :
    side.leadsTo n.state target = true ↔ d ≠ .sendTermination ∧
      (target = .terminating ∨ d.sends = false ∧ target = d.goal) := by
  simp [Side.leadsTo, hd]

theorem not_leadsTo_self (side : Side) (st : State) : side.leadsTo st st = false := by
  cases side <;> cases st <;> rfl

/-- What an answer that leaves room for another try makes of a negotiation: that other try, or the
next state on the way to the end. -/
theorem Makes.retry_cases {a : Answer} (h : d.Makes ctx n (some a) changed)
    (hd : of? side n.state = some d) (ha : a.isRetryable = true) :
    (changed.state = n.state ∧ changed.stateCount = n.stateCount + 1 ∧
      ¬ ctx.policy.maxRetries < n.stateCount) ∨
    (changed.state = (if d = .sendTermination then .terminated else .terminating) ∧
      changed.state ≠ n.state ∧ changed.stateCount = 1 ∧
      ctx.policy.maxRetries < n.stateCount) := by
  rcases h.cases hd with ⟨-, hnone, -⟩ | ⟨-, a', he, hstate, hcount⟩
  · cases hnone
  obtain rfl : a = a' := Option.some.inj he
  rcases Attempt.route_cases ctx.policy n.stateCount a with
    ⟨hf, -⟩ | ⟨-, cause, ⟨hroute, hlt⟩ | ⟨hroute, hlt⟩⟩
  · rw [ha] at hf; cases hf
  · rw [hroute] at hstate
    have hstate : changed.state = n.state := hstate
    rw [if_pos hstate] at hcount
    exact .inl ⟨hstate, hcount, hlt⟩
  · rw [hroute] at hstate
    have hstate : changed.state = if d = .sendTermination then .terminated else .terminating :=
      hstate
    have hne : changed.state ≠ n.state := by
      rw [hstate]
      split_ifs with ht
      · rw [(eq_sendTermination_iff hd).1 ht]; decide
      · exact fun he => ht ((eq_sendTermination_iff hd).2 he.symm)
    rw [if_neg hne] at hcount
    exact .inr ⟨hstate, hne, hcount, hlt⟩

/-- What an answer makes of a negotiation: an end of this side's work on it, another try, or the
first try to terminate it. -/
theorem Makes.record_cases (h : d.Makes ctx n answer changed) (hd : of? side n.state = some d)
    (hs : d.sends = true) :
    (of? side changed.state = none) ∨
    (changed.state = n.state ∧ changed.stateCount = n.stateCount + 1 ∧
      ¬ ctx.policy.maxRetries < n.stateCount) ∨
    (d ≠ .sendTermination ∧ changed.state = .terminating ∧ changed.stateCount = 1 ∧
      ctx.policy.maxRetries < n.stateCount) := by
  rcases h.cases hd with ⟨hs', -⟩ | ⟨-, a, rfl, hstate, -⟩
  · rw [hs] at hs'; cases hs'
  rcases Attempt.route_cases ctx.policy n.stateCount a with
    ⟨-, ⟨content, hroute⟩ | ⟨f, hroute⟩⟩ | ⟨ha, -⟩
  · rw [hroute] at hstate
    exact .inl (hstate ▸ of?_goal_of_sends hd hs)
  · rw [hroute] at hstate
    exact .inl (hstate ▸ of?_terminated side)
  · rcases h.retry_cases hd ha with hsame | ⟨hstate, -, hcount, hlt⟩
    · exact .inr (.inl hsame)
    · split_ifs at hstate with ht
      · exact .inl (hstate ▸ of?_terminated side)
      · exact .inr (.inr ⟨ht, hstate, hcount, hlt⟩)

/-- No duty goes against the order of the states, and a state that is entered anew was entered
once. -/
theorem leadsTo_of_makes (h : d.Makes ctx n answer changed) (hd : of? side n.state = some d)
    (he : of? side target = some e) (hne : changed.state ≠ n.state) :
    (changed.state = target → side.leadsTo n.state target = true ∧ changed.stateCount = 1) ∧
    (side.leadsTo changed.state target = true → side.leadsTo n.state target = true) := by
  rw [leadsTo_iff hd]
  cases hs : d.sends with
  | false =>
    have ht : d ≠ .sendTermination := by rintro rfl; cases hs
    rcases h.cases hd with ⟨-, -, hstate, hcount⟩ | ⟨hs', -⟩
    · obtain ⟨f, hf, hfs, hft⟩ := of?_goal_of_not_sends hd hs
      rw [hstate]
      refine ⟨fun hg => ⟨⟨ht, .inr ⟨rfl, hg.symm⟩⟩, hcount⟩, fun hl => ⟨ht, ?_⟩⟩
      simp only [Side.leadsTo, hf, hfs] at hl
      simp at hl
      exact .inl hl.2
    · rw [hs] at hs'; cases hs'
  | true =>
    rcases h.record_cases hd hs with hnone | ⟨hsame, -⟩ | ⟨ht, hstate, hcount, -⟩
    · refine ⟨fun hg => ?_, fun hl => ?_⟩
      · rw [hg, he] at hnone
        cases hnone
      · simp [Side.leadsTo, hnone] at hl
    · exact absurd hsame hne
    · refine ⟨fun hg => ⟨⟨ht, .inl (hg.symm.trans hstate)⟩, hcount⟩, fun hl => ?_⟩
      rw [hstate] at hl
      simp [Side.leadsTo, of?_terminating] at hl

end Duty

/-! ### Budgets -/

/-- How many messages may still be sent in a state that was entered `count` times. -/
def sendsLeft (max count : UInt32) : ℕ :=
  if max < count then 1 else max.toNat + 2 - count.toNat

section

variable {max count : UInt32}

theorem sendsLeft_pos (max count : UInt32) : 0 < sendsLeft max count := by
  unfold sendsLeft
  split_ifs with h
  · exact Nat.one_pos
  · rw [UInt32.lt_iff_toNat_lt] at h
    omega

theorem sendsLeft_le (max : UInt32) (h : 1 ≤ count) : sendsLeft max count ≤ max.toNat + 1 := by
  have h1 : 1 ≤ count.toNat := UInt32.le_iff_toNat_le.1 h
  unfold sendsLeft
  split_ifs <;> omega

theorem sendsLeft_of_lt (h : max < count) : sendsLeft max count = 1 := if_pos h

theorem sendsLeft_one (max : UInt32) : sendsLeft max 1 = max.toNat + 1 := by
  have h1 : (1 : UInt32).toNat = 1 := rfl
  unfold sendsLeft
  split_ifs with h
  · rw [UInt32.lt_iff_toNat_lt] at h
    omega
  · omega

theorem toNat_add_one (h : ¬ max < count) (hmax : max.toNat < UInt32.size - 1) :
    (count + 1).toNat = count.toNat + 1 := by
  rw [UInt32.lt_iff_toNat_lt] at h
  rw [UInt32.toNat_add]
  have h1 : (1 : UInt32).toNat = 1 := rfl
  have hsize : UInt32.size = 4294967296 := rfl
  omega

theorem sendsLeft_add_one (h : ¬ max < count) (hmax : max.toNat < UInt32.size - 1) :
    sendsLeft max (count + 1) + 1 = sendsLeft max count := by
  have hcount := toNat_add_one h hmax
  unfold sendsLeft
  simp only [UInt32.lt_iff_toNat_lt] at h ⊢
  split_ifs <;> omega

end

namespace Negotiation

variable (side : Side) (max : UInt32) (st : State)

/-- How many messages may still be sent about a negotiation. -/
def budget (n : Negotiation) : ℕ :=
  match Duty.of? side n.state with
  | none => 0
  | some d =>
    if d = .sendTermination then sendsLeft max n.stateCount
    else if d.sends then sendsLeft max n.stateCount + (max.toNat + 1)
    else 2 * (max.toNat + 1)

/-- How many messages may still be sent about a negotiation in a state. -/
def budgetIn (n : Negotiation) : ℕ :=
  if n.state = st then sendsLeft max n.stateCount
  else if side.leadsTo n.state st then max.toNat + 1 else 0

/-- How many times a negotiation may still be stored. -/
def saveBudget (n : Negotiation) : ℕ :=
  match Duty.of? side n.state with
  | none => 0
  | some d => n.budget side max + if d.sends then 0 else 1

variable {n : Negotiation} {d : Duty}

theorem budget_le (h : 1 ≤ n.stateCount) : n.budget side max ≤ 2 * (max.toNat + 1) := by
  have hleft := sendsLeft_le max h
  unfold budget
  split
  · omega
  · split_ifs <;> omega

theorem budgetIn_le (h : 1 ≤ n.stateCount) : n.budgetIn side max st ≤ max.toNat + 1 := by
  have hleft := sendsLeft_le max h
  unfold budgetIn
  split_ifs <;> omega

theorem saveBudget_le (h : 1 ≤ n.stateCount) :
    n.saveBudget side max ≤ 2 * (max.toNat + 1) + 1 := by
  have hbudget := budget_le side max h
  unfold saveBudget
  split
  · omega
  · split_ifs <;> omega

variable {side} in
theorem budget_pos (hd : Duty.of? side n.state = some d) (hs : d.sends = true) :
    0 < n.budget side max := by
  have hleft := sendsLeft_pos max n.stateCount
  unfold budget
  rw [hd]
  simp only [hs, if_true]
  split_ifs <;> omega

end Negotiation

namespace Duty

variable {side : Side} {ctx : Context} {d e : Duty} {n changed : Negotiation}
  {answer : Option Answer} {st : State}

section

variable (h : d.Makes ctx n answer changed) (hd : of? side n.state = some d)
  (hmax : ctx.policy.maxRetries.toNat < UInt32.size - 1)
include h hd hmax

/-- Recording an answer takes one message away at least, and moving on takes none. -/
theorem Makes.budget_add_le :
    changed.budget side ctx.policy.maxRetries + answer.isSome.toNat ≤
      n.budget side ctx.policy.maxRetries := by
  rcases h.cases hd with ⟨hs, rfl, hstate, hcount⟩ | ⟨hs, a, rfl, -⟩
  · -- what follows is a first entry into a state in which a message is sent
    obtain ⟨f, hf, hfs, hft⟩ := of?_goal_of_not_sends hd hs
    have ht : d ≠ .sendTermination := by rintro rfl; cases hs
    have hone := sendsLeft_one ctx.policy.maxRetries
    have hchanged : changed.budget side ctx.policy.maxRetries =
        sendsLeft ctx.policy.maxRetries 1 + (ctx.policy.maxRetries.toNat + 1) := by
      rw [Negotiation.budget, hstate, hf, hcount]
      simp only [hft, if_false, hfs, if_true]
    have hn : n.budget side ctx.policy.maxRetries =
        2 * (ctx.policy.maxRetries.toNat + 1) := by
      rw [Negotiation.budget, hd]
      simp only [ht, if_false, hs, Bool.false_eq_true]
    rw [hchanged, hn, Option.isSome_none, Bool.toNat_false]
    omega
  · have hpos := Negotiation.budget_pos ctx.policy.maxRetries hd hs
    rw [Option.isSome_some, Bool.toNat_true]
    rcases h.record_cases hd hs with hnone | ⟨hstate, hcount, hlt⟩ | ⟨ht, hstate, hcount, hlt⟩
    · have hchanged : changed.budget side ctx.policy.maxRetries = 0 := by
        rw [Negotiation.budget, hnone]
      omega
    · -- another try
      have hleft := sendsLeft_add_one hlt hmax
      unfold Negotiation.budget
      rw [hstate, hcount, hd]
      simp only [hs, if_true]
      split_ifs <;> omega
    · -- the last try: what is left is to tell the other side
      have hleft := sendsLeft_of_lt hlt
      have hone := sendsLeft_one ctx.policy.maxRetries
      unfold Negotiation.budget
      rw [hstate, hcount, hd, of?_terminating]
      simp only [ht, hs, if_true, if_false]
      omega

theorem Makes.saveBudget_lt :
    changed.saveBudget side ctx.policy.maxRetries < n.saveBudget side ctx.policy.maxRetries := by
  have hbudget := h.budget_add_le hd hmax
  have hn : n.saveBudget side ctx.policy.maxRetries =
      n.budget side ctx.policy.maxRetries + if d.sends then 0 else 1 := by
    rw [Negotiation.saveBudget, hd]
  -- a duty is followed by one that sends, or by none
  have hchanged : changed.saveBudget side ctx.policy.maxRetries =
      changed.budget side ctx.policy.maxRetries := by
    have key {f : Duty} (hf : of? side changed.state = some f) (hfs : f.sends = true) :
        changed.saveBudget side ctx.policy.maxRetries =
          changed.budget side ctx.policy.maxRetries := by
      rw [Negotiation.saveBudget, hf]
      simp only [hfs, if_true, Nat.add_zero]
    rcases h.cases hd with ⟨hs, -, hstate, -⟩ | ⟨hs, -⟩
    · obtain ⟨f, hf, hfs, -⟩ := of?_goal_of_not_sends hd hs
      exact key (hstate ▸ hf) hfs
    · rcases h.record_cases hd hs with hnone | ⟨hstate, -⟩ | ⟨-, hstate, -⟩
      · rw [Negotiation.saveBudget, Negotiation.budget, hnone]
      · exact key (hstate ▸ hd) hs
      · exact key (hstate ▸ of?_terminating side) rfl
  rw [hn, hchanged]
  rcases h.cases hd with ⟨hs, rfl, -⟩ | ⟨hs, a, rfl, -⟩
  · simp only [hs, Bool.false_eq_true, if_false]
    simp only [Option.isSome_none, Bool.toNat_false] at hbudget
    omega
  · simp only [Option.isSome_some, Bool.toNat_true] at hbudget
    simp only [hs, if_true]
    omega

theorem Makes.budgetIn_add_le (he : of? side st = some e) :
    changed.budgetIn side ctx.policy.maxRetries st +
        (if n.state = st then answer.isSome.toNat else 0) ≤
      n.budgetIn side ctx.policy.maxRetries st := by
  by_cases hsame : changed.state = n.state
  · -- another try
    rcases h.cases hd with ⟨hs, -, hstate, -⟩ | ⟨hs, a, rfl, -⟩
    · exact absurd (hstate.symm.trans hsame) (goal_ne hd)
    · rcases h.record_cases hd hs with hnone | ⟨hstate, hcount, hlt⟩ | ⟨ht, hstate, -⟩
      · rw [hsame, hd] at hnone; cases hnone
      · have hleft := sendsLeft_add_one hlt hmax
        unfold Negotiation.budgetIn
        rw [hstate, hcount, Option.isSome_some, Bool.toNat_true]
        split_ifs <;> omega
      · exact absurd ((eq_sendTermination_iff hd).2 (hsame.symm.trans hstate)) ht
  · obtain ⟨henter, hlead⟩ := leadsTo_of_makes h hd he hsame
    by_cases hst : n.state = st
    · -- the state is left for good
      have hchanged : changed.budgetIn side ctx.policy.maxRetries st = 0 := by
        have hself := not_leadsTo_self side n.state
        have h₁ : changed.state ≠ st := fun hc => hsame (hc.trans hst.symm)
        have h₂ : ¬ side.leadsTo changed.state st = true := by
          intro hc
          have hc := hlead hc
          rw [← hst, hself] at hc
          cases hc
        rw [Negotiation.budgetIn, if_neg h₁, if_neg h₂]
      have hpos := sendsLeft_pos ctx.policy.maxRetries n.stateCount
      have hle : answer.isSome.toNat ≤ 1 := Bool.toNat_le _
      rw [hchanged, Negotiation.budgetIn, if_pos hst, if_pos hst]
      omega
    · have hone := sendsLeft_one ctx.policy.maxRetries
      rw [if_neg hst, Nat.add_zero, Negotiation.budgetIn, Negotiation.budgetIn, if_neg hst]
      by_cases hc : changed.state = st
      · obtain ⟨hl, hcount⟩ := henter hc
        rw [if_pos hc, if_pos hl, hcount, hone]
      · rw [if_neg hc]
        by_cases hl : side.leadsTo changed.state st = true
        · rw [if_pos hl, if_pos (hlead hl)]
        · rw [if_neg hl]
          exact Nat.zero_le _

end

end Duty

end Parley
