import Parley.Proofs.Workshop.Budget
import Parley.Proofs.Workshop.Shifts

/-!
# Reasons for termination

A negotiation that is being terminated carries the reason for it.  What happens to the reason while
the other side is told about it depends on the answer: where nothing is noted it stays, where the
message was sent often enough the failure is noted behind it, but a refusal for good takes its
place.

* `Duty.Makes.detail_cases` : what an answer makes of the detail of a negotiation, by the way the
  answer takes.
* `Negotiation.Terminates` : how a termination stands, after the refusals that were recorded.
* `Next.terminates`, `Course.terminates` : the next thing that happens, and a whole course, leave it
  at one of the ways in which it can stand.
* `reason_kept_iff` : whoever works on the ledger, the reason is kept iff every refusal for good
  that is recorded begins with it.
* `refusal_replaces_reason` : one refusal is enough to lose it.

There is at most one refusal to record, since the negotiation is over with it.  This is why the
proof follows the refusals together with the negotiation.
-/

namespace Parley

/-- The text begins with the reason. -/
def Continues (reason text : String) : Prop := ∃ rest, text = reason ++ rest

theorem continues_refl (reason : String) : Continues reason reason :=
  ⟨"", String.append_empty.symm⟩

theorem Continues.append {reason text : String} (h : Continues reason text) (more : String) :
    Continues reason (text ++ more) := by
  obtain ⟨rest, rfl⟩ := h
  exact ⟨rest ++ more, String.append_assoc ..⟩

theorem Continues.appendDetail {reason text : String} (h : Continues reason text)
    (detail : String) : Continues reason (appendDetail (some text) detail) := by
  unfold Parley.appendDetail
  by_cases he : text.isEmpty
  · -- an empty text continues the empty reason only, and so does any other one
    obtain ⟨rest, rfl⟩ := h
    obtain rfl : reason = "" := by
      have hempty := String.isEmpty_iff.1 he
      exact (String.append_eq_empty_iff.1 hempty).1
    simpa only [he, if_true] using ⟨detail, String.empty_append.symm⟩
  · simp only [he, Bool.false_eq_true, if_false]
    rw [String.append_assoc]
    exact h.append _

/-- The detail of the negotiation begins with the reason. -/
def Negotiation.Cites (n : Negotiation) (reason : String) : Prop :=
  ∃ text, n.errorDetail = some text ∧ Continues reason text

/-! ### What answers make of a detail -/

/-- The refusal for good that an answer is, if it is one. -/
def Answer.refusal? : Answer → Option Failure
  | .ok (.failed f) => if f.isFatal then some f else none
  | _ => none

/-- The refusal for good that is recorded. -/
def Route.refusal? : Route → Option Failure
  | .fatal f => some f
  | _ => none

theorem Attempt.refusal?_route (policy : RetryPolicy) (count : UInt32) (a : Answer) :
    (route policy count a).refusal? = a.refusal? := by
  have hretryable (cause : String) : (retryable policy count cause).refusal? = none := by
    rcases retryable_cases policy count cause with ⟨h, -⟩ | ⟨h, -⟩ <;> rw [h] <;> rfl
  match a with
  | .ok (.succeeded content) => rfl
  | .ok (.failed f) =>
    cases hf : f.isFatal with
    | true => simp [route, Answer.refusal?, Route.refusal?, hf]
    | false => simp [route, Answer.refusal?, hretryable, hf]
  | .error e => exact hretryable e.message

namespace Duty

variable {ctx : Context} {side : Side} {d : Duty} {n changed : Negotiation}
  {answer : Option Answer}

/-- **What becomes of the detail of a negotiation** by way of a duty: it stays, or a refusal for
good takes its place, or the failure is noted, behind the detail that is there if that is the reason
for which the negotiation is being terminated. -/
theorem Makes.detail_cases (h : d.Makes ctx n answer changed) (hd : of? side n.state = some d) :
    (answer.bind Answer.refusal? = none ∧ changed.errorDetail = n.errorDetail) ∨
    (∃ f, answer.bind Answer.refusal? = some f ∧ changed.state = .terminated ∧
      changed.errorDetail = some f.detail) ∨
    (answer.bind Answer.refusal? = none ∧ ∃ detail,
      changed.state = (if d = .sendTermination then .terminated else .terminating) ∧
      changed.errorDetail =
        some (if d = .sendTermination then appendDetail n.errorDetail detail else detail)) := by
  cases h with
  | advance hs h => exact .inl ⟨rfl, Negotiation.errorDetail_of_moveTo h⟩
  | @record messageId now later s a changed hp h =>
    obtain ⟨moved, m, hmoved, hsettle, hm⟩ := settle_cases hd hp rfl ctx.policy later a
    obtain rfl : changed = m := by rw [h] at hsettle; exact Except.ok.inj hsettle
    have hkept := Negotiation.errorDetail_of_moveTo hmoved
    have hstate := Negotiation.state_of_moveTo hmoved
    have hrefusal := Attempt.refusal?_route ctx.policy n.stateCount a
    show (a.refusal? = none ∧ _) ∨ (∃ f, a.refusal? = some f ∧ _) ∨ (a.refusal? = none ∧ _)
    rw [← hrefusal]
    cases hr : Attempt.route ctx.policy n.stateCount a with
    | success content =>
      rw [hr] at hm
      replace hm : changed = s.sign moved := hm
      exact .inl ⟨rfl, by rw [hm, Sending.errorDetail_sign, hkept]⟩
    | failure cause =>
      rw [hr] at hm
      replace hm : changed = moved := hm
      exact .inl ⟨rfl, by rw [hm, hkept]⟩
    | fatal f =>
      rw [hr] at hm hstate
      replace hm : changed = moved.withDetail (some f.detail) := hm
      refine .inr (.inl ⟨f, rfl, ?_, ?_⟩)
      · rw [hm, Negotiation.state_withDetail, hstate]
        rfl
      · rw [hm, Negotiation.errorDetail_withDetail]
        rfl
    | exhausted cause =>
      -- a notice of termination is the only message that nobody is told about any more
      obtain ⟨-, -, hnotifies⟩ := sends_of_plan hp
      rw [hr] at hm hstate
      replace hm : changed =
          moved.withDetail (s.note? n.side.counterpartRole n (.exhausted cause)) := hm
      refine .inr (.inr ⟨rfl, exhaustedDetail s.message.kindName n.side.counterpartRole cause,
        ?_, ?_⟩)
      · rw [hm, Negotiation.state_withDetail, hstate]
        rfl
      · rw [hm, Negotiation.errorDetail_withDetail, Sending.note?, hnotifies]
        by_cases hterm : d = .sendTermination <;> simp [hterm]

end Duty

/-! ### How a termination stands -/

/-- The refusal for good that an event records about the negotiation of an id. -/
def Event.refusal? (id : String) : Event → Option Failure
  | .saved n answer _ => if n.id = id then answer.bind Answer.refusal? else none
  | _ => none

theorem Event.refusal?_of_ne {id : String} {e : Event} (h : e.copy.id ≠ id) :
    e.refusal? id = none := by
  cases e with
  | saved n answer changed => exact if_neg h
  | sent | refused | ended => rfl

/-- How a termination for a reason can stand: the other side is still to be told, or the negotiation
is over, and then it may be that a refusal was recorded and took the place of the reason. -/
inductive Negotiation.Terminates (reason : String) : Negotiation → List Failure → Prop where
  /-- The other side is still to be told. -/
  | waiting {n : Negotiation} (hst : n.state = .terminating) (hc : n.Cites reason) :
      Terminates reason n []
  /-- It is over, and the reason is there. -/
  | told {n : Negotiation} (hst : n.state = .terminated) (hc : n.Cites reason) :
      Terminates reason n []
  /-- It is over by a refusal. -/
  | refused {n : Negotiation} {f : Failure} (hst : n.state = .terminated)
      (hf : n.errorDetail = some f.detail) : Terminates reason n [f]

section

variable {reason : String} {ctx : Context} {side : Side} {d : Duty} {n changed : Negotiation}
  {answer : Option Answer} {fs : List Failure}

/-- A termination is over once the answer to the notice is there, unless the notice is to be sent
again. -/
theorem Duty.Makes.terminates (h : d.Makes ctx n answer changed)
    (hd : Duty.of? side n.state = some d) (hn : n.Terminates reason fs) :
    changed.Terminates reason (fs ++ (answer.bind Answer.refusal?).toList) := by
  cases hn with
  | told hst | refused hst =>
    -- nobody has anything to do about a negotiation that is over
    rw [hst, Duty.of?_terminated] at hd
    cases hd
  | waiting hst hc =>
    obtain rfl : d = .sendTermination := (Duty.eq_sendTermination_iff hd).2 hst
    obtain ⟨text, htext, hcontinues⟩ := hc
    have hstate : changed.state = .terminating ∨ changed.state = .terminated := by
      rcases h.cases hd with ⟨hs, -⟩ | ⟨-, a, -, hstate, -⟩
      · cases hs
      · rw [hstate]
        cases Attempt.route ctx.policy n.stateCount a with
        | failure cause => exact .inl hst
        | success | fatal | exhausted => exact .inr rfl
    rcases h.detail_cases hd with
      ⟨hnone, hkept⟩ | ⟨f, hf, hst', hdetail⟩ | ⟨hnone, detail, hst', hdetail⟩
    · have hc' : changed.Cites reason := ⟨text, hkept.trans htext, hcontinues⟩
      rw [hnone]
      rcases hstate with hst' | hst'
      · exact .waiting hst' hc'
      · exact .told hst' hc'
    · rw [hf]
      exact .refused hst' hdetail
    · rw [hnone]
      refine .told hst' ⟨appendDetail (some text) detail, ?_, hcontinues.appendDetail detail⟩
      rw [hdetail, htext]
      rfl

end

namespace Standing

variable {ι : Type} {workers : ι → Worker} {id reason : String} {s s' : Standing ι}
  {es : List (ι × Event)} {n : Negotiation} {fs : List Failure}

theorem Next.terminates {e : ι × Event} (h : Next workers id s e s') (hs : s.stored = some n)
    (hn : n.Terminates reason fs) :
    ∃ m, s'.stored = some m ∧ m.Terminates reason (fs ++ (e.2.refusal? id).toList) := by
  cases h with
  | other hne =>
    rw [Event.refusal?_of_ne hne, Option.toList_none, List.append_nil]
    exact ⟨n, hs, hn⟩
  | ended => exact ⟨n, hs, (List.append_nil fs).symm ▸ hn⟩
  | sent => exact ⟨n, hs, (List.append_nil fs).symm ▸ hn⟩
  | @saved w n' changed answer d hid hd hm =>
    obtain rfl : n' = n := Option.some.inj hs
    refine ⟨changed, rfl, ?_⟩
    rw [show Event.refusal? id (.saved n' answer changed) = _ from if_pos hid]
    exact hm.terminates hd hn

theorem Course.terminates (h : Course workers id s es s') (hs : s.stored = some n)
    (hn : n.Terminates reason fs) :
    ∃ m, s'.stored = some m ∧ m.Terminates reason (fs ++ es.filterMap (·.2.refusal? id)) := by
  induction h generalizing n fs with
  | nil => exact ⟨n, hs, (List.append_nil fs).symm ▸ hn⟩
  | @cons s s₁ s' e es hnext _ ih =>
    obtain ⟨m, hs₁, hm⟩ := hnext.terminates hs hn
    obtain ⟨m', hs', hm'⟩ := ih hs₁ hm
    refine ⟨m', hs', ?_⟩
    have hcons : (e :: es).filterMap (·.2.refusal? id) =
        (e.2.refusal? id).toList ++ es.filterMap (·.2.refusal? id) := by
      rw [List.filterMap_cons]
      cases e.2.refusal? id <;> rfl
    rwa [hcons, ← List.append_assoc]

end Standing

namespace Ledger

/-- The refusals for good that are recorded about a negotiation in some shifts. -/
def refusals (id : String) (l : Ledger) : List Shift → List Failure
  | [] => []
  | s :: ss => ((Workshop.opening l).history (fun _ => s.worker) s.turns).filterMap
      (·.2.refusal? id) ++ (l.afterShift s).refusals id ss

variable {l : Ledger} {id reason : String} {n : Negotiation} {fs : List Failure}

theorem exists_terminates_afterShifts (hn : l.find? id = some n) (ht : n.Terminates reason fs)
    (ss : List Shift) : ∃ m, (l.afterShifts ss).find? id = some m ∧
      m.Terminates reason (fs ++ l.refusals id ss) := by
  induction ss generalizing l n fs with
  | nil => exact ⟨n, hn, (List.append_nil fs).symm ▸ ht⟩
  | cons s ss ih =>
    have ho : (Workshop.opening l : Workshop Unit).Orderly fun _ => s.worker :=
      Workshop.orderly_opening l
    obtain ⟨s', hcourse, hshows⟩ := ho.course_run (fun _ _ _ => rfl)
      (Workshop.timely_of_subsingleton _ _ s.turns) (Workshop.shows_opening l id)
    obtain ⟨m, hstored, hm⟩ := hcourse.terminates hn ht
    have hfind : (l.afterShift s).find? id = some m := hshows.stored.symm.trans hstored
    obtain ⟨m', hm', ht'⟩ := ih hfind hm
    refine ⟨m', hm', ?_⟩
    rwa [refusals, ← List.append_assoc]

/-- **The reason for a termination is kept iff no refusal takes its place.**  A negotiation that is
being terminated for a reason, whoever works on the ledger one after the other, is being terminated
for that reason still, or it is over; and its detail begins with the reason iff every refusal for
good that was recorded about it does. -/
theorem reason_kept_iff (hn : l.find? id = some n) (hst : n.state = .terminating)
    (hreason : n.errorDetail = some reason) (ss : List Shift) :
    ∃ m, (l.afterShifts ss).find? id = some m ∧
      (m.state = .terminating ∧ m.Cites reason ∨ m.state = .terminated) ∧
      (m.Cites reason ↔ ∀ f ∈ l.refusals id ss, Continues reason f.detail) := by
  obtain ⟨m, hm, ht⟩ := exists_terminates_afterShifts hn
    (.waiting hst ⟨reason, hreason, continues_refl reason⟩) ss
  refine ⟨m, hm, ?_⟩
  rw [List.nil_append] at ht
  generalize l.refusals id ss = fs at ht ⊢
  cases ht with
  | waiting hst hc => exact ⟨.inl ⟨hst, hc⟩, fun _ => List.forall_mem_nil _, fun _ => hc⟩
  | told hst hc => exact ⟨.inr hst, fun _ => List.forall_mem_nil _, fun _ => hc⟩
  | @refused f hst hf =>
    refine ⟨.inr hst, ?_, ?_⟩
    · rintro ⟨text, htext, hcontinues⟩ g hg
      obtain rfl : f.detail = text := by rw [hf] at htext; exact Option.some.inj htext
      rw [List.mem_singleton.1 hg]
      exact hcontinues
    · intro hall
      exact ⟨f.detail, hf, hall f (List.mem_singleton_self f)⟩

/-- A negotiation that the provider gives up, with the reason. -/
def withdrawn : Negotiation :=
  { Negotiation.specimen with state := .terminating, errorDetail := some "asset withdrawn" }

/-- A provider that sends each message once tells the other side, and this is the answer. -/
def tellOnce (answer : Answer) : Shift where
  worker := ⟨"worker", 60000, .provider, "provider", { maxRetries := 0 }, 5, false⟩
  turns := [.start, .lease, .lease, .lease, .lease, .lease, .proceed 0, .proceed 0, .proceed 0,
    .proceed 0].map fun act => ⟨(), act, 5000, 5000, "message-1", answer⟩

/-- Nobody can be reached; the failure is noted behind the reason. -/
theorem reason_kept_iff_withdrawn :
    let l := empty.put ⟨withdrawn, none⟩
    let ss := [tellOnce (.error (.timeout 100))]
    l.find? "negotiation-1" = some withdrawn ∧ withdrawn.state = .terminating ∧
    withdrawn.errorDetail = some "asset withdrawn" ∧
    ∃ m, (l.afterShifts ss).find? "negotiation-1" = some m ∧ m.state = .terminated ∧
      m.Cites "asset withdrawn" := by
  intro l ss
  have hl : l.find? "negotiation-1" = some withdrawn := by decide +kernel
  obtain ⟨m, hm, -, hiff⟩ := reason_kept_iff hl rfl rfl ss
  have hover : ((l.afterShifts ss).find? "negotiation-1").map (·.state) = some .terminated := by
    decide +kernel
  rw [hm] at hover
  refine ⟨hl, rfl, rfl, m, hm, Option.some.inj hover, hiff.2 ?_⟩
  have hnone : l.refusals "negotiation-1" ss = [] := by decide +kernel
  rw [hnone]
  exact List.forall_mem_nil _

/-- **A refusal takes the place of the reason.**  The other side refuses the notice of termination
for good, and what it says about that is all that is left. -/
theorem refusal_replaces_reason :
    ¬ ∀ (l : Ledger) (id reason : String) (n : Negotiation), l.find? id = some n →
      n.state = .terminating → n.errorDetail = some reason → reason ≠ "" → ∀ ss : List Shift,
      ∃ m, (l.afterShifts ss).find? id = some m ∧ m.Cites reason := by
  intro h
  obtain ⟨m, hm, text, htext, rest, rfl⟩ := h (empty.put ⟨withdrawn, none⟩) "negotiation-1"
    "asset withdrawn" withdrawn (by decide +kernel) rfl rfl (by decide)
    [tellOnce (.ok (.failed ⟨.fatal, ["gone"]⟩))]
  have hdetail : (((empty.put ⟨withdrawn, none⟩).afterShifts
      [tellOnce (.ok (.failed ⟨.fatal, ["gone"]⟩))]).find? "negotiation-1").map (·.errorDetail) =
        some (some "gone") := by decide +kernel
  rw [hm, Option.map_some, htext] at hdetail
  have hlength := congrArg String.length (Option.some.inj (Option.some.inj hdetail))
  rw [String.length_append] at hlength
  have h15 : "asset withdrawn".length = 15 := by decide
  have h4 : "gone".length = 4 := by decide
  omega

end Ledger

end Parley
