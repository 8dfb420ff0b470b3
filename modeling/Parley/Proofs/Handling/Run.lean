import Parley.Handling.Basic
import Parley.Proofs.Ledger.Desk

/-!
# Running a handling

A handling is taken to its end step by step, and its steps touch the ledger only at the worker's
desk.

* `step_storing`, `step_early`, `step_answered`, `step_found` : steps at the desk that go through.
* `run_of_not_finished` : a run is the first step and the run from there.
* `run_sending`, `snd_run_storing`, `snd_run_early`, `snd_run_answered_of_moved`,
  `snd_run_answered_of_same`, `snd_run_found` : what is left to do from each stage on.
* `Venue.Serves` : a venue in which the ledger works, for a worker of some name.
* `Chance` : what a worker meets with in one step, if the ledger is all there is.
-/

namespace Parley

/-- A venue whose ledger works: the worker's handle is the one it should be and no operation is told
to fail, and what is put on the desk stays there.  The clocks, and what goes on while a message is
on its way, are left open. -/
structure Venue.Serves {σ : Type} (v : Venue σ) (holder : String) (span : Moment) : Prop where
  /-- The worker's handle. -/
  handle_desk : ∀ s, (v.desk s).handle = ⟨holder, span, []⟩
  /-- What is put on the desk is found there. -/
  ledger_setDesk : ∀ d s, (v.desk (v.setDesk d s)).ledger = d.ledger

/-- The world after something was looked up at the desk. -/
def Venue.glance {σ : Type} (v : Venue σ) (s : σ) : σ := v.setDesk (v.desk s) s

/-- What a worker meets with in one step: what the clocks show, the id that a message would get, and
the answer to it. -/
structure Chance where
  /-- What the ledger's clock shows. -/
  now : Moment
  /-- What the worker's clock shows. -/
  clock : Moment
  /-- The id for a message. -/
  messageId : String
  /-- The answer to a message. -/
  answer : Answer
  deriving Inhabited

/-- The venue of one step of a worker: there is nothing but the ledger. -/
def Chance.venue (c : Chance) (holder : String) (span : Moment) : Venue Ledger where
  now _ := c.clock
  desk l := ⟨⟨holder, span, []⟩, l, c.now⟩
  setDesk d _ := d.ledger
  freshId l := (c.messageId, l)
  dispatch _ l := (c.answer, l)

theorem Chance.serves (c : Chance) (holder : String) (span : Moment) :
    (c.venue holder span).Serves holder span := ⟨fun _ => rfl, fun _ _ => rfl⟩

namespace Handling

variable {σ : Type} {v : Venue σ}

/-! ### Steps at a desk that works -/

section

variable {s : σ} {d : Desk} {m : Message} {t : Attempt} {a : Answer} {n : Negotiation}

theorem step_storing (h : (v.desk s).save n = (.ok (), d)) :
    (storing n).step v s = (.finished (.outcome .processed), v.setDesk d s) := by
  show (ofSave ((v.desk s).save n).1, v.setDesk ((v.desk s).save n).2 s) = _
  rw [h]
  rfl

theorem step_early (h : (v.desk s).release t.negotiation.id = (.ok (), d)) :
    (attempting m t .early).step v s = (.finished (.outcome .delayed), v.setDesk d s) := by
  show (ofProgress m t (Attempt.finish .delayed ((v.desk s).release t.negotiation.id)).1,
    v.setDesk (Attempt.finish .delayed ((v.desk s).release t.negotiation.id)).2 s) = _
  rw [h]
  rfl

theorem step_answered (h : (v.desk s).find t.negotiation.id = (.ok (some n), d))
    (hstate : n.state = t.negotiation.state) :
    (attempting m t (.answered a)).step v s = (.attempting m t (.found a n), v.setDesk d s) := by
  have hstep : t.step (v.now s) (v.desk s) (.answered a) = (.going (.found a n), d) := by
    unfold Attempt.step
    rw [h]
    exact if_pos hstate
  show (ofProgress m t (t.step (v.now s) (v.desk s) (.answered a)).1,
    v.setDesk (t.step (v.now s) (v.desk s) (.answered a)).2 s) = _
  rw [hstep]
  rfl

theorem step_found {changed : Negotiation} (hsettle : t.settle (v.now s) a n = .ok changed)
    (h : (v.desk s).save changed = (.ok (), d)) :
    (attempting m t (.found a n)).step v s =
      (.finished (.outcome .processed), v.setDesk d s) := by
  have hstep : t.step (v.now s) (v.desk s) (.found a n) = (.finished (.ok .processed), d) := by
    simp only [Attempt.step, hsettle, h]
    rfl
  show (ofProgress m t (t.step (v.now s) (v.desk s) (.found a n)).1,
    v.setDesk (t.step (v.now s) (v.desk s) (.found a n)).2 s) = _
  rw [hstep]
  rfl

end

/-! ### Whole runs -/

theorem rank_pos_of_not_finished {h : Handling} (hf : h.isFinished = false) : 0 < h.rank := by
  cases h with
  | finished w => cases hf
  | storing n => exact Nat.one_pos
  | attempting m t stage => cases stage <;> simp [rank]

theorem rank_step_lt {h : Handling} (hf : h.isFinished = false) (s : σ) :
    (h.step v s).1.rank < h.rank := by
  rcases step_lt v h s with ⟨w, hw⟩ | hlt
  · rw [hw]
    exact rank_pos_of_not_finished hf
  · exact hlt

@[simp] theorem run_finished (w : Verdict) (s : σ) :
    (finished w).run v s = (finished w, s) := by
  rw [run, runUnless]
  rfl

theorem run_of_not_finished {h : Handling} (hf : h.isFinished = false) (s : σ) :
    h.run v s = (h.step v s).1.run v (h.step v s).2 := by
  have hno : h.outgoing?.any (fun _ => false) = false := by cases h.outgoing? <;> rfl
  rw [run, runUnless, hf, if_neg Bool.false_ne_true, hno, if_neg Bool.false_ne_true,
    if_pos (rank_step_lt hf s)]
  rfl

theorem snd_run_storing (n : Negotiation) (s : σ) :
    ((storing n).run v s).2 = v.setDesk ((v.desk s).save n).2 s := by
  rw [run_of_not_finished rfl]
  show ((ofSave ((v.desk s).save n).1).run v (v.setDesk ((v.desk s).save n).2 s)).2 = _
  cases ((v.desk s).save n).1 <;> simp [ofSave]

theorem snd_run_early (m : Message) (t : Attempt) (s : σ) :
    ((attempting m t .early).run v s).2 =
      v.setDesk ((v.desk s).release t.negotiation.id).2 s := by
  rw [run_of_not_finished rfl]
  show ((ofProgress m t (Attempt.finish .delayed ((v.desk s).release t.negotiation.id)).1).run v
    (v.setDesk (Attempt.finish .delayed ((v.desk s).release t.negotiation.id)).2 s)).2 = _
  rcases (v.desk s).release t.negotiation.id with ⟨_ | _, d⟩ <;>
    simp [Attempt.finish, ofProgress, ofResult]

theorem run_sending (m : Message) (t : Attempt) (s : σ) :
    (attempting m t .sending).run v s =
      (attempting m t (.answered (v.dispatch m s).1)).run v (v.dispatch m s).2 :=
  run_of_not_finished rfl s

/-- An answer about a negotiation that is gone, or not in the state any more in which the message
was sent, is dropped. -/
theorem snd_run_answered_of_moved {m : Message} {t : Attempt} {a : Answer} {s : σ}
    {found : Option Negotiation}
    (hfind : (v.desk s).find t.negotiation.id = (.ok found, v.desk s))
    (hmoved : ∀ current, found = some current → current.state ≠ t.negotiation.state) :
    ((attempting m t (.answered a)).run v s).2 = v.setDesk (v.desk s) s := by
  have hstep : t.step (v.now s) (v.desk s) (.answered a) =
      (.finished (.ok .processed), v.desk s) := by
    unfold Attempt.step
    rw [hfind]
    cases found with
    | none => rfl
    | some current => exact if_neg (hmoved current rfl)
  rw [run_of_not_finished rfl]
  show ((ofProgress m t (t.step (v.now s) (v.desk s) (.answered a)).1).run v
    (v.setDesk (t.step (v.now s) (v.desk s) (.answered a)).2 s)).2 = _
  rw [hstep]
  simp [ofProgress, ofResult]

theorem snd_run_answered_of_same {m : Message} {t : Attempt} {a : Answer} {s : σ}
    {current : Negotiation}
    (hfind : (v.desk s).find t.negotiation.id = (.ok (some current), v.desk s))
    (hstate : current.state = t.negotiation.state) :
    ((attempting m t (.answered a)).run v s).2 =
      ((attempting m t (.found a current)).run v (v.glance s)).2 := by
  rw [run_of_not_finished rfl, step_answered hfind hstate]
  rfl

theorem snd_run_found {m : Message} {t : Attempt} {a : Answer} {s : σ}
    {current changed : Negotiation} (hsettle : t.settle (v.now s) a current = .ok changed) :
    ((attempting m t (.found a current)).run v s).2 =
      v.setDesk ((v.desk s).save changed).2 s := by
  have hstep : t.step (v.now s) (v.desk s) (.found a current) =
      Attempt.finish .processed ((v.desk s).save changed) := by
    simp only [Attempt.step, hsettle]
  rw [run_of_not_finished rfl]
  show ((ofProgress m t (t.step (v.now s) (v.desk s) (.found a current)).1).run v
    (v.setDesk (t.step (v.now s) (v.desk s) (.found a current)).2 s)).2 = _
  rw [hstep]
  rcases (v.desk s).save changed with ⟨_ | _, d⟩ <;> simp [Attempt.finish, ofProgress, ofResult]

/-- The world in which a handling comes to its writes: the message, if it begins with one, was
answered, and what went on in the meantime is done. -/
def arrival (v : Venue σ) (h : Handling) (s : σ) : σ :=
  match h.outgoing? with
  | some m => (v.dispatch m s).2
  | none => s

end Handling

end Parley
