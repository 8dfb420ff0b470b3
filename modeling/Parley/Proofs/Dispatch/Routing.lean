import Mathlib.Data.List.Lemmas
import Mathlib.Data.String.Basic
import Parley.Dispatch.Basic

/-!
# Where messages go and what they are answered

An exchange is told to register its dispatchers, to prepare answers at them, and to send messages,
in any order.  What all this comes to is read off the history of what it was told.

* `Registry.route?_register`, `Registry.mem_protocols_iff`, `Registry.pairwise_protocols` : a
  registry is a map from protocols, with the protocols in strict order.
* `Exchange.lastFor?` : the dispatcher registered last for a protocol; `Call.delivery?` : so a
  message goes to that one, or to the one that it is given to.
* `Exchange.received`, `prepared`, `consumed` : the messages that went to a dispatcher, the answers
  that were prepared there, and how many of these were given away.
* `Exchange.mirrors_after` : a history leaves to every dispatcher the messages that went there, and
  the answers that were prepared there but for those that were given away.

Histories are told from the newest call on, so that what was before a call is its tail.
-/

namespace Parley

/-! ### Registries -/

namespace Registry

variable {ρ : Type} {r : Registry ρ} {protocol : String} {who : ρ}

theorem route?_register (p : String) :
    (r.register protocol who).route? p = if protocol = p then some who else r.route? p := by
  simp only [route?, register, List.find?_cons]
  split
  next h => rw [if_pos (beq_iff_eq.1 h), Option.map_some]
  next h =>
    rw [beq_eq_false_iff_ne] at h
    -- what is taken out has another protocol
    have hkeeps (e : String × ρ) :
        decide ((e.1 != protocol) = true ∧ (e.1 == p) = true) = (e.1 == p) := by
      by_cases he : e.1 = p
      · simp [he, Ne.symm h]
      · simp [he]
    rw [if_neg h, List.find?_filter]
    exact congrArg _ (congrArg (List.find? · _) (funext hkeeps))

/-- No protocol is registered twice. -/
def Single (r : Registry ρ) : Prop := (r.entries.map (·.1)).Nodup

theorem Single.register (h : r.Single) : (r.register protocol who).Single := by
  refine List.nodup_cons.2 ⟨by simp, ?_⟩
  exact List.Nodup.sublist (List.filter_sublist.map _) h

theorem mem_protocols_iff : protocol ∈ r.protocols ↔ (r.route? protocol).isSome := by
  rw [protocols, (List.mergeSort_perm ..).mem_iff, route?, Option.isSome_map, List.find?_isSome,
    List.mem_map]
  simp only [beq_iff_eq]

/-- **The protocols are in strict order.** -/
theorem pairwise_protocols (h : r.Single) : r.protocols.Pairwise (· < ·) := by
  have hsorted : r.protocols.Pairwise fun a b => decide (a ≤ b) = true := by
    refine List.pairwise_mergeSort (fun a b c hab hbc => ?_) (fun a b => ?_) _
    · rw [decide_eq_true_eq] at hab hbc ⊢
      exact hab.trans hbc
    · simpa using le_total a b
  have hnodup : r.protocols.Nodup := (List.mergeSort_perm ..).nodup_iff.2 h
  refine (hsorted.and hnodup).imp fun ⟨hle, hne⟩ => ?_
  exact lt_of_le_of_ne (of_decide_eq_true hle) hne

end Registry

/-! ### Histories -/

namespace Exchange

/-- What an exchange is told. -/
inductive Call where
  /-- To register the dispatcher at a place for its protocol. -/
  | register (place : ℕ)
  /-- To prepare an answer at a dispatcher, a number of times. -/
  | enqueue (place : ℕ) (answer : Answer) (times : ℕ)
  /-- To send a message through the registry. -/
  | dispatch (message : Message)
  /-- To give a message to a dispatcher. -/
  | deliver (place : ℕ) (message : Message)

/-- What the exchange replies, if it was given a message, and the exchange afterwards. -/
def heed (x : Exchange) : Call → Option Answer × Exchange
  | .register place => (none, x.register place)
  | .enqueue place answer times => (none, x.enqueue place answer times)
  | .dispatch m => (some (x.dispatch m).1, (x.dispatch m).2)
  | .deliver place m => (some (x.deliver place m).1, (x.deliver place m).2)

/-- The exchange after a history of calls, the newest one first. -/
def after (x : Exchange) : List Call → Exchange
  | [] => x
  | c :: before => ((x.after before).heed c).2

/-- New dispatchers for some protocols, none of them registered. -/
def opening (ps : List String) : Exchange := { dispatchers := ps.map fun p => { protocol := p } }

variable (ps : List String) (place : ℕ)

/-- The place that a call registers for a protocol. -/
def Call.registers? (protocol : String) : Call → Option ℕ
  | .register place => if ps[place]? = some protocol then some place else none
  | _ => none

/-- The place that was registered last for a protocol. -/
def lastFor? (h : List Call) (protocol : String) : Option ℕ :=
  h.findSome? (Call.registers? ps protocol)

/-- The message of a call and the place where it goes, if there is one, after a history. -/
def Call.delivery? (before : List Call) : Call → Option (ℕ × Message)
  | .dispatch m => (lastFor? ps before m.protocol).map (·, m)
  | .deliver place m => some (place, m)
  | _ => none

/-- The message that comes to a place by a call. -/
def Call.reaches? (before : List Call) (c : Call) : Option Message :=
  ((c.delivery? ps before).filter (·.1 == place)).map (·.2)

/-- The answers that a call prepares at a place. -/
def Call.prepares : Call → List Answer
  | .enqueue there answer times => if there = place then List.replicate times answer else []
  | _ => []

/-- The messages that came to a place, oldest first. -/
def received : List Call → List Message
  | [] => []
  | c :: before => received before ++ (c.reaches? ps place before).toList

/-- The answers that were prepared at a place, oldest first. -/
def prepared : List Call → List Answer
  | [] => []
  | c :: before => prepared before ++ c.prepares place

/-- How many of the prepared answers were given away: one for every message that came while there
was one left. -/
def consumed : List Call → ℕ
  | [] => 0
  | c :: before =>
    if (c.reaches? ps place before).isSome then
      min (consumed before + 1) (prepared place before).length
    else consumed before

/-- The answer to the next message that comes to a place: the oldest one that was not given away, or
the default if there is none. -/
def nextAnswer (h : List Call) : Answer :=
  (prepared place h)[consumed ps place h]?.getD Dispatcher.defaultAnswer

/-! ### What a history leaves -/

variable {ps place} {h : List Call} {x : Exchange}

theorem isSome_lastFor?_iff {p : String} :
    (lastFor? ps h p).isSome ↔ ∃ place, .register place ∈ h ∧ ps[place]? = some p := by
  rw [lastFor?, List.findSome?_isSome_iff]
  constructor
  · rintro ⟨c, hc, hsome⟩
    cases c with
    | register place =>
      refine ⟨place, hc, ?_⟩
      by_contra hp
      rw [Call.registers?, if_neg hp] at hsome
      cases hsome
    | enqueue | dispatch | deliver => cases hsome
  · rintro ⟨place, hmem, hp⟩
    exact ⟨_, hmem, by rw [Call.registers?, if_pos hp]; rfl⟩

theorem consumed_le (h : List Call) : consumed ps place h ≤ (prepared place h).length := by
  induction h with
  | nil => exact Nat.le_refl 0
  | cons c before ih =>
    rw [consumed, prepared, List.length_append]
    split <;> omega

/-- The answers at a place that were not given away. -/
def remaining (ps : List String) (place : ℕ) (h : List Call) : List Answer :=
  (prepared place h).drop (consumed ps place h)

theorem head?_remaining : (remaining ps place h).head?.getD Dispatcher.defaultAnswer =
    nextAnswer ps place h := by
  rw [remaining, List.head?_drop, nextAnswer]

/-- A message takes the first of the answers that remain, an answer that is prepared goes behind
them. -/
theorem remaining_cons (c : Call) (before : List Call) : remaining ps place (c :: before) =
    if (c.reaches? ps place before).isSome then (remaining ps place before).tail
    else remaining ps place before ++ c.prepares place := by
  have hle : consumed ps place before ≤ (prepared place before).length := consumed_le before
  unfold remaining
  rw [prepared, consumed]
  split
  next hreaches =>
    -- what gives a message prepares nothing
    have hnone : c.prepares place = [] := by
      cases c with
      | enqueue | register => cases hreaches
      | dispatch | deliver => rfl
    rw [hnone, List.append_nil, List.tail_drop]
    rcases Nat.lt_or_eq_of_le hle with hlt | heq
    · rw [Nat.min_eq_left hlt]
    · rw [heq, Nat.min_eq_right (Nat.le_succ _), List.drop_length, List.drop_of_length_le (by omega)]
  next => exact List.drop_append_of_le_length hle

/-- The dispatcher at a place after a history. -/
def dispatcherAfter (ps : List String) (h : List Call) (place : ℕ) : Option Dispatcher :=
  ps[place]?.map fun p => ⟨p, remaining ps place h, received ps place h⟩

/-- The exchange holds what a history leaves. -/
structure Mirrors (x : Exchange) (ps : List String) (h : List Call) : Prop where
  /-- The dispatchers have the messages that came to them, and the answers that remain. -/
  dispatchers : ∀ place, x.dispatchers[place]? = dispatcherAfter ps h place
  /-- The registry knows the one that was registered last for each protocol. -/
  route : ∀ p, x.registry.route? p = lastFor? ps h p
  /-- No protocol is registered twice. -/
  single : x.registry.Single

theorem mirrors_opening (ps : List String) : (opening ps).Mirrors ps [] where
  dispatchers place := by
    show (ps.map _)[place]? = _
    rw [List.getElem?_map]
    rfl
  route _ := rfl
  single := List.nodup_nil

theorem dispatcherAfter_cons (c : Call) : dispatcherAfter ps (c :: h) place =
    (dispatcherAfter ps h place).map fun d =>
      match c.reaches? ps place h with
      | some m => (d.receive m).2
      | none => { d with answers := d.answers ++ c.prepares place } := by
  simp only [dispatcherAfter, remaining_cons, received, Option.map_map]
  cases c.reaches? ps place h with
  | some m => rfl
  | none => simp [Function.comp_def]

theorem dispatcherAfter_cons_of_none {c : Call} (hreach : c.reaches? ps place h = none)
    (hprep : c.prepares place = []) :
    dispatcherAfter ps (c :: h) place = dispatcherAfter ps h place := by
  simp [dispatcherAfter_cons, hreach, hprep]

theorem dispatcherAfter_enqueue (there : ℕ) (answer : Answer) (times : ℕ) :
    dispatcherAfter ps (.enqueue there answer times :: h) place =
      if there = place then (dispatcherAfter ps h place).map (·.enqueue answer times)
      else dispatcherAfter ps h place := by
  split
  next hat =>
    have hprep : (Call.enqueue there answer times).prepares place = List.replicate times answer :=
      if_pos hat
    rw [dispatcherAfter_cons, hprep]
    rfl
  next hat => exact dispatcherAfter_cons_of_none rfl (if_neg hat)

theorem dispatcherAfter_deliver (there : ℕ) (m : Message) :
    dispatcherAfter ps (.deliver there m :: h) place =
      if there = place then (dispatcherAfter ps h place).map fun d => (d.receive m).2
      else dispatcherAfter ps h place := by
  split
  next hat =>
    have hreach : (Call.deliver there m).reaches? ps place h = some m := by
      simp [Call.reaches?, Call.delivery?, Option.filter, hat]
    rw [dispatcherAfter_cons, hreach]
  next hat =>
    refine dispatcherAfter_cons_of_none ?_ rfl
    simp [Call.reaches?, Call.delivery?, Option.filter, hat]

theorem dispatcherAfter_dispatch (m : Message) (place : ℕ) :
    dispatcherAfter ps (.dispatch m :: h) place =
      match lastFor? ps h m.protocol with
      | some there => dispatcherAfter ps (.deliver there m :: h) place
      | none => dispatcherAfter ps h place := by
  cases hlast : lastFor? ps h m.protocol with
  | some there =>
    have hreach : (Call.dispatch m).reaches? ps place h =
        (Call.deliver there m).reaches? ps place h := by
      simp [Call.reaches?, Call.delivery?, hlast]
    rw [dispatcherAfter_cons, hreach]
    exact (dispatcherAfter_cons (.deliver there m)).symm
  | none =>
    refine dispatcherAfter_cons_of_none ?_ rfl
    simp [Call.reaches?, Call.delivery?, hlast]

/-! ### From one call to the next -/

namespace Mirrors

variable {place : ℕ} {m : Message}

theorem of_dispatchers (hx : x.Mirrors ps h) {c : Call} {x' : Exchange}
    (hc : ∀ p, c.registers? ps p = none) (hreg : x'.registry = x.registry)
    (hd : ∀ place, x'.dispatchers[place]? = dispatcherAfter ps (c :: h) place) :
    x'.Mirrors ps (c :: h) where
  dispatchers := hd
  route p := by rw [hreg, hx.route, lastFor?, lastFor?, List.findSome?_cons, hc]
  single := hreg ▸ hx.single

theorem register (hx : x.Mirrors ps h) (place : ℕ) :
    (x.register place).Mirrors ps (.register place :: h) := by
  have hd (i : ℕ) : dispatcherAfter ps (.register place :: h) i = dispatcherAfter ps h i :=
    dispatcherAfter_cons_of_none rfl rfl
  have hplace := hx.dispatchers place
  unfold Exchange.register
  cases hp : ps[place]? with
  | none =>
    rw [dispatcherAfter, hp, Option.map_none] at hplace
    rw [hplace]
    refine hx.of_dispatchers (fun p => ?_) rfl fun i => (hx.dispatchers i).trans (hd i).symm
    simp [Call.registers?, hp]
  | some p =>
    rw [dispatcherAfter, hp, Option.map_some] at hplace
    rw [hplace]
    refine ⟨fun i => (hx.dispatchers i).trans (hd i).symm, fun q => ?_, hx.single.register⟩
    show (x.registry.register p place).route? q = _
    rw [Registry.route?_register, hx.route, lastFor?, lastFor?, List.findSome?_cons,
      Call.registers?, hp]
    by_cases hpq : p = q
    · rw [if_pos hpq, if_pos (congrArg some hpq)]
    · rw [if_neg hpq, if_neg (mt Option.some.inj hpq)]

theorem enqueue (hx : x.Mirrors ps h) (place : ℕ) (answer : Answer) (times : ℕ) :
    (x.enqueue place answer times).Mirrors ps (.enqueue place answer times :: h) := by
  refine hx.of_dispatchers (fun _ => rfl) rfl fun i => ?_
  show (x.dispatchers.modify place _)[i]? = _
  rw [List.getElem?_modify, hx.dispatchers, dispatcherAfter_enqueue]
  split
  next => rfl
  next => exact Option.map_id_apply

theorem deliver_of_some (hx : x.Mirrors ps h) {p : String} (hp : ps[place]? = some p) :
    (x.deliver place m).1 = nextAnswer ps place h := by
  have hplace := hx.dispatchers place
  rw [dispatcherAfter, hp, Option.map_some] at hplace
  rw [deliver, hplace, ← head?_remaining]
  rfl

theorem deliver (hx : x.Mirrors ps h) (place : ℕ) (m : Message) :
    (x.deliver place m).2.Mirrors ps (.deliver place m :: h) := by
  have hplace := hx.dispatchers place
  unfold Exchange.deliver
  cases hd : x.dispatchers[place]? with
  | none =>
    refine hx.of_dispatchers (fun _ => rfl) rfl fun i => ?_
    rw [dispatcherAfter_deliver, hx.dispatchers]
    split
    next hi => rw [← hi, ← hplace, hd, Option.map_none]
    next => rfl
  | some d =>
    refine hx.of_dispatchers (fun _ => rfl) rfl fun i => ?_
    have hlt : place < x.dispatchers.length := (List.getElem?_eq_some_iff.1 hd).1
    show (x.dispatchers.set place _)[i]? = _
    rw [List.getElem?_set, dispatcherAfter_deliver, hx.dispatchers, if_pos hlt]
    split
    next hi => rw [← hi, ← hplace, hd, Option.map_some]
    next => rfl

theorem dispatch_eq (hx : x.Mirrors ps h) (m : Message) : x.dispatch m =
    match lastFor? ps h m.protocol with
    | some place => x.deliver place m
    | none => (.error (.noDispatcher m.protocol), x) := by
  have hroute := hx.route m.protocol
  unfold Exchange.dispatch
  cases hlast : lastFor? ps h m.protocol with
  | some place => simp only [hroute.trans hlast]
  | none => simp only [hroute.trans hlast]

theorem dispatch (hx : x.Mirrors ps h) (m : Message) :
    (x.dispatch m).2.Mirrors ps (.dispatch m :: h) := by
  rw [hx.dispatch_eq]
  cases hlast : lastFor? ps h m.protocol with
  | none =>
    refine hx.of_dispatchers (fun _ => rfl) rfl fun i => ?_
    rw [dispatcherAfter_dispatch, hlast, hx.dispatchers]
  | some place =>
    have hdeliver := hx.deliver place m
    refine hx.of_dispatchers (fun _ => rfl) ?_ fun i => ?_
    · show (x.deliver place m).2.registry = _
      unfold Exchange.deliver
      split <;> rfl
    · rw [dispatcherAfter_dispatch, hlast]
      exact hdeliver.dispatchers i

/-- **From one call to the next** the exchange holds what the history leaves. -/
theorem heed (hx : x.Mirrors ps h) (c : Call) : (x.heed c).2.Mirrors ps (c :: h) := by
  cases c with
  | register place => exact hx.register place
  | enqueue place answer times => exact hx.enqueue place answer times
  | dispatch m => exact hx.dispatch m
  | deliver place m => exact hx.deliver place m

end Mirrors

/-- **What a history leaves** is what is read off it. -/
theorem mirrors_after (ps : List String) (h : List Call) : ((opening ps).after h).Mirrors ps h := by
  induction h with
  | nil => exact mirrors_opening ps
  | cons c before ih => exact ih.heed c

end Exchange

end Parley
