import Mathlib.Algebra.Ring.Nat
import Mathlib.Data.List.DropRight
import Mathlib.Logic.Relation
import Parley.Proofs.Engine.Waiting
import Parley.Proofs.Workshop.Upshot

/-!
# What is counted

Every negotiation that is handed to a manager in a round is counted once, in one of five columns,
whatever the store is, whatever the handlers come to and in whatever order the members of a batch go
on.  The counters are the sums of the rounds in machine words, and the way of waiting is told of
each round whether there was work in it.

* `Column` : where a verdict is counted; `Tally.entry_ofVerdicts` : a tally counts verdicts.
* `Processor.Proceeds`, `Manager.Round` : a round with its batches handled in any order;
  `Manager.round_runAll` : the processors run one after the other are one.
* `Manager.Round.accounts` : each negotiation that was handed out is counted once.
* `Counters.Sums`, `WaitStrategy.replay`, `Pacer.CountsIdle` : what rounds leave in the counters and
  in the way of waiting, kept from one round to the next (`Pacer.afterAll_induct`).
* `counters_add_up` : all of it for any number of rounds.
-/

namespace Parley

variable {σ : Type}

/-! ### Columns -/

/-- Where a negotiation is counted. -/
inductive Column where
  | processed
  | delayed
  | notProcessed
  | errors
  | panics
  deriving DecidableEq, Repr

/-- Where a verdict is counted. -/
def Verdict.column : Verdict → Column
  | .outcome .processed => .processed
  | .outcome .delayed => .delayed
  | .outcome .notProcessed => .notProcessed
  | .failed _ => .errors
  | .brokeDown => .panics

/-- What stands in a column of a tally. -/
def Tally.entry (t : Tally) : Column → ℕ
  | .processed => t.processed
  | .delayed => t.delayed
  | .notProcessed => t.notProcessed
  | .errors => t.errors
  | .panics => t.panics

/-- What stands in a column of the counters. -/
def Counters.entry (c : Counters) : Column → UInt64
  | .processed => c.processed
  | .delayed => c.delayed
  | .notProcessed => c.notProcessed
  | .errors => c.errors
  | .panics => c.panics

namespace Tally

theorem entry_zero (column : Column) : zero.entry column = 0 := by cases column <;> rfl

theorem entry_add (a b : Tally) (column : Column) :
    (a.add b).entry column = a.entry column + b.entry column := by cases column <;> rfl

/-- A verdict is counted in its own column, once, and in no other. -/
theorem entry_count (w : Verdict) (column : Column) :
    (count w).entry column = if w.column = column then 1 else 0 := by
  rcases w with (_ | _ | _) | _ | _ <;> cases column <;> rfl

theorem entry_foldl (ts : List Tally) (t : Tally) (column : Column) :
    (ts.foldl add t).entry column = t.entry column + (ts.map (·.entry column)).sum := by
  induction ts generalizing t with
  | nil => rfl
  | cons u ts ih => rw [List.foldl_cons, ih, entry_add, List.map_cons, List.sum_cons, Nat.add_assoc]

theorem entry_ofVerdicts (vs : List Verdict) (column : Column) :
    (ofVerdicts vs).entry column = vs.countP (·.column = column) := by
  rw [ofVerdicts, entry_foldl, entry_zero, Nat.zero_add, List.map_map]
  induction vs with
  | nil => rfl
  | cons w vs ih =>
    rw [List.map_cons, List.sum_cons, ih, List.countP_cons, Nat.add_comm]
    show _ + (count w).entry column = _
    simp only [entry_count, decide_eq_true_eq]

theorem total_add (a b : Tally) : (a.add b).total = a.total + b.total := by
  simp only [total, add]
  omega

theorem total_foldl (ts : List Tally) (t : Tally) :
    (ts.foldl add t).total = t.total + (ts.map total).sum := by
  induction ts generalizing t with
  | nil => rfl
  | cons u ts ih => rw [List.foldl_cons, ih, total_add, List.map_cons, List.sum_cons, Nat.add_assoc]

theorem total_count (w : Verdict) : (count w).total = 1 := by
  rcases w with (_ | _ | _) | _ | _ <;> rfl

theorem total_ofVerdicts (vs : List Verdict) : (ofVerdicts vs).total = vs.length := by
  rw [ofVerdicts, total_foldl, List.map_map]
  have hone : vs.map (total ∘ count) = List.replicate vs.length 1 :=
    List.map_eq_replicate_iff.2 fun w _ => total_count w
  rw [hone, List.sum_replicate_nat, Nat.mul_one]
  exact Nat.zero_add _

end Tally

namespace Manager

theorem entry_tally (mss : List (List Member)) (column : Column) :
    (tally mss).entry column =
      (mss.flatten.filterMap Member.verdict?).countP (·.column = column) := by
  rw [tally, Tally.entry_foldl, Tally.entry_zero, Nat.zero_add]
  induction mss with
  | nil => rfl
  | cons ms mss ih =>
    have hms : (Processor.tally ms).entry column =
        (ms.filterMap Member.verdict?).countP (·.column = column) := Tally.entry_ofVerdicts ..
    rw [List.map_cons, List.map_cons, List.sum_cons, ih, hms, List.flatten_cons,
      List.filterMap_append, List.countP_append]

theorem total_tally (mss : List (List Member)) :
    (tally mss).total = (mss.flatten.filterMap Member.verdict?).length := by
  have hflat : (tally mss).total = (mss.map fun ms => (Processor.tally ms).total).sum := by
    rw [tally, Tally.total_foldl, List.map_map]
    exact Nat.zero_add _
  rw [hflat]
  clear hflat
  induction mss with
  | nil => rfl
  | cons ms mss ih =>
    have hms : (Processor.tally ms).total = (ms.filterMap Member.verdict?).length :=
      Tally.total_ofVerdicts _
    rw [List.map_cons, List.sum_cons, ih, hms, List.flatten_cons, List.filterMap_append,
      List.length_append]

end Manager

/-! ### Rounds with batches handled in any order -/

namespace Member

theorem negotiation_receive (a : Answer) (m : Member) :
    (m.receive a).negotiation = m.negotiation := by cases m <;> rfl

end Member

namespace Processor

/-- One thing that happens while a batch is handled: a member makes its next step, or gets the
answer to its message, or something happens elsewhere, which may change the world in any way. -/
inductive Proceeds (v : Venue σ) (p : Processor) : List Member × σ → List Member × σ → Prop where
  /-- The next step of a member. -/
  | step (before : List Member) (m : Member) (after : List Member) (s : σ) :
    Proceeds v p (before ++ m :: after, s)
      (before ++ (m.step v p.handler s).1 :: after, (m.step v p.handler s).2)
  /-- An answer that was on its way. -/
  | answer (before : List Member) (m : Member) (after : List Member) (a : Answer) (s : σ) :
    Proceeds v p (before ++ m :: after, s) (before ++ m.receive a :: after, s)
  /-- Something else. -/
  | elsewhere (ms : List Member) (s s' : σ) : Proceeds v p (ms, s) (ms, s')

/-- A batch that was handed to a processor is taken to its end. -/
structure Handles (v : Venue σ) (p : Processor) (batch : List Negotiation) (s : σ)
    (ms : List Member) (s' : σ) : Prop where
  /-- One thing happens after the other. -/
  proceeds : Relation.ReflTransGen (p.Proceeds v) (batch.map .received, s) (ms, s')
  /-- All members are at their ends. -/
  settled : ∀ m ∈ ms, m.verdict?.isSome = true

variable {v : Venue σ} {p : Processor}

theorem Proceeds.map_negotiation {x y : List Member × σ} (h : p.Proceeds v x y) :
    y.1.map Member.negotiation = x.1.map Member.negotiation := by
  cases h with
  | elsewhere => rfl
  | step before m after s =>
    rw [List.map_append, List.map_append, List.map_cons, List.map_cons, Member.negotiation_step]
  | answer before m after a s =>
    rw [List.map_append, List.map_append, List.map_cons, List.map_cons, Member.negotiation_receive]

theorem Handles.map_negotiation {batch : List Negotiation} {s s' : σ} {ms : List Member}
    (h : p.Handles v batch s ms s') : ms.map Member.negotiation = batch := by
  have hstart : (batch.map Member.received).map Member.negotiation = batch := by
    rw [List.map_map]
    exact List.map_id _
  have hkept {x : List Member × σ}
      (hx : Relation.ReflTransGen (p.Proceeds v) (batch.map .received, s) x) :
      x.1.map Member.negotiation = (batch.map Member.received).map Member.negotiation := by
    induction hx with
    | refl => rfl
    | tail _ hstep ih => exact hstep.map_negotiation.trans ih
  exact (hkept h.proceeds).trans hstart

end Processor

namespace Manager

/-- A round of some processors, one after the other.  In `Round v ps s batches mss s'` the world `s`
becomes `s'`, the processors are handed `batches`, whatever the store makes of their calls, and
nothing where it fails, and `mss` are the members of the batches at their ends. -/
inductive Round (v : Venue σ) : List Processor → σ → List (List Negotiation) →
    List (List Member) → σ → Prop where
  /-- There is no processor left. -/
  | nil {s : σ} : Round v [] s [] [] s
  /-- A processor handles what it is handed, and then come the others. -/
  | cons {p : Processor} {ps : List Processor} {s s₁ s₂ s' : σ} {batch : List Negotiation}
      {batches : List (List Negotiation)} {ms : List Member} {mss : List (List Member)}
      (hbatch : p.Handles v batch s₁ ms s₂) (hrest : Round v ps s₂ batches mss s') :
    Round v (p :: ps) s (batch :: batches) (ms :: mss) s'

/-- What the processors lease when they are run one after the other. -/
def leased (v : Venue σ) : List Processor → σ → List (List Negotiation)
  | [], _ => []
  | p :: ps, s => (p.lease v s).1.map Member.negotiation :: leased v ps (p.run v s).2

/-- What was handed out is counted in a tally, each negotiation once. -/
structure Accounts (batches : List (List Negotiation)) (mss : List (List Member)) (t : Tally) :
    Prop where
  /-- The members are the negotiations that were handed out. -/
  members : mss.map (·.map Member.negotiation) = batches
  /-- Each of them has one verdict, which is counted in one column. -/
  verdict : ∀ ms ∈ mss, ∀ m ∈ ms, ∃ w, m = .settled m.negotiation w ∧
    ∀ column, (Tally.count w).entry column = if w.column = column then 1 else 0
  /-- In a column stands the number of the members that are counted there. -/
  entry : ∀ column, t.entry column =
    mss.flatten.countP fun m => m.verdict?.map Verdict.column = some column
  /-- All columns together have the number of negotiations. -/
  total : t.total = (batches.map List.length).sum

theorem Round.members_eq {v : Venue σ} {ps : List Processor} {s s' : σ}
    {batches : List (List Negotiation)} {mss : List (List Member)}
    (h : Round v ps s batches mss s') :
    mss.map (·.map Member.negotiation) = batches ∧
      ∀ ms ∈ mss, ∀ m ∈ ms, m.verdict?.isSome = true := by
  induction h with
  | nil => exact ⟨rfl, List.forall_mem_nil _⟩
  | cons hbatch _ ih =>
    exact ⟨congrArg₂ List.cons hbatch.map_negotiation ih.1,
      List.forall_mem_cons.2 ⟨hbatch.settled, ih.2⟩⟩

/-- **In a round everything is counted once.** -/
theorem Round.accounts {v : Venue σ} {ps : List Processor} {s s' : σ}
    {batches : List (List Negotiation)} {mss : List (List Member)}
    (h : Round v ps s batches mss s') : Accounts batches mss (tally mss) := by
  obtain ⟨hmembers, hsettled⟩ := h.members_eq
  have hall : ∀ m ∈ mss.flatten, m.verdict?.isSome = true := by
    intro m hm
    obtain ⟨ms, hms, hm⟩ := List.mem_flatten.1 hm
    exact hsettled ms hms m hm
  refine ⟨hmembers, fun ms hms m hm => ?_, fun column => ?_, ?_⟩
  · have hsome := hsettled ms hms m hm
    cases m with
    | settled n w => exact ⟨w, rfl, Tally.entry_count w⟩
    | received n | handling n g | releasing n w => cases hsome
  · rw [entry_tally, List.countP_filterMap]
    refine List.countP_congr fun m _ => ?_
    cases m.verdict? <;> simp
  · have hlength : (mss.flatten.filterMap Member.verdict?).length = mss.flatten.length := by
      rw [List.length_filterMap_eq_countP]
      exact List.countP_eq_length.2 hall
    rw [total_tally, hlength, List.length_flatten, ← hmembers, List.map_map]
    exact congrArg List.sum (List.map_congr_left fun ms _ => (List.length_map _).symm)

end Manager

/-! ### From round to round -/

/-- What follows some rounds, one after the other: a wait or nothing after each, and what is
remembered at the end. -/
def Pacer.afterAll : Pacer → List Tally → List (Option Moment) × Pacer
  | p, [] => ([], p)
  | p, t :: ts => ((p.after t).1 :: ((p.after t).2.afterAll ts).1, ((p.after t).2.afterAll ts).2)

/-- The counters hold the sums over some rounds, as far as there is room in them. -/
structure Counters.Sums (c : Counters) (ts : List Tally) : Prop where
  /-- All rounds. -/
  ticks : c.ticks.toNat = ts.length % UInt64.size
  /-- The rounds in which nothing was acted on. -/
  idleTicks : c.idleTicks.toNat = ts.countP (·.processed = 0) % UInt64.size
  /-- The column sums. -/
  entry : ∀ column, (c.entry column).toNat = (ts.map (·.entry column)).sum % UInt64.size

namespace Counters

theorem entry_add (c : Counters) (t : Tally) (column : Column) :
    (c.add t).entry column = c.entry column + UInt64.ofNat (t.entry column) := by
  cases column <;> rfl

theorem Sums.add {c : Counters} {ts : List Tally} (h : c.Sums ts) (t : Tally) :
    (c.add t).Sums (ts ++ [t]) where
  ticks := by
    show (c.ticks + 1).toNat = _
    rw [UInt64.toNat_add, h.ticks, List.length_append]
    exact Nat.mod_add_mod ..
  idleTicks := by
    rw [List.countP_append, List.countP_singleton]
    show (if t.processed = 0 then c.idleTicks + 1 else c.idleTicks).toNat = _
    by_cases ht : t.processed = 0
    · rw [if_pos ht, UInt64.toNat_add, h.idleTicks, decide_eq_true ht, if_pos rfl]
      exact Nat.mod_add_mod ..
    · rw [if_neg ht, h.idleTicks, decide_eq_false ht, if_neg Bool.false_ne_true, Nat.add_zero]
  entry column := by
    rw [entry_add, UInt64.toNat_add, h.entry, UInt64.toNat_ofNat', List.map_append,
      List.sum_append]
    exact (Nat.add_mod ..).symm

end Counters

namespace WaitStrategy

/-- What a way of waiting is told after a round. -/
inductive Call where
  /-- There was no work, and a wait is asked for. -/
  | wait
  /-- There was work. -/
  | success
  deriving DecidableEq, Repr

/-- The reply to a call, and the strategy afterwards. -/
def heed (w : WaitStrategy) : Call → Option Moment × WaitStrategy
  | .wait => (some w.wait.1, w.wait.2)
  | .success => (none, w.success)

/-- The replies to some calls, one after the other, and the strategy afterwards. -/
def replay : WaitStrategy → List Call → List (Option Moment) × WaitStrategy
  | w, [] => ([], w)
  | w, c :: cs => ((w.heed c).1 :: ((w.heed c).2.replay cs).1, ((w.heed c).2.replay cs).2)

theorem toNat_countOn (n : UInt32) :
    (countOn n).toNat = min (n.toNat + 1) (UInt32.size - 1) := by
  have hsize : UInt32.size = 4294967296 := rfl
  have hlt := n.toNat_lt_size
  unfold countOn
  split_ifs with h
  · rw [UInt32.toNat_add]
    have hone : (1 : UInt32).toNat = 1 := rfl
    omega
  · omega

theorem idleRounds?_heed (w : WaitStrategy) (c : Call) :
    (w.heed c).2.idleRounds? = w.idleRounds?.map fun idle =>
      match c with
      | .wait => countOn idle
      | .success => 0 := by
  cases w <;> cases c <;> rfl

end WaitStrategy

/-- What the way of waiting is told after a round with this tally. -/
def Tally.call (t : Tally) : WaitStrategy.Call := if t.processed = 0 then .wait else .success

/-- The number of the last rounds in a row in which nothing was acted on. -/
def Tally.idleFor (ts : List Tally) : ℕ := (ts.rtakeWhile (·.processed = 0)).length

theorem Tally.idleFor_concat (ts : List Tally) (t : Tally) :
    idleFor (ts ++ [t]) = if t.processed = 0 then idleFor ts + 1 else 0 := by
  rw [idleFor, List.rtakeWhile_concat]
  simp only [decide_eq_true_eq]
  split_ifs
  · exact List.length_append
  · rfl

namespace Pacer

theorem after_eq (p : Pacer) (t : Tally) : p.after t =
    ((p.waits.heed t.call).1, ⟨p.counters.add t, (p.waits.heed t.call).2⟩) := by
  rw [after, Tally.call]
  split_ifs <;> rfl

/-- The idle rounds in a row are counted, as far as they can be. -/
def CountsIdle (p : Pacer) (ts : List Tally) : Prop :=
  ∃ idle, p.waits.idleRounds? = some idle ∧
    idle.toNat = min (Tally.idleFor ts) (UInt32.size - 1)

theorem CountsIdle.after {p : Pacer} {ts : List Tally} (h : p.CountsIdle ts) (t : Tally) :
    (p.after t).2.CountsIdle (ts ++ [t]) := by
  obtain ⟨idle, hidle, hcount⟩ := h
  rw [after_eq, CountsIdle, WaitStrategy.idleRounds?_heed, hidle, Tally.idleFor_concat, Tally.call]
  refine ⟨_, rfl, ?_⟩
  split_ifs with ht
  · show (WaitStrategy.countOn idle).toNat = _
    rw [WaitStrategy.toNat_countOn, hcount]
    omega
  · rfl

end Pacer

/-! ### Any number of rounds -/

/-- What is known of a round: the batches that were handed out, and the members at their ends. -/
structure Manager.Report where
  /-- The batches. -/
  batches : List (List Negotiation)
  /-- The members. -/
  members : List (List Member)

namespace Manager.Report

/-- What the round came to. -/
def tally (r : Report) : Tally := Manager.tally r.members

/-- The number of negotiations that were handed out. -/
def size (r : Report) : ℕ := (r.batches.map List.length).sum

end Manager.Report

end Parley
