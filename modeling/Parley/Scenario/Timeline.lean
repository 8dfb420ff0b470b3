import Parley.Scenario.World

/-!
# The timeline of a scenario

Managers work in rounds. A round takes no time unless messages take time to arrive; then the members
of a batch wait side by side, several rounds may be under way at once, and the loops that were
started in the background go on meanwhile. Time is a number of milliseconds that moves from one
thing waited for to the next.

* `Play.advanceRound` takes a round as far as it gets without waiting; where no message takes time,
  each batch is handled straight through.
* `Play.passTo` lets time pass, and with it the loops run that are due before.
* `Play.runRounds` takes rounds that go on side by side to their ends.
* `Play.stopLoop` tells a loop to stop and waits until it has.
-/

namespace Parley.Scenario

/-- What a manager asked of its way of waiting. -/
inductive WaitNote where
  /-- A wait, of this length. -/
  | waited (span : Moment)
  /-- To begin with short waits again. -/
  | reset
  deriving DecidableEq, Repr

/-- What a manager runs in a round. -/
inductive Station where
  /-- A processor, at a seat. -/
  | working (processor : Processor) (seat : World.Seat)
  /-- A stand-in with the tallies of its rounds to come; after them it finds nothing to do. -/
  | scripted (name : String) (tallies : List Tally)

/-- The name a station goes by. -/
def Station.name : Station → String
  | working p _ => p.name
  | scripted name _ => name

/-- A manager in a scenario. -/
structure Engine where
  /-- The name it goes by. -/
  name : String
  /-- What it runs in a round. -/
  stations : List Station
  /-- What it remembers from round to round. -/
  pacer : Pacer
  /-- What it asks of its way of waiting is noted. -/
  notes : Bool := true
  /-- The notes since the last report, newest first. -/
  noted : List WaitNote := []
  /-- Its loop was started and not stopped. -/
  running : Bool := false
  deriving Inhabited

/-- A message on its way: when and where the journey ends. -/
structure Flight where
  /-- The message. -/
  message : Message
  /-- When it ends. -/
  wake : Nat
  /-- Where it ends. -/
  goal : Except DispatchError Nat

/-- A member of a batch, and its message if that is on its way. -/
structure Slot where
  /-- The member. -/
  member : Member
  /-- The message on its way. -/
  flight : Option Flight := none

/-- A batch being handled. -/
structure Batch where
  /-- The processor. -/
  processor : Processor
  /-- Its seat. -/
  seat : World.Seat
  /-- The members. -/
  slots : List Slot

/-- A round of a manager. -/
structure Round where
  /-- The place of the manager. -/
  engine : Nat
  /-- The number of stations that were begun. -/
  begun : Nat := 0
  /-- The batch being handled. -/
  batch : Option Batch := none
  /-- What the round came to so far. -/
  total : Tally := {}
  /-- The ids handed out so far. -/
  handed : List String := []
  /-- The round is over. -/
  done : Bool := false

/-- A loop in the background: it runs rounds of a manager one after the other. -/
structure Loop where
  /-- The place of the manager. -/
  engine : Nat
  /-- The round under way. -/
  round : Option Round := none
  /-- When the loop goes on. -/
  wake : Nat
  /-- The loop was told to stop. -/
  stopping : Bool := false

/-- The world, the managers and the loops. -/
structure Play where
  /-- The world. -/
  world : World
  /-- The managers. -/
  engines : List Engine := []
  /-- The loops, in the order in which they ran last. -/
  loops : List Loop := []

instance : Inhabited Play := ⟨⟨default, [], []⟩⟩

namespace Slot

/-- The member is at its end. -/
def isSettled (s : Slot) : Bool := s.member.verdict?.isSome

/-- The member taken as far as it gets without waiting. -/
def advance (b : Batch) (s : Slot) (w : World) : Slot × World :=
  let go (m : Member) (w : World) : Slot × World :=
    let (m, w) := m.runUnless (World.holds b.seat) (World.venue b.seat) b.processor.handler w
    match m.outgoing? with
    | some message =>
      let j := w.journey b.seat.via message
      (⟨m, some ⟨message, w.timer + j.span, j.goal⟩⟩, w)
    | none => (⟨m, none⟩, w)
  match s.flight with
  | none => go s.member w
  | some f =>
    if f.wake ≤ w.timer then
      let (answer, w) := w.arrive f.goal f.message
      go (s.member.receive answer) w
    else (s, w)

/-- The members taken as far as they get, in their order. -/
def advanceAll (b : Batch) : List Slot → World → List Slot × World
  | [], w => ([], w)
  | s :: ss, w =>
    let (s, w) := s.advance b w
    let (ss, w) := advanceAll b ss w
    (s :: ss, w)

end Slot

/-- The earlier of two moments that may not come. -/
def earlier (a b : Option Nat) : Option Nat :=
  match a, b with
  | some a, some b => some (min a b)
  | some a, none => some a
  | none, b => b

/-- The first moment at which a message of a round arrives. -/
def Round.wake? (r : Round) : Option Nat :=
  match r.batch with
  | some b => (b.slots.filterMap (·.flight)).foldl (fun t f => earlier t (some f.wake)) none
  | none => none

namespace Play

/-- The manager at a place changed. -/
def modifyEngine (p : Play) (place : Nat) (f : Engine → Engine) : Play :=
  { p with engines := p.engines.modify place f }

/-! ### Rounds -/

/-- The tally that a stand-in has for this round, and the manager without it. -/
def takeTally (e : Engine) (station : Nat) : Tally × Engine :=
  match e.stations[station]? with
  | some (.scripted name tallies) =>
    (tallies.head?.getD {}, { e with stations := e.stations.set station (.scripted name tallies.tail) })
  | _ => ({}, e)

/-- A round taken as far as it gets without waiting; `fuel` bounds the stations and batches. -/
def advanceWithin : (fuel : Nat) → Round → Play → Round × Play
  | 0, r, p => (r, p)
  | fuel + 1, r, p =>
    match r.batch with
    | some b =>
      let (slots, world) := Slot.advanceAll b b.slots p.world
      let p := { p with world }
      if slots.all Slot.isSettled then
        let total := r.total.add (Processor.tally (slots.map (·.member)))
        advanceWithin fuel { r with batch := none, total } p
      else ({ r with batch := some { b with slots } }, p)
    | none =>
      match p.engines[r.engine]? with
      | none => ({ r with done := true }, p)
      | some e =>
        match e.stations[r.begun]? with
        | none => ({ r with done := true }, p)
        | some (.scripted _ _) =>
          let (t, e) := takeTally e r.begun
          advanceWithin fuel { r with begun := r.begun + 1, total := r.total.add t }
            { p with engines := p.engines.set r.engine e }
        | some (.working processor seat) =>
          if p.world.isPrompt then
            let (ms, world) := processor.run (World.venue seat) p.world
            advanceWithin fuel
              { r with
                begun := r.begun + 1
                total := r.total.add (Processor.tally ms)
                handed := r.handed ++ ms.map (·.negotiation.id) }
              { p with world }
          else
            let (ms, world) := processor.lease (World.venue seat) p.world
            advanceWithin fuel
              { r with
                begun := r.begun + 1
                batch := some ⟨processor, seat, ms.map (⟨·, none⟩)⟩
                handed := r.handed ++ ms.map (·.negotiation.id) }
              { p with world }

/-- A round taken as far as it gets without waiting. -/
def advanceRound (r : Round) (p : Play) : Round × Play :=
  let stations := ((p.engines[r.engine]?).map (·.stations.length)).getD 0
  advanceWithin (2 * stations + 2) r p

/-- What follows a round of a manager: nothing, or a wait. -/
def finishRound (place : Nat) (t : Tally) (p : Play) : Option Moment × Play :=
  match p.engines[place]? with
  | none => (none, p)
  | some e =>
    let (wait, pacer) := e.pacer.after t
    let note : WaitNote := match wait with
      | some span => .waited span
      | none => .reset
    let noted := if e.notes then note :: e.noted else e.noted
    (wait, { p with engines := p.engines.set place { e with pacer, noted } })

/-! ### Loops -/

/-- A loop taken on when it is due: none if it has stopped. -/
def advanceLoop (l : Loop) (p : Play) : Option Loop × Play :=
  if l.round.isNone && l.stopping then (none, p)
  else
    let (r, p) := advanceRound (l.round.getD { engine := l.engine }) p
    if r.done then
      let (wait, p) := finishRound l.engine r.total p
      (some { l with round := none, wake := p.world.timer + (wait.getD 0).toNat }, p)
    else (some { l with round := some r, wake := (r.wake?).getD p.world.timer }, p)

/-- The loop that is due first, of those due before a limit, and the other ones. Of loops due at the
same time the one that ran longest ago comes first. -/
def takeDue? (limit : Nat) : List Loop → Option (Loop × List Loop)
  | [] => none
  | l :: ls =>
    match takeDue? limit ls with
    | some (m, rest) =>
      if m.wake < l.wake then some (m, l :: rest) else some (l, ls)
    | none => if l.wake < limit then some (l, ls) else none

/-- The world's timer moved on to a moment, unless it is past it. -/
def moveTimer (t : Nat) (p : Play) : Play :=
  { p with world := { p.world with timer := max p.world.timer t } }

/-- The loops that are due before a limit run, one after the other; `fuel` bounds how often. -/
def runDueWithin : (fuel limit : Nat) → Play → Play
  | 0, _, p => p
  | fuel + 1, limit, p =>
    match takeDue? limit p.loops with
    | none => p
    | some (l, rest) =>
      let (again, p) := advanceLoop l (moveTimer l.wake { p with loops := rest })
      runDueWithin fuel limit { p with loops := p.loops ++ again.toList }

/-- How often loops run at most while one thing is waited for. -/
def patience : Nat := 100000

/-- Time passes up to a moment, and the loops that are due before run. -/
def passTo (t : Nat) (p : Play) : Play := moveTimer t (runDueWithin patience t p)

/-- The loop of a manager started. -/
def startLoop (place : Nat) (p : Play) : Play :=
  modifyEngine { p with loops := p.loops ++ [{ engine := place, wake := p.world.timer }] } place
    fun e => { e with running := true }

/-- The loop of a manager told to stop: if it waits, it goes on at once. -/
def tellToStop (place : Nat) (p : Play) : Play :=
  let tell (l : Loop) : Loop :=
    if l.engine = place then
      { l with stopping := true, wake := if l.round.isNone then p.world.timer else l.wake }
    else l
  modifyEngine { p with loops := p.loops.map tell } place fun e => { e with running := false }

/-- Time passes until a manager has no loop any more. -/
def awaitStop (place : Nat) : (fuel : Nat) → Play → Play
  | 0, p => p
  | fuel + 1, p =>
    let p := runDueWithin patience (p.world.timer + 1) p
    if p.loops.any (·.engine == place) then
      match p.loops.foldl (fun t l => earlier t (some l.wake)) none with
      | some t => awaitStop place fuel (moveTimer t p)
      | none => p
    else p

/-- The loop of a manager stopped: a round under way is taken to its end. -/
def stopLoop (place : Nat) (p : Play) : Play := awaitStop place patience (tellToStop place p)

/-! ### Rounds in the foreground -/

/-- Rounds taken as far as they get, in their order, and what follows those that are over. -/
def advanceRounds (paced : Bool) : List Round → Play → List Round × Play
  | [], p => ([], p)
  | r :: rs, p =>
    let (r, p) :=
      if r.done then (r, p)
      else
        let (r, p) := advanceRound r p
        (r, if r.done && paced then (finishRound r.engine r.total p).2 else p)
    let (rs, p) := advanceRounds paced rs p
    (r :: rs, p)

/-- Rounds that go on side by side taken to their ends; `fuel` bounds how often something is waited
for. -/
def runRoundsWithin (paced : Bool) : (fuel : Nat) → List Round → Play → List Round × Play
  | 0, rs, p => (rs, p)
  | fuel + 1, rs, p =>
    let (rs, p) := advanceRounds paced rs p
    match (rs.filter (!·.done)).foldl (fun t r => earlier t r.wake?) none with
    | some t => runRoundsWithin paced fuel rs (passTo t p)
    | none => (rs, p)

/-- A round of each of some managers, side by side; if `paced`, the managers ask how to go on after
it. -/
def runRounds (paced : Bool) (places : List Nat) (p : Play) : List Round × Play :=
  runRoundsWithin paced patience (places.map fun place => { engine := place }) p

/-- Rounds of a manager one after the other. -/
def runTicks (place : Nat) : (times : Nat) → Play → List Tally × Play
  | 0, p => ([], p)
  | times + 1, p =>
    let (rs, p) := runRounds true [place] p
    let (ts, p) := runTicks place times p
    (rs.map (·.total) ++ ts, p)

/-! ### Single messages and negotiations -/

/-- A message sent, and its answer once it is there. -/
def sendMessage (via : World.Via) (m : Message) (p : Play) : Answer × Play :=
  let j := p.world.journey via m
  let p := if j.span = 0 then p else passTo (p.world.timer + j.span) p
  let (answer, world) := p.world.arrive j.goal m
  (answer, { p with world })

/-- A handling taken to its end at a seat; `fuel` bounds the messages. -/
def runHandlingWithin (seat : World.Seat) : (fuel : Nat) → Handling → Play → Handling × Play
  | 0, h, p => (h, p)
  | fuel + 1, h, p =>
    let (h, world) := h.runUnless (World.holds seat) (World.venue seat) p.world
    let p := { p with world }
    match h.outgoing? with
    | some m =>
      let (answer, p) := sendMessage seat.via m p
      runHandlingWithin seat fuel (h.receive answer) p
    | none => (h, p)

/-- A negotiation given to a handler at a seat, and how that ends. -/
def handle (seat : World.Seat) (handler : Handler) (n : Negotiation) (p : Play) : Verdict × Play :=
  let (messageId, world) := p.world.freshId
  let (h, p) := runHandlingWithin seat 2 (handler messageId (World.timeAt seat world) n) { p with world }
  ((h.verdict?).getD .brokeDown, p)

end Play

end Parley.Scenario
