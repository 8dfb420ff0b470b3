import Parley.Dispatch.Basic
import Parley.Scenario.Basic
import Parley.Uuid

/-!
# The world of a scenario

The clock, the ledgers and the handles on them, the dispatchers, and the names they go by. Steps that
concern only the clock and the ledgers are here, since a dispatcher may be told to run some of them
while it holds a message.

* `World.runStoreStep` is one such step.
* `World.deliver` gives a message to a dispatcher; `World.venue` is the world as handlers see it.
-/

namespace Parley.Scenario

/-- The negotiation a step is about: a stored one, or one that the step describes. -/
inductive Target where
  /-- The negotiation stored under an id. -/
  | stored (id : String)
  /-- A described one. -/
  | described (description : Description)
  deriving DecidableEq, Repr

/-- A step about the clock or a ledger. -/
inductive StoreStep where
  /-- Move the clock on. -/
  | advance (span : Moment)
  /-- Set the clock. -/
  | setClock (now : Moment)
  /-- Put a new negotiation in. -/
  | create (store : String) (description : Description)
  /-- Look a negotiation up. -/
  | find (store id : String)
  /-- Look a negotiation up by the id the other side uses. -/
  | findByCorrelation (store id : String)
  /-- Lease a batch. -/
  | next (store : String) (state : State) (limit : Nat)
  /-- Show the lease on a negotiation. -/
  | leaseOf (store id : String)
  /-- Store a negotiation after some edits. -/
  | save (store : String) (target : Target) (edits : List TimedEdit)
  /-- End the lease on a negotiation. -/
  | release (store : String) (target : Target)
  /-- Take a negotiation out. -/
  | delete (store id : String)
  /-- List the negotiations of a state. -/
  | query (store : String) (state : State) (limit : Nat)
  /-- Count the negotiations. -/
  | size (store : String)
  /-- Show all records. -/
  | dump (store : String)
  /-- Make the next calls of an operation fail. -/
  | outage (store : String) (op : Operation) (times : Nat) (reason : String)
  /-- A step that could not be read. -/
  | unreadable (error : StepError)
  deriving DecidableEq, Repr

/-- What a step about the clock or a ledger shows. -/
inductive StoreValue where
  /-- Nothing. -/
  | nothing
  /-- A number. -/
  | number (n : Nat)
  /-- A negotiation in brief. -/
  | brief (negotiation : Negotiation)
  /-- A whole negotiation, if there is one. -/
  | negotiation (negotiation : Option Negotiation)
  /-- An id, if there is one. -/
  | id? (id : Option String)
  /-- Several ids. -/
  | ids (ids : List String)
  /-- A lease, if there is one. -/
  | lease (lease : Option Lease)
  /-- Records, by id. -/
  | records (records : List Record)
  /-- The number of records and the holder of the handle. -/
  | size (n : Nat) (holder : String)
  deriving DecidableEq, Repr

/-- A dispatcher in a scenario. -/
structure Post where
  /-- The dispatcher. -/
  dispatcher : Dispatcher
  /-- How long it holds a message before it records it. -/
  latency : Moment := 0
  /-- The steps to run while it holds the messages to come, one list for each message. -/
  hooks : List (List StoreStep) := []
  /-- How many of its messages were reported. -/
  reported : Nat := 0
  deriving Inhabited

/-- A handle and the place of the ledger it opens. -/
structure Access where
  /-- The place of the ledger. -/
  ledger : Nat
  /-- The handle. -/
  handle : Handle
  deriving DecidableEq, Repr, Inhabited

/-- The clock, the ledgers, the dispatchers and their names. -/
structure World where
  /-- What the clock of the scenario shows. -/
  clock : Moment
  /-- What the clock on the wall shows. -/
  wall : Moment := 2000000000000
  /-- The milliseconds that passed while things were waited for. -/
  timer : Nat := 0
  /-- How many ids were drawn. -/
  draws : Nat := 0
  /-- The ledgers. -/
  ledgers : List Ledger := []
  /-- The handles on them. -/
  accesses : List Access := []
  /-- The dispatchers. -/
  posts : List Post := []
  /-- The names of ledgers, newest first. -/
  ledgerNames : List (String × Nat) := []
  /-- The names of handles, newest first. -/
  accessNames : List (String × Nat) := []
  /-- The names of dispatchers, newest first. -/
  postNames : List (String × Nat) := []
  /-- What the steps run by dispatchers showed since the last report, newest first. -/
  hooked : List (Except StepError StoreValue) := []
  deriving Inhabited

/-- The value of a name, the newest one. -/
def lookup? {α : Type} (name : String) (names : List (String × α)) : Option α :=
  (names.find? (·.1 == name)).map (·.2)

/-- The names with a new value of one of them. -/
def define {α : Type} (name : String) (value : α) (names : List (String × α)) :
    List (String × α) :=
  (name, value) :: names.filter (·.1 != name)

namespace World

/-! ### Ledgers -/

/-- The desk of a handle. -/
def desk (w : World) (access : Nat) : Desk :=
  let a := w.accesses.getD access default
  ⟨a.handle, w.ledgers.getD a.ledger default, w.clock⟩

/-- The world with a changed desk of a handle. -/
def setDesk (access : Nat) (d : Desk) (w : World) : World :=
  let a := w.accesses.getD access default
  { w with
    accesses := w.accesses.set access { a with handle := d.handle }
    ledgers := w.ledgers.set a.ledger d.ledger }

/-- Work at the desk of a handle. -/
def atDesk {α : Type} (access : Nat) (work : Desk → α × Desk) (w : World) : α × World :=
  let (a, d) := work (w.desk access)
  (a, w.setDesk access d)

/-- A fresh id. -/
def freshId (w : World) : String × World :=
  ((Uuid.drawn w.draws).text, { w with draws := w.draws + 1 })

/-- The handle of a name. -/
def access? (w : World) (name : String) : Except StepError Nat :=
  match lookup? name w.accessNames with
  | some i => .ok i
  | none => .error (.badInput "store")

/-- The described negotiation. -/
def describe (w : World) (d : Description) : Except StepError Negotiation × World :=
  let (id, w) := w.freshId
  (d.build id w.clock, w)

/-- The negotiation a step is about. -/
def target (w : World) (access : Nat) (t : Target) : Except StepError Negotiation × World :=
  match t with
  | .stored id =>
    match (w.desk access).ledger.find? id with
    | some n => (.ok n, w)
    | none => (.error .noEntity, w)
  | .described d => w.describe d

/-- The records of a ledger by id. -/
def dump (l : Ledger) : List Record := l.records.mergeSort fun r s => r.id ≤ s.id

/-! ### Steps -/

/-- A step at the desk of a handle. -/
def stepAtDesk (w : World) (access : Nat) :
    StoreStep → Except StepError StoreValue × World
  | .create _ d =>
    match w.describe d with
    | (.error e, w) => (.error e, w)
    | (.ok n, w) =>
      w.atDesk access fun desk =>
        match desk.ledger.create n with
        | .ok ledger => (.ok (.brief n), { desk with ledger })
        | .error e => (.error (.store e), desk)
  | .find _ id =>
    w.atDesk access fun desk =>
      let (r, desk) := desk.find id
      ((r.map .negotiation).mapError .store, desk)
  | .findByCorrelation _ id =>
    (.ok (.id? (((w.desk access).ledger.findByCorrelation? id).map (·.id))), w)
  | .next _ state limit =>
    w.atDesk access fun desk =>
      let (r, desk) := desk.next limit state
      ((r.map fun ns => .ids (ns.map (·.id))).mapError .store, desk)
  | .leaseOf _ id => (.ok (.lease ((w.desk access).ledger.leaseOf? id)), w)
  | .save _ t edits =>
    match w.target access t with
    | (.error e, w) => (.error e, w)
    | (.ok n, w) =>
      match applyAll w.clock edits n with
      | .error e => (.error e, w)
      | .ok n =>
        w.atDesk access fun desk =>
          let (r, desk) := desk.save n
          ((r.map fun _ => .brief n).mapError .store, desk)
  | .release _ t =>
    match w.target access t with
    | (.error e, w) => (.error e, w)
    | (.ok n, w) =>
      w.atDesk access fun desk =>
        let (r, desk) := desk.release n.id
        ((r.map fun _ => .lease (desk.ledger.leaseOf? n.id)).mapError .store, desk)
  | .delete _ id =>
    w.atDesk access fun desk =>
      match desk.ledger.delete id desk.handle.holder desk.now with
      | .ok ledger => (.ok (.number ledger.size), { desk with ledger })
      | .error e => (.error (.store e), desk)
  | .query _ state limit =>
    (.ok (.ids (((w.desk access).ledger.query state limit).map (·.id))), w)
  | .size _ => (.ok (.size (w.desk access).ledger.size (w.desk access).handle.holder), w)
  | .dump _ => (.ok (.records (dump (w.desk access).ledger)), w)
  | .outage _ op times reason =>
    w.atDesk access fun desk =>
      (.ok .nothing, { desk with handle := desk.handle.addOutages op times reason })
  | _ => (.ok .nothing, w)

/-- The name of the handle a step is about, if it is about one. -/
def storeName? : StoreStep → Option String
  | .create s _ | .find s _ | .findByCorrelation s _ | .next s _ _ | .leaseOf s _ | .save s _ _
  | .release s _ | .delete s _ | .query s _ _ | .size s | .dump s | .outage s _ _ _ => some s
  | .advance _ | .setClock _ | .unreadable _ => none

/-- A step about the clock or a ledger: what it shows, and the world after it. -/
def runStoreStep (w : World) (step : StoreStep) : Except StepError StoreValue × World :=
  match step with
  | .advance span =>
    let w := { w with clock := w.clock + span }
    (.ok (.number w.clock.toNat), w)
  | .setClock now => (.ok (.number now.toNat), { w with clock := now })
  | .unreadable e => (.error e, w)
  | step =>
    match storeName? step with
    | none => (.ok .nothing, w)
    | some name =>
      match w.access? name with
      | .error e => (.error e, w)
      | .ok access => w.stepAtDesk access step

/-- Steps run by a dispatcher, what they show being kept for the next report. -/
def runHook (w : World) (steps : List StoreStep) : World :=
  steps.foldl
    (fun w step =>
      let (r, w) := w.runStoreStep step
      { w with hooked := r :: w.hooked })
    w

/-! ### Messages -/

/-- A message given to the dispatcher at a place: it is recorded, the next answer is taken, and the
next list of steps is run. -/
def deliver (w : World) (place : Nat) (m : Message) : Answer × World :=
  match w.posts[place]? with
  | none => (.error (.noDispatcher m.protocol), w)
  | some post =>
    let (answer, dispatcher) := post.dispatcher.receive m
    let w := { w with posts := w.posts.set place { post with dispatcher, hooks := post.hooks.tail } }
    (answer, w.runHook (post.hooks.head?.getD []))

/-- The way a message takes: to one dispatcher, or through a registry, from which it may go on
through others. -/
inductive Via where
  /-- To the dispatcher at a place. -/
  | post (place : Nat)
  /-- The way that a registry has for the message. -/
  | registry (registry : Registry Via)
  deriving Inhabited

/-- What becomes of a message and after how many milliseconds: it is delivered to the dispatcher at a
place, or there is no answer. -/
structure Journey where
  /-- How long it takes. -/
  span : Nat
  /-- Where it ends. -/
  goal : Except DispatchError Nat
  deriving Repr

/-- A journey that is given up after some time, if it takes longer. -/
def Journey.within (limit : Option Moment) (j : Journey) : Journey :=
  match limit with
  | some limit => if limit.toNat < j.span then ⟨limit.toNat, .error (.timeout limit)⟩ else j
  | none => j

/-- What becomes of a message that takes some way. -/
def journey (w : World) (via : Via) (m : Message) : Journey :=
  match via with
  | .post place => ⟨(w.posts[place]?.map (·.latency.toNat)).getD 0, .ok place⟩
  | .registry r =>
    match h : r.route? m.protocol with
    | none => ⟨0, .error (.noDispatcher m.protocol)⟩
    | some next =>
      have := Registry.sizeOf_route?_lt h
      (w.journey next m).within r.timeout
termination_by via

/-- The end of a message's journey. -/
def arrive (w : World) (goal : Except DispatchError Nat) (m : Message) : Answer × World :=
  match goal with
  | .ok place => w.deliver place m
  | .error e => (.error e, w)

/-- Where a worker stands: its handle, the way its messages take, and whose clock it reads. -/
structure Seat where
  /-- The handle. -/
  access : Nat
  /-- The way of its messages; a worker that sends none has none. -/
  via : Via := .post 0
  /-- It reads the clock on the wall and not that of the scenario. -/
  readsWall : Bool := false
  deriving Inhabited

/-- What a worker's clock shows. -/
def timeAt (seat : Seat) (w : World) : Moment := if seat.readsWall then w.wall else w.clock

/-- The world as a worker's handlers see it; messages arrive at once. -/
def venue (seat : Seat) : Venue World where
  now := timeAt seat
  desk w := w.desk seat.access
  setDesk d w := w.setDesk seat.access d
  freshId := freshId
  dispatch m w := w.arrive (w.journey seat.via m).goal m

/-- A message takes time to arrive. -/
def holds (seat : Seat) (m : Message) (w : World) : Bool := (w.journey seat.via m).span != 0

/-- No message takes time to arrive. -/
def isPrompt (w : World) : Bool := w.posts.all (·.latency == 0)

end World

end Parley.Scenario
