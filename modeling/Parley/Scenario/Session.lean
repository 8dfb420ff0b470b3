import Parley.Scenario.Step

/-!
# Playing scenarios

A session is a play together with the names of what the steps so far have set up.

* `Session.play` plays one step, `playAll` a whole scenario: one value or error for every step.
-/

namespace Parley.Scenario

/-- The play with the names of what was set up. -/
structure Session where
  /-- The play. -/
  now : Play
  /-- The registries, newest first. -/
  registries : List (String × Registry World.Via) := []
  /-- The contexts with the seats of their workers, newest first. -/
  contexts : List (String × (Context × World.Seat)) := []
  /-- The places of managers, newest first. -/
  managers : List (String × Nat) := []

instance : Inhabited Session := ⟨⟨default, [], [], []⟩⟩

/-- What a step shows, and the session after it. -/
abbrev Shown := Except StepError Value × Session

namespace Session

/-- The session with another world. -/
def withWorld (s : Session) (world : World) : Session := { s with now := { s.now with world } }

/-- The session of a scenario before its first step. -/
def opening (clock : Moment) : Session := ⟨⟨{ clock }, [], []⟩, [], [], []⟩

/-! ### Names -/

/-- The value of a name, or an error about a field. -/
def named {α : Type} (field name : String) (names : List (String × α)) : Except StepError α :=
  match lookup? name names with
  | some a => .ok a
  | none => .error (.badInput field)

/-- The way of messages to the dispatcher or registry of a name. -/
def via (s : Session) (field name : String) : Except StepError World.Via :=
  match lookup? name s.now.world.postNames with
  | some place => .ok (.post place)
  | none => (named field name s.registries).map .registry

/-- The manager of a name and its place. -/
def manager (s : Session) (name : String) : Except StepError (Nat × Engine) := do
  let place ← named "manager" name s.managers
  match s.now.engines[place]? with
  | some e => .ok (place, e)
  | none => .error (.badInput "manager")

/-- The session after a step that needs something first; if that is not there, nothing happens. -/
def withNeed {α : Type} (need : Except StepError α) (s : Session) (f : α → Shown) : Shown :=
  match need with
  | .ok a => f a
  | .error e => (.error e, s)

/-! ### Reports -/

/-- The messages of dispatchers that were not reported yet. -/
def unreported (w : World) : List (String × List Message) :=
  w.postNames.filterMap fun (name, place) =>
    match w.posts[place]? with
    | some post =>
      let new := post.dispatcher.sent.drop post.reported
      if new.isEmpty then none else some (name, new)
    | none => none

/-- The world in which all messages of named dispatchers were reported. -/
def markReported (w : World) : World :=
  { w with
    hooked := []
    posts := w.posts.map fun post => { post with reported := post.dispatcher.sent.length } }

/-- What happened since the last report, and the session in which it was reported. -/
def report (s : Session) : Effects × Session :=
  let w := s.now.world
  let ledgers := w.ledgerNames.map fun (name, place) =>
    (name, World.dump (w.ledgers.getD place default))
  (⟨unreported w, w.hooked.reverse, ledgers⟩, s.withWorld (markReported w))

/-- The counters of a manager and the notes since the last report. -/
def reportEngine (s : Session) (place : Nat) : Counters × List WaitNote × Session :=
  match s.now.engines[place]? with
  | some e =>
    (e.pacer.counters, e.noted.reverse,
      { s with now := s.now.modifyEngine place fun e => { e with noted := [] } })
  | none => ({}, [], s)

/-- What a step about rounds of a manager shows. -/
def showTicks (s : Session) (place : Nat) (processed : Option (List Nat)) : Shown :=
  let (effects, s) := s.report
  let (counters, notes, s) := s.reportEngine place
  (.ok (.ticks effects processed counters notes), s)

/-! ### Setting up -/

/-- A new ledger and a handle on it. -/
def newStore (s : Session) (name holder : String) (span : Moment) : Shown :=
  let w := s.now.world
  (.ok (.ledger (.number 0)), s.withWorld
    { w with
      ledgers := w.ledgers ++ [Ledger.empty]
      accesses := w.accesses ++ [⟨w.ledgers.length, { holder, span }⟩]
      ledgerNames := define name w.ledgers.length w.ledgerNames
      accessNames := define name w.accesses.length w.accessNames })

/-- Another handle on the ledger of a handle. -/
def shareStore (s : Session) (name holder source : String) (span : Option Moment) : Shown :=
  let w := s.now.world
  s.withNeed (named "of" source w.accessNames) fun place =>
    let old := w.accesses.getD place default
    let handle : Handle := { holder, span := span.getD old.handle.span }
    (.ok (.ledger (.number (w.desk place).ledger.size)), s.withWorld
      { w with
        accesses := w.accesses ++ [⟨old.ledger, handle⟩]
        accessNames := define name w.accesses.length w.accessNames })

/-- A dispatcher. -/
def newDispatcher (s : Session) (name protocol : String) (latency : Moment) : Shown :=
  let w := s.now.world
  (.ok (.text protocol), s.withWorld
    { w with
      posts := w.posts ++ [{ dispatcher := { protocol }, latency }]
      postNames := define name w.posts.length w.postNames })

/-- The dispatcher of a name changed. -/
def changePost (s : Session) (name : String) (f : Post → Post) : Shown :=
  let w := s.now.world
  s.withNeed (named "dispatcher" name w.postNames) fun place =>
    (.ok (.ledger .nothing), s.withWorld { w with posts := w.posts.modify place f })

/-- The protocol that a way of messages is registered for. -/
def protocolOf (w : World) : World.Via → String
  | .post place => (w.posts[place]?.map (·.dispatcher.protocol)).getD ""
  | .registry _ => Registry.ownProtocol

/-- The registry with the dispatchers and registries of some names. -/
def registerAll (s : Session) : List String → Registry World.Via →
    Except StepError (Registry World.Via)
  | [], r => .ok r
  | name :: names, r => do
    let via ← s.via "dispatchers" name
    s.registerAll names (r.register (protocolOf s.now.world via) via)

/-- A registry made, or dispatchers added to it. -/
def setRegistry (s : Session) (name : String) (dispatchers : List String) (timeout : Option Moment) :
    Shown :=
  let old := (lookup? name s.registries).getD {}
  s.withNeed (s.registerAll dispatchers old) fun r =>
    let r := { r with timeout := timeout <|> r.timeout }
    (.ok (.registry Registry.ownProtocol r.protocols),
      { s with registries := define name r s.registries })

/-- An optional name looked up. -/
def namedOption {α : Type} (look : String → Except StepError α) :
    Option String → Except StepError (Option α)
  | some name => (look name).map some
  | none => .ok none

/-- The latest moment that a clock that was never set may show. -/
def earliestTime : Moment := 1577836800000

/-- A context. -/
def newContext (s : Session) (name : String) (spec : ContextSpec) : Shown :=
  let w := s.now.world
  s.withNeed (namedOption (named "store" · w.accessNames) spec.store) fun store =>
    s.withNeed (namedOption (s.via "dispatcher") spec.dispatcher) fun dispatcher =>
      let base : Assembly Nat World.Via := (spec.settings.map Settings.assembly).getD {}
      let built := Assembly.build
        { base with
          store, dispatcher
          participantId := spec.participantId <|> base.participantId
          policy := spec.policy.getD base.policy
          batchSize := spec.batchSize.getD base.batchSize
          autoAgree := spec.autoAgree.getD base.autoAgree }
      match built with
      | .error e => (.error (.assembly e), s)
      | .ok (access, via, context) =>
        let seat : World.Seat := { access, via, readsWall := spec.readsWall }
        (.ok (.context context (earliestTime < World.timeAt seat w)),
          { s with contexts := define name (context, seat) s.contexts })

/-- A manager put in its place, the loop of one that had its name being told to stop. -/
def addEngine (s : Session) (name : String) (e : Engine) : Session :=
  let now := match lookup? name s.managers with
    | some place => s.now.tellToStop place
    | none => s.now
  { s with
    now := { now with engines := now.engines ++ [e] }
    managers := define name now.engines.length s.managers }

/-- A manager of one side. -/
def newManager (s : Session) (name context : String) (side : Side) (waits : WaitStrategy) : Shown :=
  s.withNeed (named "context" context s.contexts) fun (context, seat) =>
    let m : Manager := ⟨side, context⟩
    (.ok (.manager side m.states),
      s.addEngine name
        { name := m.name, stations := m.processors.map (.working · seat), pacer := { waits } })

/-- The station of a description. -/
def station (s : Session) : StationSpec → Except StepError Station
  | .scripted name tallies => .ok (.scripted name tallies)
  | .processor spec => do
    let access ← s.now.world.access? spec.store
    .ok (.working ⟨spec.state, spec.batchSize, spec.handler⟩ { access })

/-- A manager of stations. -/
def newEngine (s : Session) (name : String) (specs : List StationSpec) (waits : Option WaitStrategy) :
    Shown :=
  s.withNeed (specs.mapM s.station) fun stations =>
    if stations.isEmpty then (.error (.manager (.noProcessors name)), s)
    else
      (.ok (.engine name (stations.map Station.name)),
        s.addEngine name
          { name, stations, pacer := { waits := waits.getD default }, notes := waits.isSome })

/-! ### Letting things happen -/

/-- The loop of a manager started. -/
def start (s : Session) (name : String) : Shown :=
  s.withNeed (s.manager name) fun (place, e) =>
    if e.running then (.error (.manager (.alreadyRunning e.name)), s)
    else (.ok (.ledger .nothing), { s with now := s.now.startLoop place })

/-- A negotiation that a step is about, looked up through the handle of a name if it is stored. -/
def target (s : Session) (store : Option String) (t : Target) :
    Except StepError Negotiation × Session :=
  match t with
  | .described d =>
    let (n, world) := s.now.world.describe d
    (n, s.withWorld world)
  | .stored _ =>
    match store with
    | none => (.error (.badInput "store"), s)
    | some name =>
      match s.now.world.access? name with
      | .error e => (.error e, s)
      | .ok access =>
        let (n, world) := s.now.world.target access t
        (n, s.withWorld world)

/-- A negotiation given to a handler at a seat. -/
def handle (s : Session) (seat : World.Seat) (handler : Handler) (n : Negotiation) : Shown :=
  let (verdict, now) := s.now.handle seat handler n
  let (effects, s) := { s with now }.report
  (.ok (.verdict effects verdict), s)

/-- The stages of an attempt up to its end at the desk of a handle, with what is called on the way;
an attempt has two stages after its answer, so a bound of two is enough. -/
def runAttempt (access : Nat) (t : Attempt) (callbacks : Callbacks) :
    (bound : Nat) → Stage → World → Except RetryError Outcome × List Call × World
  | 0, _, w => (.ok .notProcessed, [], w)
  | bound + 1, stage, w =>
    let calls := match stage with
      | .found answer current =>
        let route := Attempt.route t.policy current.stateCount answer
        if callbacks.covers route then [Call.route route] else []
      | _ => []
    match w.atDesk access fun desk => t.step w.clock desk stage with
    | (.finished r, w) => (r, calls, w)
    | (.going stage, w) =>
      let (r, more, w) := runAttempt access t callbacks bound stage w
      (r, calls ++ more, w)

/-- An attempt about a negotiation with an answer that is given; the steps of `hook` run while the
message is under way. -/
def attempt (s : Session) (access : Nat) (n : Negotiation) (answer : Answer) (policy : RetryPolicy)
    (callbacks : Callbacks) (hook : List StoreStep) : Shown :=
  let t : Attempt := ⟨n, policy, callbacks.reactions⟩
  let w := s.now.world
  let (result, calls, w) :=
    match t.start w.clock with
    | .sending =>
      let (result, calls, w) := runAttempt access t callbacks 2 (.answered answer) (w.runHook hook)
      (result, Call.dispatch :: calls, w)
    | stage => runAttempt access t callbacks 2 stage w
  let (effects, s) := (s.withWorld w).report
  (.ok (.attempt effects result calls), s)

/-- A round of a processor whose handlers send nothing. -/
def process (s : Session) (spec : ProcessorSpec) : Shown :=
  s.withNeed (s.now.world.access? spec.store) fun access =>
    let p : Processor := ⟨spec.state, spec.batchSize, spec.handler⟩
    let (ms, w) := p.run (World.venue { access }) s.now.world
    let (effects, s) := (s.withWorld w).report
    (.ok (.processed effects p.name (Processor.tally ms) (ms.map (·.negotiation.id))), s)

/-- A negotiation that a step is about given to a handler of a context. -/
def handleFor (s : Session) (context : String) (store : Option String) (t : Target)
    (handler : Context → Except StepError Handler) : Shown :=
  s.withNeed (named "context" context s.contexts) fun (context, seat) =>
    match s.target store t with
    | (.error e, s) => (.error e, s)
    | (.ok n, s) => s.withNeed (handler context) fun handler => s.handle seat handler n

/-- One step. -/
def play (s : Session) : Step → Shown
  | .ledger step =>
    let (r, w) := s.now.world.runStoreStep step
    (r.map .ledger, s.withWorld w)
  | .newStore name holder span => s.newStore name holder span
  | .shareStore name holder source span => s.shareStore name holder source span
  | .dispatcher name protocol latency => s.newDispatcher name protocol latency
  | .enqueue name answer times =>
    s.changePost name fun post =>
      { post with dispatcher := post.dispatcher.enqueue answer times }
  | .hook name steps => s.changePost name fun post => { post with hooks := post.hooks ++ [steps] }
  | .registry name dispatchers timeout => s.setRegistry name dispatchers timeout
  | .dispatch name message =>
    s.withNeed (s.via "via" name) fun via =>
      s.withNeed message fun m =>
        let (answer, now) := s.now.sendMessage via m
        let (effects, s) := { s with now }.report
        (.ok (.answer effects answer), s)
  | .sent name =>
    s.withNeed (named "dispatcher" name s.now.world.postNames) fun place =>
      let sent := (s.now.world.posts[place]?.map (·.dispatcher.sent)).getD []
      (.ok (.sent sent.length sent.getLast?), s)
  | .context name spec => s.newContext name spec
  | .manager name context side waits => s.newManager name context side waits
  | .engine name specs waits => s.newEngine name specs waits
  | .tick name times =>
    s.withNeed (s.manager name) fun (place, _) =>
      let (tallies, now) := s.now.runTicks place times
      { s with now }.showTicks place (some (tallies.map Tally.processed))
  | .tickAll names =>
    s.withNeed (names.mapM fun name => (s.manager name).map (·.1)) fun places =>
      let (rounds, now) := s.now.runRounds true places
      let (effects, s) := { s with now }.report
      (.ok (.tickAll effects (rounds.map fun r => r.total.processed)), s)
  | .start name => s.start name
  | .stop name =>
    s.withNeed (s.manager name) fun (place, _) =>
      { s with now := s.now.stopLoop place }.showTicks place none
  | .running name =>
    s.withNeed (s.manager name) fun (_, e) => (.ok (.flag e.running), s)
  | .stats name =>
    s.withNeed (s.manager name) fun (_, e) => (.ok (.counters e.pacer.counters), s)
  | .sleep span =>
    (.ok (.ledger .nothing),
      { s with now := s.now.passTo (s.now.world.timer + span.toNat) })
  | .handle context duty store t =>
    s.handleFor context store t fun context => .ok (duty.begin context)
  | .advanceState context store t state =>
    s.handleFor context store t fun _ => state.map fun state _ => Handling.advance state
  | .attempt store t answer policy callbacks hook =>
    s.withNeed (s.now.world.access? store) fun access =>
      match s.target (some store) t with
      | (.error e, s) => (.error e, s)
      | (.ok n, s) => s.attempt access n answer policy callbacks hook
  | .process spec => s.process spec
  | .unreadable e => (.error e, s)

/-- Steps one after the other from a session on. -/
def playFrom (s : Session) : List Step → List (Except StepError Value)
  | [] => []
  | step :: steps =>
    let (shown, s) := s.play step
    shown :: playFrom s steps

end Session

/-- A scenario that begins with the clock at a moment: what each step shows. -/
def playAll (clock : Moment) (steps : List Step) : List (Except StepError Value) :=
  (Session.opening clock).playFrom steps

end Parley.Scenario
