import Parley.Proofs.Dispatch.Routing
import Parley.Scenario.Session

/-!
# The dispatchers of a world

In a world a message makes a journey to its dispatcher, which may take its time and run steps of its
own on the ledgers.  Neither bears on where the message goes and how it is answered: an office, which
is a world and a registry of its dispatchers, shows the exchange of these.

* `World.posts_runHook` : the steps that a dispatcher runs leave all dispatchers alone.
* `Shows.heed` : what an office is told does the same to the exchange that it shows.
* `Office.routed_and_served` : so the messages, the answers and the protocols of an office are read
  off the history of what it was told.

Journeys that are given up after some time are not spoken of: the registry waits for every answer.
-/

namespace Parley

namespace Scenario

namespace World

/-! ### Steps that a dispatcher runs -/

theorem posts_target (w : World) (access : ℕ) (t : Target) :
    (w.target access t).2.posts = w.posts := by
  unfold target
  split
  · split <;> rfl
  · rfl

theorem posts_stepAtDesk (w : World) (access : ℕ) (step : StoreStep) :
    (w.stepAtDesk access step).2.posts = w.posts := by
  cases step with
  | create store d =>
    have hd : (w.describe d).2.posts = w.posts := rfl
    simp only [stepAtDesk]
    split
    next heq => rw [heq] at hd; exact hd
    next heq => rw [heq] at hd; exact hd
  | save store t edits =>
    have ht := posts_target w access t
    simp only [stepAtDesk]
    split
    next heq => rw [heq] at ht; exact ht
    next heq =>
      rw [heq] at ht
      split <;> exact ht
  | release store t =>
    have ht := posts_target w access t
    simp only [stepAtDesk]
    split
    next heq => rw [heq] at ht; exact ht
    next heq => rw [heq] at ht; exact ht
  | _ => rfl

theorem posts_runStoreStep (w : World) (step : StoreStep) :
    (w.runStoreStep step).2.posts = w.posts := by
  unfold runStoreStep
  split
  · rfl
  · rfl
  · rfl
  · split
    · rfl
    · split
      · rfl
      · exact posts_stepAtDesk ..

theorem posts_runHook (w : World) (steps : List StoreStep) : (w.runHook steps).posts = w.posts := by
  induction steps generalizing w with
  | nil => rfl
  | cons step steps ih => exact (ih _).trans (posts_runStoreStep w step)

/-! ### Journeys -/

/-- The registry through which messages go to the dispatchers at some places. -/
def through (r : Registry ℕ) : Registry Via where
  entries := r.entries.map fun e => (e.1, .post e.2)
  timeout := r.timeout

variable {r : Registry ℕ}

theorem route?_through (p : String) : (through r).route? p = (r.route? p).map .post := by
  simp [Registry.route?, through, List.find?_map, Function.comp_def]

theorem register_through (p : String) (place : ℕ) :
    (through r).register p (.post place) = through (r.register p place) := by
  simp [Registry.register, through, List.filter_map, Function.comp_def]

theorem protocols_through : (through r).protocols = r.protocols := by
  simp [Registry.protocols, through, Function.comp_def]

/-- The journey of a message ends at the dispatcher that is registered for it. -/
theorem goal_journey_through (hr : r.timeout = none) (w : World) (m : Message) :
    (w.journey (.registry (through r)) m).goal =
      match r.route? m.protocol with
      | some place => .ok place
      | none => .error (.noDispatcher m.protocol) := by
  have hlimit : (through r).timeout = none := hr
  have hroute := route?_through (r := r) m.protocol
  rw [journey]
  split
  next hnone =>
    rw [hnone] at hroute
    rw [Option.map_eq_none_iff.1 hroute.symm]
  next next hsome =>
    rw [hsome] at hroute
    obtain ⟨place, hplace, rfl⟩ := Option.map_eq_some_iff.1 hroute.symm
    rw [hplace, hlimit, journey]
    rfl

end World

/-! ### Offices -/

/-- A world, and a registry of its dispatchers. -/
structure Office where
  /-- The world. -/
  world : World
  /-- The registry. -/
  registry : Registry World.Via

namespace Office

variable {o : Office} {x : Exchange} {h : List Exchange.Call}

/-- What the office replies, if it was given a message, and the office afterwards. -/
def heed (o : Office) : Exchange.Call → Option Answer × Office
  | .register place =>
    (none, { o with
      registry := o.registry.register (Session.protocolOf o.world (.post place)) (.post place) })
  | .enqueue place answer times =>
    (none, { o with
      world := { o.world with
        posts := o.world.posts.modify place fun post =>
          { post with dispatcher := post.dispatcher.enqueue answer times } } })
  | .dispatch m =>
    let (answer, world) := o.world.arrive (o.world.journey (.registry o.registry) m).goal m
    (some answer, { o with world })
  | .deliver place m =>
    let (answer, world) := o.world.arrive (o.world.journey (.post place) m).goal m
    (some answer, { o with world })

/-- The office after a history of calls, the newest one first. -/
def after (o : Office) : List Exchange.Call → Office
  | [] => o
  | c :: before => ((o.after before).heed c).2

/-- The protocols of the dispatchers, by their places. -/
def protocolsByPlace (o : Office) : List String := o.world.posts.map (·.dispatcher.protocol)

/-- Nothing was sent or prepared yet, and nobody was registered. -/
structure IsNew (o : Office) : Prop where
  registry : o.registry = {}
  sent : ∀ post ∈ o.world.posts, post.dispatcher.sent = []
  answers : ∀ post ∈ o.world.posts, post.dispatcher.answers = []

/-- The office has the dispatchers and the registry of an exchange. -/
structure Shows (o : Office) (x : Exchange) : Prop where
  dispatchers : o.world.posts.map (·.dispatcher) = x.dispatchers
  registry : o.registry = World.through x.registry
  timeout : x.registry.timeout = none

theorem IsNew.shows (ho : o.IsNew) : o.Shows (Exchange.opening o.protocolsByPlace) where
  dispatchers := by
    show _ = (o.world.posts.map _).map _
    rw [List.map_map]
    refine (List.map_congr_left fun post hpost => ?_).symm
    show _ = post.dispatcher
    rw [Dispatcher.mk.injEq]
    exact ⟨rfl, (ho.answers post hpost).symm, (ho.sent post hpost).symm⟩
  registry := ho.registry
  timeout := rfl

namespace Shows

theorem getElem? (ho : o.Shows x) (place : ℕ) :
    x.dispatchers[place]? = (o.world.posts[place]?).map (·.dispatcher) := by
  rw [← ho.dispatchers, List.getElem?_map]

theorem deliver (ho : o.Shows x) (place : ℕ) (m : Message) :
    (o.world.deliver place m).1 = (x.deliver place m).1 ∧
    Shows { o with world := (o.world.deliver place m).2 } (x.deliver place m).2 := by
  have hplace := ho.getElem? place
  unfold World.deliver Exchange.deliver
  cases hpost : o.world.posts[place]? with
  | none =>
    rw [hpost] at hplace
    rw [hplace]
    exact ⟨rfl, ho⟩
  | some post =>
    rw [hpost] at hplace
    rw [hplace]
    refine ⟨rfl, ?_, ho.registry, ho.timeout⟩
    show (World.runHook _ _).posts.map _ = _
    rw [World.posts_runHook, List.map_set, ho.dispatchers]
    rfl

theorem heed_deliver (o : Office) (place : ℕ) (m : Message) : o.heed (.deliver place m) =
    (some (o.world.deliver place m).1, { o with world := (o.world.deliver place m).2 }) := by
  simp only [Office.heed, World.journey]
  rfl

theorem heed_dispatch (ho : o.Shows x) (m : Message) : o.heed (.dispatch m) =
    match x.registry.route? m.protocol with
    | some place => o.heed (.deliver place m)
    | none => (some (.error (.noDispatcher m.protocol)), o) := by
  have hgoal := World.goal_journey_through ho.timeout o.world m
  rw [← ho.registry] at hgoal
  have hheed : o.heed (.dispatch m) =
      (some (o.world.arrive (o.world.journey (.registry o.registry) m).goal m).1, { o with
        world := (o.world.arrive (o.world.journey (.registry o.registry) m).goal m).2 }) := rfl
  rw [hheed, hgoal]
  cases x.registry.route? m.protocol with
  | none => rfl
  | some place => exact (heed_deliver o place m).symm

/-- **What an office is told** does the same to the exchange that it shows. -/
theorem heed (ho : o.Shows x) {c : Exchange.Call}
    (hc : ∀ place, c = .register place → place < o.world.posts.length) :
    (o.heed c).1 = (x.heed c).1 ∧ (o.heed c).2.Shows (x.heed c).2 := by
  cases c with
  | register place =>
    have hpost := List.getElem?_eq_getElem (hc place rfl)
    have hplace := ho.getElem? place
    rw [hpost, Option.map_some] at hplace
    refine ⟨rfl, ?_⟩
    show Shows _ (x.register place)
    rw [Exchange.register, hplace]
    refine ⟨ho.dispatchers, ?_, ho.timeout⟩
    show o.registry.register _ _ = _
    rw [ho.registry, World.register_through, Session.protocolOf, hpost]
    rfl
  | enqueue place answer times =>
    refine ⟨rfl, ?_, ho.registry, ho.timeout⟩
    show (o.world.posts.modify place _).map _ = x.dispatchers.modify place _
    rw [← ho.dispatchers]
    apply List.ext_getElem?
    intro i
    simp only [List.getElem?_map, List.getElem?_modify]
    cases o.world.posts[i]? with
    | none => rfl
    | some post => by_cases hi : place = i <;> simp [hi]
  | deliver place m =>
    have hdeliver := ho.deliver place m
    rw [heed_deliver]
    exact ⟨congrArg some hdeliver.1, hdeliver.2⟩
  | dispatch m =>
    rw [ho.heed_dispatch, Exchange.heed, Exchange.dispatch]
    cases x.registry.route? m.protocol with
    | none => exact ⟨rfl, ho⟩
    | some place =>
      have hdeliver := ho.deliver place m
      show (o.heed (.deliver place m)).1 = _ ∧ (o.heed (.deliver place m)).2.Shows _
      rw [heed_deliver]
      exact ⟨congrArg some hdeliver.1, hdeliver.2⟩

end Shows

theorem length_posts_heed (o : Office) (c : Exchange.Call) :
    (o.heed c).2.world.posts.length = o.world.posts.length := by
  have hdeliver (place : ℕ) (m : Message) :
      (o.world.deliver place m).2.posts.length = o.world.posts.length := by
    unfold World.deliver
    split
    · rfl
    · show (World.runHook _ _).posts.length = _
      rw [World.posts_runHook]
      exact List.length_set
  have harrive (goal : Except DispatchError ℕ) (m : Message) :
      (o.world.arrive goal m).2.posts.length = o.world.posts.length := by
    cases goal with
    | ok place => exact hdeliver place m
    | error e => rfl
  cases c with
  | register place => rfl
  | enqueue place answer times => exact List.length_modify ..
  | dispatch m => exact harrive ..
  | deliver place m => exact harrive ..

theorem IsNew.shows_after (ho : o.IsNew)
    (hplaces : ∀ place, .register place ∈ h → place < o.world.posts.length) :
    (o.after h).Shows ((Exchange.opening o.protocolsByPlace).after h) ∧
      (o.after h).world.posts.length = o.world.posts.length := by
  induction h with
  | nil => exact ⟨ho.shows, rfl⟩
  | cons c before ih =>
    obtain ⟨hshows, hlength⟩ := ih fun place hmem => hplaces place (List.mem_cons_of_mem c hmem)
    refine ⟨(hshows.heed fun place hc => ?_).2, (length_posts_heed _ c).trans hlength⟩
    rw [hlength]
    exact hplaces place (hc ▸ List.mem_cons_self)

/-! ### What is read off a history -/

/-- The office is as a history of calls tells. -/
structure Accounts (o : Office) (ps : List String) (h : List Exchange.Call) : Prop where
  /-- The protocols are in strict order. -/
  pairwise_protocols : o.registry.protocols.Pairwise (· < ·)
  /-- They are those for which a dispatcher was registered. -/
  mem_protocols : ∀ p, p ∈ o.registry.protocols ↔ ∃ place, .register place ∈ h ∧ ps[place]? = some p
  /-- A dispatcher has recorded the messages that went to it, in their order. -/
  sent : ∀ place post, o.world.posts[place]? = some post →
    post.dispatcher.sent = Exchange.received ps place h
  /-- It has the answers that were prepared there, in their order, but for the oldest ones that were
  given away. -/
  answers : ∀ place post, o.world.posts[place]? = some post →
    post.dispatcher.answers =
      (Exchange.prepared place h).drop (Exchange.consumed ps place h)
  /-- A message that is sent is given to the dispatcher registered last for its protocol, and to
  none, nothing being changed, if none was registered. -/
  dispatch : ∀ m, o.heed (.dispatch m) =
    match Exchange.lastFor? ps h m.protocol with
    | some place => o.heed (.deliver place m)
    | none => (some (.error (.noDispatcher m.protocol)), o)
  /-- A message that is given to a dispatcher is answered with the oldest answer prepared there that
  was not given away, or with the default. -/
  deliver : ∀ place m, place < ps.length →
    (o.heed (.deliver place m)).1 = some (Exchange.nextAnswer ps place h)

theorem Shows.accounts {ps : List String} (ho : o.Shows x) (hx : x.Mirrors ps h) :
    o.Accounts ps h where
  pairwise_protocols := by
    rw [ho.registry, World.protocols_through]
    exact Registry.pairwise_protocols hx.single
  mem_protocols p := by
    rw [ho.registry, World.protocols_through, Registry.mem_protocols_iff, hx.route]
    exact Exchange.isSome_lastFor?_iff
  sent place post hpost := by
    have hplace := ho.getElem? place
    rw [hpost, hx.dispatchers] at hplace
    obtain ⟨p, -, hd⟩ := Option.map_eq_some_iff.1 hplace
    exact congrArg Dispatcher.sent hd.symm
  answers place post hpost := by
    have hplace := ho.getElem? place
    rw [hpost, hx.dispatchers] at hplace
    obtain ⟨p, -, hd⟩ := Option.map_eq_some_iff.1 hplace
    exact congrArg Dispatcher.answers hd.symm
  dispatch m := by rw [ho.heed_dispatch, hx.route]
  deliver place m hplace := by
    rw [Shows.heed_deliver, (ho.deliver place m).1]
    exact congrArg some (hx.deliver_of_some (List.getElem?_eq_getElem hplace))

/-- **Messages are routed and answered in order.**  Whatever an office was told since it was new, a
message goes to the dispatcher registered last for its protocol and to no other, every dispatcher
has recorded what went to it and gives away the answers prepared at it one after the other, and the
protocols are those that were registered, in strict order. -/
theorem routed_and_served (ho : o.IsNew)
    (hplaces : ∀ place, .register place ∈ h → place < o.world.posts.length) :
    (o.after h).Accounts o.protocolsByPlace h :=
  (ho.shows_after hplaces).1.accounts (Exchange.mirrors_after o.protocolsByPlace h)

/-- A second dispatcher takes the place of the first one for their protocol: it is given the message
and answers with what was prepared at it. -/
theorem routed_and_served_replaced :
    let dispatcher : Post := { dispatcher := { protocol := "dsp" } }
    let o : Office := ⟨{ clock := 0, posts := [dispatcher, dispatcher] }, {}⟩
    let m : Message := .approval ⟨"message-1", "dsp", "http://provider", "process-7"⟩
    let h : List Exchange.Call :=
      [.enqueue 1 (.error (.timeout 100)) 1, .register 1, .register 0]
    o.IsNew ∧ (∀ place, .register place ∈ h → place < o.world.posts.length) ∧
    ((o.after h).heed (.dispatch m)).1 = some (.error (.timeout 100)) ∧
    ∀ post, (o.after (.dispatch m :: h)).world.posts[0]? = some post →
      post.dispatcher.sent = [] := by
  intro dispatcher o m h
  have hnew : o.IsNew := ⟨rfl, by simp [o, dispatcher], by simp [o, dispatcher]⟩
  have hplaces : ∀ place, .register place ∈ h → place < o.world.posts.length := by
    simp [h, o]
  have hafter := routed_and_served hnew hplaces
  have hlast : Exchange.lastFor? o.protocolsByPlace h m.protocol = some 1 := by decide
  refine ⟨hnew, hplaces, ?_, fun post hpost => ?_⟩
  · rw [hafter.dispatch, hlast]
    exact hafter.deliver 1 m (by decide)
  · have hsent := routed_and_served (h := .dispatch m :: h) hnew (by simpa [h] using hplaces)
    exact hsent.sent 0 post hpost

end Office

end Scenario

end Parley
