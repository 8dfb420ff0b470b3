import Mathlib.Data.List.Induction
import Parley.Proofs.Negotiation.Visits

/-!
# The history of a negotiation

Changes are demanded of a negotiation one after the other, and each is made or refused.  Every field
of what comes out can be read off the demands that were granted.

* `Negotiation.undergoAll`, `granted` : what becomes of a negotiation, and which demands were met.
* `refuses_iff` : what is refused.
* `entries` : when which state was entered; the state, how often it was entered in a row and since
  when it lasts are the end of these.
* `Negotiation.Follows` : a negotiation that is what the granted demands make of it.
* `Negotiation.Meets` : what a demand does that is met, field by field.
* `follows_step`, `follows_undergoAll` : every change keeps that, and so does every history.
* `changes_undergoAll`, `target?_of_mem_granted` : the ways of states that a history can go.
* `history_told` : all of it, with what no history can do.
-/

namespace Parley

/-- A change that is demanded, and the moment. -/
structure Demand where
  /-- The moment. -/
  now : Moment
  /-- The change. -/
  change : Change
  deriving DecidableEq, Repr

namespace Negotiation

/-- The negotiation after a demand: changed, or as it was if the change was refused. -/
def undergo (n : Negotiation) (q : Demand) : Negotiation :=
  match q.change.apply q.now n with
  | .ok m => m
  | .error _ => n

/-- The negotiation after some demands. -/
def undergoAll (n : Negotiation) (qs : List Demand) : Negotiation := qs.foldl undergo n

/-- The demands that are met, one after the other. -/
def granted (n : Negotiation) : List Demand → List Demand
  | [] => []
  | q :: qs => (if (q.change.apply q.now n).isOk then [q] else []) ++ granted (n.undergo q) qs

variable {n m : Negotiation} {q : Demand} {qs : List Demand}

theorem undergo_of_ok (h : q.change.apply q.now n = .ok m) : n.undergo q = m := by
  rw [undergo, h]

theorem undergo_of_error {e : TransitionError} (h : q.change.apply q.now n = .error e) :
    n.undergo q = n := by
  rw [undergo, h]

theorem undergoAll_append (n : Negotiation) (qs rs : List Demand) :
    n.undergoAll (qs ++ rs) = (n.undergoAll qs).undergoAll rs := List.foldl_append

theorem undergoAll_concat (n : Negotiation) (qs : List Demand) (q : Demand) :
    n.undergoAll (qs ++ [q]) = (n.undergoAll qs).undergo q := undergoAll_append n qs [q]

theorem granted_append (n : Negotiation) (qs rs : List Demand) :
    n.granted (qs ++ rs) = n.granted qs ++ (n.undergoAll qs).granted rs := by
  induction qs generalizing n with
  | nil => rfl
  | cons q qs ih =>
    simp only [List.cons_append, granted, ih, List.append_assoc]
    rfl

theorem granted_concat_of_ok (h : q.change.apply q.now (n.undergoAll qs) = .ok m) :
    n.granted (qs ++ [q]) = n.granted qs ++ [q] := by
  rw [granted_append]
  simp [granted, h, Except.isOk, Except.toBool]

theorem granted_concat_of_error {e : TransitionError}
    (h : q.change.apply q.now (n.undergoAll qs) = .error e) :
    n.granted (qs ++ [q]) = n.granted qs := by
  rw [granted_append]
  simp [granted, h, Except.isOk, Except.toBool]

theorem length_granted_le (n : Negotiation) (qs : List Demand) :
    (n.granted qs).length ≤ qs.length := by
  induction qs generalizing n with
  | nil => exact Nat.le_refl 0
  | cons q qs ih =>
    rw [granted, List.length_append, List.length_cons, Nat.add_comm]
    refine Nat.add_le_add (ih _) ?_
    split_ifs
    · exact Nat.le_refl 1
    · exact Nat.zero_le 1

/-- **What is refused**: a move that the table of moves does not have, and another id of the other
side than the known one.  Everything else is granted. -/
theorem refuses_iff {e : TransitionError} : q.change.apply q.now n = .error e ↔
    (∃ target, q.change.target? = some target ∧ n.state.canMoveTo target = false ∧
      e = .illegal n.id n.state target) ∨
    ∃ id existing, q.change = .correlate id ∧ n.correlationId = some existing ∧ existing ≠ id ∧
      e = .correlationIdImmutable n.id existing := by
  have hmove (target : State) : n.moveTo target q.now = .error e ↔
      n.state.canMoveTo target = false ∧ e = .illegal n.id n.state target := by
    rw [moveTo]
    cases n.state.canMoveTo target <;> simp [eq_comm]
  cases hq : q.change with
  | move target =>
    show n.moveTo target q.now = .error e ↔ _
    simp [hmove, Change.target?]
  | terminate detail =>
    have hmap : n.terminate detail q.now = .error e ↔ n.moveTo .terminating q.now = .error e := by
      rw [Negotiation.terminate]
      cases n.moveTo .terminating q.now <;> simp [Except.map]
    show n.terminate detail q.now = .error e ↔ _
    simp [hmap, hmove, Change.target?]
  | giveUp detail =>
    have hmap : n.giveUp detail q.now = .error e ↔ n.moveTo .terminated q.now = .error e := by
      rw [giveUp]
      cases n.moveTo .terminated q.now <;> simp [Except.map]
    show n.giveUp detail q.now = .error e ↔ _
    simp [hmap, hmove, Change.target?]
  | correlate id =>
    show n.correlate id = .error e ↔ _
    rw [correlate]
    cases n.correlationId with
    | none => simp [Change.target?]
    | some existing =>
      by_cases hid : existing = id
      · simp [hid, Change.target?]
      · show (if existing = id then _ else _) = _ ↔ _
        rw [if_neg hid, Except.error.injEq]
        constructor
        · exact fun he => .inr ⟨id, existing, rfl, rfl, hid, he.symm⟩
        · rintro (⟨target, ht, -⟩ | ⟨id', existing', hid', hex, -, he⟩)
          · cases ht
          · cases hid'
            cases hex
            exact he.symm
  | addOffer o => simp [Change.apply, Change.target?]
  | setAgreement a => simp [Change.apply, Change.target?]

end Negotiation

/-! ### Reading demands -/

/-- The state that the demand is to enter, and the moment, if it is for a move. -/
def Demand.entry? (q : Demand) : Option (State × Moment) := q.change.target?.map (·, q.now)

/-- The offer that is demanded to be added. -/
def Demand.offer? (q : Demand) : Option Offer :=
  match q.change with
  | .addOffer o => some o
  | _ => none

/-- The id of the other side that is demanded to be known. -/
def Demand.correlationId? (q : Demand) : Option String :=
  match q.change with
  | .correlate id => some id
  | _ => none

/-- The agreement that is demanded to be set. -/
def Demand.agreement? (q : Demand) : Option Agreement :=
  match q.change with
  | .setAgreement a => some a
  | _ => none

/-- The states that were entered, with the moments, from the state to begin in on. -/
def entries (first : State × Moment) (log : List Demand) : List (State × Moment) :=
  first :: log.filterMap Demand.entry?

theorem entries_concat (first : State × Moment) (log : List Demand) (q : Demand) :
    entries first (log ++ [q]) = entries first log ++ q.entry?.toList := by
  simp only [entries, List.filterMap_append, List.cons_append]
  cases hq : q.entry? <;> simp [hq]

theorem length_entries_le (first : State × Moment) (log : List Demand) :
    (entries first log).length ≤ log.length + 1 :=
  Nat.succ_le_succ (List.length_filterMap_le ..)

theorem filterMap_concat {α β : Type} (f : α → Option β) (xs : List α) (x : α) :
    (xs ++ [x]).filterMap f = xs.filterMap f ++ (f x).toList := by
  rw [List.filterMap_append]
  cases hx : f x <;> simp [hx]

namespace Negotiation

variable {d : Draft} {id : String} {start : Moment} {log : List Demand} {n m : Negotiation}
  {q : Demand}

/-- The negotiation that began with the draft `d` at the moment `start` is what the demands in `log`
make of it, all of which were granted. -/
structure Follows (d : Draft) (id : String) (start : Moment) (log : List Demand)
    (n : Negotiation) : Prop where
  id_eq : n.id = id
  side_eq : n.side = d.side
  counterPartyId_eq : n.counterPartyId = d.counterPartyId
  counterPartyAddress_eq : n.counterPartyAddress = d.counterPartyAddress
  protocol_eq : n.protocol = d.protocol
  callbackAddress_eq : n.callbackAddress = d.callbackAddress
  createdAt_eq : n.createdAt = start
  /-- The state is the one that was entered last, and lasts since then. -/
  entered : (entries (d.state, start) log).getLast? = some (n.state, n.stateSince)
  updatedAt_eq : n.updatedAt = n.stateSince
  /-- The states that were entered end with the present one, as many times as it was counted. -/
  count : ∃ before, (entries (d.state, start) log).map Prod.fst =
    before ++ List.replicate n.stateCount.toNat n.state ∧ before.getLast? ≠ some n.state
  /-- The first offer, and behind it all that were added. -/
  offers_eq : n.offers = d.offer :: log.filterMap Demand.offer?
  /-- The agreement that was set last. -/
  agreement_eq : n.agreement = (log.filterMap Demand.agreement?).getLast?
  /-- The detail that was given last. -/
  errorDetail_eq : n.errorDetail = (log.filterMap (·.change.detail?)).getLast?
  /-- The id that was known first. -/
  correlationId_eq : n.correlationId =
    (d.correlationId.filter (!·.isEmpty)).or (log.filterMap Demand.correlationId?).head?

theorem follows_open {freshId : String} (h : d.open? freshId start = .ok n) :
    n.Follows d ((d.id.filter (!·.isEmpty)).getD freshId) start [] := by
  unfold Draft.open? at h
  split_ifs at h
  cases h
  exact {
    id_eq := rfl
    side_eq := rfl
    counterPartyId_eq := rfl
    counterPartyAddress_eq := rfl
    protocol_eq := rfl
    callbackAddress_eq := rfl
    createdAt_eq := rfl
    entered := rfl
    updatedAt_eq := rfl
    count := ⟨[], rfl, nofun⟩
    offers_eq := rfl
    agreement_eq := rfl
    errorDetail_eq := rfl
    correlationId_eq := (Option.or_none ..).symm }

theorem Follows.stateCount_le (h : n.Follows d id start log) :
    n.stateCount.toNat ≤ log.length + 1 := by
  obtain ⟨before, hcount, -⟩ := h.count
  have hlength := congrArg List.length hcount
  rw [List.length_map, List.length_append, List.length_replicate] at hlength
  have := length_entries_le (d.state, start) log
  omega

/-- What a demand does that is met, field by field. -/
structure Meets (q : Demand) (n m : Negotiation) : Prop where
  id_eq : m.id = n.id
  side_eq : m.side = n.side
  counterPartyId_eq : m.counterPartyId = n.counterPartyId
  counterPartyAddress_eq : m.counterPartyAddress = n.counterPartyAddress
  protocol_eq : m.protocol = n.protocol
  callbackAddress_eq : m.callbackAddress = n.callbackAddress
  createdAt_eq : m.createdAt = n.createdAt
  offers_eq : m.offers = n.offers ++ q.offer?.toList
  agreement_eq : m.agreement = q.agreement?.or n.agreement
  errorDetail_eq : m.errorDetail = q.change.detail?.or n.errorDetail
  correlationId_eq : m.correlationId = n.correlationId.or q.correlationId?
  /-- Only a move touches what is known of the state. -/
  entry :
    (q.entry? = none ∧ m.state = n.state ∧ m.stateCount = n.stateCount ∧
      m.stateSince = n.stateSince ∧ m.updatedAt = n.updatedAt) ∨
    (q.entry? = some (m.state, q.now) ∧
      m.stateCount = (if m.state = n.state then n.stateCount + 1 else 1) ∧
      m.stateSince = q.now ∧ m.updatedAt = q.now)

theorem meets_of_apply (h : q.change.apply q.now n = .ok m) : Meets q n m := by
  obtain ⟨now, change⟩ := q
  rcases Change.apply_eq_ok_cases h with
    ⟨target, moved, htarget, hmoved, rfl⟩ | ⟨told, rfl, hknown, rfl⟩ | ⟨o, rfl, rfl⟩ | ⟨a, rfl, rfl⟩
  · have hterms := (sameTerms_of_moveTo hmoved).trans (sameTerms_withDetail moved change.detail?)
    -- a move is neither an offer nor an agreement, and tells no id
    obtain ⟨hoffer, hagreement, hcorrelation⟩ : Demand.offer? ⟨now, change⟩ = none ∧
        Demand.agreement? ⟨now, change⟩ = none ∧ Demand.correlationId? ⟨now, change⟩ = none := by
      cases change <;> first | exact ⟨rfl, rfl, rfl⟩ | cases htarget
    exact {
      id_eq := hterms.id_eq
      side_eq := hterms.side_eq
      counterPartyId_eq := hterms.counterPartyId_eq
      counterPartyAddress_eq := hterms.counterPartyAddress_eq
      protocol_eq := hterms.protocol_eq
      callbackAddress_eq := hterms.callbackAddress_eq
      createdAt_eq := hterms.createdAt_eq
      offers_eq := by rw [hterms.offers_eq, hoffer, Option.toList_none, List.append_nil]
      agreement_eq := by
        rw [agreement_withDetail, agreement_of_moveTo hmoved, hagreement, Option.none_or]
      errorDetail_eq := by rw [errorDetail_withDetail, errorDetail_of_moveTo hmoved]
      correlationId_eq := by rw [hterms.correlationId_eq, hcorrelation, Option.or_none]
      entry := by
        obtain ⟨-, rfl⟩ := moveTo_eq_ok_iff.1 hmoved
        rw [state_withDetail, stateCount_withDetail, Demand.entry?, htarget]
        cases change.detail? <;> exact .inr ⟨rfl, rfl, rfl, rfl⟩ }
  · refine ⟨rfl, rfl, rfl, rfl, rfl, rfl, rfl, (List.append_nil _).symm, rfl, rfl, ?_,
      .inl ⟨rfl, rfl, rfl, rfl, rfl⟩⟩
    rcases hknown with hnone | hsome
    · rw [hnone]
      rfl
    · rw [hsome]
      rfl
  · exact ⟨rfl, rfl, rfl, rfl, rfl, rfl, rfl, rfl, rfl, rfl, (Option.or_none ..).symm,
      .inl ⟨rfl, rfl, rfl, rfl, rfl⟩⟩
  · exact ⟨rfl, rfl, rfl, rfl, rfl, rfl, rfl, (List.append_nil _).symm, rfl, rfl,
      (Option.or_none ..).symm, .inl ⟨rfl, rfl, rfl, rfl, rfl⟩⟩

/-- **What every demand keeps** that is met: the negotiation is what its history makes of it. -/
theorem follows_step (hf : n.Follows d id start log) (hlog : log.length + 2 < UInt32.size)
    (hm : Meets q n m) : m.Follows d id start (log ++ [q]) where
  id_eq := hm.id_eq.trans hf.id_eq
  side_eq := hm.side_eq.trans hf.side_eq
  counterPartyId_eq := hm.counterPartyId_eq.trans hf.counterPartyId_eq
  counterPartyAddress_eq := hm.counterPartyAddress_eq.trans hf.counterPartyAddress_eq
  protocol_eq := hm.protocol_eq.trans hf.protocol_eq
  callbackAddress_eq := hm.callbackAddress_eq.trans hf.callbackAddress_eq
  createdAt_eq := hm.createdAt_eq.trans hf.createdAt_eq
  entered := by
    rcases hm.entry with ⟨hnone, hstate, -, hsince, -⟩ | ⟨hsome, -, hsince, -⟩
    · rw [entries_concat, hnone, Option.toList_none, List.append_nil, hf.entered, hstate, hsince]
    · rw [entries_concat, hsome, Option.toList_some, List.getLast?_concat, hsince]
  updatedAt_eq := by
    rcases hm.entry with ⟨-, -, -, hsince, hupdated⟩ | ⟨-, -, hsince, hupdated⟩
    · rw [hsince, hupdated, hf.updatedAt_eq]
    · rw [hsince, hupdated]
  count := by
    obtain ⟨before, hbefore, hlast⟩ := hf.count
    rcases hm.entry with ⟨hnone, hstate, hcount, -⟩ | ⟨hsome, hcount, -⟩
    · rw [entries_concat, hnone, Option.toList_none, List.append_nil, hstate, hcount]
      exact ⟨before, hbefore, hlast⟩
    rw [entries_concat, hsome, hcount, List.map_append]
    by_cases hsame : m.state = n.state
    · -- entered again: one more at the end
      have hsucc : (n.stateCount + 1).toNat = n.stateCount.toNat + 1 := by
        have hle := hf.stateCount_le
        rw [UInt32.toNat_add]
        exact Nat.mod_eq_of_lt (Nat.lt_of_le_of_lt (Nat.succ_le_succ hle) hlog)
      refine ⟨before, ?_, hsame ▸ hlast⟩
      rw [if_pos hsame, hsucc, List.replicate_succ', hbefore, hsame, List.append_assoc]
      rfl
    · -- another state: everything that was entered so far lies before it
      refine ⟨_, by rw [if_neg hsame]; rfl, ?_⟩
      rw [List.getLast?_map, hf.entered]
      exact fun h => hsame (Option.some.inj h).symm
  offers_eq := by rw [hm.offers_eq, hf.offers_eq, filterMap_concat, List.cons_append]
  agreement_eq := by
    rw [hm.agreement_eq, hf.agreement_eq, filterMap_concat, List.getLast?_append]
    cases q.agreement? <;> rfl
  errorDetail_eq := by
    rw [hm.errorDetail_eq, hf.errorDetail_eq, filterMap_concat, List.getLast?_append]
    cases q.change.detail? <;> rfl
  correlationId_eq := by
    rw [hm.correlationId_eq, hf.correlationId_eq, filterMap_concat, List.head?_append,
      Option.or_assoc]
    cases q.correlationId? <;> rfl

/-- **What a history makes of a negotiation**, if it does not count too far. -/
theorem follows_undergoAll {freshId : String} (h : d.open? freshId start = .ok n)
    (qs : List Demand) (hqs : qs.length < UInt32.size - 1) :
    (n.undergoAll qs).Follows d ((d.id.filter (!·.isEmpty)).getD freshId) start (n.granted qs) := by
  induction qs using List.reverseRecOn with
  | nil => exact follows_open h
  | append_singleton qs q ih =>
    rw [List.length_append, List.length_singleton] at hqs
    have hf := ih (by omega)
    rw [undergoAll_concat]
    cases happly : q.change.apply q.now (n.undergoAll qs) with
    | ok m =>
      rw [undergo_of_ok happly, granted_concat_of_ok happly]
      have hlength := length_granted_le n qs
      exact follows_step hf (by omega) (meets_of_apply happly)
    | error e =>
      rw [undergo_of_error happly, granted_concat_of_error happly]
      exact hf

/-! ### What no history can do -/

theorem changes_undergoAll (n : Negotiation) (qs : List Demand) :
    Relation.ReflTransGen ChangesTo n (n.undergoAll qs) := by
  induction qs using List.reverseRecOn with
  | nil => exact .refl
  | append_singleton qs q ih =>
    rw [undergoAll_concat]
    cases happly : q.change.apply q.now (n.undergoAll qs) with
    | ok m =>
      rw [undergo_of_ok happly]
      exact ih.tail ⟨q.change, q.now, happly⟩
    | error e =>
      rw [undergo_of_error happly]
      exact ih

theorem ChangesTo.correlationId (h : n.ChangesTo m) {told : String}
    (hn : n.correlationId = some told) : m.correlationId = some told := by
  obtain ⟨c, now, h⟩ := h
  rw [(meets_of_apply (q := ⟨now, c⟩) h).correlationId_eq, hn]
  rfl

theorem correlationId_of_changes (h : Relation.ReflTransGen ChangesTo n m) {told : String}
    (hn : n.correlationId = some told) : m.correlationId = some told := by
  induction h with
  | refl => exact hn
  | tail _ hc ih => exact hc.correlationId ih

/-- A final state is kept, and no demand of a move is met in it. -/
theorem target?_of_mem_granted (hfinal : n.state.isFinal = true) :
    ∀ q ∈ n.granted qs, q.change.target? = none := by
  induction qs generalizing n with
  | nil => exact nofun
  | cons p qs ih =>
    intro q hq
    rcases List.mem_append.1 hq with hp | hqs
    · split_ifs at hp with hok
      · obtain rfl := List.mem_singleton.1 hp
        by_contra hsome
        obtain ⟨target, htarget⟩ := Option.ne_none_iff_exists'.1 hsome
        rw [refuses_iff.2 (.inl ⟨target, htarget, State.canMoveTo_of_isFinal hfinal target, rfl⟩)]
          at hok
        cases hok
      · cases hp
    · refine ih ?_ q hqs
      cases happly : p.change.apply p.now n with
      | error e =>
        rw [undergo_of_error happly]
        exact hfinal
      | ok m =>
        rw [undergo_of_ok happly]
        have hreaches := ChangesTo.reaches ⟨p.change, p.now, happly⟩
        rwa [State.eq_of_reaches_of_isFinal hreaches hfinal]

/-- **The history of a negotiation.** -/
theorem history_told {freshId : String} (h : d.open? freshId start = .ok n) (qs : List Demand)
    (hqs : qs.length < UInt32.size - 1) :
    (n.undergoAll qs).Follows d ((d.id.filter (!·.isEmpty)).getD freshId) start (n.granted qs) ∧
    ∀ ps rs, qs = ps ++ rs →
      (∀ q e, q.change.apply q.now (n.undergoAll ps) = .error e →
        n.undergoAll (ps ++ [q]) = n.undergoAll ps) ∧
      (∀ told, (n.undergoAll ps).correlationId = some told →
        (n.undergoAll qs).correlationId = some told) ∧
      (State.agreeing.code ≤ (n.undergoAll ps).state.code →
        (n.undergoAll ps).state.code ≤ (n.undergoAll qs).state.code) ∧
      ((n.undergoAll ps).state = .finalized ∨ (n.undergoAll ps).state = .terminated →
        ∀ q ∈ (n.undergoAll ps).granted rs, q.change.target? = none) := by
  refine ⟨follows_undergoAll h qs hqs, ?_⟩
  rintro ps rs rfl
  have hchanges := changes_undergoAll (n.undergoAll ps) rs
  rw [← undergoAll_append] at hchanges
  refine ⟨?_, ?_, ?_, ?_⟩
  · intro q e happly
    rw [undergoAll_concat, undergo_of_error happly]
  · exact fun told => correlationId_of_changes hchanges
  · exact State.code_le_of_reaches (reaches_of_changes hchanges)
  · intro hfinal
    refine target?_of_mem_granted ?_
    rcases hfinal with hs | hs <;> rw [hs] <;> rfl

/-- A request that reaches a provider. -/
def request : Draft where
  id := none
  side := .provider
  state := .requested
  correlationId := none
  counterPartyId := "consumer"
  counterPartyAddress := "http://consumer"
  protocol := "dataspace-protocol-http"
  callbackAddress := none
  offer := ⟨"definition:asset:1234", "asset", default⟩

/-- An offer that has to be made three times, with a change that is refused before, a new id of the
other side that is refused meanwhile, and an end that is final. -/
def haggling : List Demand :=
  [⟨1100, .move .accepting⟩, ⟨1200, .correlate "process-7"⟩, ⟨1300, .move .offering⟩,
    ⟨1400, .move .offering⟩, ⟨1500, .correlate "process-8"⟩, ⟨1600, .move .offering⟩,
    ⟨1700, .addOffer ⟨"definition:asset:5678", "asset", default⟩⟩,
    ⟨1800, .terminate (some "no answer")⟩, ⟨1900, .giveUp none⟩, ⟨2000, .move .terminated⟩]

/-- The request, before and after all of that. -/
theorem history_told_haggling :
    ∃ n, request.open? "negotiation-1" 1000 = .ok n ∧ haggling.length < UInt32.size - 1 ∧
      (n.undergoAll haggling).Follows request "negotiation-1" 1000 (n.granted haggling) ∧
      (n.undergoAll (haggling.take 6)).stateCount = 3 ∧
      n.undergoAll haggling = { n with
        state := .terminated
        stateSince := 1900
        correlationId := some "process-7"
        offers := n.offers ++ [⟨"definition:asset:5678", "asset", default⟩]
        errorDetail := some "no answer"
        updatedAt := 1900 } :=
  have hopen : request.open? "negotiation-1" 1000 = .ok _ := rfl
  ⟨_, hopen, by decide, (history_told hopen haggling (by decide)).1, rfl, rfl⟩

end Negotiation

end Parley
