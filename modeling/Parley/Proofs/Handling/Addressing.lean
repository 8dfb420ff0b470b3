import Parley.Proofs.Handling.Agreement
import Parley.Proofs.Naming.Uuid
import Parley.Proofs.Negotiation.History

/-!
# Which negotiations can be addressed

A message names the process of the other side that it belongs to: the id that the other side uses,
once it is known, and until then the id on this side.  A negotiation begins with all that a message
needs, and of that only the id of the other side can change later.

* `correlationId_undergo`, `processId_undergoAll` : the id that was told first is kept, whatever is
  demanded before and after.
* `header_of_plan` : a duty sends a message only with a header, and complains about the header only
  if there is none.
* `addressable_iff` : so a negotiation can be addressed, after any history, iff the first id that it
  was told is not empty.
* `silenced` : an empty one is taken, though the beginning of a negotiation does not take one.
-/

namespace Parley

namespace Negotiation

variable {n m : Negotiation} {q : Demand} {qs : List Demand}

/-! ### What a history leaves of the addressing -/

theorem correlationId_undergo (n : Negotiation) (q : Demand) :
    (n.undergo q).correlationId = n.correlationId.or q.correlationId? := by
  cases happly : q.change.apply q.now n with
  | ok m => rw [undergo_of_ok happly, (meets_of_apply happly).correlationId_eq]
  | error e =>
    rw [undergo_of_error happly]
    rcases refuses_iff.1 happly with ⟨target, htarget, -⟩ | ⟨id, existing, -, hknown, -⟩
    · -- a move tells no id
      have hnone : q.correlationId? = none := by
        cases hq : q.change <;> simp_all [Demand.correlationId?, Change.target?]
      rw [hnone, Option.or_none]
    · rw [hknown]
      rfl

/-- The rest of what a message needs stays as it is. -/
structure SamePlace (n m : Negotiation) : Prop where
  id_eq : m.id = n.id
  protocol_eq : m.protocol = n.protocol
  counterPartyAddress_eq : m.counterPartyAddress = n.counterPartyAddress

theorem samePlace_undergo (n : Negotiation) (q : Demand) : n.SamePlace (n.undergo q) := by
  cases happly : q.change.apply q.now n with
  | ok m =>
    have hm := meets_of_apply happly
    rw [undergo_of_ok happly]
    exact ⟨hm.id_eq, hm.protocol_eq, hm.counterPartyAddress_eq⟩
  | error e =>
    rw [undergo_of_error happly]
    exact ⟨rfl, rfl, rfl⟩

theorem samePlace_undergoAll (n : Negotiation) (qs : List Demand) :
    n.SamePlace (n.undergoAll qs) := by
  induction qs generalizing n with
  | nil => exact ⟨rfl, rfl, rfl⟩
  | cons q qs ih =>
    have hfirst := samePlace_undergo n q
    have hrest := ih (n.undergo q)
    exact ⟨hrest.id_eq.trans hfirst.id_eq, hrest.protocol_eq.trans hfirst.protocol_eq,
      hrest.counterPartyAddress_eq.trans hfirst.counterPartyAddress_eq⟩

theorem correlationId_undergoAll (n : Negotiation) (qs : List Demand) :
    (n.undergoAll qs).correlationId =
      n.correlationId.or (qs.findSome? Demand.correlationId?) := by
  induction qs generalizing n with
  | nil => exact (Option.or_none ..).symm
  | cons q qs ih =>
    show ((n.undergo q).undergoAll qs).correlationId = _
    rw [ih, correlationId_undergo, Option.or_assoc, List.findSome?_cons]
    cases q.correlationId? <;> rfl

/-- **The process of a message**: the id of the other side that was known first, and else the id on
this side. -/
theorem processId_undergoAll (n : Negotiation) (qs : List Demand) :
    (n.undergoAll qs).processId =
      (n.correlationId.or (qs.findSome? Demand.correlationId?)).getD n.id := by
  rw [processId, correlationId_undergoAll, (samePlace_undergoAll n qs).id_eq]

/-! ### Headers -/

theorem header_of_given {messageId : String} (hprotocol : n.protocol ≠ "")
    (haddress : n.counterPartyAddress ≠ "") :
    n.header messageId = if n.processId = "" then .error (.missingField "process_id")
      else .ok ⟨messageId, n.protocol, n.counterPartyAddress, n.processId⟩ := by
  simp only [header, Header.make, String.isEmpty_iff, if_neg hprotocol, if_neg haddress]

end Negotiation

namespace Duty

variable {d : Duty} {ctx : Context} {messageId : String} {now : Moment} {n : Negotiation}

theorem header_of_sendWith {p : Plan} {f : Header → Sending} (hp : p = sendWith n messageId f) :
    (∀ s, p = .send s → ∃ head, n.header messageId = .ok head) ∧
    ∀ e, p = .refuse (.message e) → n.header messageId = .error e := by
  subst hp
  unfold sendWith
  cases n.header messageId with
  | ok head => simp
  | error e => simp

/-- **A duty needs a header to send a message**, and complains about the header only if there is
none. -/
theorem header_of_plan (d : Duty) (ctx : Context) (messageId : String) (now : Moment)
    (n : Negotiation) :
    (∀ s, d.plan ctx messageId now n = .send s → ∃ head, n.header messageId = .ok head) ∧
    ∀ e, d.plan ctx messageId now n = .refuse (.message e) → n.header messageId = .error e := by
  cases d with
  | takeRequest | beginFinalizing | beginRequesting | beginVerifying =>
    simp [plan]
  | sendAcceptance | sendApproval | sendTermination => exact header_of_sendWith rfl
  | sendOffer | sendRequest =>
    cases ho : n.lastOffer? with
    | none => simp [plan, ho]
    | some o => exact header_of_sendWith (by simp only [plan, ho]; rfl)
  | sendFinalization =>
    cases ha : n.agreement with
    | none => simp [plan, ha]
    | some a => exact header_of_sendWith (by simp only [plan, ha]; rfl)
  | sendAgreement =>
    rcases ha : agreementOf ctx now n with e | (_ | a)
    · obtain rfl | ⟨e', rfl⟩ := agreementOf_eq_error ha <;> simp [plan, ha]
    · simp [plan, ha]
    · exact header_of_sendWith (by simp only [plan, ha]; rfl)

theorem header_of_begin {e : MessageError}
    (h : (d.begin ctx messageId now n).verdict? = some (.failed (.message e))) :
    n.header messageId = .error e :=
  (header_of_plan d ctx messageId now n).2 e (plan_eq_refuse_of_begin h fun _ => nofun)

end Duty

/-! ### Histories from the beginning on -/

/-- The other side is told of no process: none is known at the beginning, and the first id that it
uses, as far as is told, is empty. -/
def Draft.Mutes (d : Draft) (qs : List Demand) : Prop :=
  d.correlationId.filter (!·.isEmpty) = none ∧ qs.findSome? Demand.correlationId? = some ""

namespace Negotiation

/-- Messages about the negotiation can be addressed. -/
structure Addressable (n : Negotiation) : Prop where
  processId_ne : n.processId ≠ ""
  exists_header : ∀ messageId, ∃ head, n.header messageId = .ok head
  /-- No handler fails for the header of its message. -/
  begin_ne : ∀ (d : Duty) ctx messageId now e,
    (d.begin ctx messageId now n).verdict? ≠ some (.failed (.message e))

variable {d : Draft} {u : Uuid} {start : Moment} {n : Negotiation} {qs : List Demand}

theorem filter_ne_some_empty (o : Option String) : o.filter (!·.isEmpty) ≠ some "" := by
  simp [Option.filter_eq_some_iff]

theorem given_of_open (h : d.open? u.text start = .ok n) :
    n.protocol ≠ "" ∧ n.counterPartyAddress ≠ "" ∧ n.id ≠ "" ∧
      n.correlationId = d.correlationId.filter (!·.isEmpty) := by
  unfold Draft.open? at h
  simp only [String.isEmpty_iff] at h
  split_ifs at h with hparty haddress hprotocol
  cases h
  refine ⟨hprotocol, haddress, ?_, rfl⟩
  cases hid : d.id.filter (!·.isEmpty) with
  | some id =>
    rintro rfl
    exact filter_ne_some_empty d.id hid
  | none =>
    -- the id is a fresh one
    intro hempty
    have hlength := u.length_text
    rw [show u.text = "" from hempty] at hlength
    cases hlength

theorem processId_eq_empty_iff (h : d.open? u.text start = .ok n) :
    (n.undergoAll qs).processId = "" ↔ d.Mutes qs := by
  obtain ⟨-, -, hid, hknown⟩ := given_of_open h
  rw [processId_undergoAll, hknown, Draft.Mutes]
  cases hc : d.correlationId.filter (!·.isEmpty) with
  | some known =>
    have hne : known ≠ "" := by
      rintro rfl
      exact filter_ne_some_empty d.correlationId hc
    simp [hne]
  | none =>
    cases qs.findSome? Demand.correlationId? with
    | none => simp [hid]
    | some told => simp

theorem header_undergoAll (h : d.open? u.text start = .ok n) (qs : List Demand)
    (messageId : String) : (n.undergoAll qs).header messageId =
      if (n.undergoAll qs).processId = "" then .error (.missingField "process_id")
      else .ok ⟨messageId, n.protocol, n.counterPartyAddress, (n.undergoAll qs).processId⟩ := by
  obtain ⟨hprotocol, haddress, -⟩ := given_of_open h
  obtain ⟨-, hp, ha⟩ := samePlace_undergoAll n qs
  rw [header_of_given (by rwa [hp]) (by rwa [ha]), hp, ha]

end Negotiation

theorem Draft.Mutes.append {d : Draft} {qs : List Demand} (h : d.Mutes qs) (rs : List Demand) :
    d.Mutes (qs ++ rs) := ⟨h.1, by rw [List.findSome?_append, h.2]; rfl⟩

namespace Negotiation

variable {d : Draft} {u : Uuid} {start : Moment} {n : Negotiation}

/-- **A negotiation can be addressed, after any history**, iff the other side's id was known when it
began, or the first one that it was told is not empty.  Else it never can be any more: the process
is missing from every header, and no handler sends anything. -/
theorem addressable_iff (h : d.open? u.text start = .ok n) (qs : List Demand) :
    ((n.undergoAll qs).Addressable ↔ ¬d.Mutes qs) ∧
    (d.Mutes qs → ∀ rs messageId,
      (n.undergoAll (qs ++ rs)).header messageId = .error (.missingField "process_id") ∧
      ∀ (duty : Duty) ctx now s,
        duty.plan ctx messageId now (n.undergoAll (qs ++ rs)) ≠ .send s) := by
  refine ⟨⟨fun haddr hmutes => ?_, fun hmutes => ?_⟩, fun hmutes rs messageId => ?_⟩
  · exact haddr.processId_ne ((processId_eq_empty_iff h).2 hmutes)
  · have hne := mt (processId_eq_empty_iff h).1 hmutes
    have hheader (messageId : String) := (header_undergoAll h qs messageId).trans (if_neg hne)
    refine ⟨hne, fun messageId => ⟨_, hheader messageId⟩, fun duty ctx messageId now e hfails => ?_⟩
    have herror := Duty.header_of_begin hfails
    rw [hheader] at herror
    cases herror
  · have hempty := (processId_eq_empty_iff h).2 (hmutes.append rs)
    have hheader := (header_undergoAll h (qs ++ rs) messageId).trans (if_pos hempty)
    refine ⟨hheader, fun duty ctx now s hp => ?_⟩
    obtain ⟨head, hhead⟩ := (Duty.header_of_plan duty ctx messageId now _).1 s hp
    rw [hheader] at hhead
    cases hhead

/-- The request can be addressed after all that befalls it, by the id that it was told first. -/
theorem addressable_iff_haggling :
    ∃ n, request.open? (Uuid.drawn 1).text 1000 = .ok n ∧ (n.undergoAll haggling).Addressable ∧
      (n.undergoAll haggling).processId = "process-7" :=
  have hopen : request.open? (Uuid.drawn 1).text 1000 = .ok _ := rfl
  ⟨_, hopen, (addressable_iff hopen haggling).1.2 fun hmutes => absurd hmutes.2 (by decide),
    rfl⟩

/-- **An empty id is taken for good.**  A provider that is told an empty id of the consumer's cannot
address it any more, though a negotiation that begins with an empty one can be addressed. -/
theorem silenced :
    ¬∀ (d : Draft) (u : Uuid) (start : Moment) (n : Negotiation) (qs : List Demand),
      d.open? u.text start = .ok n →
        (n.undergoAll qs).processId ≠ "" ∧ ∃ head, (n.undergoAll qs).header "message-1" = .ok head := by
  intro h
  exact (h request (Uuid.drawn 1) 1000 _ [⟨1100, .correlate ""⟩] rfl).1 rfl

end Negotiation

end Parley
