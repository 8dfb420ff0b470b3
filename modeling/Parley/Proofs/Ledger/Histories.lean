import Mathlib.Data.Set.Card
import Parley.Proofs.Ledger.Calls

/-!
# What a history of calls leaves in a ledger

A ledger that was empty at first is, leases apart, a map that can be read off the calls that were
made since and the replies to them: under an id there is what was put in last, unless it was taken
out again.

* `Ledger.transcript` : calls with the replies to them; `PutInLast` says what such a transcript has
  last under an id.
* `Request.serve_cases` : everything that a request can do to a ledger.
* `find?_serve_cases` : so what is stored under an id changes only if a request that writes there is
  carried out.
* `map_with_leases` : a history leaves the map of its transcript, and each call keeps to the id it
  is about, to leases if it is about leases, and to nothing if it fails.

Who holds what is not part of the map: `Ledger.record?` knows the leases, `Ledger.find?` does not.
-/

namespace Parley

namespace Request

/-- What is stored under which id once the request was carried out, if it is one that puts something
in or takes something out. -/
def written? : Request → Option (String × Option Negotiation)
  | create n | save n => some (n.id, some n)
  | delete id => some (id, none)
  | _ => none

/-- The one id that the request is about, if there is one. -/
def subject? : Request → Option String
  | create n | save n => some n.id
  | release id | delete id => some id
  | _ => none

variable {h : Handle} {now : Moment} {l : Ledger} {q : Request} {id : String}

/-- What a request can do: nothing but to reply, and then it was not carried out as a change; or
put a negotiation in, take one out, end a lease, or lease a batch. -/
theorem serve_cases (h : Handle) (now : Moment) (l : Ledger) (q : Request) :
    (∃ reply, reply ≠ .done ∧ q.serve h now l = (reply, l)) ∨
    (∃ n, q.written? = some (n.id, some n) ∧ q.subject? = some n.id ∧
      q.serve h now l = (.done, l.put ⟨n, none⟩)) ∨
    (∃ id, q = .delete id ∧ q.serve h now l = (.done, l.remove id)) ∨
    (∃ id, q = .release id ∧ q.serve h now l = (.done, l.setLease [id] none)) ∨
    ∃ state limit, q = .next state limit ∧ q.serve h now l =
      (.leased (l.batch limit state now), l.setLease ((l.batch limit state now).map (·.id))
        (some ⟨h.holder, now, h.span⟩)) := by
  -- a change that a lease forbids fails
  have hchange (i : String) (l' : Ledger) :
      Reply.ofChange l ((l.checkLease i h.holder now).map fun _ => l') = (.done, l') ∨
      ∃ e, Reply.ofChange l ((l.checkLease i h.holder now).map fun _ => l') = (.failed e, l) := by
    cases l.checkLease i h.holder now with
    | ok u => exact .inl rfl
    | error e => exact .inr ⟨e, rfl⟩
  cases q with
  | find id => exact .inl ⟨.found _, by simp, rfl⟩
  | findByCorrelation id => exact .inl ⟨.found _, by simp, rfl⟩
  | query state limit => exact .inl ⟨.listed _, by simp, rfl⟩
  | next state limit => exact .inr (.inr (.inr (.inr ⟨state, limit, rfl, rfl⟩)))
  | create n =>
    by_cases hc : l.contains n.id = true
    · refine .inl ⟨.failed (.duplicateId n.id), by simp, ?_⟩
      rw [serve, Ledger.create, if_pos hc]
      rfl
    · refine .inr (.inl ⟨n, rfl, rfl, ?_⟩)
      rw [serve, Ledger.create, if_neg hc]
      rfl
  | save n =>
    rcases hchange n.id (l.put ⟨n, none⟩) with hok | ⟨e, he⟩
    · exact .inr (.inl ⟨n, rfl, rfl, hok⟩)
    · exact .inl ⟨.failed e, by simp, he⟩
  | release id =>
    rcases hchange id (l.setLease [id] none) with hok | ⟨e, he⟩
    · exact .inr (.inr (.inr (.inl ⟨id, rfl, hok⟩)))
    · exact .inl ⟨.failed e, by simp, he⟩
  | delete id =>
    by_cases hc : l.contains id = true
    · rw [serve, Ledger.delete, if_pos hc]
      rcases hchange id (l.remove id) with hok | ⟨e, he⟩
      · exact .inr (.inr (.inl ⟨id, rfl, hok⟩))
      · exact .inl ⟨.failed e, by simp, he⟩
    · refine .inl ⟨.failed (.notFound id), by simp, ?_⟩
      rw [serve, Ledger.delete, if_neg hc]
      rfl

/-- What is stored under an id after a request: what the request writes there, if it is carried out,
and else what was stored before. -/
theorem find?_serve_cases (h : Handle) (now : Moment) (l : Ledger) (q : Request) (id : String) :
    (∃ stored, (q.serve h now l).1 = .done ∧ q.written? = some (id, stored) ∧
      (q.serve h now l).2.find? id = stored) ∨
    (((q.serve h now l).1 = .done → ∀ stored, q.written? ≠ some (id, stored)) ∧
      (q.serve h now l).2.find? id = l.find? id) := by
  rcases serve_cases h now l q with ⟨reply, hne, hs⟩ | ⟨n, hw, -, hs⟩ | ⟨i, rfl, hs⟩ |
    ⟨i, rfl, hs⟩ | ⟨state, limit, rfl, hs⟩
  · rw [hs]
    exact .inr ⟨fun hdone => absurd hdone hne, rfl⟩
  · rw [hs, hw, Ledger.find?_put]
    show (∃ stored, _ ∧ _ ∧ (if n.id = id then _ else _) = _) ∨ _ ∧ (if n.id = id then _ else _) = _
    split_ifs with hid
    · exact .inl ⟨some n, rfl, by rw [hid], rfl⟩
    · exact .inr ⟨fun _ stored he => hid (congrArg Prod.fst (Option.some.inj he)), rfl⟩
  · rw [hs, Ledger.find?, Ledger.record?_remove]
    split_ifs with hid
    · exact .inl ⟨none, rfl, by rw [hid]; rfl, rfl⟩
    · exact .inr ⟨fun _ stored he => hid (congrArg Prod.fst (Option.some.inj he)), rfl⟩
  · rw [hs]
    exact .inr ⟨fun _ stored => by simp [written?], Ledger.find?_setLease⟩
  · rw [hs]
    exact .inr ⟨fun _ stored => by simp [written?], Ledger.find?_setLease⟩

theorem record?_serve_of_ne {i : String} (hq : q.subject? = some i) (hid : id ≠ i) :
    (q.serve h now l).2.record? id = l.record? id := by
  rcases serve_cases h now l q with ⟨reply, -, hs⟩ | ⟨n, -, hsub, hs⟩ | ⟨j, rfl, hs⟩ |
    ⟨j, rfl, hs⟩ | ⟨state, limit, rfl, hs⟩
  · rw [hs]
  · obtain rfl : n.id = i := Option.some.inj (hsub.symm.trans hq)
    rw [hs, Ledger.record?_put, if_neg (show Record.id ⟨n, none⟩ ≠ id from hid.symm)]
  · obtain rfl : j = i := Option.some.inj hq
    rw [hs, Ledger.record?_remove, if_neg hid.symm]
  · obtain rfl : j = i := Option.some.inj hq
    rw [hs, Ledger.record?_setLease_of_not_mem (by simpa using hid)]
  · cases hq

/-- A request that fails leaves the ledger as it was. -/
theorem serve_of_failed {e : StoreError} (he : (q.serve h now l).1 = .failed e) :
    (q.serve h now l).2 = l := by
  rcases serve_cases h now l q with ⟨reply, -, hs⟩ | ⟨n, -, -, hs⟩ | ⟨j, -, hs⟩ | ⟨j, -, hs⟩ |
    ⟨state, limit, -, hs⟩
  · rw [hs]
  all_goals rw [hs] at he; cases he

end Request

/-! ### Transcripts -/

/-- The negotiation was put in under the id, and nothing was put in or taken out there since. -/
def PutInLast (t : List (Call × Reply)) (id : String) (n : Negotiation) : Prop :=
  ∃ before c after, t = before ++ (c, .done) :: after ∧ c.request.written? = some (id, some n) ∧
    ∀ e ∈ after, e.2 = .done → ∀ stored, e.1.request.written? ≠ some (id, stored)

section

variable {t : List (Call × Reply)} {c : Call} {reply : Reply} {id : String} {n : Negotiation}

theorem not_putInLast_nil : ¬ PutInLast [] id n := by
  rintro ⟨before, c, after, h, -⟩
  exact List.append_ne_nil_of_right_ne_nil before (List.cons_ne_nil _ after) h.symm

theorem putInLast_concat_of_written {stored : Option Negotiation}
    (hw : c.request.written? = some (id, stored)) :
    PutInLast (t ++ [(c, .done)]) id n ↔ stored = some n := by
  constructor
  · rintro ⟨before, d, after, h, hd, hafter⟩
    rcases List.eq_nil_or_concat after with rfl | ⟨after, e, rfl⟩
    · obtain ⟨-, hcd⟩ := List.append_inj' h rfl
      obtain rfl : c = d := by simpa using hcd
      rw [hw] at hd
      exact congrArg Prod.snd (Option.some.inj hd)
    · -- the call would be among those after which nothing is written
      rw [List.concat_eq_append, ← List.cons_append, ← List.append_assoc] at h
      obtain ⟨-, hce⟩ := List.append_inj' h rfl
      obtain rfl : (c, Reply.done) = e := by simpa using hce
      exact absurd hw (hafter (c, .done) (by simp) rfl stored)
  · rintro rfl
    exact ⟨t, c, [], rfl, hw, List.forall_mem_nil _⟩

theorem putInLast_concat_of_not_written
    (hw : reply = .done → ∀ stored, c.request.written? ≠ some (id, stored)) :
    PutInLast (t ++ [(c, reply)]) id n ↔ PutInLast t id n := by
  constructor
  · rintro ⟨before, d, after, h, hd, hafter⟩
    rcases List.eq_nil_or_concat after with rfl | ⟨after, e, rfl⟩
    · obtain ⟨-, hcd⟩ := List.append_inj' h rfl
      obtain ⟨rfl, rfl⟩ : c = d ∧ reply = .done := by simpa using hcd
      exact absurd hd (hw rfl _)
    · rw [List.concat_eq_append, ← List.cons_append, ← List.append_assoc] at h
      obtain ⟨ht, -⟩ := List.append_inj' h rfl
      exact ⟨before, d, after, ht, hd, fun e' he' => hafter e' (by simp [he'])⟩
  · rintro ⟨before, d, after, rfl, hd, hafter⟩
    refine ⟨before, d, after ++ [(c, reply)], by simp, hd, ?_⟩
    intro e he
    rcases List.mem_append.1 he with he | he
    · exact hafter e he
    · obtain rfl : e = (c, reply) := List.mem_singleton.1 he
      exact hw

end

namespace Ledger

variable {handles : ℕ → Handle}

/-- The calls that are made of a ledger, each with the reply to it. -/
def transcript (handles : ℕ → Handle) (l : Ledger) : List Call → List (Call × Reply)
  | [] => []
  | c :: cs => (c, (l.answer handles c).1) :: transcript handles (l.answer handles c).2 cs

theorem afterCalls_concat (l : Ledger) (cs : List Call) (c : Call) :
    l.afterCalls handles (cs ++ [c]) = ((l.afterCalls handles cs).answer handles c).2 :=
  List.foldl_concat ..

theorem transcript_concat (l : Ledger) (cs : List Call) (c : Call) :
    l.transcript handles (cs ++ [c]) =
      l.transcript handles cs ++ [(c, ((l.afterCalls handles cs).answer handles c).1)] := by
  induction cs generalizing l with
  | nil => rfl
  | cons d cs ih => exact congrArg _ (ih _)

/-- **What is stored under an id** is what was put in there last. -/
theorem find?_afterCalls_eq_some_iff (cs : List Call) (id : String) (n : Negotiation) :
    (empty.afterCalls handles cs).find? id = some n ↔
      PutInLast (empty.transcript handles cs) id n := by
  -- the induction goes over the calls from the last one backwards
  induction cs using List.reverseRecOn with
  | nil => exact iff_of_false nofun not_putInLast_nil
  | append_singleton cs c ih =>
    rw [afterCalls_concat, transcript_concat]
    set l := empty.afterCalls handles cs
    rcases Request.find?_serve_cases (handles c.handle) c.now l c.request id with
      ⟨stored, hdone, hw, hfind⟩ | ⟨hw, hfind⟩
    · have hreply : (l.answer handles c).1 = .done := hdone
      rw [hreply, putInLast_concat_of_written hw]
      exact iff_of_eq (congrArg (· = some n) hfind)
    · refine (iff_of_eq (congrArg (· = some n) hfind)).trans (ih.trans ?_)
      exact (putInLast_concat_of_not_written hw).symm

theorem size_eq_ncard (l : Ledger) : l.size = {id | ∃ n, l.find? id = some n}.ncard := by
  have hids : {id | ∃ n, l.find? id = some n} = ↑l.ids.toFinset := by
    ext id
    simp only [Set.mem_ofPred_eq, List.coe_toFinset, ids, List.mem_map, find?,
      Option.map_eq_some_iff, record?_eq_some_iff]
    constructor
    · rintro ⟨n, r, ⟨hr, hid⟩, -⟩
      exact ⟨r, hr, hid⟩
    · rintro ⟨r, hr, hid⟩
      exact ⟨r.negotiation, r, ⟨hr, hid⟩, rfl⟩
  rw [hids, Set.ncard_coe_finset, List.toFinset_card_of_nodup (show l.ids.Nodup from l.nodup),
    length_ids]

/-- The ledger holds, leases apart, the map that a transcript leaves. -/
structure Mirrors (l : Ledger) (t : List (Call × Reply)) : Prop where
  /-- Looking an id up gives what was put in there last, and nothing if there is nothing. -/
  find : ∀ id n, l.find? id = some n ↔ PutInLast t id n
  /-- A record is found under the id of its negotiation, and under no other id. -/
  keys : ∀ r id, r ∈ l.records ∧ r.negotiation.id = id ↔ l.record? id = some r
  /-- The size is the number of ids under which there is something. -/
  size : l.size = {id | ∃ n, PutInLast t id n}.ncard

/-- What a call may do to a ledger: change the record that it is about, and no negotiation if it is
about leases or looks things up, and nothing if it fails. -/
structure Confines (l : Ledger) (q : Request) (reply : Reply) (l' : Ledger) : Prop where
  /-- A request that is about one id does nothing to the others. -/
  elsewhere : ∀ i, q.subject? = some i → ∀ id, id ≠ i → l'.record? id = l.record? id
  /-- A request that does not write changes no negotiation. -/
  unwritten : q.written? = none → ∀ id, l'.find? id = l.find? id
  /-- A request that fails changes neither a record nor a lease. -/
  failed : ∀ e, reply = .failed e → l' = l

theorem confines_serve (h : Handle) (now : Moment) (l : Ledger) (q : Request) :
    l.Confines q (q.serve h now l).1 (q.serve h now l).2 where
  elsewhere _ hi _ hid := Request.record?_serve_of_ne hi hid
  unwritten hw id := by
    rcases Request.find?_serve_cases h now l q id with ⟨stored, -, hw', -⟩ | ⟨-, hfind⟩
    · rw [hw] at hw'; cases hw'
    · exact hfind
  failed _ he := Request.serve_of_failed he

/-- **A ledger is a map with leases.**  Whatever calls were made of it since it was empty, by
whatever handles and at whatever moments, it holds what their transcript leaves under each id; and
whatever call comes next keeps to what it is about. -/
theorem map_with_leases (handles : ℕ → Handle) (cs : List Call) :
    (empty.afterCalls handles cs).Mirrors (empty.transcript handles cs) ∧
    ∀ c : Call, (empty.afterCalls handles cs).Confines c.request
      ((empty.afterCalls handles cs).answer handles c).1
      ((empty.afterCalls handles cs).answer handles c).2 := by
  refine ⟨⟨find?_afterCalls_eq_some_iff cs, fun r id => record?_eq_some_iff.symm, ?_⟩, fun c => ?_⟩
  · rw [size_eq_ncard]
    simp only [find?_afterCalls_eq_some_iff]
  · exact confines_serve (handles c.handle) c.now _ c.request

end Ledger

end Parley
