import Parley.Proofs.Ledger.Sharing
import Parley.Proofs.Workshop.Upshot

/-!
# The members of a batch side by side

A worker leases a batch and then makes steps of its members in any order, each with any id for a
message, while the clocks stand still and each message gets the answer that is meant for it.

* `Workshop.interleaved` is the workshop after some of these steps, and `Processor.comesTo` is what
  they lead to: of each member its upshot, in place of its record, with no lease.
* `Workshop.Amid` is the invariant: every member is underway, and all other records are what they
  were; `Amid.take`, `Amid.run` : steps keep it.
* `order_is_irrelevant` : all orders in which everything gets to its end lead to the same ledger and
  the same tally, and so does handling the members one after the other.

The proof: a step of a member reads and writes the record of its own negotiation only
(`Parley.Proofs.Workshop.Footprint`), so the others stay underway, and what a member comes to is
settled from the beginning (`Parley.Proofs.Workshop.Upshot`).
-/

namespace Parley

/-! ### Ledgers, record by record -/

namespace Ledger

variable {l l' : Ledger} {ns : List Negotiation} {f : Negotiation → Negotiation} {id : String}

/-- A ledger is the order of its ids and what the record of each id is. -/
theorem eq_of_record? (hids : l'.ids = l.ids) (h : ∀ id, l'.record? id = l.record? id) :
    l' = l := by
  have hlength : l'.records.length = l.records.length := by
    simpa [ids] using congrArg List.length hids
  have hrecords : l'.records = l.records := by
    refine List.ext_getElem hlength fun i hi' hi => ?_
    have hid : (l'.records[i]).id = (l.records[i]).id := by
      have hget := congrArg (·[i]?) hids
      simpa [ids, hi, hi'] using hget
    have hr' : l'.record? (l.records[i]).id = some l'.records[i] :=
      record?_eq_some_iff.2 ⟨List.getElem_mem hi', hid⟩
    have hr : l.record? (l.records[i]).id = some l.records[i] :=
      record?_eq_some_iff.2 ⟨List.getElem_mem hi, rfl⟩
    rw [h, hr] at hr'
    exact (Option.some.inj hr').symm
  cases l
  cases l'
  cases hrecords
  rfl

/-- What became of some negotiations stored one after the other. -/
def putAll (l : Ledger) (f : Negotiation → Negotiation) (ns : List Negotiation) : Ledger :=
  ns.foldl (fun l n => l.put ⟨f n, none⟩) l

theorem record?_putAll_of_not_mem (hf : ∀ n ∈ ns, (f n).id = n.id) (hid : id ∉ ns.map (·.id)) :
    (l.putAll f ns).record? id = l.record? id := by
  induction ns generalizing l with
  | nil => rfl
  | cons n ns ih =>
    rw [List.map_cons, List.mem_cons, not_or] at hid
    have hrest := ih (l := l.put ⟨f n, none⟩) (fun m hm => hf m (List.mem_cons_of_mem n hm)) hid.2
    refine hrest.trans (record?_put.trans (if_neg ?_))
    show (f n).id ≠ id
    rw [hf n List.mem_cons_self]
    exact Ne.symm hid.1

theorem record?_putAll_of_mem (hf : ∀ n ∈ ns, (f n).id = n.id) (hnodup : (ns.map (·.id)).Nodup)
    {n : Negotiation} (hn : n ∈ ns) : (l.putAll f ns).record? n.id = some ⟨f n, none⟩ := by
  induction ns generalizing l with
  | nil => cases hn
  | cons m ns ih =>
    rw [List.map_cons, List.nodup_cons] at hnodup
    have hf' : ∀ n ∈ ns, (f n).id = n.id := fun n hn => hf n (List.mem_cons_of_mem m hn)
    rcases List.mem_cons.1 hn with rfl | hn
    · refine (record?_putAll_of_not_mem (l := l.put ⟨f n, none⟩) hf' hnodup.1).trans ?_
      exact record?_put.trans (if_pos (hf n List.mem_cons_self))
    · exact ih (l := l.put ⟨f m, none⟩) hf' hnodup.2 hn

theorem ids_putAll (hf : ∀ n ∈ ns, (f n).id = n.id)
    (hthere : ∀ n ∈ ns, ∃ r, l.record? n.id = some r) : (l.putAll f ns).ids = l.ids := by
  induction ns generalizing l with
  | nil => rfl
  | cons n ns ih =>
    have hid : Record.id ⟨f n, none⟩ = n.id := hf n List.mem_cons_self
    obtain ⟨r, hr⟩ := hthere n List.mem_cons_self
    have hput : (l.put ⟨f n, none⟩).ids = l.ids := ids_put (hid ▸ hr)
    have hrest := ih (l := l.put ⟨f n, none⟩) (fun m hm => hf m (List.mem_cons_of_mem n hm))
    refine (hrest fun m hm => ?_).trans hput
    rw [record?_put]
    split_ifs
    · exact ⟨_, rfl⟩
    · exact hthere m (List.mem_cons_of_mem n hm)

end Ledger

/-! ### What a batch comes to -/

namespace Processor

/-- What a negotiation comes to with a processor. -/
def upshot (p : Processor) (clock : Moment) (a : Answer) (n : Negotiation) :
    Verdict × Negotiation :=
  (p.handler "" clock n).upshot clock a n

theorem upshot_eq {p : Processor} {d : Duty} {ctx : Context} (h : p.handler = d.begin ctx)
    (clock : Moment) (a : Answer) (n : Negotiation) :
    p.upshot clock a n = d.upshot ctx clock a n := by
  rw [upshot, h]
  rfl

theorem id_upshot {p : Processor} (h : p.handler.Proper) (clock : Moment) (a : Answer)
    (n : Negotiation) : (p.upshot clock a n).2.id = n.id :=
  (h "" clock n).id_upshot clock a

/-- What a batch comes to: the ledger and the tally. -/
def comesTo (p : Processor) (l : Ledger) (now clock : Moment) (answers : Negotiation → Answer) :
    Ledger × Tally :=
  let batch := l.batch p.batchSize p.state now
  (l.putAll (fun n => (p.upshot clock (answers n) n).2) batch,
    Tally.ofVerdicts (batch.map fun n => (p.upshot clock (answers n) n).1))

/-- A ledger is what a batch comes to if the upshots of its members are there and nothing else was
changed. -/
theorem eq_comesTo {p : Processor} (h : p.handler.Proper) {l l' : Ledger} {now clock : Moment}
    {answers : Negotiation → Answer} (hids : l'.ids = l.ids)
    (hothers : ∀ id, id ∉ (l.batch p.batchSize p.state now).map (·.id) →
      l'.record? id = l.record? id)
    (hbatch : ∀ n ∈ l.batch p.batchSize p.state now,
      l'.record? n.id = some ⟨(p.upshot clock (answers n) n).2, none⟩) :
    l' = (p.comesTo l now clock answers).1 := by
  have hf : ∀ n ∈ l.batch p.batchSize p.state now,
      (p.upshot clock (answers n) n).2.id = n.id := fun n _ => id_upshot h clock _ n
  have hthere : ∀ n ∈ l.batch p.batchSize p.state now, ∃ r, l.record? n.id = some r := fun n hn =>
    let ⟨r, hr, _⟩ := Ledger.mem_batch hn
    ⟨r, hr⟩
  refine Ledger.eq_of_record? (hids.trans (Ledger.ids_putAll hf hthere).symm) fun id => ?_
  by_cases hid : id ∈ (l.batch p.batchSize p.state now).map (·.id)
  · obtain ⟨n, hn, rfl⟩ := List.mem_map.1 hid
    rw [hbatch n hn]
    exact (Ledger.record?_putAll_of_mem hf (l.nodup_batch ..) hn).symm
  · rw [hothers id hid]
    exact (Ledger.record?_putAll_of_not_mem hf hid).symm

/-- A step of the member of a batch at a place, with an id for a message: the message gets the
answer that is meant for the negotiation. -/
def turn (p : Processor) (l : Ledger) (now clock : Moment) (answers : Negotiation → Answer)
    (x : ℕ × String) : Turn Unit :=
  ⟨(), .proceed x.1,
    ⟨now, clock, x.2, ((l.batch p.batchSize p.state now)[x.1]?.map answers).getD default⟩⟩

end Processor

/-- A worker leased the batch of a processor and then made steps of its members, in this order. -/
def Workshop.interleaved (k : Worker) (p : Processor) (l : Ledger) (now clock : Moment)
    (answers : Negotiation → Answer) (order : List (ℕ × String)) : Workshop Unit :=
  (⟨l, fun _ => ⟨[p], []⟩⟩ : Workshop Unit).run (fun _ => k)
    (⟨(), .lease, ⟨now, clock, "", default⟩⟩ :: order.map (p.turn l now clock answers))

/-! ### The invariant -/

namespace Workshop

/-- The members of the batch are underway, and nothing else was touched. -/
structure Amid (k : Worker) (p : Processor) (d : Duty) (l : Ledger) (now clock : Moment)
    (answers : Negotiation → Answer) (W : Workshop Unit) : Prop where
  /-- Each member of the batch has its place. -/
  places : (W.bench ()).jobs.map Job.id = (l.batch p.batchSize p.state now).map (·.id)
  /-- It is underway there. -/
  jobs : ∀ (place : ℕ) n, (l.batch p.batchSize p.state now)[place]? = some n → ∃ m,
    W.job? () place = some ⟨p, now, m⟩ ∧ m.negotiation = n ∧
      m.Underway k d now clock (answers n) W.ledger
  /-- All other records are what they were. -/
  others : ∀ id, id ∉ (l.batch p.batchSize p.state now).map (·.id) →
    W.ledger.record? id = l.record? id
  /-- No record was put in or taken out. -/
  ids : W.ledger.ids = l.ids

section

variable {k : Worker} {p : Processor} {d : Duty} {l : Ledger} {now clock : Moment}
  {answers : Negotiation → Answer} {W : Workshop Unit}

namespace Amid

theorem exists_of_job? (h : W.Amid k p d l now clock answers) {place : ℕ} {j : Job}
    (hj : W.job? () place = some j) : ∃ n m,
      (l.batch p.batchSize p.state now)[place]? = some n ∧ j = ⟨p, now, m⟩ ∧ m.negotiation = n ∧
      m.Underway k d now clock (answers n) W.ledger := by
  have hlength : (W.bench ()).jobs.length = (l.batch p.batchSize p.state now).length := by
    simpa using congrArg List.length h.places
  have hlt := hlength ▸ (List.getElem?_eq_some_iff.1 hj).1
  obtain ⟨n, hn⟩ : ∃ n, (l.batch p.batchSize p.state now)[place]? = some n :=
    ⟨_, List.getElem?_eq_getElem hlt⟩
  obtain ⟨m, hm, hneg, hunder⟩ := h.jobs place n hn
  obtain rfl : ⟨p, now, m⟩ = j := by rw [hm] at hj; exact Option.some.inj hj
  exact ⟨n, m, hn, rfl, hneg, hunder⟩

theorem of_leased (hd : Duty.of? k.manager.side p.state = some d) (l : Ledger) :
    (interleaved k p l now clock answers []).Amid k p d l now clock answers := by
  have htake : interleaved k p l now clock answers [] =
      ⟨(l.leaseNext p.batchSize p.state k.holder k.span now).2, fun _ =>
        ⟨[], (l.batch p.batchSize p.state now).map fun n => ⟨p, now, .received n⟩⟩⟩ := by
    show Workshop.take (fun _ => k) ⟨l, fun _ => ⟨[p], []⟩⟩
      ⟨(), .lease, ⟨now, clock, "", default⟩⟩ = _
    rw [take_lease (p := p) rfl rfl rfl, leased]
    exact congrArg (Workshop.mk _) (funext fun _ => Function.update_self ..)
  rw [htake]
  refine ⟨?_, ?_, ?_, ?_⟩
  · exact List.map_map
  · intro place n hn
    refine ⟨.received n, ?_, rfl, ?_⟩
    · show ((l.batch p.batchSize p.state now).map fun n =>
        (⟨p, now, .received n⟩ : Job))[place]? = _
      rw [List.getElem?_map, hn]
      rfl
    · have hmem := List.mem_of_getElem? hn
      obtain ⟨r, -, -, hstate, -⟩ := Ledger.mem_batch hmem
      exact .received (hstate ▸ hd) (Ledger.record?_leaseNext_of_mem hmem)
  · exact fun id hid => Ledger.record?_leaseNext_of_not_mem hid
  · exact Ledger.ids_setLease

theorem take (h : W.Amid k p d l now clock answers)
    (hhandler : p.handler = d.begin k.manager.context) (x : ℕ × String) :
    (W.take (fun _ => k) (p.turn l now clock answers x)).Amid k p d l now clock answers := by
  cases hj : W.job? () x.1 with
  | none =>
    rw [take_proceed_of_none rfl hj]
    exact h
  | some j =>
    obtain ⟨n, m, hn, rfl, hneg, hunder⟩ := h.exists_of_job? hj
    set t := p.turn l now clock answers x
    have hanswer : t.chance.answer = answers n := by
      show (((l.batch p.batchSize p.state now)[x.1]?).map answers).getD default = _
      rw [hn]
      rfl
    have hproceed : W.proceed (fun _ => k) t ⟨p, now, m⟩ =
        m.step (t.chance.venue k.holder k.span) (d.begin k.manager.context) W.ledger := by
      rw [← hhandler]
      rfl
    have hnext := hunder.step (c := t.chance) rfl fun _ => hanswer
    have hothers (id : String) (hid : id ≠ m.negotiation.id) := hunder.record?_of_ne t.chance hid
    have hids := hunder.ids_step t.chance
    have hneg' := Member.negotiation_step (t.chance.venue k.holder k.span)
      (d.begin k.manager.context) m W.ledger
    rw [← hproceed] at hnext hothers hids hneg'
    rw [take_proceed (t := t) rfl hj]
    refine ⟨?_, ?_, ?_, hids.trans h.ids⟩
    · -- the job that made the step has the id it had
      rw [bench_stepped, if_pos rfl, List.map_set, ← h.places]
      refine List.ext_getElem? fun i => ?_
      rw [List.getElem?_set]
      split_ifs with hi hlt
      · subst hi
        have hjob : (W.bench ()).jobs[x.1]? = some ⟨p, now, m⟩ := hj
        rw [List.getElem?_map, hjob]
        exact congrArg (some ·.id) hneg'
      · subst hi
        exact (List.getElem?_eq_none (Nat.le_of_not_lt hlt)).symm
      · rfl
    · intro place n' hn'
      rw [job?_stepped (t := t) hj]
      split_ifs with hplace
      · obtain rfl := hplace.2
        obtain rfl : n = n' := by rw [hn] at hn'; exact Option.some.inj hn'
        exact ⟨_, rfl, hneg'.trans hneg, hnext⟩
      · obtain ⟨m', hm', hneg'', hunder'⟩ := h.jobs place n' hn'
        refine ⟨m', hm', hneg'', hunder'.congr (hothers _ ?_)⟩
        -- another place, another negotiation
        intro hid
        have hlt := (List.getElem?_eq_some_iff.1 hn').1
        have hnodup := l.nodup_batch p.batchSize p.state now
        refine hplace ⟨rfl, (List.getElem?_inj (by rwa [List.length_map]) hnodup).1 ?_⟩
        rw [List.getElem?_map, List.getElem?_map, hn', hn, ← hneg, ← hneg'']
        exact congrArg some hid
    · intro id hid
      refine (hothers id ?_).trans (h.others id hid)
      rintro rfl
      exact hid (hneg ▸ List.mem_map_of_mem (List.mem_of_getElem? hn))

theorem run (h : W.Amid k p d l now clock answers)
    (hhandler : p.handler = d.begin k.manager.context) (order : List (ℕ × String)) :
    (W.run (fun _ => k) (order.map (p.turn l now clock answers))).Amid k p d l now clock
      answers := by
  induction order generalizing W with
  | nil => exact h
  | cons x order ih => exact ih (h.take hhandler x)

/-- When all members are at their ends, the ledger and the tally are what the batch comes to. -/
theorem eq_comesTo (h : W.Amid k p d l now clock answers)
    (hhandler : p.handler = d.begin k.manager.context) (hidle : (W.bench ()).isIdle = true) :
    (W.ledger, Processor.tally ((W.bench ()).jobs.map Job.member)) =
      p.comesTo l now clock answers := by
  have hproper : p.handler.Proper := hhandler ▸ d.concerns_begin k.manager.context
  have hend {place : ℕ} {n : Negotiation}
      (hn : (l.batch p.batchSize p.state now)[place]? = some n) :
      W.job? () place = some ⟨p, now, .settled n (p.upshot clock (answers n) n).1⟩ ∧
      W.ledger.record? n.id = some ⟨(p.upshot clock (answers n) n).2, none⟩ := by
    obtain ⟨m, hm, hneg, hunder⟩ := h.jobs place n hn
    obtain ⟨n', v, rfl⟩ : ∃ n' v, m = .settled n' v := settled_of_isIdle hidle hm
    obtain rfl : n' = n := hneg
    obtain ⟨hv, hr⟩ := hunder.of_settled
    rw [Processor.upshot_eq hhandler]
    exact ⟨hv ▸ hm, hr⟩
  refine Prod.ext (Processor.eq_comesTo hproper h.ids h.others fun n hn => ?_) ?_
  · obtain ⟨place, hplace⟩ := List.getElem?_of_mem hn
    exact (hend hplace).2
  · -- place by place, the verdict is that of the upshot
    have hverdicts : (W.bench ()).jobs.map (·.member.verdict?) =
        (l.batch p.batchSize p.state now).map fun n =>
          some (p.upshot clock (answers n) n).1 := by
      refine List.ext_getElem? fun place => ?_
      rw [List.getElem?_map, List.getElem?_map]
      cases hn : (l.batch p.batchSize p.state now)[place]? with
      | some n =>
        have hjob : (W.bench ()).jobs[place]? = _ := (hend hn).1
        rw [hjob]
        rfl
      | none =>
        cases hj : W.job? () place with
        | none =>
          have hjob : (W.bench ()).jobs[place]? = none := hj
          rw [hjob]
          rfl
        | some j =>
          obtain ⟨n, m, hn', -⟩ := h.exists_of_job? hj
          rw [hn] at hn'
          cases hn'
    show Tally.ofVerdicts (((W.bench ()).jobs.map Job.member).filterMap Member.verdict?) =
      Tally.ofVerdicts ((l.batch p.batchSize p.state now).map _)
    congr 1
    have hfilter := congrArg (List.filterMap id) hverdicts
    rw [List.filterMap_map, List.filterMap_map] at hfilter
    rw [List.filterMap_map]
    exact hfilter.trans (congrFun List.filterMap_eq_map _)

/-- A member sees and changes the record of its own negotiation only. -/
theorem own_record (h : W.Amid k p d l now clock answers)
    (hhandler : p.handler = d.begin k.manager.context) {place : ℕ} {j : Job}
    (hj : W.job? () place = some j) (c : Chance) (l₁ : Ledger) :
    (∀ id, id ≠ j.id → (j.member.step (c.venue k.holder k.span) p.handler l₁).2.record? id =
      l₁.record? id) ∧
    ∀ l₂ : Ledger, l₂.record? j.id = l₁.record? j.id →
      (j.member.step (c.venue k.holder k.span) p.handler l₂).1 =
        (j.member.step (c.venue k.holder k.span) p.handler l₁).1 ∧
      (j.member.step (c.venue k.holder k.span) p.handler l₂).2.record? j.id =
        (j.member.step (c.venue k.holder k.span) p.handler l₁).2.record? j.id := by
  have hproper : p.handler.Proper := hhandler ▸ d.concerns_begin k.manager.context
  obtain ⟨n, m, -, rfl, -, hunder⟩ := h.exists_of_job? hj
  have hc : m.Concerns := hunder.follows.concerns
  exact ⟨fun id hid => Member.record?_step_of_ne hproper hc c _ _ l₁ hid,
    fun l₂ hl => Member.step_congr hproper hc c _ _ hl⟩

end Amid

/-! ### Getting to the end -/

theorem rank_take_le (x : ℕ × String) {place : ℕ} {j : Job}
    (hj : (W.take (fun _ => k) (p.turn l now clock answers x)).job? () place = some j) :
    ∃ i, W.job? () place = some i ∧
      j.member.rank ≤ i.member.rank - if x.1 = place then 1 else 0 := by
  cases hx : W.job? () x.1 with
  | none =>
    rw [take_proceed_of_none rfl hx] at hj
    refine ⟨j, hj, ?_⟩
    rw [if_neg]
    · exact Nat.le_refl _
    · rintro rfl
      rw [hx] at hj
      cases hj
  | some i =>
    rw [take_proceed (t := p.turn l now clock answers x) rfl hx, job?_stepped hx] at hj
    split_ifs at hj with hplace
    · obtain ⟨-, rfl⟩ := hplace
      obtain rfl := Option.some.inj hj
      refine ⟨i, hx, ?_⟩
      rw [if_pos rfl]
      exact Member.rank_step_le _ _ i.member _
    · refine ⟨j, hj, ?_⟩
      rw [if_neg fun he => hplace ⟨rfl, he.symm⟩]
      exact Nat.le_refl _

theorem rank_run_le (order : List (ℕ × String)) {place : ℕ} {j : Job}
    (hj : (W.run (fun _ => k) (order.map (p.turn l now clock answers))).job? () place = some j) :
    ∃ i, W.job? () place = some i ∧
      j.member.rank ≤ i.member.rank - (order.map Prod.fst).count place := by
  induction order generalizing W with
  | nil => exact ⟨j, hj, Nat.le_refl _⟩
  | cons x order ih =>
    obtain ⟨i, hi, hle⟩ := ih hj
    obtain ⟨i', hi', hle'⟩ := rank_take_le x hi
    refine ⟨i', hi', hle.trans ?_⟩
    rw [List.map_cons, List.count_cons]
    simp only [beq_iff_eq]
    omega

end

end Workshop

/-! ### One after the other -/

section

variable {k : Worker} {p : Processor} {d : Duty} {now clock : Moment} {σ : Type} {v : Venue σ}
  {sent : σ → List (Message × Answer)}

/-- What was sent about some negotiations, with these ids of messages and these answers. -/
def Handler.sends (handler : Handler) (clock : Moment) (messageIds : Negotiation → String)
    (answers : Negotiation → Answer) (ns : List Negotiation) : List (Message × Answer) :=
  ns.flatMap fun n =>
    ((handler (messageIds n) clock n).outgoing?.map fun m => (m, answers n)).toList

theorem Handler.sends_congr {handler : Handler} {clock : Moment}
    {messageIds messageIds' : Negotiation → String} {answers answers' : Negotiation → Answer}
    {ns : List Negotiation} (hids : ∀ n ∈ ns, messageIds' n = messageIds n)
    (hanswers : ∀ n ∈ ns, answers' n = answers n) :
    handler.sends clock messageIds' answers' ns = handler.sends clock messageIds answers ns :=
  List.flatMap_congr fun n hn => by rw [hids n hn, hanswers n hn]

/-- What a ledger, some members and the list of what was sent have become by way of their
negotiations. -/
structure Processor.EndAll (k : Worker) (d : Duty) (clock : Moment)
    (messageIds : Negotiation → String) (answers : Negotiation → Answer) (ns : List Negotiation)
    (l l' : Ledger) (es es' : List (Message × Answer)) (ms : List Member) : Prop where
  /-- The members are at their ends. -/
  members : ms =
    ns.map fun n => .settled n (d.upshot k.manager.context clock (answers n) n).1
  /-- Their upshots are stored. -/
  stored : ∀ n ∈ ns, l'.record? n.id =
    some ⟨(d.upshot k.manager.context clock (answers n) n).2, none⟩
  /-- No other record was changed. -/
  others : ∀ id, id ∉ ns.map (·.id) → l'.record? id = l.record? id
  /-- No record was put in or taken out. -/
  ids : l'.ids = l.ids
  /-- The messages about them were sent. -/
  sent : es' = es ++ (d.begin k.manager.context).sends clock messageIds answers ns

/-- Members that were just leased come to their ends one after the other, with the answers that
their messages get. -/
theorem Processor.exists_endAll_runAll (hv : v.Quiet k sent) (hclock : ∀ u, v.now u = clock)
    (ns : List Negotiation) (hnodup : (ns.map (·.id)).Nodup) (s : σ)
    (hleased : ∀ n ∈ ns, Duty.of? k.manager.side n.state = some d ∧
      (v.desk s).ledger.record? n.id = some ⟨n, some ⟨k.holder, now, k.span⟩⟩) :
    ∃ messageIds answers, EndAll k d clock messageIds answers ns (v.desk s).ledger
      (v.desk (runAll v (d.begin k.manager.context) (ns.map .received) s).2).ledger (sent s)
      (sent (runAll v (d.begin k.manager.context) (ns.map .received) s).2)
      (runAll v (d.begin k.manager.context) (ns.map .received) s).1 := by
  induction ns generalizing s with
  | nil =>
    exact ⟨fun _ => "", fun _ => default, rfl, fun _ h => absurd h List.not_mem_nil,
      fun _ _ => rfl, rfl, (List.append_nil _).symm⟩
  | cons n ns ih =>
    rw [List.map_cons, List.nodup_cons] at hnodup
    obtain ⟨hd, hr⟩ := hleased n List.mem_cons_self
    obtain ⟨messageId, a, ⟨w, hw⟩, hunder, hothers, hids, hsent⟩ :=
      Member.Underway.exists_ends_run hv hclock s hd hr
    set first := (Member.received n).run v (d.begin k.manager.context) s
    have hne : ∀ m ∈ ns, m.id ≠ n.id := fun m hm he =>
      hnodup.1 (he ▸ List.mem_map_of_mem hm)
    obtain ⟨messageIds, answers, hmembers, hbatch, hrest, hids', hsent'⟩ :=
      ih hnodup.2 first.2 fun m hm =>
        ⟨(hleased m (List.mem_cons_of_mem n hm)).1,
          (hothers _ (hne m hm)).trans (hleased m (List.mem_cons_of_mem n hm)).2⟩
    rw [hw] at hunder
    obtain ⟨hverdict, hstored⟩ := hunder.of_settled
    -- the answers to the others are left as they are
    have hself : Function.update answers n a n = a := Function.update_self ..
    have hother : ∀ m ∈ ns, Function.update answers n a m = answers m := fun m hm =>
      Function.update_of_ne (fun he => hne m hm (congrArg _ he)) ..
    have hother' : ∀ m ∈ ns, Function.update messageIds n messageId m = messageIds m :=
      fun m hm => Function.update_of_ne (fun he => hne m hm (congrArg _ he)) ..
    refine ⟨Function.update messageIds n messageId, Function.update answers n a, ?_, ?_, ?_,
      hids'.trans hids, ?_⟩
    · show first.1 :: (runAll v (d.begin k.manager.context) (ns.map .received) first.2).1 = _
      rw [hmembers, hw, List.map_cons, hself, ← hverdict]
      congr 1
      exact List.map_congr_left fun m hm => by rw [hother m hm]
    · intro m hm
      show (v.desk (runAll v (d.begin k.manager.context) (ns.map .received)
        first.2).2).ledger.record? m.id = _
      rcases List.mem_cons.1 hm with rfl | hm
      · rw [hrest _ hnodup.1, hself]
        exact hstored
      · rw [hother m hm]
        exact hbatch m hm
    · intro id hid
      rw [List.map_cons, List.mem_cons, not_or] at hid
      exact (hrest id hid.2).trans (hothers id hid.1)
    · show sent (runAll v (d.begin k.manager.context) (ns.map .received) first.2).2 = _
      rw [hsent', hsent, ← Handler.sends_congr hother' hother, List.append_assoc]
      simp only [Handler.sends, List.flatMap_cons, Function.update_self]

/-- A round of a processor, whose members are handled one after the other, comes to what a batch
comes to. -/
theorem Processor.exists_run_eq_comesTo (hv : v.Quiet k sent) (hnow : ∀ u, (v.desk u).now = now)
    (hclock : ∀ u, v.now u = clock) (hd : Duty.of? k.manager.side p.state = some d)
    (hhandler : p.handler = d.begin k.manager.context) (s : σ) :
    ∃ messageIds answers,
      sent (p.run v s).2 = sent s ++ p.handler.sends clock messageIds answers
        ((v.desk s).ledger.batch p.batchSize p.state now) ∧
      ((v.desk (p.run v s).2).ledger, tally (p.run v s).1) =
        p.comesTo (v.desk s).ledger now clock answers := by
  set l := (v.desk s).ledger
  set batch := l.batch p.batchSize p.state now
  have hlease := p.lease_of_serves hv.toServes s
  rw [hnow] at hlease
  set s' := (p.lease v s).2 with hs'
  have hledger : (v.desk s').ledger =
      (l.leaseNext p.batchSize p.state k.holder k.span now).2 := by
    rw [hs', hlease]
    exact hv.ledger_setDesk ..
  have hrun : p.run v s = runAll v (d.begin k.manager.context) (batch.map .received) s' := by
    show runAll v p.handler (p.lease v s).1 (p.lease v s).2 = _
    rw [hhandler, ← hs', hlease]
  have hrecord {id : String} (hid : id ∉ batch.map (·.id)) :
      (v.desk s').ledger.record? id = l.record? id := by
    rw [hledger]
    exact Ledger.record?_leaseNext_of_not_mem hid
  have hleased : ∀ n ∈ batch, Duty.of? k.manager.side n.state = some d ∧
      (v.desk s').ledger.record? n.id = some ⟨n, some ⟨k.holder, now, k.span⟩⟩ := by
    intro n hn
    obtain ⟨r, -, -, hstate, -⟩ := Ledger.mem_batch hn
    refine ⟨hstate ▸ hd, ?_⟩
    rw [hledger]
    exact Ledger.record?_leaseNext_of_mem hn
  have hsent' : sent s' = sent s := by
    rw [hs', hlease]
    exact hv.sent_setDesk ..
  obtain ⟨messageIds, answers, hmembers, hbatch, hrest, hids, hsent⟩ :=
    exists_endAll_runAll hv hclock batch (l.nodup_batch ..) s' hleased
  rw [← hrun] at hmembers hbatch hrest hids hsent
  have hproper : p.handler.Proper := hhandler ▸ d.concerns_begin k.manager.context
  refine ⟨messageIds, answers, ?_, Prod.ext (eq_comesTo hproper ?_ ?_ ?_) ?_⟩
  · rw [hsent, hsent', hhandler]
  · rw [hids, hledger]
    exact Ledger.ids_setLease
  · exact fun id hid => (hrest id hid).trans (hrecord hid)
  · intro n hn
    rw [upshot_eq hhandler]
    exact hbatch n hn
  · show Tally.ofVerdicts ((p.run v s).1.filterMap Member.verdict?) = Tally.ofVerdicts (batch.map _)
    rw [hmembers, List.filterMap_map]
    congr 1
    refine (congrFun List.filterMap_eq_map batch).trans (List.map_congr_left fun n _ => ?_)
    rw [upshot_eq hhandler]

end

/-! ### What a worker can count on -/

namespace Workshop

/-- What a worker can count on when it runs a processor while the clocks stand still. -/
structure OrderFree (k : Worker) (p : Processor) (now clock : Moment) : Prop where
  /-- In whatever order the members make their steps, once they are all at their ends the ledger and
  the tally are what the batch comes to. -/
  same_end : ∀ l answers order,
    ((interleaved k p l now clock answers order).bench ()).isIdle = true →
    ((interleaved k p l now clock answers order).ledger, Processor.tally
      (((interleaved k p l now clock answers order).bench ()).jobs.map Job.member)) =
      p.comesTo l now clock answers
  /-- They are at their ends when each was given six turns. -/
  comes_to_end : ∀ l answers order,
    (∀ place < (l.batch p.batchSize p.state now).length, 6 ≤ (order.map Prod.fst).count place) →
    ((interleaved k p l now clock answers order).bench ()).isIdle = true
  /-- Handling them one after the other comes to the same, with the answers that were got. -/
  one_by_one : ∀ {σ : Type} (v : Venue σ) (sent : σ → List (Message × Answer)), v.Quiet k sent →
    (∀ u, (v.desk u).now = now) → (∀ u, v.now u = clock) → ∀ s, ∃ messageIds answers,
      sent (p.run v s).2 = sent s ++ p.handler.sends clock messageIds answers
        ((v.desk s).ledger.batch p.batchSize p.state now) ∧
      ((v.desk (p.run v s).2).ledger, Processor.tally (p.run v s).1) =
        p.comesTo (v.desk s).ledger now clock answers
  /-- Whatever else is in the ledger, the next step of a member sees and changes the record of its
  own negotiation only. -/
  own_record : ∀ l answers order place j,
    (interleaved k p l now clock answers order).job? () place = some j →
    ∀ (c : Chance) (l₁ : Ledger),
    (∀ id, id ≠ j.id → (j.member.step (c.venue k.holder k.span) p.handler l₁).2.record? id =
      l₁.record? id) ∧
    ∀ l₂ : Ledger, l₂.record? j.id = l₁.record? j.id →
      (j.member.step (c.venue k.holder k.span) p.handler l₂).1 =
        (j.member.step (c.venue k.holder k.span) p.handler l₁).1 ∧
      (j.member.step (c.venue k.holder k.span) p.handler l₂).2.record? j.id =
        (j.member.step (c.venue k.holder k.span) p.handler l₁).2.record? j.id

/-- **The order in which a batch is worked on does not matter.**  Whatever is in the ledger and
whatever answer is meant for each negotiation, all ways to interleave the steps of the members of a
batch end with the same ledger and the same tally. -/
theorem order_is_irrelevant (k : Worker) {p : Processor} (hp : p ∈ k.manager.processors)
    (now clock : Moment) : OrderFree k p now clock := by
  obtain ⟨d, hd, hhandler⟩ := Manager.mem_processors hp
  have hamid (l : Ledger) (answers : Negotiation → Answer) (order : List (ℕ × String)) :
      (interleaved k p l now clock answers order).Amid k p d l now clock answers :=
    (Amid.of_leased hd l).run hhandler order
  constructor
  · exact fun l answers order hidle => (hamid l answers order).eq_comesTo hhandler hidle
  · intro l answers order hturns
    rw [Bench.isIdle, List.all_eq_true]
    intro j hj
    obtain ⟨place, hplace⟩ := List.mem_iff_getElem?.1 hj
    obtain ⟨n, m, hn, rfl, -, -⟩ := (hamid l answers order).exists_of_job? hplace
    -- the member had six steps before it, and took as many
    have hrank : m.rank = 0 := by
      obtain ⟨i, -, hle⟩ := rank_run_le (W := interleaved k p l now clock answers []) order hplace
      have hcount := hturns place (List.getElem?_eq_some_iff.1 hn).1
      have hsix := i.member.rank_le
      have hle : m.rank ≤ i.member.rank - (order.map Prod.fst).count place := hle
      omega
    exact Member.isSome_verdict?_of_rank hrank
  · exact fun v sent hv hnow hclock s =>
      Processor.exists_run_eq_comesTo hv hnow hclock hd hhandler s
  · exact fun l answers order place j hj c l₁ =>
      (hamid l answers order).own_record hhandler hj c l₁

/-- Two offers are sent, one is taken and the other is not: in one run the two are handled side by
side, in the other one after the other. -/
theorem order_is_irrelevant_twins :
    let k : Worker := ⟨"worker", 60000, .provider, "provider", {}, 2, false⟩
    let p : Processor := ⟨.offering, 2, Duty.sendOffer.begin k.manager.context⟩
    let answers (n : Negotiation) : Answer :=
      if n.id = "negotiation-1" then .error (.timeout 100) else .ok (.succeeded .null)
    let sideBySide := (List.replicate 6 [(0, "message-1"), (1, "message-2")]).flatten
    let inTurn := List.replicate 6 (1, "message-3") ++ List.replicate 6 (0, "message-4")
    p ∈ k.manager.processors ∧
    ((interleaved k p Ledger.twins 5000 5000 answers sideBySide).bench ()).isIdle = true ∧
    ((interleaved k p Ledger.twins 5000 5000 answers inTurn).bench ()).isIdle = true ∧
    (interleaved k p Ledger.twins 5000 5000 answers sideBySide).ledger =
      (interleaved k p Ledger.twins 5000 5000 answers inTurn).ledger ∧
    Processor.tally
        (((interleaved k p Ledger.twins 5000 5000 answers sideBySide).bench ()).jobs.map
          Job.member) =
      Processor.tally
        (((interleaved k p Ledger.twins 5000 5000 answers inTurn).bench ()).jobs.map
          Job.member) := by
  intro k p answers sideBySide inTurn
  have hp : p ∈ k.manager.processors :=
    List.mem_map.2 ⟨(.offering, .sendOffer), by decide, rfl⟩
  obtain ⟨hsame, hend, -, -⟩ := order_is_irrelevant k hp 5000 5000
  have hlength : (Ledger.twins.batch p.batchSize p.state 5000).length ≤ 2 := by
    rw [Ledger.batch, List.length_map]
    exact List.length_take_le ..
  have hcount : ∀ place < 2, 6 ≤ (sideBySide.map Prod.fst).count place := by decide
  have hcount' : ∀ place < 2, 6 ≤ (inTurn.map Prod.fst).count place := by decide
  have hidle := hend Ledger.twins answers sideBySide fun place hplace =>
    hcount place (Nat.lt_of_lt_of_le hplace hlength)
  have hidle' := hend Ledger.twins answers inTurn fun place hplace =>
    hcount' place (Nat.lt_of_lt_of_le hplace hlength)
  have heq := (hsame Ledger.twins answers sideBySide hidle).trans
    (hsame Ledger.twins answers inTurn hidle').symm
  obtain ⟨hledger, htally⟩ := Prod.mk.inj heq
  exact ⟨hp, hidle, hidle', hledger, htally⟩

end Workshop

end Parley
