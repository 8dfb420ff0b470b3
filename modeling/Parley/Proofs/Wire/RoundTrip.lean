import Parley.Proofs.Wire.Forms
import Parley.Wire.Answer
import Parley.Wire.Message
import Parley.Wire.Negotiation
import Parley.Wire.Settings

/-!
# Records are read as they were written

What is written of a record is a plain value, whatever texts, numbers and lists it holds, and every
form of that value is read as the record.

* `X.plain_toJson` : what is written of an `X` is plain; `X.reads_toJson` : every form of it is
  read.
* `RoundTrips` : the same from text to text; `round_trips` is that for every record.
-/

namespace Parley

open Json Wire

/-! ### Plain values -/

namespace Wire

attribute [simp] Plain.null Plain.bool Plain.string

variable {α : Type} {write : α → Json} {n : ℕ}

@[simp] theorem plain_ofWord64 (w : UInt64) : Plain n (ofWord64 w) := .natural w.toNat_lt_size

@[simp] theorem plain_ofWord32 (w : UInt32) : Plain n (ofWord32 w) :=
  .natural (Nat.lt_trans w.toNat_lt_size (by decide))

theorem plain_list (h : ∀ x, Plain n (write x)) (xs : List α) :
    Plain (n + 1) (.array (xs.map write)) := .array (List.forall_mem_map.2 fun x _ => h x)

@[simp] theorem plain_ofTexts (texts : List String) : Plain (n + 1) (ofTexts texts) :=
  plain_list .string texts

@[simp] theorem plain_ofOption (h : ∀ x, Plain n (write x)) (x : Option α) :
    Plain n (ofOption write x) := by
  cases x with
  | none => exact .null
  | some x => exact h x

end Wire

section

variable {n : ℕ}

theorem Rule.plain_toJson (r : Rule) : Plain (n + 2) r.toJson := .object (by simp)

theorem Policy.plain_toJson (p : Policy) : Plain (n + 4) p.toJson :=
  .object (by simp [plain_list Rule.plain_toJson])

theorem Offer.plain_toJson (o : Offer) : Plain (n + 5) o.toJson :=
  .object (by simp [Policy.plain_toJson])

theorem Agreement.plain_toJson (a : Agreement) : Plain (n + 5) a.toJson :=
  .object (by simp [Policy.plain_toJson])

theorem Header.plain_toJson (h : Header) : Plain (n + 1) h.toJson := .object (by simp)

theorem Failure.plain_toJson (f : Failure) : Plain (n + 2) f.toJson := .object (by simp)

theorem Message.plain_toJson (m : Message) : Plain (n + 6) m.toJson := by
  refine .object ?_
  cases m <;> simp [members, Header.plain_toJson, Offer.plain_toJson, Agreement.plain_toJson,
    Policy.plain_toJson]

theorem Negotiation.plain_toJson (n : Negotiation) : Plain 7 n.toJson :=
  .object (by simp [plain_list Offer.plain_toJson, Agreement.plain_toJson])

theorem Settings.plain_toJson (s : Settings) : Plain (n + 2) s.toJson := by
  refine .object ?_
  simp only [List.forall_mem_cons]
  refine ⟨.string _, .object ?_, .object ?_, .object ?_, .object ?_, List.forall_mem_nil _⟩ <;> simp

end

/-! ### Reading -/

theorem EventKind.ofName?_name (k : EventKind) : ofName? k.name = some k := by cases k <;> decide

theorem FailureStatus.ofName?_name (s : FailureStatus) : ofName? s.name = some s := by
  cases s <;> decide

theorem Rule.reads_toJson : Reads toJson ofJson? := by
  intro r j h
  refine Fields.bind_ofJson? h (by simp) fun f hold => ?_
  refine hold.required 0 reads_text rfl ?_
  refine hold.defaulted 1 reads_text.list rfl ?_
  rfl

theorem Policy.reads_toJson : Reads toJson ofJson? := by
  intro p j h
  refine Fields.bind_ofJson? h (by simp) fun f hold => ?_
  refine hold.optional 0 reads_text rfl rfl ?_
  refine hold.optional 1 reads_text rfl rfl ?_
  refine hold.optional 2 reads_text rfl rfl ?_
  refine hold.defaulted 3 Rule.reads_toJson.list rfl ?_
  refine hold.defaulted 4 Rule.reads_toJson.list rfl ?_
  refine hold.defaulted 5 Rule.reads_toJson.list rfl ?_
  rfl

theorem Offer.reads_toJson : Reads toJson ofJson? := by
  intro o j h
  refine Fields.bind_ofJson? h (by simp) fun f hold => ?_
  refine hold.required 0 reads_text rfl ?_
  refine hold.required 1 reads_text rfl ?_
  refine hold.required 2 Policy.reads_toJson rfl ?_
  rfl

theorem Agreement.reads_toJson : Reads toJson ofJson? := by
  intro a j h
  refine Fields.bind_ofJson? h (by simp) fun f hold => ?_
  refine hold.required 0 reads_text rfl ?_
  refine hold.required 1 reads_text rfl ?_
  refine hold.required 2 reads_text rfl ?_
  refine hold.required 3 reads_word64 rfl ?_
  refine hold.required 4 reads_text rfl ?_
  refine hold.required 5 Policy.reads_toJson rfl ?_
  rfl

theorem Header.reads_toJson : Reads toJson ofJson? := by
  intro h j hj
  refine Fields.bind_ofJson? hj (by simp) fun f hold => ?_
  refine hold.required 0 reads_text rfl ?_
  refine hold.required 1 reads_text rfl ?_
  refine hold.required 2 reads_text rfl ?_
  refine hold.required 3 reads_text rfl ?_
  rfl

theorem Failure.reads_toJson : Reads toJson ofJson? := by
  intro r j h
  refine Fields.bind_ofJson? h (by simp) fun f hold => ?_
  refine hold.required 0 (reads_name FailureStatus.ofName?_name) rfl ?_
  refine hold.required 1 reads_text.list rfl ?_
  rfl

theorem Negotiation.reads_toJson : Reads toJson ofJson? := by
  intro n j h
  refine Fields.bind_ofJson? h (by simp) fun f hold => ?_
  refine hold.required 0 reads_text rfl ?_
  refine hold.required 1 (reads_name Side.ofName?_name) rfl ?_
  refine hold.required 2 (reads_name State.ofName?_name) rfl ?_
  refine hold.required 3 reads_word32 rfl ?_
  refine hold.required 4 reads_word64 rfl ?_
  refine hold.optional 5 reads_text rfl rfl ?_
  refine hold.required 6 reads_text rfl ?_
  refine hold.required 7 reads_text rfl ?_
  refine hold.required 8 reads_text rfl ?_
  refine hold.optional 9 reads_text rfl rfl ?_
  refine hold.required 10 Offer.reads_toJson.list rfl ?_
  refine hold.optional 11 Agreement.reads_toJson rfl rfl ?_
  refine hold.optional 12 reads_text rfl rfl ?_
  refine hold.required 13 reads_word64 rfl ?_
  refine hold.required 14 reads_word64 rfl ?_
  rfl

namespace Message

variable {m : Message} {j : Json} {f : Fields}

theorem ofUntagged?_of_holds (hf : Fields.ofJson? (m.members.map Prod.fst) j = some f)
    (hold : f.Holds m.members) : ofUntagged? m.kind j = some m := by
  cases m with
  | request h o callback =>
    refine Option.bind_eq_some_iff.2 ⟨f, hf, ?_⟩
    refine hold.required 0 Header.reads_toJson rfl ?_
    refine hold.required 1 Offer.reads_toJson rfl ?_
    refine hold.optional 2 reads_text rfl rfl ?_
    rfl
  | offer h o =>
    refine Option.bind_eq_some_iff.2 ⟨f, hf, ?_⟩
    refine hold.required 0 Header.reads_toJson rfl ?_
    refine hold.required 1 Offer.reads_toJson rfl ?_
    rfl
  | agreement h a =>
    refine Option.bind_eq_some_iff.2 ⟨f, hf, ?_⟩
    refine hold.required 0 Header.reads_toJson rfl ?_
    refine hold.required 1 Agreement.reads_toJson rfl ?_
    rfl
  | approval h =>
    refine Option.bind_eq_some_iff.2 ⟨f, hf, ?_⟩
    refine hold.required 0 Header.reads_toJson rfl ?_
    rfl
  | event h kind policy =>
    refine Option.bind_eq_some_iff.2 ⟨f, hf, ?_⟩
    refine hold.required 0 Header.reads_toJson rfl ?_
    refine hold.required 1 (reads_name EventKind.ofName?_name) rfl ?_
    refine hold.optional 2 Policy.reads_toJson rfl rfl ?_
    rfl
  | termination h reason policy =>
    refine Option.bind_eq_some_iff.2 ⟨f, hf, ?_⟩
    refine hold.required 0 Header.reads_toJson rfl ?_
    refine hold.optional 1 reads_text rfl rfl ?_
    refine hold.optional 2 Policy.reads_toJson rfl rfl ?_
    rfl

theorem nodup_names (m : Message) : ("type" :: m.members.map Prod.fst).Nodup := by
  cases m <;> simp [members]

theorem inRange_and_depth_le (h : Plain 6 j) :
    (j.inRange && decide (j.depth ≤ depthLimit)) = true := by
  rw [h.inRange, decide_eq_true (Nat.le_trans h.depth_le (by decide))]
  rfl

theorem ofJson?_object {members : List (String × Json)}
    (hplain : Plain 6 (.object members)) (htag : onlyMember? "type" members =
      some (some (.string m.kind.tag))) : ofJson? (.object members) =
    ofUntagged? m.kind (.object members) := by
  rw [ofJson?, if_pos (inRange_and_depth_le hplain)]
  simp only [htag, Option.bind_eq_bind, Option.bind_some, text?, MessageKind.ofTag?_tag]

theorem ofJson?_array {items : List Json}
    (hplain : Plain 6 (.array (.string m.kind.tag :: items))) :
    ofJson? (.array (.string m.kind.tag :: items)) = ofUntagged? m.kind (.array items) := by
  rw [ofJson?, if_pos (inRange_and_depth_le hplain)]
  simp only [Option.bind_eq_bind, Option.bind_some, MessageKind.ofTag?_tag]

theorem reads_toJson : Reads toJson ofJson? := by
  intro m j h
  have hplain : Plain 6 j := m.plain_toJson.of_recasts h
  cases h with
  | plain hdepth => exact absurd hdepth (Nat.succ_ne_zero _)
  | @object _ ns hnames hvalues =>
    have hd : (ns.map Prod.fst).Nodup := hnames ▸ m.nodup_names
    rcases ns with - | ⟨⟨name, k⟩, ns⟩
    · cases hnames
    · obtain rfl : name = "type" := (List.cons.inj hnames).1
      have hrest : ns.map Prod.fst = m.members.map Prod.fst := (List.cons.inj hnames).2
      cases hvalues with
      | cons htag hvalues =>
        cases htag
        obtain ⟨f, hf, hold⟩ :=
          Fields.exists_of_object [("type", .string m.kind.tag)] hrest hvalues hd
        rw [ofJson?_object hplain (onlyMember?_of_mem hd List.mem_cons_self)]
        exact ofUntagged?_of_holds hf hold
  | positional hvalues =>
    cases hvalues with
    | cons htag hvalues =>
      cases htag
      obtain ⟨f, hf, hold⟩ := Fields.exists_of_array hvalues
      rw [ofJson?_array hplain]
      exact ofUntagged?_of_holds hf hold

end Message

namespace Settings

variable {ms : List (String × Json)} {α β : Type} {write : α → Json} {read : Reader α}

theorem bind_parts? {j : Json} {x : α} (h : (Json.object ms).Recasts j)
    (hd : (ms.map Prod.fst).Nodup) {g : List (Option Json) → Option α}
    (hg : ∀ f : Fields, f.Holds ms → g f.values = some x) :
    (settingsDialect.parts? (ms.map Prod.fst) j).bind g = some x := by
  obtain ⟨f, hf, hold⟩ := Fields.exists_of_recasts h hd
  have hparts : settingsDialect.parts? (ms.map Prod.fst) j = some f.values :=
    congrArg (Option.map Fields.values) hf
  rw [hparts, Option.bind_some, hg f hold]

theorem setting?_of_holds {f : Fields} {name : String} {x : α} (hf : f.Holds ms) (i : ℕ)
    (hr : Reads write read) (hi : ms[i]? = some (name, write x)) (d : α) :
    Dialect.setting? f.values i read d = some x := by
  obtain ⟨k, hk, hrecast⟩ := hf i _ hi
  have hvalue : (f.values[i]?).join = some k := hk
  rw [Dialect.setting?, hvalue]
  exact hr x k hrecast

theorem bind_setting? {f : Fields} {name : String} {x : α} {y : β} (hf : f.Holds ms) (i : ℕ)
    (hr : Reads write read) (hi : ms[i]? = some (name, write x)) {d : α} {g : α → Option β}
    (hg : g x = some y) : (Dialect.setting? f.values i read d).bind g = some y :=
  Option.bind_eq_some_iff.2 ⟨x, setting?_of_holds hf i hr hi d, hg⟩

theorem reads_rounds : Reads (fun r : RoundSettings => .object
    [("batch_size", ofWord64 r.batchSize), ("lease_duration_ms", ofWord64 r.leaseSpan),
      ("backoff_base_ms", ofWord64 r.backoffBase), ("backoff_max_ms", ofWord64 r.backoffMax)])
    settingsDialect.rounds? := by
  intro r j h
  refine bind_parts? h (by simp) fun f hold => ?_
  refine bind_setting? hold 0 reads_word64 rfl ?_
  refine bind_setting? hold 1 reads_word64 rfl ?_
  refine bind_setting? hold 2 reads_word64 rfl ?_
  refine bind_setting? hold 3 reads_word64 rfl ?_
  rfl

theorem reads_retry : Reads (fun p : RetryPolicy => .object
    [("max_retries", ofWord32 p.maxRetries), ("base_delay_ms", ofWord64 p.baseDelay),
      ("max_delay_ms", ofWord64 p.maxDelay)]) settingsDialect.retry? := by
  intro p j h
  refine bind_parts? h (by simp) fun f hold => ?_
  refine bind_setting? hold 0 reads_word32 rfl ?_
  refine bind_setting? hold 1 reads_word64 rfl ?_
  refine bind_setting? hold 2 reads_word64 rfl ?_
  rfl

theorem reads_autoAgree : Reads (fun b => .object [("auto_agree_requested", .bool b)])
    settingsDialect.autoAgree? := by
  intro b j h
  refine bind_parts? h (by simp) fun f hold => ?_
  exact setting?_of_holds hold 0 reads_flag rfl false

theorem reads_logging : Reads (fun l : LogSettings => .object
    [("level", .string l.level), ("format", .string l.format.name)])
    settingsDialect.logging? := by
  intro l j h
  refine bind_parts? h (by simp) fun f hold => ?_
  refine bind_setting? hold 0 reads_text rfl ?_
  refine bind_setting? hold 1 (reads_name LogFormat.ofName?_name) rfl ?_
  rfl

theorem reads_toJson : Reads toJson ofJson? := by
  intro s j h
  refine bind_parts? h (by simp) fun f hold => ?_
  refine bind_setting? hold 0 reads_text rfl ?_
  refine bind_setting? hold 1 reads_rounds (x := s.rounds) rfl ?_
  refine bind_setting? hold 2 reads_retry (x := s.retry) rfl ?_
  refine bind_setting? hold 3 reads_autoAgree rfl ?_
  refine bind_setting? hold 4 reads_logging (x := s.logging) rfl ?_
  rfl

end Settings

namespace Wire

/-! ### From text to text -/

/-- Whatever is written is read again from its text. -/
structure RoundTrips {α : Type} (write : α → Json) (read : Reader α) : Prop where
  /-- As it is written, with objects. -/
  objects : ∀ x, (Json.read? (write x).text).bind read = some x
  /-- With the arrays of their values for all objects. -/
  arrays : ∀ x, (Json.read? (write x).positional.text).bind read = some x
  /-- With the arrays of their values for any of the objects. -/
  forms : ∀ x j, (write x).Recasts j → (Json.read? j.text).bind read = some x

theorem Reads.roundTrips {α : Type} {write : α → Json} {read : Reader α} (h : Reads write read)
    {n : ℕ} (hplain : ∀ x, Plain n (write x)) : RoundTrips write read := by
  have hforms (x : α) (j : Json) (hj : (write x).Recasts j) :
      (Json.read? j.text).bind read = some x := by
    rw [((hplain x).of_recasts hj).read?_text, Option.bind_some]
    exact h x j hj
  exact ⟨fun x => hforms x _ (hplain x).recasts_self,
    fun x => hforms x _ (hplain x).recasts_positional, hforms⟩

/-- **Every record is read as it was written.**  A negotiation, an offer, an agreement, a policy, a
rule, a header, a message of any kind with its tag, a refusal and settings are what the text stands
for that was written of them, with any characters in their texts, any numbers, lists of any length
and options that are absent.  Each object in the text may be replaced by the array of its values; in
the array of a message the tag comes first. -/
theorem round_trips :
    RoundTrips Negotiation.toJson Negotiation.ofJson? ∧ RoundTrips Offer.toJson Offer.ofJson? ∧
    RoundTrips Agreement.toJson Agreement.ofJson? ∧ RoundTrips Policy.toJson Policy.ofJson? ∧
    RoundTrips Rule.toJson Rule.ofJson? ∧ RoundTrips Header.toJson Header.ofJson? ∧
    RoundTrips Message.toJson Message.ofJson? ∧ RoundTrips Failure.toJson Failure.ofJson? ∧
    RoundTrips Settings.toJson Settings.ofJson? :=
  ⟨Negotiation.reads_toJson.roundTrips Negotiation.plain_toJson,
    Offer.reads_toJson.roundTrips (Offer.plain_toJson (n := 0)),
    Agreement.reads_toJson.roundTrips (Agreement.plain_toJson (n := 0)),
    Policy.reads_toJson.roundTrips (Policy.plain_toJson (n := 0)),
    Rule.reads_toJson.roundTrips (Rule.plain_toJson (n := 0)),
    Header.reads_toJson.roundTrips (Header.plain_toJson (n := 0)),
    Message.reads_toJson.roundTrips (Message.plain_toJson (n := 0)),
    Failure.reads_toJson.roundTrips (Failure.plain_toJson (n := 0)),
    Settings.reads_toJson.roundTrips (Settings.plain_toJson (n := 0))⟩

/-- An approval as an array: its tag, and the array of its header. -/
example : (Message.approval ⟨"say \"hi\"\n", "\x01", "ü", ""⟩).toJson.positional.text =
    "[\"AgreementApproval\",[\"say \\\"hi\\\"\\n\",\"\\u0001\",\"ü\",\"\"]]" := by
  decide +kernel

end Wire

end Parley
