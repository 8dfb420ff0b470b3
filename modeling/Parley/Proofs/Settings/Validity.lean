import Mathlib.Logic.Basic
import Parley.Settings.Assembly
import Parley.Settings.Validation

/-!
# What makes settings valid

Six conditions, each about some of the settings, decide whether settings are valid; each one that is
not met has its entry in the report.

* `Settings.Valid` : the conditions; `Settings.Suffers` : that one of them is not met, by the entry
  that it has in the report.
* `Settings.violations_eq_filter` : of the entries that there could be, the report has those of the
  conditions that are not met, in their order.
* `Settings.build_assembly` : valid settings, a ledger and a dispatcher are all that a context needs.
* `Settings.validated_exactly` : both together.
-/

namespace Parley

namespace Text

theorem join_eq_intercalate (sep : List Char) (ws : List (List Char)) :
    join sep ws = sep.intercalate ws := by
  induction ws with
  | nil => rfl
  | cons w ws ih =>
    cases ws with
    | nil => simp [join]
    | cons v vs => rw [join_cons_cons, ih, List.intercalate_cons_cons]

theorem joinStrings_eq_intercalate (sep : String) (parts : List String) :
    joinStrings sep parts = sep.intercalate parts := by
  rw [joinStrings, join_eq_intercalate, ← String.toList_intercalate, String.ofList_toList]

end Text

namespace Settings

/-- Settings with which a worker can run. -/
structure Valid (s : Settings) : Prop where
  /-- The participant is not blank. -/
  participant : ∃ c ∈ s.participantId.toList, Text.isBlank c = false
  /-- Batches are not empty. -/
  batchSize : 0 < s.rounds.batchSize
  /-- Leases hold for some time. -/
  leaseSpan : 0 < s.rounds.leaseSpan
  /-- The first wait is not longer than the longest. -/
  backoff : s.rounds.backoffBase ≤ s.rounds.backoffMax
  /-- The first delay is not longer than the longest. -/
  retry : s.retry.baseDelay ≤ s.retry.maxDelay
  /-- The level is a known one, in any case of its letters. -/
  level : Text.lowercaseText s.logging.level ∈ LogSettings.levels

/-- The entries that the report could have, one for each condition, in their order. -/
def suspects (s : Settings) : List Violation :=
  [.blankParticipant, .emptyBatches, .noLeaseSpan, .backoffOrder s.rounds.backoffMax,
    .retryOrder s.retry.maxDelay, .unknownLevel s.logging.level]

/-- The condition of an entry is not met. -/
def Suffers (s : Settings) : Violation → Prop
  | .blankParticipant => ∀ c ∈ s.participantId.toList, Text.isBlank c = true
  | .emptyBatches => s.rounds.batchSize = 0
  | .noLeaseSpan => s.rounds.leaseSpan = 0
  | .backoffOrder _ => s.rounds.backoffMax < s.rounds.backoffBase
  | .retryOrder _ => s.retry.maxDelay < s.retry.baseDelay
  | .unknownLevel _ => Text.lowercaseText s.logging.level ∉ LogSettings.levels

instance (s : Settings) : DecidablePred s.Suffers
  | .blankParticipant =>
    inferInstanceAs (Decidable (∀ c ∈ s.participantId.toList, Text.isBlank c = true))
  | .emptyBatches => inferInstanceAs (Decidable (s.rounds.batchSize = 0))
  | .noLeaseSpan => inferInstanceAs (Decidable (s.rounds.leaseSpan = 0))
  | .backoffOrder _ => inferInstanceAs (Decidable (s.rounds.backoffMax < s.rounds.backoffBase))
  | .retryOrder _ => inferInstanceAs (Decidable (s.retry.maxDelay < s.retry.baseDelay))
  | .unknownLevel _ =>
    inferInstanceAs (Decidable (Text.lowercaseText s.logging.level ∉ LogSettings.levels))

variable {s : Settings}

theorem valid_iff : s.Valid ↔ ∀ v ∈ s.suspects, ¬s.Suffers v := by
  constructor
  · intro h v hv hs
    cases v with
    | blankParticipant =>
      obtain ⟨c, hc, hblank⟩ := h.participant
      exact Bool.false_ne_true (hblank.symm.trans (hs c hc))
    | emptyBatches => exact UInt64.pos_iff_ne_zero.1 h.batchSize hs
    | noLeaseSpan => exact UInt64.pos_iff_ne_zero.1 h.leaseSpan hs
    | backoffOrder longest => exact UInt64.not_le.2 hs h.backoff
    | retryOrder longest => exact UInt64.not_le.2 hs h.retry
    | unknownLevel level => exact hs h.level
  · intro h
    simp only [suspects, List.forall_mem_cons] at h
    obtain ⟨hparticipant, hbatch, hlease, hbackoff, hretry, hlevel, -⟩ := h
    refine ⟨?_, UInt64.pos_iff_ne_zero.2 hbatch, UInt64.pos_iff_ne_zero.2 hlease,
      UInt64.not_lt.1 hbackoff, UInt64.not_lt.1 hretry, Decidable.not_not.1 hlevel⟩
    simpa only [Suffers, not_forall, exists_prop, Bool.not_eq_true] using hparticipant

/-- **The report has an entry for each condition that fails**, and no other, in their order. -/
theorem violations_eq_filter (s : Settings) : s.violations = s.suspects.filter s.Suffers := by
  have hblank : (Text.trim s.participantId.toList).isEmpty = true ↔
      s.Suffers .blankParticipant := by
    rw [List.isEmpty_iff, Text.trim_eq_nil_iff]
    exact List.all_eq_true
  have hlevel : (if s.logging.hasKnownLevel then [] else [.unknownLevel s.logging.level]) =
      if s.Suffers (.unknownLevel s.logging.level) then
        [Violation.unknownLevel s.logging.level] else [] := by
    have hknown : s.logging.hasKnownLevel = true ↔ ¬s.Suffers (.unknownLevel s.logging.level) :=
      List.contains_iff_mem.trans Decidable.not_not.symm
    by_cases h : s.Suffers (.unknownLevel s.logging.level)
    · rw [if_pos h, if_neg fun hk => hknown.1 hk h]
    · rw [if_neg h, if_pos (hknown.2 h)]
  have hcons (v : Violation) (vs : List Violation) :
      (v :: vs).filter s.Suffers = (if s.Suffers v then [v] else []) ++ vs.filter s.Suffers := by
    by_cases hv : s.Suffers v <;> simp [hv]
  rw [violations, hlevel, suspects]
  simp only [hcons, List.filter_nil, List.append_nil, List.append_assoc, hblank]
  rfl

theorem validate_eq_ok_iff : s.validate = .ok () ↔ s.Valid := by
  have hnil : s.violations = [] ↔ s.Valid := by
    rw [violations_eq_filter, List.filter_eq_nil_iff, valid_iff]
    simp only [decide_eq_true_eq]
  rw [← hnil, validate]
  cases s.violations <;> simp

theorem validate_eq_error_iff {e : String} : s.validate = .error e ↔
    ¬s.Valid ∧ e = String.intercalate "; " ((s.suspects.filter s.Suffers).map Violation.text) := by
  rw [← validate_eq_ok_iff, ← violations_eq_filter, ← Text.joinStrings_eq_intercalate, validate]
  cases s.violations with
  | nil => simp
  | cons v vs =>
    show Except.error (report (v :: vs)) = .error e ↔ _
    rw [Except.error.injEq, eq_comm]
    exact (and_iff_right nofun).symm

/-- What settings give for a context, together with a ledger and a dispatcher. -/
def assemblyWith {α β : Type} (s : Settings) (store : α) (dispatcher : β) : Assembly α β :=
  { (s.assembly : Assembly α β) with store := some store, dispatcher := some dispatcher }

/-- **Valid settings are enough for a context**, but for a ledger and a dispatcher. -/
theorem build_assembly {α β : Type} (h : s.Valid) (store : α) (dispatcher : β) :
    (s.assemblyWith store dispatcher).build =
      .ok (store, dispatcher, ⟨s.participantId, s.retry, s.rounds.batchSize.toNat, s.autoAgree⟩) := by
  have hparticipant : s.participantId.isEmpty = false := by
    obtain ⟨c, hc, -⟩ := h.participant
    rw [String.isEmpty_eq_false_iff]
    rintro hempty
    rw [hempty] at hc
    cases hc
  have hbatch : s.rounds.batchSize.toNat ≠ 0 := Nat.ne_of_gt (UInt64.lt_iff_toNat_lt.1 h.batchSize)
  simp only [Assembly.build, assemblyWith, assembly, Option.filter, hparticipant, Bool.not_false,
    if_true, hbatch, if_false]

/-- **Settings are validated exactly.**  They pass if and only if the six conditions are met, and
else the report is that of the conditions that fail; and from settings that pass a context is built
that has them. -/
theorem validated_exactly (s : Settings) :
    (s.validate = .ok () ↔ s.Valid) ∧
    (∀ e, s.validate = .error e ↔ ¬s.Valid ∧
      e = String.intercalate "; " ((s.suspects.filter s.Suffers).map Violation.text)) ∧
    (s.validate = .ok () → ∀ (α β : Type) (store : α) (dispatcher : β),
      (s.assemblyWith store dispatcher).build = .ok (store, dispatcher,
        ⟨s.participantId, s.retry, s.rounds.batchSize.toNat, s.autoAgree⟩)) :=
  ⟨validate_eq_ok_iff, fun _ => validate_eq_error_iff,
    fun h _ _ => build_assembly (validate_eq_ok_iff.1 h)⟩

/-- A blank participant and an unknown level are reported together. -/
example : ({ participantId := " ", logging := { level := "Loud" } } : Settings).violations =
    [.blankParticipant, .unknownLevel "Loud"] := by decide +kernel

end Settings

end Parley
