import Parley.ContractId
import Parley.Proofs.Naming.Uuid

/-!
# Contract ids and their texts

Which texts are read as contract ids, which ids are told from their texts, and that the ids that are
derived from one are.

* `ContractId.Proper` : none of the three parts is empty, and none holds a colon.
* `parse_eq_ok_iff` : exactly the texts of proper ids are read, and as these.
* `parse_eq_empty_iff`, `parse_eq_malformed_iff` : how the other texts are refused.
* `proper_derive`, `proper_iterate_derive` : what is derived from a proper id is proper, however
  often it is done.
* `read_as_written` : all of it.
-/

namespace Parley

namespace ContractId

/-- The three parts. -/
def parts (c : ContractId) : List String := [c.definition, c.asset, c.uuid]

/-- None of the parts is empty, and none holds a colon. -/
def Proper (c : ContractId) : Prop := ∀ p ∈ c.parts, p ≠ "" ∧ ':' ∉ p.toList

instance (c : ContractId) : Decidable c.Proper := by unfold Proper; infer_instance

variable {c : ContractId} {s raw : String}

theorem toList_text (c : ContractId) :
    c.text.toList = Text.join [':'] (c.parts.map String.toList) := by
  simp [text, parts, Text.join]

theorem colon_mem_text (c : ContractId) : ':' ∈ c.text.toList := by simp [text]

theorem splitAt_text (h : c.Proper) :
    Text.splitAt ':' c.text.toList = c.parts.map String.toList := by
  rw [toList_text]
  refine Text.splitAt_join (by simp [parts]) fun w hw => ?_
  obtain ⟨p, hp, rfl⟩ := List.mem_map.1 hw
  exact (h p hp).2

theorem ofParts?_eq_some_iff {ws : List (List Char)} :
    ofParts? ws = some c ↔ ws = c.parts.map String.toList ∧ ∀ p ∈ c.parts, p ≠ "" := by
  constructor
  · intro h
    unfold ofParts? at h
    split at h
    · next d a u =>
      split_ifs at h with hempty
      cases h
      simp only [Bool.or_eq_true, List.isEmpty_iff, not_or] at hempty
      obtain ⟨⟨hd, ha⟩, hu⟩ := hempty
      simp [parts, hd, ha, hu]
    · cases h
  · rintro ⟨rfl, hne⟩
    simp only [parts, List.mem_cons, List.not_mem_nil, or_false, forall_eq_or_imp, forall_eq] at hne
    obtain ⟨hd, ha, hu⟩ := hne
    simp [ofParts?, parts, hd, ha, hu]

theorem trim_ne_nil (c : ContractId) : Text.trim c.text.toList ≠ [] := by
  rw [ne_eq, Text.trim_eq_nil_iff, Text.allBlank, List.all_eq_true]
  exact fun h => absurd (h ':' c.colon_mem_text) (by decide)

/-! ### What is read -/

/-- **A text is read iff it is that of a proper id**, and it is read as this id. -/
theorem parse_eq_ok_iff : parse s = .ok c ↔ c.Proper ∧ c.text = s := by
  constructor
  · intro h
    unfold parse at h
    split_ifs at h
    split at h
    · next hparts =>
      cases h
      obtain ⟨hsplit, hne⟩ := ofParts?_eq_some_iff.1 hparts
      refine ⟨fun p hp => ⟨hne p hp, ?_⟩, ?_⟩
      · exact Text.not_mem_of_mem_splitAt (hsplit ▸ List.mem_map_of_mem hp)
      · rw [← String.toList_inj, toList_text, ← hsplit, Text.join_splitAt]
    · cases h
  · rintro ⟨hproper, rfl⟩
    have hparts : ofParts? (Text.splitAt ':' c.text.toList) = some c :=
      ofParts?_eq_some_iff.2 ⟨splitAt_text hproper, fun p hp => (hproper p hp).1⟩
    rw [parse, if_neg (by rw [List.isEmpty_iff]; exact c.trim_ne_nil), hparts]

theorem parse_text_iff : parse c.text = .ok c ↔ c.Proper :=
  parse_eq_ok_iff.trans (and_iff_left rfl)

theorem parse_eq_empty_iff :
    parse s = .error .empty ↔ ∀ ch ∈ s.toList, Text.isBlank ch = true := by
  rw [← List.all_eq_true, ← Text.allBlank, ← Text.trim_eq_nil_iff, ← List.isEmpty_iff, parse]
  split_ifs with hblank
  · exact iff_of_true rfl hblank
  · refine iff_of_false ?_ hblank
    split <;> simp

theorem eq_of_parse_malformed (h : parse s = .error (.malformed raw)) : raw = s := by
  unfold parse at h
  split_ifs at h
  · cases h
  · split at h <;> cases h
    rfl

theorem parse_eq_malformed_iff : parse s = .error (.malformed s) ↔
    (¬∀ ch ∈ s.toList, Text.isBlank ch = true) ∧ ¬∃ c : ContractId, c.Proper ∧ c.text = s := by
  simp only [← parse_eq_ok_iff, ← parse_eq_empty_iff]
  cases h : parse s with
  | ok c => simp
  | error e =>
    cases e with
    | empty => simp
    | malformed raw => simp [eq_of_parse_malformed h]

/-! ### What is derived -/

theorem definition_derive (c : ContractId) : c.derive.definition = c.definition := by
  simp only [derive]

theorem asset_derive (c : ContractId) : c.derive.asset = c.asset := by simp only [derive]

theorem uuid_derive (c : ContractId) :
    c.derive.uuid = (Uuid.named Uuid.objectIdentifiers c.text).text := rfl

/-- What is derived from a proper id is proper: neither definition nor asset is touched, and the
text of a UUID holds no colon. -/
theorem proper_derive (h : c.Proper) : c.derive.Proper := by
  intro p hp
  simp only [parts, derive, List.mem_cons, List.not_mem_nil, or_false] at hp
  rcases hp with rfl | rfl | rfl
  · exact h _ List.mem_cons_self
  · exact h _ (List.mem_cons_of_mem _ List.mem_cons_self)
  · refine ⟨fun hempty => ?_, Uuid.not_mem_text rfl (by decide) _⟩
    have hlength := (Uuid.named Uuid.objectIdentifiers c.text).length_text
    rw [hempty] at hlength
    cases hlength

theorem proper_iterate_derive (h : c.Proper) (k : ℕ) : (derive^[k] c).Proper := by
  induction k with
  | zero => exact h
  | succ k ih =>
    rw [Function.iterate_succ_apply']
    exact proper_derive ih

/-- The id `d` is that of another contract about the same asset under the same definition, named by
a UUID of version 5, and is told from its text. -/
structure Renews (c d : ContractId) : Prop where
  definition_eq : d.definition = c.definition
  asset_eq : d.asset = c.asset
  length_uuid : d.uuid.length = 36
  isTextOf_uuid : Uuid.isTextOf '5' d.uuid = true
  parse_text : parse d.text = .ok d

theorem renews_derive (h : c.Proper) : c.Renews c.derive where
  definition_eq := c.definition_derive
  asset_eq := c.asset_derive
  length_uuid := by rw [uuid_derive, Uuid.length_text]
  isTextOf_uuid := by rw [uuid_derive, Uuid.isTextOf_named]
  parse_text := parse_text_iff.2 (proper_derive h)

/-- **Contract ids are read as they are written.**  Exactly the texts of proper ids are read, each
as its id; of the others the blank ones are refused as empty and the rest as malformed.  So an id is
told from its text iff it is proper, and what is derived from an id that was read is an id that can
be read, as often as it is derived. -/
theorem read_as_written :
    (∀ s c, parse s = .ok c ↔ c.Proper ∧ c.text = s) ∧
    (∀ s, parse s = .error .empty ↔ ∀ ch ∈ s.toList, Text.isBlank ch = true) ∧
    (∀ s, parse s = .error (.malformed s) ↔ (¬∀ ch ∈ s.toList, Text.isBlank ch = true) ∧
      ¬∃ c : ContractId, c.Proper ∧ c.text = s) ∧
    (∀ d a u, parse (mk d a u).text = .ok ⟨d, a, u⟩ ↔ ∀ p ∈ [d, a, u], p ≠ "" ∧ ':' ∉ p.toList) ∧
    ∀ s c, parse s = .ok c → ∀ k, (derive^[k] c).Renews (derive^[k + 1] c) := by
  refine ⟨fun _ _ => parse_eq_ok_iff, fun _ => parse_eq_empty_iff, fun _ => parse_eq_malformed_iff,
    fun _ _ _ => parse_text_iff, fun s c h k => ?_⟩
  rw [Function.iterate_succ_apply']
  exact renews_derive (proper_iterate_derive (parse_eq_ok_iff.1 h).1 k)

/-- The id of an offer, and what is derived from it a second time. -/
theorem read_as_written_offer :
    parse "definition:asset:1234" = .ok ⟨"definition", "asset", "1234"⟩ ∧
    (derive ⟨"definition", "asset", "1234"⟩).Renews
      (derive (derive ⟨"definition", "asset", "1234"⟩)) := by
  have hread : parse "definition:asset:1234" = .ok ⟨"definition", "asset", "1234"⟩ := by
    decide +kernel
  exact ⟨hread, read_as_written.2.2.2.2 _ _ hread 1⟩

/-- Parts may be blank, as long as they are not empty. -/
example : parse " : : " = .ok ⟨" ", " ", " "⟩ := by decide +kernel

end ContractId

end Parley
