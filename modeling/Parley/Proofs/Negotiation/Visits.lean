import Mathlib.Logic.Relation
import Mathlib.Data.Nat.Notation
import Parley.Proofs.Negotiation.Moves

/-!
# Visits of states

Most moves bring a negotiation further on its way, and no way leads back to a state that was left.
The exception are the states in which the two sides make each other offers.

* `progress_lt_of_canMoveTo` : every move to another state that does not stay among those is
  progress.
* `returns_iff` : so these are the states that can be left and entered again later.
* `Negotiation.Revisits` : what becomes of a negotiation that was changed until it is in the same
  state again; `haggles_of_revisits` says in which states that can be.
-/

namespace Parley

namespace State

/-- The states in which the two sides make each other offers. -/
def haggles : State → Bool
  | requesting | requested | offering | offered => true
  | _ => false

/-- How far on its way a negotiation is in a state, where making offers counts as one place. -/
def progress (s : State) : ℕ := if s.haggles then requesting.code else s.code

/-- There is a way of moves from a state to another one. -/
def Reaches : State → State → Prop := Relation.ReflTransGen fun s t => s.canMoveTo t = true

/-- The state can be left and entered again later. -/
def Returns (s : State) : Prop := ∃ t, t ≠ s ∧ s.Reaches t ∧ t.Reaches s

variable {s t : State}

theorem progress_lt_of_canMoveTo (h : s.canMoveTo t = true) :
    s.progress < t.progress ∨ t = s ∨ (s.haggles = true ∧ t.haggles = true) := by
  cases s <;> cases t <;> first | exact absurd h (by decide) | decide

theorem progress_le_of_reaches (h : s.Reaches t) : s.progress ≤ t.progress := by
  induction h with
  | refl => exact Nat.le_refl _
  | tail _ hmove ih =>
    refine Nat.le_trans ih ?_
    rcases progress_lt_of_canMoveTo hmove with hlt | rfl | ⟨hs, ht⟩
    · exact Nat.le_of_lt hlt
    · exact Nat.le_refl _
    · simp [progress, hs, ht]

/-- **From the agreement on the way goes only forward.** -/
theorem code_le_of_reaches (h : s.Reaches t) (hs : agreeing.code ≤ s.code) : s.code ≤ t.code := by
  have hle := progress_le_of_reaches h
  cases s <;> first | exact absurd hs (by decide) | skip
  -- the state is one past the offers, and so is the other, which is not before it
  all_goals cases t <;> first | exact absurd hle (by decide) | decide

theorem eq_of_reaches_of_isFinal (h : s.Reaches t) (hs : s.isFinal = true) : t = s := by
  rcases Relation.ReflTransGen.cases_head h with rfl | ⟨u, hmove, -⟩
  · rfl
  · rw [canMoveTo_of_isFinal hs u] at hmove
    cases hmove

/-- Where nothing is gained on the way, the state is the same or offers are being made. -/
theorem eq_or_haggles_of_reaches (h : s.Reaches t) (hp : t.progress ≤ s.progress) :
    t = s ∨ (s.haggles = true ∧ t.haggles = true) := by
  induction h with
  | refl => exact .inl rfl
  | @tail u t hsu hmove ih =>
    -- a move that gained something would not be made up for by the others
    have hsu : s.progress ≤ u.progress := progress_le_of_reaches hsu
    rcases progress_lt_of_canMoveTo hmove with hlt | rfl | ⟨hu, ht⟩
    · exact absurd (Nat.lt_of_le_of_lt hsu hlt) (Nat.not_lt.2 hp)
    · exact ih hp
    · have htu : t.progress = u.progress := by simp [progress, hu, ht]
      rcases ih (htu ▸ hp) with rfl | ⟨hs, -⟩
      · exact .inr ⟨hu, ht⟩
      · exact .inr ⟨hs, ht⟩

/-- The round that offers go: from one side to the other and back. -/
theorem reaches_of_haggles (hs : s.haggles = true) (ht : t.haggles = true) : s.Reaches t := by
  -- all of them lie on the way from an offer back to an offer
  have hround : ∀ u : State, u.haggles = true → offered.Reaches u ∧ u.Reaches offered := by
    have hrequested : offered.Reaches requested := .single (by decide)
    intro u hu
    cases u <;> first | exact absurd hu (by decide) | skip
    · exact ⟨.single (by decide), (Relation.ReflTransGen.single (b := requested) (by decide)).tail
        (by decide)⟩
    · exact ⟨hrequested, .single (by decide)⟩
    · exact ⟨hrequested.tail (by decide), .single (by decide)⟩
    · exact ⟨.refl, .refl⟩
  exact (hround s hs).2.trans (hround t ht).1

/-- **Only the states in which offers are made can be entered again** after they were left. -/
theorem returns_iff : s.Returns ↔ s.haggles = true := by
  constructor
  · rintro ⟨t, hne, hst, hts⟩
    -- on a way that leads back nothing is gained
    rcases eq_or_haggles_of_reaches hst (progress_le_of_reaches hts) with rfl | ⟨hs, -⟩
    · exact absurd rfl hne
    · exact hs
  · intro hs
    obtain ⟨t, ht, hne⟩ : ∃ t : State, t.haggles = true ∧ t ≠ s := by
      by_cases he : s = offered
      · exact ⟨requested, rfl, by rw [he]; decide⟩
      · exact ⟨offered, rfl, Ne.symm he⟩
    exact ⟨t, hne, reaches_of_haggles hs ht, reaches_of_haggles ht hs⟩

end State

namespace Negotiation

/-- Some change makes the one negotiation of the other. -/
def ChangesTo (n m : Negotiation) : Prop := ∃ c : Change, ∃ now, c.apply now n = .ok m

/-- Any number of changes take the negotiation out of its state and, as `m`, back into it. -/
def Revisits (n m : Negotiation) : Prop :=
  m.state = n.state ∧ ∃ k : Negotiation, k.state ≠ n.state ∧
    Relation.ReflTransGen ChangesTo n k ∧ Relation.ReflTransGen ChangesTo k m

variable {n m : Negotiation}

theorem reaches_of_moveTo {target : State} {now : Moment} (h : n.moveTo target now = .ok m) :
    n.state.Reaches m.state := by
  have hmove := (moveTo_eq_ok_iff.1 h).1
  rw [state_of_moveTo h]
  exact .single hmove

theorem ChangesTo.reaches (h : n.ChangesTo m) : n.state.Reaches m.state := by
  obtain ⟨c, now, h⟩ := h
  rcases Change.apply_eq_ok_cases h with
    ⟨target, moved, -, hmoved, rfl⟩ | ⟨id, -, -, rfl⟩ | ⟨o, -, rfl⟩ | ⟨a, -, rfl⟩
  · rw [state_withDetail]
    exact reaches_of_moveTo hmoved
  · exact .refl
  · exact .refl
  · exact .refl

theorem reaches_of_changes (h : Relation.ReflTransGen ChangesTo n m) :
    n.state.Reaches m.state := by
  induction h with
  | refl => exact .refl
  | tail _ hc ih => exact ih.trans hc.reaches

theorem haggles_of_revisits (h : n.Revisits m) : n.state.haggles = true := by
  obtain ⟨hstate, k, hne, hout, hback⟩ := h
  refine State.returns_iff.1 ⟨k.state, hne, reaches_of_changes hout, ?_⟩
  rw [← hstate]
  exact reaches_of_changes hback

end Negotiation

end Parley
