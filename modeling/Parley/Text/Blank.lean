/-!
# Blank characters and plain divisions of text

The characters of the Unicode property `White_Space`, trimming them off both ends of a text, and
cutting a text at every occurrence of one character.

* `isBlank` decides the property; `trim` removes blanks from both ends, and `trim_eq_nil_iff` says
  of which texts nothing is left.
* `splitAt c` cuts at every `c`; `join_splitAt` says that joining the pieces restores the text,
  `not_mem_of_mem_splitAt` that no piece holds the separator, and `splitAt_join` that there are no
  other pieces with both properties.
-/

namespace Parley.Text

/-- The character has the Unicode property `White_Space`. -/
def isBlank (c : Char) : Bool :=
  let n := c.toNat
  (9 ≤ n && n ≤ 13) || n == 0x20 || n == 0x85 || n == 0xA0 || n == 0x1680 ||
    (0x2000 ≤ n && n ≤ 0x200A) || n == 0x2028 || n == 0x2029 || n == 0x202F || n == 0x205F ||
    n == 0x3000

/-- Every character of the text is blank; the empty text counts. -/
def allBlank (cs : List Char) : Bool := cs.all isBlank

/-- The text without the blanks at its two ends. -/
def trim (cs : List Char) : List Char :=
  ((cs.dropWhile isBlank).reverse.dropWhile isBlank).reverse

/-- The pieces between the occurrences of `sep`; a text without `sep` is its only piece. -/
def splitAt (sep : Char) : List Char → List (List Char)
  | [] => [[]]
  | c :: cs =>
    if c = sep then [] :: splitAt sep cs
    else match splitAt sep cs with
      | [] => [[c]]
      | w :: ws => (c :: w) :: ws

/-- The pieces with `sep` between each two of them. -/
def join (sep : List Char) : List (List Char) → List Char
  | [] => []
  | [w] => w
  | w :: ws => w ++ sep ++ join sep ws

/-- The texts with `sep` between each two of them. -/
def joinStrings (sep : String) (parts : List String) : String :=
  String.ofList (join sep.toList (parts.map String.toList))

/-- `replace` with a bound on the characters it looks at. -/
def replaceWithin (old new : List Char) : Nat → List Char → List Char
  | 0, cs => cs
  | _ + 1, [] => []
  | fuel + 1, c :: cs =>
    if old.isPrefixOf (c :: cs) && !old.isEmpty then
      new ++ replaceWithin old new fuel ((c :: cs).drop old.length)
    else c :: replaceWithin old new fuel cs

/-- Every occurrence of the non-empty text `old` replaced by `new`, from the left. -/
def replace (old new cs : List Char) : List Char := replaceWithin old new cs.length cs

/-! ### Laws -/

theorem trim_eq_nil_iff {cs : List Char} : trim cs = [] ↔ allBlank cs = true := by
  induction cs with
  | nil => exact ⟨fun _ => rfl, fun _ => rfl⟩
  | cons c cs ih =>
    by_cases hc : isBlank c = true
    · have htrim : trim (c :: cs) = trim cs := by simp only [trim, List.dropWhile_cons_of_pos hc]
      have hblank : allBlank (c :: cs) = allBlank cs := by simp [allBlank, hc]
      rw [htrim, hblank, ih]
    · -- the first character stays, whatever is dropped behind it
      have hstays : (cs.reverse ++ [c]).dropWhile isBlank ≠ [] := by
        rw [List.dropWhile_append]
        split
        · simp [List.dropWhile_cons_of_neg hc]
        · simp
      simp [trim, allBlank, List.dropWhile_cons_of_neg hc, hc, hstays]

theorem splitAt_ne_nil (sep : Char) (cs : List Char) : splitAt sep cs ≠ [] := by
  cases cs with
  | nil => simp [splitAt]
  | cons c cs =>
    unfold splitAt
    split
    · simp
    · split <;> simp

theorem splitAt_of_not_mem {sep : Char} {cs : List Char} (h : sep ∉ cs) :
    splitAt sep cs = [cs] := by
  induction cs with
  | nil => rfl
  | cons c cs ih =>
    simp only [List.mem_cons, not_or] at h
    simp [splitAt, Ne.symm h.1, ih h.2]

theorem splitAt_append_cons {sep : Char} {w : List Char} (h : sep ∉ w) (cs : List Char) :
    splitAt sep (w ++ sep :: cs) = w :: splitAt sep cs := by
  induction w with
  | nil => simp [splitAt]
  | cons c w ih =>
    simp only [List.mem_cons, not_or] at h
    simp [splitAt, Ne.symm h.1, ih h.2]

theorem join_cons_cons (sep w v : List Char) (ws : List (List Char)) :
    join sep (w :: v :: ws) = w ++ sep ++ join sep (v :: ws) := rfl

theorem join_splitAt (sep : Char) (cs : List Char) : join [sep] (splitAt sep cs) = cs := by
  induction cs with
  | nil => rfl
  | cons c cs ih =>
    unfold splitAt
    cases h : splitAt sep cs with
    | nil => exact absurd h (splitAt_ne_nil sep cs)
    | cons w ws =>
      rw [h] at ih
      split
      · next hc => rw [join_cons_cons, ih, hc]; simp
      · cases ws with
        | nil => simpa [join] using ih
        | cons v vs => rw [join_cons_cons] at ih ⊢; simpa using ih

theorem not_mem_of_mem_splitAt {sep : Char} {cs w : List Char} (h : w ∈ splitAt sep cs) :
    sep ∉ w := by
  induction cs generalizing w with
  | nil => simp [splitAt] at h; simp [h]
  | cons c cs ih =>
    unfold splitAt at h
    cases hs : splitAt sep cs with
    | nil => exact absurd hs (splitAt_ne_nil sep cs)
    | cons v vs =>
      rw [hs] at h
      split at h
      · rcases List.mem_cons.1 h with rfl | h
        · simp
        · exact ih (hs ▸ h)
      · next hc =>
        rcases List.mem_cons.1 h with rfl | h
        · have := ih (hs ▸ List.mem_cons_self : v ∈ splitAt sep cs)
          simp [Ne.symm hc, this]
        · exact ih (hs ▸ List.mem_cons_of_mem _ h)

/-- A text that is joined of pieces without the separator is cut into these again. -/
theorem splitAt_join {sep : Char} {ws : List (List Char)} (hne : ws ≠ [])
    (h : ∀ w ∈ ws, sep ∉ w) : splitAt sep (join [sep] ws) = ws := by
  induction ws with
  | nil => exact absurd rfl hne
  | cons w ws ih =>
    have hw : sep ∉ w := h w List.mem_cons_self
    cases ws with
    | nil => exact splitAt_of_not_mem hw
    | cons v vs =>
      rw [join_cons_cons, List.append_assoc, List.singleton_append, splitAt_append_cons hw,
        ih (List.cons_ne_nil v vs) fun x hx => h x (List.mem_cons_of_mem w hx)]

end Parley.Text
