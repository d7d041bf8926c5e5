import Mathlib

/-! Lists read as pieces between separators.

    `pieces sep l` are the nonempty stretches of `l` between occurrences of `sep`; `joined sep ps`
    writes pieces down, each one after a separator. Reading back what was written gives the pieces
    again, and reading is a homomorphism at every separator. -/

namespace Pieces
variable {α : Type} {sep : α} {p l : List α} {ps : List (List α)}

/-- Pieces written down, each one after a separator. -/
def joined (sep : α) (ps : List (List α)) : List α := ps.flatMap (fun p => sep :: p)

@[simp] theorem joined_nil : joined sep [] = [] := rfl

@[simp] theorem joined_cons : joined sep (p :: ps) = sep :: p ++ joined sep ps := rfl

/-- Something, and no separator in it. -/
def IsPiece (sep : α) (p : List α) : Prop := p ≠ [] ∧ sep ∉ p

variable [DecidableEq α]

instance (sep : α) (p : List α) : Decidable (IsPiece sep p) :=
  inferInstanceAs (Decidable (p ≠ [] ∧ sep ∉ p))

/-- The nonempty stretches between separators. -/
def pieces (sep : α) (l : List α) : List (List α) := (l.splitOn sep).filter (fun p => !p.isEmpty)

@[simp] theorem pieces_nil : pieces sep [] = [] := rfl

theorem pieces_append_cons (a b : List α) : pieces sep (a ++ sep :: b) = pieces sep a ++ pieces sep b := by
  rw [pieces, List.splitOn, List.splitOnP_append_cons a b (by simp), List.filter_append]
  rfl

theorem pieces_of_notMem (h : sep ∉ l) : pieces sep l = if l = [] then [] else [l] := by
  have hsplit : l.splitOn sep = [l] := List.splitOnP_eq_singleton (by
    intro x hx
    have hne : x ≠ sep := fun heq => h (heq ▸ hx)
    simpa using hne)
  rw [pieces, hsplit]
  cases l <;> rfl

theorem IsPiece.pieces (h : IsPiece sep p) : pieces sep p = [p] := by
  rw [pieces_of_notMem h.2, if_neg h.1]

theorem pieces_append_joined (l : List α) (h : ∀ p ∈ ps, IsPiece sep p) :
    pieces sep (l ++ joined sep ps) = pieces sep l ++ ps := by
  induction ps generalizing l with
  | nil => simp
  | cons p ps ih =>
    have hp : IsPiece sep p := h p List.mem_cons_self
    have hps : ∀ q ∈ ps, IsPiece sep q := fun q hq => h q (List.mem_cons_of_mem p hq)
    rw [joined_cons, List.cons_append, pieces_append_cons, ih p hps, hp.pieces]
    rfl

theorem pieces_joined (h : ∀ p ∈ ps, IsPiece sep p) : pieces sep (joined sep ps) = ps :=
  pieces_append_joined [] h

/-- A list is one stretch without separators, or such a stretch, a separator and the rest. -/
theorem notMem_or_split (sep : α) (l : List α) : sep ∉ l ∨ ∃ a b, l = a ++ sep :: b ∧ sep ∉ a := by
  by_cases h : sep ∈ l
  · obtain ⟨a, b, hl, ha⟩ := List.eq_append_cons_of_mem h
    exact .inr ⟨a, b, hl, ha⟩
  · exact .inl h

/-- What is read are pieces, made of what was there. -/
theorem mem_pieces (l : List α) (hp : p ∈ pieces sep l) : IsPiece sep p ∧ ∀ x ∈ p, x ∈ l := by
  have hshort : ∀ l : List α, sep ∉ l → p ∈ pieces sep l → IsPiece sep p ∧ ∀ x ∈ p, x ∈ l := by
    intro l hl hp
    rw [pieces_of_notMem hl] at hp
    by_cases hnil : l = []
    · simp [hnil] at hp
    · obtain rfl : p = l := by simpa [hnil] using hp
      exact ⟨⟨hnil, hl⟩, fun _ hx => hx⟩
  induction hn : l.length using Nat.strong_induction_on generalizing l with
  | _ n ih =>
    rcases notMem_or_split sep l with hl | ⟨a, b, rfl, ha⟩
    · exact hshort l hl hp
    · rw [pieces_append_cons, List.mem_append] at hp
      rcases hp with hp | hp
      · obtain ⟨hpiece, hmem⟩ := hshort a ha hp
        exact ⟨hpiece, fun x hx => List.mem_append_left _ (hmem x hx)⟩
      · obtain ⟨hpiece, hmem⟩ := ih b.length (by simp at hn; omega) b hp rfl
        exact ⟨hpiece, fun x hx => List.mem_append_right _ (List.mem_cons_of_mem _ (hmem x hx))⟩

end Pieces
