import Mathlib

/-! Round-robin over a list that changes between picks.

    `nextIndex` moves one past the remembered element, or back to the front when that element has
    left the list. In an ascending list the pick is the cyclic successor of the remembered element
    (`isNext_of_nextIndex`) unless the reset happens with later elements still waiting. A cyclic
    successor never jumps over an element that is present, which `rank` makes a strict increase:
    `rank t` orders the elements by how soon a rotation reaches them, with `t` itself last. -/

namespace Rotation
variable {α : Type} [LinearOrder α]
variable {l : List α} {b a t : α}

/-- Index of the element after `last`; 0 without a remembered element or when it is gone. -/
def nextIndex (l : List α) (last : Option α) : Nat :=
  match last with
  | none => 0
  | some a =>
    match l.findIdx? (fun x => x = a) with
    | none => 0
    | some i => (i + 1) % l.length

/-- The element handed out when `last` is remembered. -/
def turn (l : List α) (last : Option α) : Option α := l[nextIndex l last]?

/-- `b` is the cyclic successor of `a` among the elements of `l`. -/
def IsNext (l : List α) (a b : α) : Prop :=
  b ∈ l ∧ ((a < b ∧ ∀ x ∈ l, a < x → b ≤ x) ∨ ((∀ x ∈ l, x ≤ a) ∧ ∀ x ∈ l, b ≤ x))

/-- Order of a rotation that has just passed `t`: what is above `t`, then the rest up to `t`. -/
def rank (t a : α) : ℕ ×ₗ α := toLex (if a ≤ t then 1 else 0, a)

theorem nextIndex_lt (hl : l ≠ []) (last : Option α) : nextIndex l last < l.length := by
  have hpos := List.length_pos_of_ne_nil hl
  unfold nextIndex
  cases last with
  | none => exact hpos
  | some a =>
    simp only
    cases l.findIdx? (fun x => decide (x = a)) with
    | none => exact hpos
    | some i => exact Nat.mod_lt _ hpos

theorem nextIndex_getElem (hl : l.Nodup) {i : Nat} (hi : i < l.length) :
    nextIndex l (some l[i]) = (i + 1) % l.length := by
  have hidx : l.findIdx? (fun x => decide (x = l[i])) = some i := by
    rw [List.findIdx?_eq_some_iff_getElem]
    refine ⟨hi, by simp, ?_⟩
    intro j hj
    have hne : l[j] ≠ l[i] := fun h => absurd ((hl.getElem_inj_iff).mp h) (by omega)
    simpa using hne
  simp [nextIndex, hidx]

/-- While the list stays as it is, turns walk round it. -/
theorem turn_iterate (hl : l.Nodup) (hne : l ≠ []) (last : Option α) (n : Nat) :
    (turn l)^[n + 1] last = l[(nextIndex l last + n) % l.length]? := by
  have hpos := List.length_pos_of_ne_nil hne
  induction n with
  | zero =>
    rw [Nat.zero_add, Function.iterate_one, Nat.add_zero, Nat.mod_eq_of_lt (nextIndex_lt hne last)]
    rfl
  | succ n ih =>
    have hi : (nextIndex l last + n) % l.length < l.length := Nat.mod_lt _ hpos
    rw [Function.iterate_succ_apply', ih, List.getElem?_eq_getElem hi, turn, nextIndex_getElem hl hi,
      Nat.mod_add_mod, Nat.add_assoc]

/-- Every element gets its turn. -/
theorem turn_reaches (hl : l.Nodup) {x : α} (hx : x ∈ l) (last : Option α) :
    ∃ n, (turn l)^[n + 1] last = some x := by
  have hne : l ≠ [] := List.ne_nil_of_mem hx
  obtain ⟨i, hi, rfl⟩ := List.getElem_of_mem hx
  have hj := nextIndex_lt hne last
  refine ⟨i + l.length - nextIndex l last, ?_⟩
  have hsum : nextIndex l last + (i + l.length - nextIndex l last) = i + l.length := by omega
  rw [turn_iterate hl hne, hsum, Nat.add_mod_right, Nat.mod_eq_of_lt hi, List.getElem?_eq_getElem hi]

theorem head_le (hl : l.Pairwise (· < ·)) (hb : l[0]? = some b) : ∀ x ∈ l, b ≤ x := by
  cases l with
  | nil => simp at hb
  | cons a l =>
    obtain rfl : a = b := by simpa using hb
    intro x hx
    rcases List.mem_cons.mp hx with rfl | hx
    · exact le_refl _
    · exact le_of_lt ((List.pairwise_cons.mp hl).1 x hx)

/-- The pick is the cyclic successor when the remembered element is present, and also when it is
    gone but nothing after it is left. -/
theorem isNext_of_nextIndex (hl : l.Pairwise (· < ·)) (ha : a ∈ l ∨ ∀ x ∈ l, x < a)
    (hb : l[nextIndex l (some a)]? = some b) : IsNext l a b := by
  refine ⟨List.mem_of_getElem? hb, ?_⟩
  unfold nextIndex at hb
  cases hi : l.findIdx? (fun x => decide (x = a)) with
  | none =>
    simp only [hi] at hb
    have hnot : a ∉ l := by
      intro hmem
      rw [List.findIdx?_eq_none_iff] at hi
      simpa using hi a hmem
    have hall := ha.resolve_left hnot
    exact .inr ⟨fun x hx => le_of_lt (hall x hx), head_le hl hb⟩
  | some i =>
    simp only [hi] at hb
    obtain ⟨hlt, hia, -⟩ := List.findIdx?_eq_some_iff_getElem.mp hi
    have hia' : l[i] = a := by simpa using hia
    have hpair := List.pairwise_iff_getElem.mp hl
    by_cases hlast : i + 1 < l.length
    · -- the successor stands at the next index
      left
      rw [Nat.mod_eq_of_lt hlast, List.getElem?_eq_getElem hlast, Option.some.injEq] at hb
      refine ⟨by rw [← hia', ← hb]; exact hpair i (i + 1) hlt hlast (by omega), ?_⟩
      intro x hx hax
      obtain ⟨j, hj, rfl⟩ := List.getElem_of_mem hx
      rw [← hb]
      rcases Nat.lt_trichotomy j (i + 1) with hji | rfl | hji
      · exfalso
        have hjle : l[j] ≤ l[i] := by
          rcases Nat.lt_or_ge j i with h | h
          · exact le_of_lt (hpair j i hj hlt h)
          · obtain rfl : j = i := by omega
            exact le_refl _
        exact absurd hax (not_lt.mpr (hia' ▸ hjle))
      · exact le_refl _
      · exact le_of_lt (hpair (i + 1) j hlast hj hji)
    · -- `a` is the last element: the rotation wraps to the front
      right
      have hlen : i + 1 = l.length := by omega
      rw [hlen, Nat.mod_self] at hb
      refine ⟨?_, head_le hl hb⟩
      intro x hx
      obtain ⟨j, hj, rfl⟩ := List.getElem_of_mem hx
      rw [← hia']
      rcases Nat.lt_or_ge j i with h | h
      · exact le_of_lt (hpair j i hj hlt h)
      · obtain rfl : j = i := by omega
        exact le_refl _

theorem rank_lt_iff : rank t a < rank t b ↔ (t < a ∧ b ≤ t) ∨ ((a ≤ t ↔ b ≤ t) ∧ a < b) := by
  unfold rank
  rw [Prod.Lex.toLex_lt_toLex]
  by_cases ha : a ≤ t <;> by_cases hb : b ≤ t
  · simp [ha, hb, not_lt.mpr ha]
  · simp [ha, hb]
  · simp [ha, hb, not_le.mp ha]
  · simp [ha, hb]

/-- Moving to the cyclic successor of anything but `t` climbs in the order of the rotation. -/
theorem rank_lt_of_isNext (ht : t ∈ l) (hat : a ≠ t) (h : IsNext l a b) : rank t a < rank t b := by
  rw [rank_lt_iff]
  obtain ⟨-, ⟨hab, hleast⟩ | ⟨hmax, hmin⟩⟩ := h
  · rcases lt_or_gt_of_ne hat with h1 | h1
    · -- below `t`: the least element above `a` is at most `t`
      exact .inr ⟨iff_of_true (le_of_lt h1) (hleast t ht h1), hab⟩
    · exact .inr ⟨iff_of_false (not_le.mpr h1) (not_le.mpr (lt_trans h1 hab)), hab⟩
  · -- wrapped: `t` is below `a`, and the front is at most `t`
    exact .inl ⟨lt_of_le_of_ne (hmax t ht) (Ne.symm hat), hmin t ht⟩

end Rotation
