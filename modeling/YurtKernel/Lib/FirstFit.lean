import Mathlib

/-! Handing out the least numbers of a set.

    `Picks s ns` says that `ns` are the least number of `s`, the least of what is left, and so on.
    How many can be handed out is how many there are. -/

namespace FirstFit
variable {s : Set Nat} {n c : Nat}

/-- Each number is the least one not yet taken. -/
def Picks : Set Nat → List Nat → Prop
  | _, [] => True
  | s, n :: ns => IsLeast s n ∧ Picks (s \ {n}) ns

theorem Picks.subset : ∀ {s : Set Nat} {ns : List Nat}, Picks s ns → ∀ n ∈ ns, n ∈ s
  | _, [], _, _, hn => by cases hn
  | _, m :: ns, h, n, hn => by
    rcases List.mem_cons.mp hn with rfl | hn
    · exact h.1.1
    · exact (h.2.subset n hn).1

/-- With one number taken, one less is wanted. -/
theorem encard_lt_succ_iff (h : n ∈ s) : s.encard < (c + 1 : Nat) ↔ (s \ {n}).encard < (c : Nat) := by
  rw [← Set.encard_sdiff_singleton_add_one h, Nat.cast_add, Nat.cast_one]
  exact ENat.add_lt_add_iff_right ENat.one_ne_top

theorem encard_lt_one_iff : s.encard < (1 : Nat) ↔ s = ∅ := by
  rw [Nat.cast_one, Order.lt_one_iff, Set.encard_eq_zero]

theorem encard_empty_lt : (∅ : Set Nat).encard < (c + 1 : Nat) := by
  rw [Set.encard_empty]
  exact_mod_cast Nat.succ_pos c

end FirstFit
