import Mathlib

/-! Numbers handed out from a counter.

    A desk hands out its counter and moves it on. A number that is out is later used, for good, or
    given back; giving back the number handed out last moves the counter back to it. `Fits` is the
    invariant that makes this safe whatever the order: every number out or used lies below the
    counter, and none is both. -/

namespace Tickets
variable {first next t : Nat} {out : List Nat} {used : Nat → Prop}

/-- The counter is above everything that is out or used, and nothing is out twice. -/
structure Fits (first next : Nat) (out : List Nat) (used : Nat → Prop) : Prop where
  start : first ≤ next
  nodup : out.Nodup
  outstanding : ∀ t ∈ out, first ≤ t ∧ t < next ∧ ¬ used t
  below : ∀ t, used t → t < next

/-- The number handed out next is neither out nor used. -/
theorem Fits.fresh (h : Fits first next out used) : next ∉ out ∧ ¬ used next :=
  ⟨fun hout => lt_irrefl next (h.outstanding next hout).2.1,
    fun hused => lt_irrefl next (h.below next hused)⟩

theorem Fits.hand (h : Fits first next out used) : Fits first (next + 1) (next :: out) used where
  start := Nat.le_succ_of_le h.start
  nodup := List.nodup_cons.mpr ⟨h.fresh.1, h.nodup⟩
  outstanding t ht := by
    rcases List.mem_cons.mp ht with rfl | ht
    · exact ⟨h.start, Nat.lt_succ_self t, h.fresh.2⟩
    · obtain ⟨hfirst, hlt, hnot⟩ := h.outstanding t ht
      exact ⟨hfirst, Nat.lt_succ_of_lt hlt, hnot⟩
  below t ht := Nat.lt_succ_of_lt (h.below t ht)

/-- A number given back late is lost. -/
theorem Fits.lose (h : Fits first next out used) (t : Nat) : Fits first next (out.erase t) used where
  start := h.start
  nodup := h.nodup.erase t
  outstanding x hx := h.outstanding x (List.mem_of_mem_erase hx)
  below := h.below

/-- The last number given back is handed out again. -/
theorem Fits.giveBack (h : Fits first (t + 1) out used) (ht : t ∈ out) :
    Fits first t (out.erase t) used where
  start := (h.outstanding t ht).1
  nodup := h.nodup.erase t
  outstanding x hx := by
    obtain ⟨hne, hx⟩ := h.nodup.mem_erase_iff.mp hx
    obtain ⟨hfirst, hlt, hnot⟩ := h.outstanding x hx
    exact ⟨hfirst, by omega, hnot⟩
  below x hx := by
    have hlt := h.below x hx
    have hne : x ≠ t := fun heq => (h.outstanding t ht).2.2 (heq ▸ hx)
    omega

theorem Fits.use (h : Fits first next out used) (ht : t ∈ out) :
    Fits first next (out.erase t) (fun x => x = t ∨ used x) where
  start := h.start
  nodup := h.nodup.erase t
  outstanding x hx := by
    obtain ⟨hne, hx⟩ := h.nodup.mem_erase_iff.mp hx
    obtain ⟨hfirst, hlt, hnot⟩ := h.outstanding x hx
    exact ⟨hfirst, hlt, not_or.mpr ⟨hne, hnot⟩⟩
  below x hx := by
    rcases hx with rfl | hx
    · exact (h.outstanding x ht).2.1
    · exact h.below x hx

/-- Forgetting what was used is harmless, and so is using numbers that are never handed out. -/
theorem Fits.mono {used' : Nat → Prop} (h : Fits first next out used)
    (hused : ∀ t, used' t → used t ∨ t < first) : Fits first next out used' where
  start := h.start
  nodup := h.nodup
  outstanding t ht := by
    obtain ⟨hfirst, hlt, hnot⟩ := h.outstanding t ht
    refine ⟨hfirst, hlt, fun ht' => ?_⟩
    rcases hused t ht' with hu | hsmall
    · exact hnot hu
    · omega
  below t ht := by
    rcases hused t ht with hu | hsmall
    · exact h.below t hu
    · exact lt_of_lt_of_le hsmall h.start

end Tickets
