import YurtKernel.Lib.FirstFit
import YurtKernel.Kernel.FdTable

/-! Which descriptor numbers a table can hand out.

    `lowest_free_fd_below` walks up from a number and stops at the first free one, at the limit or at
    `u32::MAX`. What it finds is the least vacant number, and it finds one whenever there is one. -/

namespace Yurt
open SortedMap
variable {t : FdTable} {minFd limit n fd : Nat}

namespace FdTable

/-- Descriptor numbers from `minFd` up, below the limit, at which nothing is open. -/
def vacant (t : FdTable) (minFd limit : Nat) : Set Nat :=
  {fd | minFd ≤ fd ∧ fd < limit ∧ fd ≤ u32Max ∧ t.entry fd = none}

/-! ### The search -/

theorem searchFree_le : ∀ {tries n : Nat}, t.searchFree limit tries n = some fd →
    n ≤ u32Max → fd ≤ u32Max
  | 0, _, h, _ => by simp [FdTable.searchFree] at h
  | tries + 1, n, h, hn => by
    rw [FdTable.searchFree] at h
    split_ifs at h with _ _ hmax
    · cases h
      exact hn
    · exact searchFree_le h (by omega)

/-- What the search walks past is open. -/
theorem searchFree_passed : ∀ {tries n : Nat}, t.searchFree limit tries n = some fd →
    ∀ m, n ≤ m → m < fd → t.entry m ≠ none
  | 0, _, h, _, _, _ => by simp [FdTable.searchFree] at h
  | tries + 1, n, h, m, hm, hlt => by
    rw [FdTable.searchFree] at h
    split_ifs at h with _ hfree hmax
    · cases h
      omega
    · rcases Nat.eq_or_lt_of_le hm with rfl | hm
      · intro hnone
        exact hfree (by rw [contains_eq_false.mpr hnone]; rfl)
      · exact searchFree_passed h m hm hlt

/-- The search gives up at the limit or at the last number, or when it has seen `tries` open
    numbers. -/
theorem searchFree_none : ∀ {tries n : Nat}, t.searchFree limit tries n = none →
    (∀ m, n ≤ m → m < limit → m ≤ u32Max → t.entry m ≠ none) ∨ ∀ m, n ≤ m → m < n + tries → t.entry m ≠ none
  | 0, n, _ => .inr (fun m hm hlt => by omega)
  | tries + 1, n, h => by
    rw [FdTable.searchFree] at h
    split_ifs at h with hlimit hfree hmax
    · exact .inl (fun m hm hlt => by omega)
    · have hopen : t.entry n ≠ none := fun hnone =>
        hfree (by rw [contains_eq_false.mpr hnone]; rfl)
      refine .inl (fun m hm _ hle => ?_)
      obtain rfl : m = n := by omega
      exact hopen
    · have hopen : t.entry n ≠ none := fun hnone =>
        hfree (by rw [contains_eq_false.mpr hnone]; rfl)
      rcases searchFree_none h with hall | hall
      · refine .inl (fun m hm hlt hle => ?_)
        rcases Nat.eq_or_lt_of_le hm with rfl | hm
        · exact hopen
        · exact hall m hm hlt hle
      · refine .inr (fun m hm hlt => ?_)
        rcases Nat.eq_or_lt_of_le hm with rfl | hm
        · exact hopen
        · exact hall m hm (by omega)

/-- One of any `size + 1` numbers is free. -/
theorem exists_free (t : FdTable) (n : Nat) :
    ∃ m, n ≤ m ∧ m < n + (t.entries.size + 1) ∧ t.entry m = none := by
  by_contra hnone
  push Not at hnone
  have hsub : List.range' n (t.entries.size + 1) ⊆ t.entries.keys := by
    intro m hm
    rw [List.mem_range'_1] at hm
    obtain ⟨e, he⟩ := Option.ne_none_iff_exists'.mp (hnone m hm.1 hm.2)
    exact List.mem_map.mpr ⟨(m, e), mem_toList.mpr he, rfl⟩
  have hlength := (List.subperm_of_subset List.nodup_range' hsub).length_le
  rw [List.length_range', SortedMap.keys, List.length_map, SortedMap.size] at hlength
  omega

/-! ### The least vacant number -/

theorem lowestFreeFdBelow_some (hmin : minFd ≤ u32Max)
    (h : t.lowestFreeFdBelow minFd limit = some fd) : IsLeast (t.vacant minFd limit) fd := by
  obtain ⟨hle, hlt, hfree⟩ := FdTable.searchFree_spec h
  refine ⟨⟨hle, hlt, FdTable.searchFree_le h hmin, hfree⟩, fun m hm => ?_⟩
  by_contra hm'
  exact FdTable.searchFree_passed h m hm.1 (Nat.lt_of_not_le hm') hm.2.2.2

theorem lowestFreeFdBelow_none (h : t.lowestFreeFdBelow minFd limit = none) :
    t.vacant minFd limit = ∅ := by
  rcases FdTable.searchFree_none h with hall | hall
  · exact Set.eq_empty_iff_forall_notMem.mpr (fun m hm => hall m hm.1 hm.2.1 hm.2.2.1 hm.2.2.2)
  · obtain ⟨m, hm, hlt, hfree⟩ := t.exists_free minFd
    exact absurd hfree (hall m hm hlt)

/-- Installing an entry takes its number out. -/
theorem vacant_install (t : FdTable) (fd : Nat) (e : FdEntry) (minFd limit : Nat) :
    (t.install fd e).vacant minFd limit = t.vacant minFd limit \ {fd} := by
  ext m
  simp only [FdTable.vacant, FdTable.entry, FdTable.install, get?_insert,
    Set.mem_ofPred_eq, Set.mem_sdiff, Set.mem_singleton_iff]
  split_ifs with hm
  · simp [hm]
  · simp [hm]

/-! ### What is open at a number -/

theorem getDescriptorFlags_install_self (t : FdTable) (fd : Nat) (e : FdEntry) :
    (t.install fd e).getDescriptorFlags fd = .ok 0 := by
  simp [FdTable.getDescriptorFlags, FdTable.install, SortedMap.contains, get?_insert, get?_erase]

theorem getDescriptorFlags_install_ne {m : Nat} (t : FdTable) (e : FdEntry) (h : m ≠ fd) :
    (t.install fd e).getDescriptorFlags m = t.getDescriptorFlags m := by
  simp [FdTable.getDescriptorFlags, FdTable.install, SortedMap.contains, get?_insert, get?_erase, h]

/-- An entry put at a free number and taken out again. -/
theorem entry_remove_install {e : FdEntry} (hfree : t.entry fd = none) (m : Nat) :
    ((t.install fd e).remove fd).entry m = t.entry m := by
  rw [FdTable.entry, FdTable.remove, FdTable.install, erase_insert hfree]
  rfl

theorem getDescriptorFlags_remove_install {e : FdEntry} (hfree : t.entry fd = none)
    (m : Nat) : ((t.install fd e).remove fd).getDescriptorFlags m = t.getDescriptorFlags m := by
  by_cases hm : m = fd
  · subst hm
    have hclosed : t.entries.get? m = none := hfree
    simp [FdTable.getDescriptorFlags, FdTable.install, FdTable.remove, SortedMap.contains,
      get?_erase, hclosed]
  · simp [FdTable.getDescriptorFlags, FdTable.install, FdTable.remove, SortedMap.contains,
      get?_insert, get?_erase, hm]

end FdTable

/-! ### The least vacant number of a caller -/

namespace Kernel
variable {σ : Type} {k : Kernel σ} {pid : Pid}

/-- Numbers the caller can still be given. -/
def vacant (k : Kernel σ) (pid : Pid) (minFd : Nat) : Set Nat :=
  (k.process pid).fdTable.vacant minFd (k.process pid).nofileSoft

theorem freeFd_some (h : k.freeFd pid = some fd) : IsLeast (k.vacant pid 0) fd :=
  FdTable.lowestFreeFdBelow_some (Nat.zero_le _) h

theorem freeFd_none (h : k.freeFd pid = none) : k.vacant pid 0 = ∅ := FdTable.lowestFreeFdBelow_none h

theorem vacant_installFd (k : Kernel σ) (pid : Pid) (fd : Nat) (e : FdEntry) (minFd : Nat) :
    (k.installFd pid fd e).vacant pid minFd = k.vacant pid minFd \ {fd} := by
  rw [vacant, process_installFd]
  exact FdTable.vacant_install _ fd e minFd _

end Kernel

end Yurt
