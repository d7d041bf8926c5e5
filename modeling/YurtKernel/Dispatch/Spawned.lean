import YurtKernel.Kernel.Records
import YurtKernel.Dispatch.ProcessLedger

/-! The process records after `sys_spawn`.

    A spawn that fails leaves every record as it was, but for working directories and the caller's
    own record being made. One that succeeds adds the child under a free pid, with what it inherits
    from the caller, and puts it on the caller's list. -/

namespace Yurt
open Kernel
variable {σ : Type} {k : Kernel σ}
variable {k' : Kernel σ} {raw : Bytes} {kh : Kh σ} {rc : Int} {caller : Pid}

/-! ### Loading -/

theorem Kernel.Works.reads {L N : Prop} (h : k.Works kh L N k') : k.Reads k' := by
  induction h with
  | refl => exact .refl k
  | cwd _ pid hf ih =>
    refine ih.trans (reads_updProcess _ pid (fun p => ?_))
    obtain ⟨cwd, hcwd⟩ := hf p
    rw [hcwd]
    rfl
  | storage _ _ _ _ ih | onHost _ _ ih | metadata _ _ _ _ ih | modifyOfd _ _ _ ih | setLocks _ _ _ ih
  | dropName _ _ _ ih => exact ih.trans (.of_processes rfl)

theorem Kernel.normalize_neg {pid : Pid} (h : (k.normalize pid raw).1 = .error rc) : rc < 0 := by
  have hbase : ∀ rc, (k.pathBase pid (procSelfRewrite pid raw)).1 = .error rc → rc < 0 := by
    intro rc hrc
    unfold pathBase resolvedCwd at hrc
    split_ifs at hrc
    split at hrc
    · cases hrc
    · obtain rfl := Except.error.inj hrc
      decide
    · split_ifs at hrc
      split at hrc <;> cases hrc
  unfold normalize at h
  generalize k.pathBase pid (procSelfRewrite pid raw) = r at hbase h
  obtain ⟨rc' | cwd, k'⟩ := r
  · obtain rfl := Except.error.inj h
    exact hbase rc' rfl
  · simp only [onPath, normalizeLexicalPath] at h
    split_ifs at h
    obtain rfl := Except.error.inj h
    decide

theorem MountTable.followLiteral_error {vfs : MountTable} {hops : Nat} {path : Bytes} {errno : Int}
    (h : vfs.followLiteral hops path = .error errno) : errno = ELOOP := by
  induction hops generalizing path with
  | zero =>
    unfold MountTable.followLiteral at h
    split at h
    · cases h
    · exact (Except.error.inj h).symm
  | succ hops ih =>
    unfold MountTable.followLiteral at h
    split at h
    · cases h
    · exact ih h

theorem Kernel.loadImage_neg (h : (k.loadImage kh caller raw).1 = .error rc) : rc < 0 := by
  have hpath : ∀ rc, (k.normalize caller raw).1 = .error rc → rc < 0 := fun _ => normalize_neg
  unfold loadImage at h
  generalize k.normalize caller raw = r at hpath h
  obtain ⟨rc' | path, k'⟩ := r
  · obtain rfl := Except.error.inj h
    exact hpath rc' rfl
  · simp only [onPath] at h
    split at h
    · next errno hfollow =>
      obtain rfl := Except.error.inj h
      rw [MountTable.followLiteral_error hfollow]
      decide
    · split at h
      · obtain rfl := Except.error.inj h
        decide
      · split_ifs at h with hread
        · obtain rfl := Except.error.inj h
          exact hread

/-! ### The child -/

/-- `k'` has a child of `caller` more than `k`. -/
structure Kernel.Spawned (k : Kernel σ) (caller child : Pid) (argv : List Bytes) (k' : Kernel σ) :
    Prop where
  free : k.processes.get? child = none
  made : k'.processes.get? child ≠ none
  kept : ∀ q, k.processes.get? q ≠ none → k'.processes.get? q ≠ none
  records : ∀ q, (k'.process q).core =
    let p := if q = child then (k.process caller).spawnChild .default caller argv else k.process q
    (if q = caller then { p with children := pushChild p.children child } else p).core

theorem Kernel.stageSpawn_records (k : Kernel σ) (caller : Pid) (wasm : Bytes) (argv : List Bytes) :
    (∃ child : Pid, (k.stageSpawn caller wasm argv).1 = child ∧
      k.Spawned caller child argv (k.stageSpawn caller wasm argv).2) ∨
    ((k.stageSpawn caller wasm argv).1 < 0 ∧ k.Reads (k.stageSpawn caller wasm argv).2) := by
  unfold stageSpawn
  obtain ⟨-, hprocs⟩ := k.tryAllocSpawnPid_frame
  have hfree : ∀ child, k.tryAllocSpawnPid.1 = some child → k.processes.get? child = none :=
    fun child hchild => get?_of_tryAllocSpawnPid hchild
  generalize k.tryAllocSpawnPid = r at hprocs hfree ⊢
  obtain ⟨_ | child, k1⟩ := r
  · have hagain : -EAGAIN < 0 := by decide
    exact .inr ⟨hagain, .of_processes hprocs⟩
  · have hfree := hfree child rfl
    have hprocess : ∀ q, k1.process q = k.process q := fun q => by
      rw [process, process, hprocs]
    have hinc := congrArg ProcView.processes (procView_foldl procView_incFdEntryRef
      (k1.process caller).fdTable.inheritableEntries.values (k1.touch caller))
    simp only [process_touch]
    generalize (k1.process caller).fdTable.inheritableEntries.values.foldl Kernel.incFdEntryRef
      (k1.touch caller) = k2 at hinc ⊢
    have hreads : k.Reads k2 :=
      (Reads.of_processes hprocs).trans ((k1.reads_touch caller).trans (.of_processes hinc))
    -- the child's record, before it is put on the caller's list
    have hstaged : ∀ q, ((k2.updProcess child (fun fresh =>
        (k1.process caller).spawnChild fresh caller argv)).process q).core =
        (if q = child then (k.process caller).spawnChild .default caller argv
          else k.process q).core := by
      intro q
      rw [core_updProcess]
      by_cases hq : q = child
      · rw [if_pos hq, if_pos hq, hprocess]
        have hfresh : (k2.process child).core = Process.default.core := by
          rw [hreads.same child, process, hfree]
          rfl
        have hspawn := congrArg (fun c : Process =>
          ((k.process caller).spawnChild c caller argv).core) hfresh
        exact hspawn
      · rw [if_neg hq, if_neg hq]
        exact hreads.same q
    have hmade : (k2.updProcess child (fun fresh =>
        (k1.process caller).spawnChild fresh caller argv)).processes.get? child ≠ none :=
      made_updProcess _ _ _
    have hkept : ∀ q, k.processes.get? q ≠ none → (k2.updProcess child (fun fresh =>
        (k1.process caller).spawnChild fresh caller argv)).processes.get? q ≠ none :=
      fun q hq => kept_updProcess _ _ _ (hreads.kept q hq)
    generalize k2.updProcess child (fun fresh =>
      (k1.process caller).spawnChild fresh caller argv) = k3 at hstaged hmade hkept ⊢
    refine .inl ⟨child, rfl, hfree, ?_, fun q hq => ?_, fun q => ?_⟩
    · exact k3.kept_updProcess caller (fun p => { p with children := pushChild p.children child }) hmade
    · exact k3.kept_updProcess caller (fun p => { p with children := pushChild p.children child })
        (hkept q hq)
    · refine (k3.core_updProcess caller (fun p =>
        { p with children := pushChild p.children child }) q).trans ?_
      by_cases hq : q = caller
      · subst hq
        simp only [if_true]
        exact Process.core_pushChild (hstaged q) child
      · simp only [if_neg hq]
        exact hstaged q

/-- Loading the image first makes no difference to the child. -/
theorem Kernel.Spawned.after {k'' : Kernel σ} {child : Pid} {argv : List Bytes}
    (h : k'.Spawned caller child argv k'') (hreads : k.Reads k') :
    k.Spawned caller child argv k'' where
  free := by
    by_contra hsome
    exact hreads.kept child hsome h.free
  made := h.made
  kept q hq := h.kept q (hreads.kept q hq)
  records q := by
    rw [h.records q]
    have hchild : ((k'.process caller).spawnChild .default caller argv).core =
        ((k.process caller).spawnChild .default caller argv).core := by
      have hspawn := congrArg (fun c : Process =>
        (c.spawnChild .default caller argv).core) (hreads.same caller)
      exact hspawn
    simp only
    split
    · refine Process.core_pushChild ?_ child
      split_ifs
      · exact hchild
      · exact hreads.same q
    · split_ifs
      · exact hchild
      · exact hreads.same q

theorem Kernel.sysSpawn_records (kh : Kh σ) (k : Kernel σ) (caller : Pid) (request : Bytes) :
    (∃ (child : Pid) (argv : List Bytes), (k.sysSpawn kh caller request).1 = child ∧
      k.Spawned caller child argv (k.sysSpawn kh caller request).2) ∨
    ((k.sysSpawn kh caller request).1 < 0 ∧ k.Reads (k.sysSpawn kh caller request).2) := by
  have hinval : -EINVAL < 0 := by decide
  obtain hr | ⟨path, argv, hr⟩ := k.sysSpawn_cases kh caller request <;> rw [hr]
  · exact .inr ⟨hinval, .refl k⟩
  · have hworks : k.Works kh False False k := .refl
    have hload := (hworks.loadImage caller path).reads
    have hneg : ∀ rc, (k.loadImage kh caller path).1 = .error rc → rc < 0 := fun _ => loadImage_neg
    generalize k.loadImage kh caller path = r at hload hneg ⊢
    obtain ⟨rc | wasm, k'⟩ := r
    · exact .inr ⟨hneg rc rfl, hload⟩
    · obtain ⟨child, hrc, hspawned⟩ | ⟨hrc, hreads⟩ := k'.stageSpawn_records caller wasm argv
      · exact .inl ⟨child, argv, hrc, hspawned.after hload⟩
      · exact .inr ⟨hrc, hload.trans hreads⟩

end Yurt
