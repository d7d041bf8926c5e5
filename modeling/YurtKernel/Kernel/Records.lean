import YurtKernel.Kernel.HostPids
import YurtKernel.Kernel.Path

/-! Process records across a call.

    Looking a path up or fetching a record may make the record, put its main thread in and refresh
    its working directory. `Kernel.Reads` says that a step does no more than that, and the lemmas on
    forks say which records each half writes. -/

namespace Yurt
open Kernel SortedMap
variable {σ : Type} {k k' k'' : Kernel σ}
variable {p p' : Process} {q : Pid}

/-- The record without its threads and its working directory. -/
def Process.core (p : Process) : Process :=
  { p with cwd := ⟨rootMount, none, []⟩, threads := .empty, nextTid := 0 }

/-- What is read off the core is the same for records with the same core. -/
theorem Process.view_of_core {α : Type} {view : Process → α}
    (hview : ∀ p : Process, view p.core = view p) (h : p'.core = p.core) : view p' = view p := by
  rw [← hview p', h, hview]

namespace Kernel

/-- Every record reads the same but for threads and working directory, and none is gone. -/
structure Reads (k k' : Kernel σ) : Prop where
  same : ∀ q, (k'.process q).core = (k.process q).core
  kept : ∀ q, k.processes.get? q ≠ none → k'.processes.get? q ≠ none

theorem Reads.refl (k : Kernel σ) : k.Reads k := ⟨fun _ => rfl, fun _ => id⟩

theorem Reads.trans (h : k.Reads k') (h' : k'.Reads k'') : k.Reads k'' where
  same q := (h'.same q).trans (h.same q)
  kept q hq := h'.kept q (h.kept q hq)

/-- A call that leaves the process table alone. -/
theorem Reads.of_processes (h : k'.processes = k.processes) : k.Reads k' where
  same q := by rw [process, process, h]
  kept q hq := by rwa [h]

/-! ### Writing one record -/

theorem process_updProcess_ne {pid : Pid} (h : q ≠ pid) (k : Kernel σ)
    (f : Process → Process) : (k.updProcess pid f).process q = k.process q := by
  rw [process, get?_updProcess_ne h, process]

section
variable (k : Kernel σ) (pid : Pid) (f : Process → Process)

/-- The core of each record after a write. -/
theorem core_updProcess (q : Pid) :
    ((k.updProcess pid f).process q).core = (if q = pid then f (k.process pid) else k.process q).core := by
  by_cases hq : q = pid
  · rw [if_pos hq, hq, process_updProcess]
    rfl
  · rw [if_neg hq, process_updProcess_ne hq]

theorem kept_updProcess
    (hq : k.processes.get? q ≠ none) : (k.updProcess pid f).processes.get? q ≠ none := by
  by_cases hpid : q = pid
  · simp [updProcess, hpid]
  · rwa [get?_updProcess_ne hpid]

theorem made_updProcess :
    (k.updProcess pid f).processes.get? pid ≠ none := by
  simp [updProcess]

end

theorem hasProcess_iff : k.hasProcess q = true ↔ k.processes.get? q ≠ none := by
  rw [hasProcess, contains_iff, Option.ne_none_iff_exists']

end Kernel

section
variable (k : Kernel σ) (pid : Pid)

theorem Kernel.hasProcess_updProcess (f : Process → Process) (q : Pid) :
    (k.updProcess pid f).hasProcess q = (decide (q = pid) || k.hasProcess q) := by
  rw [Bool.eq_iff_iff, hasProcess, contains_iff]
  by_cases hq : q = pid
  · simp [updProcess, hq]
  · rw [get?_updProcess_ne hq, ← contains_iff]
    simp [hq, hasProcess]

theorem Kernel.reads_updProcess {f : Process → Process}
    (hf : ∀ p, (f p).core = p.core) : k.Reads (k.updProcess pid f) where
  same q := by
    rw [core_updProcess]
    split_ifs with hq
    · rw [hf, hq]
    · rfl
  kept _ := k.kept_updProcess pid f

theorem Kernel.reads_touch : k.Reads (k.touch pid) := k.reads_updProcess pid (fun _ => rfl)

/-- The core after putting a child on the list depends on the core before. -/
theorem Process.core_pushChild (h : p'.core = p.core) (child : Pid) :
    ({ p' with children := pushChild p'.children child } : Process).core =
      ({ p with children := pushChild p.children child } : Process).core :=
  congrArg (fun c : Process => { c with children := pushChild c.children child }) h

/-! ### The halves of a fork -/

theorem Kernel.prepareFork_records (parentPid : Pid) :
    (∃ parent child k', k.processes.get? parentPid = some parent ∧ parent.forkState = .running ∧
      k.processes.get? child = none ∧ k.prepareFork parentPid = (.ok child, k') ∧
      ∀ q, k'.processes.get? q =
        if q = child then some (parent.forkChild parentPid) else k.processes.get? q) ∨
    ∃ errno k', k.prepareFork parentPid = (.error errno, k') ∧ k'.processes = k.processes := by
  obtain ⟨parent, child, k', hparent, hrunning, -, -, halloc, heq, hprocs⟩ |
    ⟨errno, k', heq, hprocs, -⟩ := k.prepareFork_cases parentPid
  · have hinsert : k'.processes = k.processes.insert child (parent.forkChild parentPid) :=
      congrArg ProcView.processes hprocs
    refine .inl ⟨parent, child, k', hparent, hrunning, ?_, heq, fun q => ?_⟩
    · exact contains_eq_false.mp (hostPidSearch_free (Prod.ext halloc rfl))
    · rw [hinsert, get?_insert]
  · exact .inr ⟨errno, k', heq, hprocs⟩

theorem Kernel.commitFork_records (parentPid childPid : Pid) :
    (∃ child, k.processes.get? childPid = some child ∧ child.forkState = .forkPreparing parentPid ∧
      ((k.commitFork parentPid childPid).1 = .ok () ↔ k.processes.get? parentPid ≠ none) ∧
      ∀ q, (k.commitFork parentPid childPid).2.processes.get? q =
        (if q = childPid then some { child with forkState := .running }
          else k.processes.get? q).map (fun p =>
            if q = parentPid then { p with children := pushChild p.children childPid } else p)) ∨
    ∃ errno, k.commitFork parentPid childPid = (.error errno, k) := by
  unfold commitFork
  cases hchild : k.processes.get? childPid with
  | none => exact .inr ⟨_, rfl⟩
  | some child =>
    simp only
    by_cases hfork : child.forkState = .forkPreparing parentPid
    · rw [if_neg (not_not.mpr hfork)]
      refine .inl ⟨child, rfl, hfork, ?_⟩
      simp only [get?_setProcess]
      by_cases hself : parentPid = childPid
      · subst hself
        simp only [if_true, hchild]
        refine ⟨by simp, fun q => ?_⟩
        by_cases hq : q = parentPid
        · simp [hq]
        · simp [hq]
      · rw [if_neg hself]
        cases hparent : k.processes.get? parentPid with
        | none | some =>
          refine ⟨by simp, fun q => ?_⟩
          by_cases hq : q = parentPid
          · simp [hq, hself, hparent]
          · by_cases hqc : q = childPid
            · simp [hqc, Ne.symm hself]
            · simp [hq, hqc]
    · rw [if_pos hfork]
      exact .inr ⟨_, rfl⟩

end

theorem Kernel.rollbackFork_records (kh : Kh σ) (k : Kernel σ) (parentPid childPid : Pid) :
    (∃ child, k.processes.get? childPid = some child ∧ child.forkState = .forkPreparing parentPid ∧
      (k.rollbackFork kh parentPid childPid).1 = .ok () ∧
      ∀ q, (k.rollbackFork kh parentPid childPid).2.processes.get? q =
        if q = childPid then none
        else (k.processes.get? q).map (fun p =>
          if q = parentPid then { p with children := p.children.filter (fun pid => pid ≠ childPid) }
          else p)) ∨
    ∃ errno, k.rollbackFork kh parentPid childPid = (.error errno, k) := by
  obtain ⟨child, hchild, hfork, hok, hprocs, -, -⟩ | herror := k.rollbackFork_cases kh parentPid childPid
  · refine .inl ⟨child, hchild, hfork, hok, fun q => ?_⟩
    rw [hprocs, get?_modify]
    by_cases hparent : q = parentPid
    · simp only [← hparent, get?_erase]
      by_cases hq : q = childPid
      · simp [hq]
      · simp [hq]
    · simp [hparent, get?_erase]
  · exact .inr herror

/-- The record of a process that exits takes the status, and its parent sees `SIGCHLD`. -/
theorem Kernel.recordExitOf_records (k : Kernel σ) (pid : Pid) (status : Int) :
    (∃ k', k.recordExitOf pid status = (0, k') ∧ k.hasProcess pid = true ∧
      (∀ q, k.processes.get? q ≠ none → k'.processes.get? q ≠ none) ∧
      ∀ q, (k'.process q).core = { (k.process q).core with
        exitStatus := if q = pid then some status else (k.process q).exitStatus
        pendingSignals := if (k.process pid).ppid = q ∧ q ≠ 0 ∧ k.hasProcess q = true then
          (k.process q).pendingSignals ||| 2 ^ 16 else (k.process q).pendingSignals }) ∨
    k.processes.get? pid = none ∧ k.recordExitOf pid status = (-ESRCH, k) := by
  unfold recordExitOf
  by_cases hhas : k.hasProcess pid = true
  · have hexit := k.core_updProcess pid (fun p => { p with exitStatus := some status })
    have hkept := fun q => k.kept_updProcess pid (fun p => { p with exitStatus := some status }) (q := q)
    have hsame := k.hasProcess_updProcess pid (fun p => { p with exitStatus := some status })
    rw [if_neg (by simp [hhas])]
    dsimp only
    generalize k.updProcess pid (fun p => { p with exitStatus := some status }) = k1 at hexit hkept hsame ⊢
    have hppid : (k1.process pid).ppid = (k.process pid).ppid := by
      refine (Process.view_of_core (fun _ => rfl) (hexit pid)).trans ?_
      rw [if_pos rfl]
    have hpresent : ∀ q, k1.hasProcess q = k.hasProcess q := fun q => by
      rw [hsame]
      by_cases hq : q = pid
      · simp [hq, hhas]
      · simp [hq]
    rw [hppid, hpresent]
    generalize (k.process pid).ppid = ppid
    have hstatus : ∀ q, (k1.process q).core = { (k.process q).core with
        exitStatus := if q = pid then some status else (k.process q).exitStatus } := by
      intro q
      rw [hexit]
      split_ifs with hq
      · rw [hq]
        rfl
      · rfl
    split
    · rename_i hparent
      refine .inl ⟨_, rfl, hhas, fun q hq => k1.kept_updProcess ppid _ (hkept q hq), fun q => ?_⟩
      rw [core_updProcess]
      by_cases hq : q = ppid
      · rw [if_pos hq, if_pos ⟨hq.symm, hq ▸ hparent⟩, ← hq]
        exact congrArg (fun c : Process => { c with pendingSignals := c.pendingSignals ||| 2 ^ 16 }) (hstatus q)
      · rw [if_neg hq, if_neg (fun hc => hq hc.1.symm)]
        exact hstatus q
    · rename_i hparent
      refine .inl ⟨k1, rfl, hhas, hkept, fun q => ?_⟩
      have hno : ¬(ppid = q ∧ q ≠ 0 ∧ k.hasProcess q = true) := fun hc => hparent (hc.1 ▸ hc.2)
      rw [if_neg hno]
      exact hstatus q
  · rw [if_pos (by simpa using hhas)]
    exact .inr ⟨not_not.mp (hasProcess_iff.not.mp hhas), rfl⟩

end Yurt
