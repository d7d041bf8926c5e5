import YurtKernel.Dispatch.FsAt

/-! What looking a path up leaves behind.

    Resolving a path may make the caller's record, refresh its working directory and publish new
    snapshots below `/proc`. `Kernel.Looked` says that nothing else differs. -/

namespace Yurt
open Kernel
variable {σ : Type} {k : Kernel σ} {caller : Pid}
variable {k' k'' : Kernel σ}

/-! ### Storage without `/proc` -/

/-- The backend without the snapshots of processes. -/
def Leaf.stored : Leaf → Leaf
  | .proc _ => .proc .new
  | b => b

def Backend.stored : Backend → Backend
  | .leaf b => .leaf b.stored
  | b => b

/-- What the mount table stores; `/proc` shows what the process table stores. -/
def MountTable.stored (t : MountTable) : MountTable :=
  ⟨t.mounts.map (fun m => { m with backend := m.backend.stored })⟩

theorem MountTable.stored_refreshProcesses (t : MountTable) (snapshots : List ProcessSnapshot) :
    (t.refreshProcesses snapshots).stored = t.stored := by
  have hbackend : ∀ b : Backend, (b.refreshProcesses snapshots).stored = b.stored := by
    intro b
    cases b with
    | leaf b => cases b <;> rfl
    | overlay b => rfl
  simp only [MountTable.stored, MountTable.refreshProcesses, List.map_map, Function.comp_def, hbackend]

/-! ### The frame -/

namespace Kernel

/-- `k'` is `k` but for working directories and the snapshots of `/proc`. -/
structure Looked (k k' : Kernel σ) : Prop where
  rest : k' = { k with vfs := k'.vfs, processes := k'.processes }
  vfs : k'.vfs.stored = k.vfs.stored
  record : ∀ pid, ∃ cwd, k'.process pid = { k.process pid with cwd := cwd }

theorem Looked.refl (k : Kernel σ) : k.Looked k := ⟨rfl, rfl, fun _ => ⟨_, rfl⟩⟩

theorem Looked.trans (h : k.Looked k') (h' : k'.Looked k'') : k.Looked k'' where
  rest := by
    rw [h'.rest, h.rest]
  vfs := h'.vfs.trans h.vfs
  record pid := by
    obtain ⟨cwd, hcwd⟩ := h.record pid
    obtain ⟨cwd', hcwd'⟩ := h'.record pid
    exact ⟨cwd', by rw [hcwd', hcwd]⟩

theorem looked_updProcess (k : Kernel σ) (pid : Pid) {f : Process → Process}
    (hf : ∀ p, ∃ cwd, f p = { p with cwd := cwd }) : k.Looked (k.updProcess pid f) where
  rest := rfl
  vfs := rfl
  record pid' := by
    by_cases hpid : pid' = pid
    · subst hpid
      obtain ⟨cwd, hcwd⟩ := hf (k.process pid')
      refine ⟨cwd, ?_⟩
      rw [process_updProcess, hcwd]
      exact congrArg (fun p : Process => { p with cwd := cwd }) (Process.ensureMainThread_idem _ _)
    · refine ⟨(k.process pid').cwd, ?_⟩
      rw [process, get?_updProcess_ne hpid, process]

/-- What a lookup does: working directories are written and `/proc` is brought up to date. -/
inductive Glances (k : Kernel σ) : Kernel σ → Prop
  | refl : Glances k k
  | cwd {k' : Kernel σ} (h : Glances k k') (pid : Pid) {f : Process → Process}
      (hf : ∀ p, ∃ cwd, f p = { p with cwd := cwd }) : Glances k (k'.updProcess pid f)
  | refresh {k' : Kernel σ} (h : Glances k k') (snapshots : List ProcessSnapshot) :
      Glances k { k' with vfs := k'.vfs.refreshProcesses snapshots }

theorem Glances.trans (h : k.Glances k') (h' : k'.Glances k'') : k.Glances k'' := by
  induction h' with
  | refl => exact h
  | cwd _ pid hf ih => exact ih.cwd pid hf
  | refresh _ snapshots ih => exact ih.refresh snapshots

theorem Glances.looked (h : k.Glances k') : k.Looked k' := by
  induction h with
  | refl => exact .refl k
  | cwd _ pid hf ih => exact ih.trans (looked_updProcess _ pid hf)
  | refresh _ snapshots ih =>
    exact ih.trans ⟨rfl, MountTable.stored_refreshProcesses _ _, fun _ => ⟨_, rfl⟩⟩

end Kernel

section
variable (k : Kernel σ) (pid : Pid) (caller : Pid)

namespace Kernel

theorem glances_touch : k.Glances (k.touch pid) := Glances.refl.cwd pid (fun _ => ⟨_, rfl⟩)

/-! ### Resolution -/

theorem glances_refreshAnchoredCwd : k.Glances (k.refreshAnchoredCwd pid).2 := by
  unfold refreshAnchoredCwd
  simp only
  split
  · exact k.glances_touch pid
  · split
    · exact k.glances_touch pid
    · exact Glances.refl.cwd pid (fun _ => ⟨_, rfl⟩)

theorem glances_pathBase (path : Bytes) : k.Glances (k.pathBase pid path).2 := by
  have hrefresh := k.glances_refreshAnchoredCwd pid
  unfold pathBase resolvedCwd
  split_ifs
  · exact .refl
  · generalize k.refreshAnchoredCwd pid = r at hrefresh ⊢
    obtain ⟨_ | _ | cwd, k'⟩ := r
    · exact hrefresh
    · exact hrefresh
    · simp only
      split_ifs
      · split
        · exact hrefresh.cwd pid (fun _ => ⟨_, rfl⟩)
        · exact hrefresh
      · exact hrefresh

theorem glances_normalize (raw : Bytes) : k.Glances (k.normalize pid raw).2 :=
  onPath_keeps (k.glances_pathBase pid _) (fun _ _ h => h)

theorem glances_realpathOf (raw : Bytes) : k.Glances (k.realpathOf pid raw).2 :=
  onPath_keeps (k.glances_pathBase pid _) (fun _ _ h => h)

theorem glances_mayControlPid (caller target : Pid) :
    k.Glances (k.mayControlPid caller target).2 := by
  have htouch := k.glances_touch caller
  unfold mayControlPid
  refine ite_keeps .refl (ite_keeps htouch ?_)
  split
  · exact htouch
  · exact ite_keeps htouch htouch

/-- Publishing snapshots and asking whether a path may be seen. -/
theorem glances_gate (path : Bytes) :
    k.Glances (k.publishProcSnapshots.procPathReachable caller path).2 := by
  have hpublish : k.Glances k.publishProcSnapshots := Glances.refl.refresh _
  unfold procPathReachable
  split
  · exact hpublish
  · next target _ =>
    have hcontrol := hpublish.trans (k.publishProcSnapshots.glances_mayControlPid caller target)
    unfold procPidVisible
    generalize k.publishProcSnapshots.mayControlPid caller target = r at hcontrol ⊢
    obtain ⟨_ | _, k'⟩ := r <;> exact hcontrol

theorem glances_normalizeReadablePath (raw : Bytes) :
    k.Glances (k.normalizeReadablePath caller raw).2 := by
  refine onPath_keeps (k.glances_normalize caller raw) (fun path k' h => ?_)
  have hgate := k'.glances_gate caller path
  generalize k'.publishProcSnapshots.procPathReachable caller path = g at hgate ⊢
  obtain ⟨_ | _, k''⟩ := g <;> exact h.trans hgate

end Kernel

end

theorem Kernel.glances_spliceLinks (caller : Pid) (followTerminal : Bool) :
    ∀ (hops : Nat) (comps : List Bytes) (k : Kernel σ),
      k.Glances (spliceLinks caller followTerminal hops comps k).2
  | hops, comps, k => by
    unfold spliceLinks
    split
    · exact .refl
    · refine ite_keeps .refl (ite_keeps .refl ?_)
      cases hops with
      | zero => exact .refl
      | succ hops =>
        refine onPath_keeps (k.glances_normalizeReadablePath caller _) (fun path k' h => ?_)
        exact h.trans (glances_spliceLinks caller followTerminal hops _ k')

theorem Kernel.glances_resolveReadable (k : Kernel σ) (caller : Pid) (raw : Bytes) (follow : Bool) :
    k.Glances (k.resolveReadable caller raw follow).2 :=
  onPath_keeps (k.glances_normalizeReadablePath caller raw)
    (fun _ k' h => h.trans (glances_spliceLinks caller follow _ _ k'))

theorem Kernel.glances_resolveAt (k : Kernel σ) (caller : Pid) (dirfd : Nat) (path : Bytes) :
    k.Glances (k.resolveAt caller dirfd path).2 := by
  have htouch := k.glances_touch caller
  unfold Kernel.resolveAt
  refine ite_keeps .refl ?_
  split
  · exact htouch
  · exact htouch
  · simp only
    split
    · exact htouch
    · exact ite_keeps (onPath_keeps (htouch.trans (glances_realpathOf _ caller _)) (fun _ _ h => h)) htouch
  · exact htouch

end Yurt
