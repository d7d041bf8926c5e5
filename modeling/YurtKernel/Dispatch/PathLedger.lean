import YurtKernel.Dispatch.FdLedger
import YurtKernel.Dispatch.Works

/-! Path calls keep the reference ledger.

    Resolving a path writes at most the caller's working directory and the snapshots in `/proc`,
    which the ledger does not see. `open` makes a description and `spawn` takes the references of
    the child's table; the other calls count nothing. -/

namespace Yurt
open Kernel SortedMap
variable {σ : Type} {k : Kernel σ} {es : List FdEntry} {caller : Pid}
variable {f : OpenFileDescription → OpenFileDescription} {k' k'' : Kernel σ}

namespace Kernel

/-- The ledger sees no difference between `k` and `k'`, and every process has its old table. -/
structure SameRefs (k k' : Kernel σ) : Prop where
  view : k'.refView = k.refView
  table : ∀ pid, (k'.process pid).fdTable = (k.process pid).fdTable

theorem SameRefs.refl (k : Kernel σ) : k.SameRefs k := ⟨rfl, fun _ => rfl⟩

theorem SameRefs.trans (h : k.SameRefs k') (h' : k'.SameRefs k'') :
    k.SameRefs k'' := ⟨h'.view.trans h.view, fun pid => (h'.table pid).trans (h.table pid)⟩

theorem sameRefs_updProcess (k : Kernel σ) (pid : Pid) {f : Process → Process}
    (hf : ∀ p, (f p).fdTable = p.fdTable) : k.SameRefs (k.updProcess pid f) := by
  refine ⟨refView_updProcess (fun p => congrArg FdTable.entries (hf p)), fun pid' => ?_⟩
  by_cases hpid : pid' = pid
  · subst hpid
    rw [process_updProcess]
    exact hf _
  · rw [process, get?_updProcess_ne hpid, process]

theorem sameRefs_touch (k : Kernel σ) (pid : Pid) : k.SameRefs (k.touch pid) :=
  k.sameRefs_updProcess pid (fun _ => rfl)

/-- Storage and the host's state are no business of the ledger. -/
theorem sameRefs_vfs (k : Kernel σ) (vfs : MountTable) (host : σ) :
    k.SameRefs { k with vfs := vfs, host := host } := ⟨rfl, fun _ => rfl⟩

end Kernel

/-! ### Minor changes -/

/-- Output of a process and real-time signals queued for it. -/
def Process.queues (p : Process) : Nat × Nat × Nat :=
  (p.stdoutBuffer.length, p.stderrBuffer.length, p.pendingRt.length)

namespace Kernel

/-- `k'` differs from `k` in nothing that is counted or queued. -/
structure Minor (k k' : Kernel σ) : Prop where
  refs : k.SameRefs k'
  pipes : k'.pipes = k.pipes
  sockets : k'.sockets = k.sockets
  queues : ∀ pid, (k'.process pid).queues = (k.process pid).queues

theorem Minor.refl (k : Kernel σ) : k.Minor k := ⟨.refl k, rfl, rfl, fun _ => rfl⟩

theorem Minor.trans (h : k.Minor k') (h' : k'.Minor k'') : k.Minor k'' where
  refs := h.refs.trans h'.refs
  pipes := h'.pipes.trans h.pipes
  sockets := h'.sockets.trans h.sockets
  queues pid := (h'.queues pid).trans (h.queues pid)

theorem Minor.of_eq {α : Type} {r : α × Kernel σ} {a : α} (h : k.Minor r.2)
    (heq : r = (a, k')) : k.Minor k' := by
  rwa [heq] at h

theorem minor_updProcess (k : Kernel σ) (pid : Pid) {f : Process → Process}
    (hf : ∀ p, (f p).fdTable = p.fdTable) (hqueues : ∀ p, (f p).queues = p.queues) :
    k.Minor (k.updProcess pid f) where
  refs := k.sameRefs_updProcess pid hf
  pipes := rfl
  sockets := rfl
  queues pid' := by
    by_cases hpid : pid' = pid
    · subst hpid
      rw [process_updProcess]
      exact hqueues _
    · rw [process, get?_updProcess_ne hpid, process]

theorem minor_touch (k : Kernel σ) (pid : Pid) : k.Minor (k.touch pid) :=
  k.minor_updProcess pid (fun _ => rfl) (fun _ => rfl)

/-- Storage and the host's state are neither counted nor queued. -/
theorem minor_vfs (k : Kernel σ) (vfs : MountTable) (host : σ) :
    k.Minor { k with vfs := vfs, host := host } := ⟨k.sameRefs_vfs vfs host, rfl, rfl, fun _ => rfl⟩

theorem Looked.minor (h : k.Looked k') : k.Minor k' := by
  have htable : ∀ pid, (k'.process pid).fdTable = (k.process pid).fdTable := by
    intro pid
    obtain ⟨cwd, hcwd⟩ := h.record pid
    rw [hcwd]
  have hqueues : ∀ pid, (k'.process pid).queues = (k.process pid).queues := by
    intro pid
    obtain ⟨cwd, hcwd⟩ := h.record pid
    rw [hcwd]
    rfl
  have hview : k'.refView = k.refView := by
    have htables : k'.refView.tables = k.refView.tables := by
      funext e
      simp only [refView]
      split_ifs with he
      · refine SortedMap.sum_eq_of_weight (fun pid => ?_)
        rw [weight_process he, weight_process he, htable]
      · rfl
    rw [h.rest] at htables ⊢
    exact congrArg (fun t => { k.refView with tables := t }) htables
  exact ⟨⟨hview, htable⟩, by rw [h.rest], by rw [h.rest], hqueues⟩

/-- Cursor and flags of a description are not counted. -/
theorem refView_modifyOfd (hf : ∀ o, (f o).refs = o.refs) (k : Kernel σ) (id : Nat) :
    (k.modifyOfd id f).refView = k.refView := by
  have hofds : (k.ofds.modify id f).mapValues (fun _ o => o.refs) =
      k.ofds.mapValues (fun _ o => o.refs) := mapValues_modify (fun o _ => hf o)
  simp only [modifyOfd, refView, hofds]
  rfl

theorem minor_modifyOfd (k : Kernel σ) (id : Nat) (hf : ∀ o, (f o).refs = o.refs) :
    k.Minor (k.modifyOfd id f) :=
  ⟨⟨refView_modifyOfd hf k id, fun _ => rfl⟩, rfl, rfl, fun _ => rfl⟩

/-- What makes and drops no object is neither counted nor queued. -/
theorem Works.minor {kh : Kh σ} {L N : Prop} (h : k.Works kh L N k') : k.Minor k' := by
  induction h with
  | refl => exact .refl k
  | cwd _ pid hf ih =>
    refine ih.trans (minor_updProcess _ pid (fun p => ?_) (fun p => ?_)) <;> obtain ⟨cwd, hcwd⟩ := hf p
    · rw [hcwd]
    · rw [hcwd]
      rfl
  | modifyOfd _ id hf ih => exact ih.trans (minor_modifyOfd _ id (fun o => (hf o).1))
  | storage _ _ _ _ ih | onHost _ _ ih | metadata _ _ _ _ ih | setLocks _ _ _ ih | dropName _ _ _ ih =>
    exact ih.trans ⟨⟨rfl, fun _ => rfl⟩, rfl, rfl, fun _ => rfl⟩

/-! ### Opening -/

namespace Ledger

theorem sameRefs (h : k.Ledger es) (hsame : k.SameRefs k') : k'.Ledger es := h.frame hsame.view

theorem ite {ρ : Type} {c : Prop} [Decidable c] {r r' : ρ × Kernel σ}
    (h : r.2.Ledger es) (h' : r'.2.Ledger es) : (if c then r else r').2.Ledger es :=
  ite_keeps (P := fun k => k.Ledger es) h h'

theorem installDirectory (h : k.Ledger es) (path : Bytes) :
    (k.installDirectory caller path).2.Ledger es := by
  unfold Kernel.installDirectory
  simp only
  generalize k.vfs.dirAnchor path = anchor
  cases hfree : k.freeFd caller with
  | none => exact h.sameRefs (k.sameRefs_touch caller)
  | some fd =>
    -- a directory is not counted
    have huncounted : k.Ledger (.directory anchor.1 anchor.2 path :: es) := by
      refine RefView.Ledger.congr h (fun e he => List.count_cons_of_ne ?_)
      rintro rfl
      cases he
    exact huncounted.installFd_free (freeFd_free hfree)

theorem installFile (h : k.Ledger es) (mountId : MountId) (inode : Inode)
    (writable : Bool) : (k.installFile caller mountId inode writable).2.Ledger es := by
  have hnew := h.createOfd mountId inode writable
  unfold Kernel.installFile
  have hid : (k.createOfd mountId inode writable).1 = k.nextOfdId := rfl
  simp only [hid]
  generalize (k.createOfd mountId inode writable).2 = k' at hnew ⊢
  cases hfree : k'.freeFd caller with
  | none =>
    have htouch : (k'.touch caller).Ledger ([.file k.nextOfdId] ++ es) :=
      hnew.sameRefs (k'.sameRefs_touch caller)
    exact Ledger.closeEntry htouch (htouch.safeDrop_of_no_socket (by simp))
  | some fd => exact hnew.installFd_free (freeFd_free hfree)

theorem openResolved (kh : Kh σ) (h : k.Ledger es) (flags : Nat) (path : Bytes) :
    (k.openResolved kh caller flags path).2.Ledger es := by
  unfold Kernel.openResolved
  generalize k.vfs.openResult kh k.host path flags = r
  simp only
  -- the cases before the file is opened
  refine Ledger.ite h (Ledger.ite h (Ledger.ite (Ledger.ite h (h.installDirectory path)) ?_))
  obtain ⟨err | ⟨mountId, inode⟩, vfs, host⟩ := r
  · have hvfs := h.sameRefs (k.sameRefs_vfs vfs host)
    exact Ledger.ite hvfs (Ledger.ite hvfs hvfs)
  · exact Ledger.installFile (h.sameRefs (k.sameRefs_vfs _ host)) mountId inode _

theorem sysOpen (kh : Kh σ) (h : k.Ledger es) (request : Bytes) :
    (k.sysOpen kh caller request).2.Ledger es := by
  unfold Kernel.sysOpen openAt
  split_ifs
  · exact h
  · exact h
  · exact onPath_keeps (P := fun k => k.Ledger es)
      (h.sameRefs (k.glances_resolveReadable caller _ true).looked.minor.refs)
      (fun path k' h' => h'.openResolved kh _ path)

theorem sysOpenat (kh : Kh σ) (h : k.Ledger es) (request : Bytes) :
    (k.sysOpenat kh caller request).2.Ledger es := by
  unfold Kernel.sysOpenat atPath
  split_ifs
  · exact h
  · exact h
  · exact onPath_keeps (P := fun k => k.Ledger es)
      (h.sameRefs (k.glances_resolveAt caller _ _).looked.minor.refs) (fun path k' h' => h'.sysOpen kh _)

end Ledger

end Kernel

end Yurt
