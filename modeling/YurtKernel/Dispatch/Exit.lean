import YurtKernel.Dispatch.Socket
import YurtKernel.Kernel.LedgerOps

/-! What a process leaves behind when it exits.

    `ExitReleases` states what the end of a process owes the others: its descriptors count no more,
    so that readers of its pipes see the end, its locks are free and its sockets' peers know.
    `record_exit` stores the status and signals the parent and does nothing else, so it owes nothing
    only for a process that held nothing. -/

namespace Yurt
open Kernel
variable {σ : Type}

/-- Descriptors of `pid` that name `e`. -/
def Kernel.heldBy (k : Kernel σ) (pid : Pid) (e : FdEntry) : Nat :=
  ((k.processes.get? pid).map (fun p => p.fdTable.entries.values.count e)).getD 0

/-- All references to `e` are descriptors of `pid`. -/
def Kernel.LastHolder (k : Kernel σ) (pid : Pid) (e : FdEntry) : Prop :=
  0 < k.heldBy pid e ∧ k.counter e = k.heldBy pid e

instance (k : Kernel σ) (pid : Pid) (e : FdEntry) : Decidable (k.LastHolder pid e) :=
  inferInstanceAs (Decidable (_ ∧ _))

/-- The socket's peer is known to be gone. -/
def SocketKind.peerGone : SocketKind → Bool
  | .unixStream _ _ _ _ _ isOpen _ => !isOpen
  | .unixDatagram _ _ _ _ _ isOpen => !isOpen
  | _ => false

/-- From `k` to `k'` process `pid` gave up everything it held. -/
structure Kernel.ExitReleases (kh : Kh σ) (k k' : Kernel σ) (pid : Pid) : Prop where
  /-- no descriptor of the process counts any more -/
  table : ∀ e, e.counted = true → k'.heldBy pid e = 0
  /-- a reader of a drained pipe whose last writer it was sees the end -/
  eof : ∀ id b reader fd cap, reader ≠ pid → k.pipes.get? id = some b → b.bytes = [] →
    k.LastHolder pid (.pipe id .write) → k.fdEntry reader fd = some (.pipe id .read) → fd < 2 ^ 32 →
    (k'.readFd kh reader (leBytes 4 fd) cap).1.rc = 0
  /-- a lock of a file whose last descriptor it held can be taken -/
  lock : ∀ id other mountId inode exclusive, other ≠ id → k.LastHolder pid (.file id) →
    (k.flockLocks.get? (toLex (mountId, inode)) = some (.exclusive id) ∨
      k.flockLocks.get? (toLex (mountId, inode)) = some (.shared [id])) →
    (k'.flockTryAcquire other mountId inode exclusive).isSome = true
  /-- the other end of a connection sees its peer closed -/
  peer : ∀ id s peer q, k.sockets.get? id = some s → k.LastHolder pid (.socket id) →
    s.kind.peer? = some peer → k.sockets.get? peer = some q → q.kind.peer? = some id →
    ¬ k.LastHolder pid (.socket peer) →
    ∃ q', k'.sockets.get? peer = some q' ∧ q'.kind.peerGone = true

/-! ### What `record_exit` does -/

theorem Kernel.heldBy_updProcess (k : Kernel σ) {pid' : Pid} {f : Process → Process}
    (hf : ∀ p, (f p).fdTable = p.fdTable) (hpid' : k.hasProcess pid' = true) (pid : Pid) (e : FdEntry) :
    (k.updProcess pid' f).heldBy pid e = k.heldBy pid e := by
  obtain ⟨p, hp⟩ := SortedMap.contains_iff.mp hpid'
  by_cases h : pid = pid'
  · subst h
    simp [heldBy, updProcess, setProcess, hf, process, hp, Process.ensureMainThread]
  · simp [heldBy, updProcess, setProcess, h]

/-- Every table keeps its entries. -/
theorem Kernel.heldBy_recordExitOf (k : Kernel σ) (pid : Pid) (status : Int) (pid' : Pid)
    (e : FdEntry) : (k.recordExitOf pid status).2.heldBy pid' e = k.heldBy pid' e := by
  unfold recordExitOf
  by_cases hpid : k.hasProcess pid = true
  · have hexit := k.heldBy_updProcess (f := fun p => { p with exitStatus := some status })
      (fun _ => rfl) hpid pid' e
    simp only [hpid, Bool.not_true, Bool.false_eq_true, if_false]
    split_ifs with hparent
    · refine (heldBy_updProcess _ ?_ hparent.2 pid' e).trans hexit
      exact fun _ => rfl
    · exact hexit
  · simp [hpid]

/-- The end of a process releases what it held exactly when it held nothing counted. -/
theorem record_exit_releases_iff (kh : Kh σ) (k : Kernel σ) (pid : Pid) (status : Int) :
    ExitReleases kh k (k.recordExitOf pid status).2 pid ↔ ∀ e, e.counted = true → k.heldBy pid e = 0 := by
  constructor
  · intro h e he
    rw [← k.heldBy_recordExitOf pid status pid e]
    exact h.table e he
  · intro hnone
    -- whoever holds nothing is the last holder of nothing
    have hlast : ∀ e, e.counted = true → ¬ k.LastHolder pid e := by
      rintro e he ⟨hpos, -⟩
      rw [hnone e he] at hpos
      exact absurd hpos (lt_irrefl 0)
    refine ⟨?_, ?_, ?_, ?_⟩
    · intro e he
      rw [k.heldBy_recordExitOf]
      exact hnone e he
    · intro id _ _ _ _ _ _ _ hheld
      exact absurd hheld (hlast _ rfl)
    · intro id _ _ _ _ _ hheld
      exact absurd hheld (hlast _ rfl)
    · intro id _ _ _ _ hheld
      exact absurd hheld (hlast _ rfl)

/-! ### A child that dies with the last writer -/

/-- Process 1 made a pipe (descriptors 3 and 4) and a socket pair (5 and 6) and forked 2; it then
    closed its write end and one socket, and 2 closed the other socket. -/
def Kernel.orphaned : Kernel Unit :=
  let kh := Kh.absent
  let k := (Kernel.new ()).insertHostProcess 1 0 [] none
  let k := (k.pipe 1 8).2
  let k := (k.sysSocketpair kh 1 ([1, 1, 0, 0] ++ leBytes 4 0) 8).2
  let k := (k.prepareFork 1).2
  let k := (k.commitFork 1 2).2
  let k := (k.closeFd kh 1 (leBytes 4 4)).2
  let k := (k.closeFd kh 1 (leBytes 4 6)).2
  (k.closeFd kh 2 (leBytes 4 5)).2

/-- The child exits holding the only write end and the only other socket. Its parent goes on reading
    `EAGAIN` from both, and the child's descriptors still count. -/
theorem exited_child_keeps_pipe_open :
    orphaned.LastHolder 2 (.pipe 1 .write) ∧ orphaned.LastHolder 2 (.socket 2) ∧
    ((orphaned.recordExitOf 2 0).2.readFd Kh.absent 1 (leBytes 4 3) 16).1.rc = -EAGAIN ∧
    ((orphaned.recordExitOf 2 0).2.sysSocketRecv Kh.absent 1 (leBytes 4 5 ++ leBytes 4 0)
      16).1.rc = -EAGAIN ∧
    (orphaned.recordExitOf 2 0).2.heldBy 2 (.pipe 1 .write) = 1 ∧
    ¬ ExitReleases Kh.absent orphaned (orphaned.recordExitOf 2 0).2 2 := by
  refine ⟨by decide, by decide, by decide, by decide, by decide, ?_⟩
  intro h
  have := h.table (.pipe 1 .write) rfl
  revert this
  decide

end Yurt
