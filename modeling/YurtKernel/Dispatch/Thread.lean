import YurtKernel.Kernel.ThreadJoin
import YurtKernel.Kernel.Lifecycle

/-! Thread calls (`dispatch/thread.rs`) and the host's thread exports (`lib.rs`).

    A call that ends a thread's life collects host handles in `pendingThreadReleases`, drains them
    and passes each to `kh_thread_release`; the list of these is part of its result.
    `sys_thread_spawn` runs in two halves, before and after `kh_thread_spawn`, because other calls
    may run while the host is at work. `ThreadWorld` is the kernel together with the spawns that are
    under way and a trace of what happened to threads. -/

namespace Yurt
variable {σ : Type} (k : Kernel σ) (ctx : DispatchContext) (request : Bytes) (pid : Pid)

/-- Who calls, as the host vouches for it. -/
structure DispatchContext where
  callerPid : Pid
  callerTid : Tid
  deriving DecidableEq

/-- Id under which guests see their main thread. -/
def guestMainPthreadId : Nat := 0

/-! ### Handlers -/

def readU32Request : Except Int Nat :=
  if request.length ≠ 4 then .error (-EINVAL) else .ok (u32At request 0)

/-- Return code of a thread operation. -/
def threadRc {α : Type} : Except Int α → Int
  | .ok _ => 0
  | .error errno => -errno

/-- Drain the pending handles after an operation; they are what the call releases. -/
def drainThreadReleases {ρ : Type} (r : ρ × Kernel σ) : (ρ × List Int) × Kernel σ :=
  ((r.1, r.2.pendingThreadReleases), { r.2 with pendingThreadReleases := [] })

/-- `sys_thread_spawn` up to the call of the host: the thread id it asks for. -/
def Kernel.sysThreadSpawnBegin : Except Int Tid × Kernel σ :=
  if request.length ≠ 8 then (.error (-EINVAL), k)
  else
    match k.reserveThreadId ctx.callerPid with
    | (.error errno, k) => (.error (-errno), k)
    | (.ok tid, k) => (.ok tid, k)

/-- `sys_thread_spawn` once the host has answered with `handle`. A thread that cannot be bound is
    cancelled and its handle released. -/
def Kernel.sysThreadSpawnEnd (tid : Tid) (handle : Int) : (Int × List Int) × Kernel σ :=
  if handle < 0 then ((handle, []), (k.rollbackReservedThread pid tid).2)
  else
    match k.bindThreadHandle pid tid (some handle) with
    | (.ok _, k) => ((tid, []), k)
    | (.error errno, k) => ((-errno, [handle]), (k.rollbackReservedThread pid tid).2)

/-- A completed join writes the exit value and returns 0. -/
def joinReply : Except Int Nat → Reply
  | .ok value => ⟨0, [(0, leBytes 4 value)]⟩
  | .error errno => .code (-errno)

namespace Kernel

def sysThreadJoin (cap : Nat) : (Reply × List Int) × Kernel σ :=
  match readU32Request request with
  | .error rc => ((.code rc, []), k)
  | .ok target =>
    if cap < 4 then ((.code (-EINVAL), []), k)
    else
      let r := k.beginThreadJoin ctx.callerPid ctx.callerTid target cap
      drainThreadReleases (joinReply r.1, r.2)

/-- `kernel_detach_thread`. -/
def kernelDetachThread (tid : Tid) : (Int × List Int) × Kernel σ :=
  let r := k.detachThread pid tid
  drainThreadReleases (threadRc r.1, r.2)

def sysThreadDetach : (Int × List Int) × Kernel σ :=
  match readU32Request request with
  | .error rc => ((rc, []), k)
  | .ok target => k.kernelDetachThread ctx.callerPid target

/-- `kernel_record_thread_exit`; the exit value is a word. -/
def kernelRecordThreadExit (tid : Tid) (exitValue : Nat) : (Int × List Int) × Kernel σ :=
  let r := k.exitThreadAuthenticated pid tid exitValue
  drainThreadReleases (threadRc r.1, r.2)

/-- `kernel_record_thread_exit_authenticated`. -/
def kernelRecordThreadExitAuthenticated (tid : Tid) (handle : Int)
    (exitValue : Nat) : (Int × List Int) × Kernel σ :=
  let r := k.recordThreadExitAuthenticated pid tid handle exitValue
  drainThreadReleases (threadRc r.1, r.2)

def sysThreadExit : (Int × List Int) × Kernel σ :=
  match readU32Request request with
  | .error rc => ((rc, []), k)
  | .ok retval => k.kernelRecordThreadExit ctx.callerPid ctx.callerTid retval

/-- The guest's id of a main thread is mapped to the kernel's. -/
def sysThreadCancel : Int × Kernel σ :=
  match readU32Request request with
  | .error rc => (rc, k)
  | .ok target =>
    let r := k.requestThreadCancel ctx.callerPid
      (if target = guestMainPthreadId then mainThreadTid else target)
    (threadRc r.1, r.2)

end Kernel

/-! ### Worlds -/

/-- What happens to threads, as seen from outside the kernel. -/
inductive ThreadNote where
  /-- an id was handed out to a spawn -/
  | reserved (pid : Pid) (tid : Tid)
  /-- `kh_thread_spawn` returned a handle for the thread -/
  | spawned (pid : Pid) (tid : Tid) (handle : Int)
  /-- the thread has its record -/
  | bound (pid : Pid) (tid : Tid)
  /-- the id was given back -/
  | rolledBack (pid : Pid) (tid : Tid)
  | exited (pid : Pid) (tid : Tid)
  /-- a join of the thread completed -/
  | joined (pid : Pid) (tid : Tid)
  | detached (pid : Pid) (tid : Tid)
  /-- `kh_thread_release` was called with the handle by a call of `pid` -/
  | released (pid : Pid) (handle : Int)
  deriving DecidableEq

structure ThreadWorld (σ : Type) where
  kernel : Kernel σ
  /-- ids of the spawns each process has under way -/
  spawning : Pid → List Tid
  /-- what happened, in order -/
  notes : List ThreadNote

/-- A kernel at rest. -/
def ThreadWorld.start : ThreadWorld σ := ⟨k, fun _ => [], []⟩

/-- Go on with another kernel and more notes. -/
def ThreadWorld.after (w : ThreadWorld σ) (k : Kernel σ) (notes : List ThreadNote) : ThreadWorld σ :=
  { w with kernel := k, notes := w.notes ++ notes }

inductive ThreadEvent where
  | spawn (ctx : DispatchContext) (request : Bytes)
  /-- `kh_thread_spawn` returns to the spawn that reserved the id -/
  | spawnReturns (pid : Pid) (tid : Tid) (handle : Int)
  | join (ctx : DispatchContext) (request : Bytes) (cap : Nat)
  | detach (ctx : DispatchContext) (request : Bytes)
  | exit (ctx : DispatchContext) (request : Bytes)
  | cancel (ctx : DispatchContext) (request : Bytes)
  | hostDetach (pid : Pid) (tid : Tid)
  | hostExit (pid : Pid) (tid : Tid) (exitValue : Nat)
  | hostExitAuthenticated (pid : Pid) (tid : Tid) (handle : Int) (exitValue : Nat)
  deriving DecidableEq

/-- Note of a call on one thread: what it did if it succeeded, and the handles it released. -/
def callNotes (note : ThreadNote) (pid : Pid) (r : Int × List Int) : List ThreadNote :=
  (if r.1 = 0 then [note] else []) ++ r.2.map (ThreadNote.released pid)

/-- Notes of a returning spawn. -/
def spawnNotes (tid : Tid) (handle : Int) (r : Int × List Int) : List ThreadNote :=
  if handle < 0 then [.rolledBack pid tid]
  else .spawned pid tid handle ::
    if r.2.isEmpty then [.bound pid tid] else [.released pid handle, .rolledBack pid tid]

def ThreadEvent.step (w : ThreadWorld σ) : ThreadEvent → ThreadWorld σ
  | spawn ctx request =>
    match w.kernel.sysThreadSpawnBegin ctx request with
    | (.error _, k) => w.after k []
    | (.ok tid, k) =>
      { w.after k [.reserved ctx.callerPid tid] with
        spawning := Function.update w.spawning ctx.callerPid (tid :: w.spawning ctx.callerPid) }
  | spawnReturns pid tid handle =>
    -- the host answers only what it was asked
    if tid ∈ w.spawning pid then
      let r := w.kernel.sysThreadSpawnEnd pid tid handle
      { w.after r.2 (spawnNotes pid tid handle r.1) with
        spawning := Function.update w.spawning pid ((w.spawning pid).erase tid) }
    else w
  | join ctx request cap =>
    let r := w.kernel.sysThreadJoin ctx request cap
    w.after r.2 (callNotes (.joined ctx.callerPid (u32At request 0)) ctx.callerPid (r.1.1.rc, r.1.2))
  | detach ctx request =>
    let r := w.kernel.sysThreadDetach ctx request
    w.after r.2 (callNotes (.detached ctx.callerPid (u32At request 0)) ctx.callerPid r.1)
  | exit ctx request =>
    let r := w.kernel.sysThreadExit ctx request
    w.after r.2 (callNotes (.exited ctx.callerPid ctx.callerTid) ctx.callerPid r.1)
  | cancel ctx request => w.after (w.kernel.sysThreadCancel ctx request).2 []
  | hostDetach pid tid =>
    let r := w.kernel.kernelDetachThread pid tid
    w.after r.2 (callNotes (.detached pid tid) pid r.1)
  | hostExit pid tid exitValue =>
    let r := w.kernel.kernelRecordThreadExit pid tid exitValue
    w.after r.2 (callNotes (.exited pid tid) pid r.1)
  | hostExitAuthenticated pid tid handle exitValue =>
    let r := w.kernel.kernelRecordThreadExitAuthenticated pid tid handle exitValue
    w.after r.2 (callNotes (.exited pid tid) pid r.1)

end Yurt
