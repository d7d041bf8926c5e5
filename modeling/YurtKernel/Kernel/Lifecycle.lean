import YurtKernel.Kernel.Refs
import YurtKernel.Kernel.Wire

/-! Processes coming and going (`kernel.rs`, `dispatch/process.rs`).

    A fork runs in two halves: `prepareFork` clones the parent into a record that is
    `forkPreparing`, and the host then commits it or rolls it back. `recordExit` is the host telling
    the kernel that a process is gone; `waitResponse` reaps it. -/

namespace Yurt
open Kernel SortedMap
variable {σ : Type} (k : Kernel σ) (pid : Pid)

/-- `process_mut(pid)` for reading: the record exists afterwards, with its main thread. -/
def Kernel.touch : Kernel σ := k.updProcess pid id

def Kernel.hasProcess : Bool := k.processes.contains pid

/-- Append a child that is not listed yet. -/
def pushChild (children : List Pid) (child : Pid) : List Pid :=
  if children.contains child then children else children ++ [child]

/-! ### Records after a write -/

@[simp] theorem Kernel.get?_setProcess (p : Process) (t : Pid) :
    (k.setProcess pid p).processes.get? t = if t = pid then some p else k.processes.get? t := by
  rw [setProcess, get?_insert]

theorem Process.ensureMainThread_idem (p : Process) (handle : Option Int) :
    (p.ensureMainThread handle).ensureMainThread handle = p.ensureMainThread handle := by
  by_cases hc : p.threads.contains 1 = true
  · simp [Process.ensureMainThread, hc]
  · have hc' : (p.threads.insert 1 (.main handle)).contains 1 = true :=
      contains_iff.mpr ⟨_, get?_insert_self _ _ _⟩
    simp [Process.ensureMainThread, hc, hc']

theorem Kernel.process_updProcess (f : Process → Process) :
    (k.updProcess pid f).process pid = (f (k.process pid)).ensureMainThread none := by
  simp [updProcess, process]

@[simp] theorem Kernel.process_touch : (k.touch pid).process pid = k.process pid := by
  simp [touch, updProcess, process, Process.ensureMainThread_idem]

theorem Kernel.get?_updProcess_ne {pid t : Pid} (h : t ≠ pid) (k : Kernel σ) (f : Process → Process) :
    (k.updProcess pid f).processes.get? t = k.processes.get? t := by
  simp [updProcess, h]

theorem Kernel.get?_touch_ne {pid t : Pid} (h : t ≠ pid) (k : Kernel σ) :
    (k.touch pid).processes.get? t = k.processes.get? t := k.get?_updProcess_ne h id

/-! ### Pid allocation -/

/-- The allocator's loop: `tries` candidates from `next` on, wrapping to 1 at 1000. Returns the first
    free one and the counter after it. -/
def hostPidSearch (taken : Pid → Bool) : Nat → Pid → Option Pid × Pid
  | 0, next => (none, next)
  | tries + 1, next =>
    let pid := if next ≥ 1000 then 1 else next
    if taken pid then hostPidSearch taken tries (satAdd pid 1) else (some pid, satAdd pid 1)

def Kernel.tryAllocHostPid : Option Pid × Kernel σ :=
  let found := hostPidSearch k.hasProcess 999 k.nextHostPid
  (found.1, { k with nextHostPid := found.2 })

def Kernel.releaseHostPidReservation : Kernel σ :=
  if 1 ≤ pid ∧ pid < 1000 ∧ !k.hasProcess pid then { k with nextHostPid := pid } else k

/-- Successor in the range of `sys_spawn` pids. -/
def nextSpawnCandidate : Pid := if pid = u32Max then 1000 else pid + 1

/-- The loop of `try_alloc_spawn_pid`; it has come round after as many steps as the range has pids. -/
def spawnPidSearch (taken : Pid → Bool) (first : Pid) : Nat → Pid → Option Pid
  | 0, _ => none
  | tries + 1, pid =>
    if !taken pid then some pid
    else if nextSpawnCandidate pid = first then none
    else spawnPidSearch taken first tries (nextSpawnCandidate pid)

def Kernel.tryAllocSpawnPid : Option Pid × Kernel σ :=
  let first := max k.nextSpawnPid 1000
  match spawnPidSearch k.hasProcess first (u32Max - 999) first with
  | none => (none, k)
  | some pid => (some pid, { k with nextSpawnPid := nextSpawnCandidate pid })

theorem hostPidSearch_free {taken : Pid → Bool} {tries next pid next' : Nat}
    (h : hostPidSearch taken tries next = (some pid, next')) : taken pid = false := by
  induction tries generalizing next with
  | zero => simp [hostPidSearch] at h
  | succ tries ih =>
    rw [hostPidSearch] at h
    generalize (if next ≥ 1000 then 1 else next) = candidate at h
    rcases hc : taken candidate with _ | _
    · rw [hc] at h
      obtain ⟨hpid, -⟩ := Prod.mk.inj h
      exact Option.some.inj hpid ▸ hc
    · rw [hc] at h
      exact ih h

theorem spawnPidSearch_free {taken : Pid → Bool} {first tries pid pid' : Nat}
    (h : spawnPidSearch taken first tries pid = some pid') : taken pid' = false := by
  induction tries generalizing pid with
  | zero => simp [spawnPidSearch] at h
  | succ tries ih =>
    rw [spawnPidSearch] at h
    split_ifs at h with h1 h2
    · cases h
      simpa using h1
    · exact ih h

/-! ### Fork -/

/-- The record a prepared child starts with. -/
def Process.forkChild (parent : Process) (parentPid : Pid) : Process :=
  { parent with
    ppid := parentPid
    children := []
    exitStatus := none
    hostInstanceHandle := none
    pendingSignals := 0
    pendingRt := []
    stdinBuffer := []
    stdoutBuffer := []
    stderrBuffer := []
    threads := SortedMap.empty.insert mainThreadTid (.main none)
    nextTid := firstWorkerTid
    forkState := .forkPreparing parentPid }

def Kernel.prepareFork (parentPid : Pid) : Except Int Pid × Kernel σ :=
  match k.processes.get? parentPid with
  | none => (.error ESRCH, k)
  | some parent =>
    if parent.forkState ≠ .running ∨ parent.exitStatus.isSome then (.error ESRCH, k)
    else if 1 < parent.threads.size then (.error EAGAIN, k)
    else
      match k.tryAllocHostPid with
      | (none, k) => (.error EAGAIN, k)
      | (some childPid, k) =>
        let k := parent.fdTable.entries.values.foldl Kernel.incFdEntryRef k
        (.ok childPid, k.setProcess childPid (parent.forkChild parentPid))

def Kernel.commitFork (parentPid childPid : Pid) : Except Int Unit × Kernel σ :=
  match k.processes.get? childPid with
  | none => (.error ESRCH, k)
  | some child =>
    if child.forkState ≠ .forkPreparing parentPid then (.error EINVAL, k)
    else
      let k := k.setProcess childPid { child with forkState := .running }
      match k.processes.get? parentPid with
      | none => (.error ESRCH, k)
      | some parent =>
        (.ok (), k.setProcess parentPid { parent with children := pushChild parent.children childPid })

def Kernel.rollbackFork (kh : Kh σ) (k : Kernel σ) (parentPid childPid : Pid) :
    Except Int Unit × Kernel σ :=
  match k.processes.get? childPid with
  | none => (.error ESRCH, k)
  | some child =>
    if child.forkState ≠ .forkPreparing parentPid then (.error EINVAL, k)
    else
      let k := { k with processes := k.processes.erase childPid }
      let k := child.fdTable.entries.values.foldl (Kernel.decFdEntryRef kh) k
      let k := k.modifyProcess parentPid
        (fun p => { p with children := p.children.filter (fun pid => pid ≠ childPid) })
      (.ok (), k.releaseHostPidReservation childPid)

/-! ### Processes started by the host -/

def Kernel.insertHostProcess (pid parentPid : Pid) (argv : List Bytes)
    (handle : Option Int) : Kernel σ :=
  let inherited := match k.processes.get? parentPid with
    | some p => (p.nice, p.schedulerPolicy, p.schedulerPriority)
    | none => (0, 0, 0)
  let k := k.updProcess pid (fun p =>
    { p with
      ppid := parentPid
      argv := argv
      nice := inherited.1
      schedulerPolicy := inherited.2.1
      schedulerPriority := inherited.2.2
      hostInstanceHandle := handle
      threads := SortedMap.empty.insert 1 (.main handle)
      nextTid := 2 })
  if parentPid ≠ 0 then
    k.modifyProcess parentPid (fun p => { p with children := pushChild p.children pid })
  else k

/-- `parse_argv_records`: length-prefixed strings up to the end of the request. -/
def parseArgvRecords : Nat → Bytes → Except Int (List Bytes)
  | 0, _ => .ok []
  | _ + 1, [] => .ok []
  | fuel + 1, request =>
    if request.length < 4 then .error (-EINVAL)
    else
      let len := u32At request 0
      let rest := request.drop 4
      if rest.length < len then .error (-EINVAL)
      else
        match parseArgvRecords fuel (rest.drop len) with
        | .error rc => .error rc
        | .ok argv => .ok (rest.take len :: argv)

/-- `spawn_cached_process`: reserve a low pid, ask the host for an instance, then register it. -/
def Kernel.spawnCachedProcess (kh : Kh σ) (k : Kernel σ) (parentPid : Pid)
    (moduleId argvRequest : Bytes) : Int × Kernel σ :=
  match parseArgvRecords (argvRequest.length + 1) argvRequest with
  | .error rc => (rc, k)
  | .ok argv =>
    match k.tryAllocHostPid with
    | (none, k) => (-EAGAIN, k)
    | (some pid, k) =>
      let context := leBytes 2 1 ++ leBytes 2 0 ++ leBytes 4 pid ++
        leBytes 4 argvRequest.length ++ argvRequest
      let (handle, host) := kh.spawnProcess k.host moduleId context
      let k := { k with host := host }
      if handle < 0 then (handle, k.releaseHostPidReservation pid)
      else (pid, k.insertHostProcess pid parentPid argv (some handle))

/-! ### Exit and wait -/

/-- `record_exit(pid, status)` on the decoded request. -/
def Kernel.recordExitOf (status : Int) : Int × Kernel σ :=
  if !k.hasProcess pid then (-ESRCH, k)
  else
    let k := k.updProcess pid (fun p => { p with exitStatus := some status })
    let ppid := (k.process pid).ppid
    if ppid ≠ 0 ∧ k.hasProcess ppid then
      -- the parent sees SIGCHLD
      (0, k.updProcess ppid (fun p => { p with pendingSignals := p.pendingSignals ||| 2 ^ 16 }))
    else (0, k)

def Kernel.recordExit (request : Bytes) : Int × Kernel σ :=
  if request.length < 8 then (-EINVAL, k)
  else k.recordExitOf (u32At request 0) (i32At request 4)

/-- First exited child among the candidates; each one looked at is touched. -/
def Kernel.findExited : List Pid → Kernel σ → Option (Pid × Int) × Kernel σ
  | [], k => (none, k)
  | c :: cs, k =>
    match (k.process c).exitStatus with
    | some status => (some (c, status), k.touch c)
    | none => Kernel.findExited cs (k.touch c)

def Kernel.waitResponse (callerPid : Pid) (request : Bytes) (cap : Nat) : Reply × Kernel σ :=
  match readU32Args 2 request with
  | some [wantPid, _] =>
    if cap < 8 then (.code (-EINVAL), k)
    else
      let k := k.touch callerPid
      let children := (k.process callerPid).children
      let candidates := if wantPid = 0 then children
        else if children.contains wantPid then [wantPid] else []
      if candidates.isEmpty then (.code (-ECHILD), k)
      else
        match findExited candidates k with
        | (none, k) => (.code (-EAGAIN), k)
        | (some (pid, status), k) =>
          let k := k.updProcess callerPid
            (fun p => { p with children := p.children.filter (fun c => c ≠ pid) })
          (.data (leBytes 4 pid ++ leBytes 4 (ofI32 status)), k)
  | _ => (.code (-EINVAL), k)

end Yurt
