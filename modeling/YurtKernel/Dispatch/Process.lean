import YurtKernel.Kernel.Lifecycle

/-! Calls on another process (`dispatch/process.rs`): signals, priorities, scheduler parameters,
    process groups and sessions.

    The caller's pid is vouched for by the host; the target pid comes from the request bytes.
    `maySignal` and `mayControlPid` are the two authority checks. -/

namespace Yurt
variable {σ : Type} (k : Kernel σ) (caller : Pid) (request : Bytes) (pid : Pid)

def sigcont : Nat := 18

/-! ### Authority -/

/-- Session of a record; a process that never set one is its own. -/
def Process.session (p : Process) : Pid := if p.sid = 0 then pid else p.sid

/-- Process group of a record, likewise. -/
def Process.group (p : Process) : Pid := if p.pgid = 0 then pid else p.pgid

/-- The caller's real or effective uid is the target's real or saved one, or the caller is root, or
    the signal is `SIGCONT` within one session. -/
def Process.maySignal (c t : Process) (sig : Nat) : Prop :=
  c.credentials.euid = 0 ∨ c.credentials.euid = t.credentials.uid ∨
  c.credentials.euid = t.credentials.suid ∨ c.credentials.uid = t.credentials.uid ∨
  c.credentials.uid = t.credentials.suid ∨ (sig = sigcont ∧ c.sid ≠ 0 ∧ c.sid = t.sid)

instance (c t : Process) (sig : Nat) : Decidable (c.maySignal t sig) := by
  unfold Process.maySignal; infer_instance

def Kernel.maySignal (k : Kernel σ) (caller target : Pid) (sig : Nat) : Except Int Unit × Kernel σ :=
  if caller = target then (.ok (), k)
  else
    let k := k.touch caller
    match k.processes.get? target with
    | none => (.error (-ESRCH), k)
    | some t => if (k.process caller).maySignal t sig then (.ok (), k) else (.error (-EPERM), k)

/-- Self, root, or the caller's effective uid is the target's real or effective one. -/
def Kernel.mayControlPid (caller target : Pid) : Except Int Unit × Kernel σ :=
  if caller = target then (.ok (), k)
  else
    let k := k.touch caller
    let euid := (k.process caller).credentials.euid
    if euid = 0 then (.ok (), k)
    else
      match k.processes.get? target with
      | none => (.error (-ESRCH), k)
      | some t =>
        if euid = t.credentials.uid ∨ euid = t.credentials.euid then (.ok (), k)
        else (.error (-EPERM), k)

/-- `process_existing_mut`: the record if there is one, with its main thread put in. -/
def Kernel.processExistingMut : Option Process × Kernel σ :=
  match k.processes.get? pid with
  | none => (none, k)
  | some p => (some (p.ensureMainThread none), k.setProcess pid (p.ensureMainThread none))

/-- The record a call works on: the caller's own is made if need be, another one must exist. -/
def Kernel.targetProcess (caller target : Pid) : Option Process × Kernel σ :=
  if target = caller then (some (k.process target), k.touch target) else k.processExistingMut target

/-! ### Priorities -/

def normalizeNice (nice : Int) : Int := max (-20) (min nice 19)

namespace Kernel

/-- `setpriority(which, who, nice)`. The target record is fetched before the check. -/
def setpriority : Int × Kernel σ :=
  match readU32Args 2 request with
  | some [which, who] =>
    if request.length < 12 then (-EINVAL, k)
    else if which ≠ 0 then (-EINVAL, k)
    else
      let target := if who = 0 then caller else who
      let requested := normalizeNice (i32At request 8)
      let k := k.touch caller
      let euid := (k.process caller).credentials.euid
      match k.targetProcess caller target with
      | (none, k) => (-ESRCH, k)
      | (some t, k) =>
        if target ≠ caller ∧ euid ≠ 0 ∧ euid ≠ t.credentials.uid ∧ euid ≠ t.credentials.euid then
          (-EPERM, k)
        else if requested < t.nice ∧ euid ≠ 0 then (-EPERM, k)
        else (0, k.setProcess target { t with nice := requested })
  | _ => (-EINVAL, k)

/-! ### Resource limits -/

/-- `setrlimit(resource, soft, hard)`: a hard limit never goes up. -/
def setrlimit : Int × Kernel σ :=
  if request.length < 20 then (-EINVAL, k)
  else
    let soft := u64At request 4
    let hard := u64At request 12
    if hslot : u32At request 0 < 8 then
      if soft > hard then (-EINVAL, k)
      else
        match (k.process caller).rlimits ⟨u32At request 0, hslot⟩ with
        | none => (-EINVAL, k.touch caller)
        | some (_, prevHard) =>
          if hard > prevHard then (-EPERM, k.touch caller)
          else (0, k.updProcess caller (fun p => { p with
            rlimits := Function.update p.rlimits ⟨u32At request 0, hslot⟩ (some (soft, hard)) }))
    else (-EINVAL, k)

/-! ### Scheduler parameters -/

/-- Shared prelude of the `sched_*` calls: 0 is the caller, another target must exist and be under
    the caller's control. -/
def schedTarget (caller pid : Pid) : Except Int Pid × Kernel σ :=
  let target := if pid = 0 then caller else pid
  if target ≠ caller ∧ !k.hasProcess target then (.error (-ESRCH), k)
  else
    match k.mayControlPid caller target with
    | (.error rc, k) => (.error rc, k)
    | (.ok _, k) => (.ok target, k)

end Kernel

/-- Only the default policy with priority 0 is accepted. -/
def validateScheduler (policy priority : Int) : Except Int Unit :=
  if policy ≠ 0 then .error (-EPERM) else if priority ≠ 0 then .error (-EINVAL) else .ok ()

namespace Kernel

def schedSetscheduler : Int × Kernel σ :=
  match readU32Args 1 request with
  | some [pid] =>
    if request.length < 12 then (-EINVAL, k)
    else
      match k.schedTarget caller pid with
      | (.error rc, k) => (rc, k)
      | (.ok target, k) =>
        match validateScheduler (i32At request 4) (i32At request 8) with
        | .error rc => (rc, k)
        | .ok _ => (0, k.updProcess target (fun p =>
            { p with schedulerPolicy := i32At request 4, schedulerPriority := i32At request 8 }))
  | _ => (-EINVAL, k)

def schedSetparam : Int × Kernel σ :=
  match readU32Args 1 request with
  | some [pid] =>
    if request.length < 8 then (-EINVAL, k)
    else
      match k.schedTarget caller pid with
      | (.error rc, k) => (rc, k)
      | (.ok target, k) =>
        match validateScheduler (k.process target).schedulerPolicy (i32At request 4) with
        | .error rc => (rc, k.touch target)
        | .ok _ => (0, k.updProcess target (fun p => { p with schedulerPriority := i32At request 4 }))
  | _ => (-EINVAL, k)

/-! ### Process groups and sessions -/

/-- `process_group_session`: session of the first live member of a group. -/
def processGroupSession (pgid : Pid) : Option Pid :=
  (k.processes.toList.find? (fun e =>
    e.2.forkState = .running ∧ e.2.exitStatus = none ∧ e.2.group e.1 = pgid)).map
    (fun e => e.2.session e.1)

/-- `process_group_member_pids`: live members of a group. -/
def processGroupMemberPids (pgid : Pid) : List Pid :=
  (k.processes.toList.filter (fun e =>
    e.2.forkState = .running ∧ e.2.exitStatus = none ∧ e.2.group e.1 = pgid)).map Prod.fst

/-- Return an id of the target, storing it first if the record had none. -/
def primedId (value : Pid → Process → Pid) (store : Process → Pid → Process) (k : Kernel σ)
    (caller : Pid) (request : Bytes) : Int × Kernel σ :=
  match readU32Args 1 request with
  | some [arg] =>
    let target := if arg = 0 then caller else arg
    match k.targetProcess caller target with
    | (none, k) => (-ESRCH, k)
    | (some p, k) => (value target p, k.setProcess target (store p (value target p)))
  | _ => (-EINVAL, k)

def getpgid : Pid → Bytes → Int × Kernel σ :=
  k.primedId Process.group (fun p pgid => { p with pgid := pgid })

def getsid : Pid → Bytes → Int × Kernel σ := k.primedId Process.session (fun p sid => { p with sid := sid })

/-- The target's record as `setpgid` first looks at it. -/
def setpgidTarget (caller target : Pid) : Option Process × Kernel σ :=
  if target = caller then (some (k.process target), k.touch target)
  else (k.processes.get? target, k)

/-- `setpgid(pid, pgid)`: a session leader stays, and the new group is the target's own or one of its
    session. -/
def setpgid : Int × Kernel σ :=
  match readU32Args 2 request with
  | some [targetArg, pgidArg] =>
    let target := if targetArg = 0 then caller else targetArg
    let newPgid := if pgidArg = 0 then target else pgidArg
    match k.setpgidTarget caller target with
    | (none, k) => (-ESRCH, k)
    | (some t, k) =>
      if t.sid = target then (-EPERM, k)
      else if newPgid ≠ target ∧ k.processGroupSession newPgid ≠ some (t.session target) then
        (-EPERM, k)
      else
        match k.targetProcess caller target with
        | (none, k) => (-ESRCH, k)
        | (some p, k) => (0, k.setProcess target { p with pgid := newPgid })
  | _ => (-EINVAL, k)

end Kernel

/-! ### Signals -/

/-- Add a signal to a pending mask. -/
def Process.raise (sig : Nat) (p : Process) : Process :=
  { p with pendingSignals := p.pendingSignals ||| 2 ^ (sig - 1) }

namespace Kernel

def killPid (target : Pid) (sig : Nat) : Int × Kernel σ :=
  if sig > 64 then (-EINVAL, k)
  else if !k.hasProcess target then (-ESRCH, k)
  else if sig = 0 then (0, k)
  else (0, k.updProcess target (Process.raise sig))

/-- `kill(pid, sig)`. -/
def killRequest : Int × Kernel σ :=
  match readU32Args 2 request with
  | some [target, sig] =>
    if sig > 64 then (-EINVAL, k)
    else
      match k.maySignal caller target sig with
      | (.error rc, k) => (rc, k)
      | (.ok _, k) => k.killPid target sig
  | _ => (-EINVAL, k)

/-- Members the caller may signal; asking touches the caller's record. -/
def permitted (caller : Pid) (sig : Nat) : List Pid → Kernel σ → List Pid × Kernel σ
  | [], k => ([], k)
  | m :: ms, k =>
    match k.maySignal caller m sig with
    | (.error _, k) => Kernel.permitted caller sig ms k
    | (.ok _, k) =>
      let rest := Kernel.permitted caller sig ms k
      (m :: rest.1, rest.2)

/-- Group a `killpg` request names; 0 is the caller's, which is stored if it was unset. -/
def killpgGroup (caller pgidArg : Pid) : Pid × Kernel σ :=
  if pgidArg = 0 then
    let p := k.process caller
    (p.group caller, k.setProcess caller { p with pgid := p.group caller })
  else (pgidArg, k)

/-- `killpg(pgid, sig)`: lands on the members the caller may signal. -/
def killpgRequest : Int × Kernel σ :=
  match readU32Args 2 request with
  | some [pgidArg, sig] =>
    if sig > 64 then (-EINVAL, k)
    else
      let (pgid, k) := k.killpgGroup caller pgidArg
      let members := k.processGroupMemberPids pgid
      if members.isEmpty then (-ESRCH, k)
      else
        let (targets, k) := Kernel.permitted caller sig members k
        if targets.isEmpty then (-EPERM, k)
        else if sig = 0 then (0, k)
        else (0, targets.foldl (fun k m => k.updProcess m (Process.raise sig)) k)
  | _ => (-EINVAL, k)

/-- `sigqueue(pid, sig, value)`. -/
def sigqueue : Int × Kernel σ :=
  if request.length < 12 then (-EINVAL, k)
  else
    let target := u32At request 0
    let sig := u32At request 4
    if sig > 64 then (-EINVAL, k)
    else
      match k.maySignal caller target sig with
      | (.error rc, k) => (rc, k)
      | (.ok _, k) =>
        if sig = 0 then (0, k)
        else if (k.process target).pendingRt.length ≥ kernelRtSignalQueueCap then
          (-EAGAIN, k.touch target)
        else (0, k.updProcess target (fun p =>
          { p with pendingRt := p.pendingRt ++ [⟨sig, i32At request 8, caller⟩] }))

end Kernel

/-! ### Calls -/

/-- The calls of one process on another. -/
inductive ControlCall where
  | kill | killpg | sigqueue | setpriority | schedSetscheduler | schedSetparam
  | setpgid | getpgid | getsid
  deriving DecidableEq

def ControlCall.run : ControlCall → Int × Kernel σ
  | kill => k.killRequest caller request
  | killpg => k.killpgRequest caller request
  | sigqueue => k.sigqueue caller request
  | setpriority => k.setpriority caller request
  | schedSetscheduler => k.schedSetscheduler caller request
  | schedSetparam => k.schedSetparam caller request
  | setpgid => k.setpgid caller request
  | getpgid => k.getpgid caller request
  | getsid => k.getsid caller request

end Yurt
