import YurtKernel.Kernel.State
import YurtKernel.Lib.Run
import YurtKernel.Lib.Rotation

/-! Kernel threads and the scheduler's pick (`kernel.rs`).

    Every operation reads one process record and writes at most two of its thread records, so each
    is written over three accessors: `thread` looks a record up, `setThread` and `eraseThread` write
    one. `ThreadCall` lists the calls a process's threads and its host make; `step` runs one. -/

namespace Yurt
open Kernel SortedMap
variable {σ : Type} (k : Kernel σ) (pid : Pid) (tid : Tid) (handle : Option Int)
variable {d : ScheduleDecision} {r : ThreadRecord} {p : Process}

/-! ### Process records -/

namespace Kernel

/-- Record that `process_mut(pid)` hands out: a default one if `pid` is unknown, with its main
    thread present. -/
def process : Process := ((k.processes.get? pid).getD .default).ensureMainThread none

/-- Store a process record. -/
def setProcess (p : Process) : Kernel σ := { k with processes := k.processes.insert pid p }

/-- `process_mut(pid)` followed by a write to the record. -/
def updProcess (f : Process → Process) : Kernel σ := k.setProcess pid (f (k.process pid))

/-- Write to the record of `pid` if there is one. -/
def modifyProcess (f : Process → Process) : Kernel σ := { k with processes := k.processes.modify pid f }

/-! ### Thread records -/

def thread : Option ThreadRecord := (k.processes.get? pid).bind (fun p => p.threads.get? tid)

def setThread (r : ThreadRecord) : Kernel σ :=
  k.modifyProcess pid (fun p => { p with threads := p.threads.insert tid r })

def eraseThread : Kernel σ := k.modifyProcess pid (fun p => { p with threads := p.threads.erase tid })

/-- Queue a host handle for release. -/
def pushRelease : Kernel σ :=
  match handle with
  | some h => { k with pendingThreadReleases := k.pendingThreadReleases ++ [h] }
  | none => k

theorem thread_eq_some {k : Kernel σ} {pid : Pid} {tid : Tid} : k.thread pid tid = some r ↔
      ∃ p, k.processes.get? pid = some p ∧ p.threads.get? tid = some r := by
  rw [thread, Option.bind_eq_some_iff]

/-- Writing a record of an existing process changes that record only. -/
theorem thread_setThread {k : Kernel σ} {pid : Pid} {tid₀ : Tid} {r₀ : ThreadRecord}
    (h : k.thread pid tid₀ = some r₀) (tid : Tid) (r : ThreadRecord) (pid' : Pid) (tid' : Tid) :
    (k.setThread pid tid r).thread pid' tid' =
      if pid' = pid ∧ tid' = tid then some r else k.thread pid' tid' := by
  obtain ⟨p, hp, -⟩ := thread_eq_some.mp h
  by_cases h1 : pid' = pid
  · subst h1
    by_cases h2 : tid' = tid <;>
      simp [thread, setThread, modifyProcess, hp, h2]
  · simp [thread, setThread, modifyProcess, h1]

theorem thread_eraseThread (pid' : Pid) (tid' : Tid) : (k.eraseThread pid tid).thread pid' tid' =
      if pid' = pid ∧ tid' = tid then none else k.thread pid' tid' := by
  by_cases h1 : pid' = pid
  · subst h1
    by_cases h2 : tid' = tid <;>
      cases hp : k.processes.get? pid' <;>
      simp [thread, eraseThread, modifyProcess, hp, h2]
  · simp [thread, eraseThread, modifyProcess, h1]

theorem thread_setProcess (p : Process) (pid' : Pid) (tid : Tid) : (k.setProcess pid p).thread pid' tid =
      if pid' = pid then p.threads.get? tid else k.thread pid' tid := by
  by_cases h : pid' = pid <;> simp [thread, setProcess, h]

end Kernel

theorem Process.get?_ensureMainThread {tid : Tid} (h : p.threads.get? tid = some r)
    (handle : Option Int) :
    (p.ensureMainThread handle).threads.get? tid = some r := by
  simp only [Process.ensureMainThread]
  split_ifs with hc
  · exact h
  · have ht : tid ≠ 1 := by
      rintro rfl
      exact hc (contains_iff.mpr ⟨r, h⟩)
    rw [get?_insert_ne _ _ ht]; exact h

namespace Kernel

@[simp] theorem thread_pushRelease (pid : Pid) (tid : Tid) :
    (k.pushRelease handle).thread pid tid = k.thread pid tid := by
  cases handle <;> rfl

/-! ### Operations -/

def reserveThreadId : Except Int Tid × Kernel σ :=
  match k.processes.get? pid with
  | none => (.error ESRCH, k)
  | some p =>
    let p := p.ensureMainThread none
    let tid := max p.nextTid firstWorkerTid
    if tid > maxGuestThreadId then (.error EAGAIN, k.setProcess pid p)
    else (.ok tid, k.setProcess pid { p with nextTid := satAdd tid 1 })

def rollbackReservedThread : Except Int Unit × Kernel σ :=
  match k.processes.get? pid with
  | none => (.error ESRCH, k)
  | some p =>
    if p.nextTid = satAdd tid 1 then (.ok (), k.setProcess pid { p with nextTid := tid })
    else (.ok (), k)

def bindThreadHandle : Except Int Unit × Kernel σ :=
  match k.processes.get? pid with
  | none => (.error ESRCH, k)
  | some p =>
    if p.threads.contains tid then (.error EEXIST, k)
    else (.ok (), k.setThread pid tid (.fresh tid handle))

def detachThread : Except Int Unit × Kernel σ :=
  match k.thread pid tid with
  | none => (.error ESRCH, k)
  | some t =>
    if t.detached then (.error EINVAL, k)
    else if t.waiterTid.isSome then (.error EINVAL, k)
    else if t.state = .exited then
      (.ok (), (k.setThread pid tid { t with detached := true, hostThreadHandle := none }).pushRelease
        t.hostThreadHandle)
    else (.ok (), k.setThread pid tid { t with detached := true })

def requestThreadCancel : Except Int Unit × Kernel σ :=
  match k.thread pid tid with
  | none => (.error ESRCH, k)
  | some t =>
    if t.state = .exited then (.error ESRCH, k)
    else (.ok (), k.setThread pid tid { t with cancelRequested := true })

end Kernel

/-- The record of a waiter once its target has exited. -/
def ThreadRecord.wake (t : ThreadRecord) : ThreadRecord := { t with state := .runnable, waitReason := none }

/-- Wake the registered waiter of an exiting thread. -/
def Kernel.wakeWaiter (waiter : Option Tid) : Kernel σ :=
  match waiter with
  | none => k
  | some w =>
    match k.thread pid w with
    | none => k
    | some r => k.setThread pid w r.wake

/-- A detached thread nobody waits for gives its host handle back when it exits. -/
def ThreadRecord.releasesOnExit (t : ThreadRecord) : Bool := t.detached && t.waiterTid.isNone

def ThreadRecord.exit (t : ThreadRecord) (exitValue : Nat) : ThreadRecord :=
  { t with
    state := .exited
    exitValue := some exitValue
    waitReason := none
    hostThreadHandle := if t.releasesOnExit then none else t.hostThreadHandle }

namespace Kernel

def exitThreadAuthenticated (exitValue : Nat) : Except Int (Option Tid) × Kernel σ :=
  match k.thread pid tid with
  | none => (.error ESRCH, k)
  | some t =>
    let k := (k.setThread pid tid (t.exit exitValue)).wakeWaiter pid t.waiterTid
    (.ok t.waiterTid, k.pushRelease (if t.releasesOnExit then t.hostThreadHandle else none))

def recordThreadExitAuthenticated (handle : Int)
    (exitValue : Nat) : Except Int (Option Tid) × Kernel σ :=
  match k.thread pid tid with
  | none => (.error ESRCH, k)
  | some t =>
    if t.hostThreadHandle ≠ some handle then (.error EPERM, k)
    else k.exitThreadAuthenticated pid tid exitValue

/-- `begin_thread_join` with a return buffer of `cap` bytes; `ok v` is a completed join that wrote
    `v`. -/
def beginThreadJoin (waiter target : Tid) (cap : Nat) : Except Int Nat × Kernel σ :=
  if cap < 4 then (.error EINVAL, k)
  else if waiter = target then (.error EDEADLK, k)
  else
    match k.thread pid target with
    | none => (.error ESRCH, k)
    | some t =>
      if t.detached then (.error EINVAL, k)
      else if t.state = .exited then
        (.ok (t.exitValue.getD 0), (k.pushRelease t.hostThreadHandle).eraseThread pid target)
      else if t.waiterTid.isSome then (.error EBUSY, k)
      else
        match k.thread pid waiter with
        | none => (.error ESRCH, k)
        | some w =>
          (.error EAGAIN, (k.setThread pid target { t with waiterTid := some waiter }).setThread pid waiter
              { w with state := .blocked, waitReason := some (.threadJoin target) })

def blockThread : Option Unit × Kernel σ :=
  match k.thread pid tid with
  | none => (none, k)
  | some t =>
    if t.state ≠ .exited then
      (some (), k.setThread pid tid { t with state := .blocked, waitReason := some .hostBlock })
    else (some (), k)

def unblockThread : Option Unit × Kernel σ :=
  match k.thread pid tid with
  | none => (none, k)
  | some t =>
    if t.state = .blocked then
      (some (), k.setThread pid tid { t with state := .runnable, waitReason := none })
    else (some (), k)

/-! ### What an exit writes -/

theorem thread_wakeWaiter (waiter : Option Tid) (pid' : Pid)
    (tid : Tid) : (k.wakeWaiter pid waiter).thread pid' tid =
      if pid' = pid ∧ waiter = some tid then (k.thread pid' tid).map ThreadRecord.wake
      else k.thread pid' tid := by
  cases waiter with
  | none => simp [wakeWaiter]
  | some w =>
    simp only [wakeWaiter, Option.some.injEq]
    cases hw : k.thread pid w with
    | none =>
      split_ifs with h
      · obtain ⟨rfl, rfl⟩ := h
        simp [hw]
      · rfl
    | some r =>
      simp only [thread_setThread hw]
      by_cases h : pid' = pid ∧ tid = w
      · obtain ⟨rfl, rfl⟩ := h
        simp [hw]
      · rw [if_neg h, if_neg (fun hh => h ⟨hh.1, hh.2.symm⟩)]

/-- An exit report marks its thread and wakes the registered waiter; no other record changes. -/
theorem thread_exitThreadAuthenticated {k : Kernel σ} {pid : Pid} {tid : Tid}
    {t : ThreadRecord} (h : k.thread pid tid = some t) (exitValue : Nat) (pid' : Pid) (tid' : Tid) :
    (k.exitThreadAuthenticated pid tid exitValue).2.thread pid' tid' =
      if pid' = pid ∧ t.waiterTid = some tid' then
        (if tid' = tid then some (t.exit exitValue) else k.thread pid' tid').map ThreadRecord.wake
      else if pid' = pid ∧ tid' = tid then some (t.exit exitValue)
      else k.thread pid' tid' := by
  simp only [exitThreadAuthenticated, h, thread_pushRelease, thread_wakeWaiter, thread_setThread h]
  by_cases hp : pid' = pid <;> simp [hp]

end Kernel

/-! ### Scheduling -/

structure ScheduleDecision where
  pid : Pid
  tid : Tid
  hostThreadHandle : Option Int
  budgetNs : Nat
  deriving DecidableEq

def schedulerBudgetNs (nice : Int) : Nat :=
  let clamped := max (-20) (min nice 19)
  let budgetMs := max 1 (min (20 - clamped) 40)
  budgetMs.toNat * 1000000

/-- Runnable threads of one process, in tid order. -/
def Process.runnable (pid : Pid) (p : Process) : List ScheduleDecision :=
  p.threads.toList.filterMap (fun e =>
    if e.2.state = .runnable then
      some ⟨pid, e.1, e.2.hostThreadHandle, schedulerBudgetNs p.nice⟩
    else none)

/-- `list_runnable_threads`: skips a fork child that is not committed. -/
def Kernel.listRunnableThreads : List (Pid × Tid) :=
  (k.processes.toList.filter (fun e => e.2.forkState = .running)).flatMap
    (fun e => (e.2.runnable e.1).map (fun d => (d.pid, d.tid)))

/-- The list `schedule_next` rotates over: runnable threads of every record. -/
def Kernel.schedulable : List ScheduleDecision := k.processes.toList.flatMap (fun e => e.2.runnable e.1)

theorem Process.mem_runnable {pid : Pid} :
    d ∈ p.runnable pid ↔ ∃ r, p.threads.get? d.tid = some r ∧ r.state = .runnable ∧
      d = ⟨pid, d.tid, r.hostThreadHandle, schedulerBudgetNs p.nice⟩ := by
  rw [Process.runnable, List.mem_filterMap]
  constructor
  · rintro ⟨⟨tid, r⟩, he, hd⟩
    simp only [Option.ite_none_right_eq_some, Option.some.injEq] at hd
    obtain ⟨hs, rfl⟩ := hd
    exact ⟨r, mem_toList.mp he, hs, rfl⟩
  · rintro ⟨r, hr, hs, hd⟩
    refine ⟨(d.tid, r), mem_toList.mpr hr, ?_⟩
    rw [if_pos hs, ← hd]

/-- The scheduler rotates over the runnable threads of all records, whatever their fork state. -/
theorem Kernel.mem_schedulable {k : Kernel σ} :
    d ∈ k.schedulable ↔ ∃ p r, k.processes.get? d.pid = some p ∧ p.threads.get? d.tid = some r ∧
      r.state = .runnable ∧ d = ⟨d.pid, d.tid, r.hostThreadHandle, schedulerBudgetNs p.nice⟩ := by
  rw [schedulable, List.mem_flatMap]
  constructor
  · rintro ⟨⟨pid, p⟩, he, hd⟩
    obtain ⟨r, hr, hs, hd⟩ := Process.mem_runnable.mp hd
    have hpid : d.pid = pid := by rw [hd]
    subst hpid
    exact ⟨p, r, mem_toList.mp he, hr, hs, hd⟩
  · rintro ⟨p, r, hp, hr, hs, hd⟩
    exact ⟨(d.pid, p), mem_toList.mpr hp, Process.mem_runnable.mpr ⟨r, hr, hs, hd⟩⟩

/-- Place of a thread in the scheduler's order: by process, then by thread id. -/
def ScheduleDecision.key (d : ScheduleDecision) : Pid ×ₗ Tid := toLex (d.pid, d.tid)

/-- The pick rotates to the entry after the last one handed out, and starts over at the front when
    that one is no longer runnable. -/
def Kernel.scheduleNext : Option ScheduleDecision × Kernel σ :=
  let index := Rotation.nextIndex (k.schedulable.map ScheduleDecision.key)
    (k.lastScheduled.map toLex)
  match k.schedulable[index]? with
  | none => (none, { k with lastScheduled := none })
  | some d => (some d, { k with lastScheduled := some (d.pid, d.tid) })

theorem Kernel.scheduleNext_mem {k : Kernel σ} (h : k.scheduleNext.1 = some d) : d ∈ k.schedulable := by
  simp only [scheduleNext] at h
  split at h
  · cases h
  · next d' hd => exact Option.some.inj h ▸ List.mem_of_getElem? hd

@[simp] theorem Kernel.scheduleNext_processes : k.scheduleNext.2.processes = k.processes := by
  simp only [scheduleNext]
  split <;> rfl

@[simp] theorem Kernel.scheduleNext_thread : k.scheduleNext.2.thread pid tid = k.thread pid tid := by
  simp only [thread, scheduleNext_processes]

/-! ### Calls -/

inductive ThreadCall where
  | reserve (pid : Pid)
  | bind (pid : Pid) (tid : Tid) (handle : Option Int)
  | join (pid : Pid) (waiter target : Tid) (cap : Nat)
  | exit (pid : Pid) (tid : Tid) (exitValue : Nat)
  | recordExit (pid : Pid) (tid : Tid) (handle : Int) (exitValue : Nat)
  | detach (pid : Pid) (tid : Tid)
  | cancel (pid : Pid) (tid : Tid)
  | block (pid : Pid) (tid : Tid)
  | unblock (pid : Pid) (tid : Tid)
  | schedule
  deriving DecidableEq

def ThreadCall.step : ThreadCall → Kernel σ
  | reserve pid => (k.reserveThreadId pid).2
  | bind pid tid handle => (k.bindThreadHandle pid tid handle).2
  | join pid waiter target cap => (k.beginThreadJoin pid waiter target cap).2
  | exit pid tid exitValue => (k.exitThreadAuthenticated pid tid exitValue).2
  | recordExit pid tid handle exitValue =>
    (k.recordThreadExitAuthenticated pid tid handle exitValue).2
  | detach pid tid => (k.detachThread pid tid).2
  | cancel pid tid => (k.requestThreadCancel pid tid).2
  | block pid tid => (k.blockThread pid tid).2
  | unblock pid tid => (k.unblockThread pid tid).2
  | schedule => k.scheduleNext.2

end Yurt
