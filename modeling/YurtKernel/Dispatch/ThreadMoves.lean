import YurtKernel.Dispatch.Thread

/-! What one event can do to the threads of a world.

    An event is about one thread at most: an id is handed out or given back, a thread gets its
    record, exits, is detached or joined. `Move` lists these with the notes they leave; all other
    records stay alike, that is up to a waiter that registers, a wake-up and a cancellation.
    `step_move` is the one place where the calls are taken apart. -/

namespace Yurt
open Kernel
variable {σ : Type}
variable {o o' : Option ThreadRecord} {r r' : ThreadRecord}

/-! ### Records that are left alone -/

/-- What a call about another thread may do to the record of `tid`. It keeps whether the thread has
    exited if the call is `clean`. -/
structure ThreadRecord.Like (clean : Prop) (tid : Tid) (r r' : ThreadRecord) : Prop where
  detached : r'.detached = r.detached
  handle : r'.hostThreadHandle = r.hostThreadHandle
  waiter : r'.waiterTid = r.waiterTid ∨ (r.detached = false ∧ r'.waiterTid ≠ some tid)
  state : clean → (r'.state = .exited ↔ r.state = .exited)

theorem ThreadRecord.Like.refl (clean : Prop) (tid : Tid) (r : ThreadRecord) : r.Like clean tid r :=
  ⟨rfl, rfl, .inl rfl, fun _ => Iff.rfl⟩

/-- The same for the place of a record. A missing main thread may be put in. -/
def LikeAt (clean : Prop) (tid : Tid) : Option ThreadRecord → Option ThreadRecord → Prop
  | some r, some r' => r.Like clean tid r'
  | none, none => True
  | none, some r' => tid = mainThreadTid ∧ r' = .main none
  | some _, none => False

theorem LikeAt.refl (clean : Prop) (tid : Tid) (o : Option ThreadRecord) : LikeAt clean tid o o := by
  cases o with
  | none => trivial
  | some r => exact ThreadRecord.Like.refl clean tid r

theorem LikeAt.of_eq {clean : Prop} {tid : Tid} (h : o' = o) :
    LikeAt clean tid o o' := h ▸ LikeAt.refl clean tid o

/-- A record that stands afterwards stood before, or is a main thread just put in. -/
theorem LikeAt.back {clean : Prop} {tid : Tid} (h : LikeAt clean tid o o') (hr' : o' = some r') :
    (∃ r, o = some r ∧ r.Like clean tid r') ∨ (o = none ∧ tid = mainThreadTid ∧ r' = .main none) := by
  subst hr'
  cases o with
  | none => exact .inr ⟨rfl, h⟩
  | some r => exact .inl ⟨r, rfl, h⟩

/-- A record that stood before stands afterwards. -/
theorem LikeAt.keeps {clean : Prop} {tid : Tid} (h : LikeAt clean tid o o') (hr : o = some r) :
    ∃ r', o' = some r' ∧ r.Like clean tid r' := by
  subst hr
  cases o' with
  | none => exact h.elim
  | some r' => exact ⟨r', rfl, h⟩

/-! ### Counters -/

/-- Below the limit of guest ids the counter does not saturate. -/
theorem max_satAdd_worker {n : Nat} (hworker : firstWorkerTid ≤ n) (hmax : n ≤ maxGuestThreadId) :
    max (satAdd n 1) firstWorkerTid = n + 1 := by
  have h2 : 2 ≤ n := hworker
  have hle : n ≤ 2 ^ 31 - 1 := hmax
  have heq : max (min (n + 1) (2 ^ 32 - 1)) 2 = n + 1 := by omega
  exact heq

section
variable (k : Kernel σ) (pid : Pid) (tid : Tid)

namespace Kernel

/-- The id a spawn of `pid` would ask for. -/
def tidCounter : Option Nat := (k.processes.get? pid).map (fun p => max p.nextTid firstWorkerTid)

theorem tidCounter_setThread (r : ThreadRecord) :
    (k.setThread pid tid r).tidCounter = k.tidCounter := by
  funext p
  by_cases h : p = pid
  · subst h
    cases hp : k.processes.get? p <;>
      simp [tidCounter, setThread, modifyProcess, hp]
  · simp [tidCounter, setThread, modifyProcess, h]

theorem tidCounter_eraseThread : (k.eraseThread pid tid).tidCounter = k.tidCounter := by
  funext p
  by_cases h : p = pid
  · subst h
    cases hp : k.processes.get? p <;>
      simp [tidCounter, eraseThread, modifyProcess, hp]
  · simp [tidCounter, eraseThread, modifyProcess, h]

theorem tidCounter_setProcess (p : Process) : (k.setProcess pid p).tidCounter =
      Function.update k.tidCounter pid (some (max p.nextTid firstWorkerTid)) := by
  funext x
  by_cases h : x = pid
  · subst h
    simp [tidCounter]
  · simp [tidCounter, h]

theorem tidCounter_pushRelease (handle : Option Int) :
    (k.pushRelease handle).tidCounter = k.tidCounter := by
  cases handle <;> rfl

theorem tidCounter_wakeWaiter (waiter : Option Tid) :
    (k.wakeWaiter pid waiter).tidCounter = k.tidCounter := by
  cases waiter with
  | none => rfl
  | some w =>
    simp only [wakeWaiter]
    cases k.thread pid w with
    | none => rfl
    | some r => exact k.tidCounter_setThread pid w _

/-! ### Events and moves -/

/-- The exit of `tid` wakes no thread that has exited itself. -/
def ExitIsClean : Prop := ∀ r waiter r', k.thread pid tid = some r → r.waiterTid = some waiter →
    k.thread pid waiter = some r' → r'.state ≠ .exited

end Kernel

end

/-- No exited thread is written to as a waiter: none is woken by an exit, and none joins. -/
def ThreadEvent.Clean (w : ThreadWorld σ) : ThreadEvent → Prop
  | .join ctx _ _ => ∀ r, w.kernel.thread ctx.callerPid ctx.callerTid = some r → r.state ≠ .exited
  | .exit ctx _ => w.kernel.ExitIsClean ctx.callerPid ctx.callerTid
  | .hostExit pid tid _ => w.kernel.ExitIsClean pid tid
  | .hostExitAuthenticated pid tid _ _ => w.kernel.ExitIsClean pid tid
  | _ => True

/-- What a call is out to do to a thread: the note it leaves if it succeeds. -/
def ThreadEvent.aim : ThreadEvent → Option ThreadNote
  | .join ctx request _ => some (.joined ctx.callerPid (u32At request 0))
  | .detach ctx request => some (.detached ctx.callerPid (u32At request 0))
  | .exit ctx _ => some (.exited ctx.callerPid ctx.callerTid)
  | .hostDetach pid tid => some (.detached pid tid)
  | .hostExit pid tid _ => some (.exited pid tid)
  | .hostExitAuthenticated pid tid _ _ => some (.exited pid tid)
  | _ => none

/-- All records but that of thread `tid` of `pid` are left alone. -/
def Kernel.LikeExcept (clean : Prop) (k k' : Kernel σ) (pid : Pid) (tid : Tid) : Prop :=
  ∀ p t, ¬ (p = pid ∧ t = tid) → LikeAt clean t (k.thread p t) (k'.thread p t)

def Kernel.AllLike (clean : Prop) (k k' : Kernel σ) : Prop :=
  ∀ p t, LikeAt clean t (k.thread p t) (k'.thread p t)

/-- The handle a note list releases. -/
def releaseNotes (pid : Pid) (handle : Option Int) : List ThreadNote :=
  handle.toList.map (ThreadNote.released pid)

/-- What one event can do, if it is out for `aim`. -/
inductive ThreadWorld.Move (clean : Prop) (aim : Option ThreadNote) (w w' : ThreadWorld σ) : Prop where
  | still (hspawn : w'.spawning = w.spawning) (hnotes : w'.notes = w.notes)
      (hcount : w'.kernel.tidCounter = w.kernel.tidCounter)
      (hlike : w.kernel.AllLike clean w'.kernel)
  | reserved (pid : Pid) (tid : Tid) (hid : w.kernel.tidCounter pid = some tid)
      (hmax : tid ≤ maxGuestThreadId)
      (hspawn : w'.spawning = Function.update w.spawning pid (tid :: w.spawning pid))
      (hnotes : w'.notes = w.notes ++ [.reserved pid tid])
      (hcount : w'.kernel.tidCounter = Function.update w.kernel.tidCounter pid (some (tid + 1)))
      (hlike : w.kernel.AllLike clean w'.kernel)
  | rolledBack (pid : Pid) (tid : Tid) (failed : List ThreadNote) (hout : tid ∈ w.spawning pid)
      (hspawn : w'.spawning = Function.update w.spawning pid ((w.spawning pid).erase tid))
      (hnotes : w'.notes = w.notes ++ failed ++ [.rolledBack pid tid])
      (hfailed : failed = [] ∨ ∃ handle, failed = [.spawned pid tid handle, .released pid handle] ∧
        (w.kernel.bindThreadHandle pid tid (some handle)).1 ≠ .ok ())
      (hcount : w'.kernel.tidCounter = w.kernel.tidCounter ∨
        w.kernel.tidCounter pid = some (max (satAdd tid 1) firstWorkerTid) ∧
          w'.kernel.tidCounter = Function.update w.kernel.tidCounter pid
            (some (max tid firstWorkerTid)))
      (hlike : w.kernel.AllLike clean w'.kernel)
  | bound (pid : Pid) (tid : Tid) (handle : Int) (hout : tid ∈ w.spawning pid)
      (hnew : w.kernel.thread pid tid = none)
      (hspawn : w'.spawning = Function.update w.spawning pid ((w.spawning pid).erase tid))
      (hnotes : w'.notes = w.notes ++ [.spawned pid tid handle, .bound pid tid])
      (hcount : w'.kernel.tidCounter = w.kernel.tidCounter)
      (hthread : w'.kernel.thread pid tid = some (.fresh tid (some handle)))
      (hlike : w.kernel.LikeExcept clean w'.kernel pid tid)
  | exited (pid : Pid) (tid : Tid) (haim : aim = some (.exited pid tid)) (r r' : ThreadRecord)
      (hr : w.kernel.thread pid tid = some r)
      (hr' : w'.kernel.thread pid tid = some r') (hspawn : w'.spawning = w.spawning)
      (hnotes : w'.notes = w.notes ++ .exited pid tid ::
        releaseNotes pid (if r.releasesOnExit then r.hostThreadHandle else none))
      (hcount : w'.kernel.tidCounter = w.kernel.tidCounter)
      (hdetached : r'.detached = r.detached) (hwaiter : r'.waiterTid = r.waiterTid)
      (hhandle : r'.hostThreadHandle = if r.releasesOnExit then none else r.hostThreadHandle)
      (hstate : r.waiterTid ≠ some tid → r'.state = .exited)
      (hlike : w.kernel.LikeExcept clean w'.kernel pid tid)
  | detached (pid : Pid) (tid : Tid) (haim : aim = some (.detached pid tid)) (r r' : ThreadRecord)
      (hr : w.kernel.thread pid tid = some r)
      (hr' : w'.kernel.thread pid tid = some r') (hspawn : w'.spawning = w.spawning)
      (hnot : r.detached = false) (hfree : r.waiterTid = none)
      (hnotes : w'.notes = w.notes ++ .detached pid tid ::
        releaseNotes pid (if r.state = .exited then r.hostThreadHandle else none))
      (hcount : w'.kernel.tidCounter = w.kernel.tidCounter)
      (hdetached : r'.detached = true) (hwaiter : r'.waiterTid = none)
      (hhandle : r'.hostThreadHandle = if r.state = .exited then none else r.hostThreadHandle)
      (hstate : r'.state = r.state) (hlike : w.kernel.LikeExcept clean w'.kernel pid tid)
  | joined (pid : Pid) (tid : Tid) (haim : aim = some (.joined pid tid)) (r : ThreadRecord)
      (hr : w.kernel.thread pid tid = some r)
      (hnot : r.detached = false) (hexited : r.state = .exited)
      (hgone : w'.kernel.thread pid tid = none) (hspawn : w'.spawning = w.spawning)
      (hnotes : w'.notes = w.notes ++ .joined pid tid :: releaseNotes pid r.hostThreadHandle)
      (hcount : w'.kernel.tidCounter = w.kernel.tidCounter)
      (hlike : w.kernel.LikeExcept clean w'.kernel pid tid)

/-! ### Operations -/

variable {k : Kernel σ} {pid : Pid} {tid : Tid}

theorem Kernel.AllLike.of_thread_eq {clean : Prop} {k k' : Kernel σ}
    (h : ∀ p t, k'.thread p t = k.thread p t) : k.AllLike clean k' :=
  fun p t => LikeAt.of_eq (h p t)

/-- Writing an alike record leaves every record alike. -/
theorem Kernel.AllLike.setThread {clean : Prop} (hr : k.thread pid tid = some r)
    (hlike : r.Like clean tid r') :
    k.AllLike clean (k.setThread pid tid r') := by
  intro p t
  rw [thread_setThread hr]
  by_cases h : p = pid ∧ t = tid
  · obtain ⟨rfl, rfl⟩ := h
    rw [if_pos ⟨rfl, rfl⟩, hr]
    exact hlike
  · rw [if_neg h]
    exact LikeAt.refl clean t _

theorem Kernel.reserveThreadId_like (clean : Prop) (k : Kernel σ) (pid : Pid) :
    k.AllLike clean (k.reserveThreadId pid).2 := by
  intro p t
  cases hold : k.thread p t with
  | some r => rw [thread_reserveThreadId hold pid]; exact LikeAt.refl clean t _
  | none =>
    -- only the main thread of the process itself can be new
    have hnew : ∀ q : Process, k.processes.get? pid = some q → ∀ q' : Process,
        q'.threads = (q.ensureMainThread none).threads →
        LikeAt clean t none ((k.setProcess pid q').thread p t) := by
      intro q hq q' hthreads
      rw [thread_setProcess]
      by_cases hp : p = pid
      · subst hp
        have hnone : q.threads.get? t = none := by simpa [thread, hq] using hold
        rw [if_pos rfl, hthreads]
        simp only [Process.ensureMainThread]
        by_cases hmain : q.threads.contains 1 = true
        · rw [if_pos hmain, hnone]
          trivial
        · rw [if_neg hmain]
          by_cases ht : t = 1
          · subst ht
            rw [SortedMap.get?_insert_self]
            exact ⟨rfl, rfl⟩
          · rw [SortedMap.get?_insert_ne _ _ ht, hnone]
            trivial
      · rw [if_neg hp, hold]
        trivial
    unfold reserveThreadId
    cases hpid : k.processes.get? pid with
    | none => rw [hold]; trivial
    | some q =>
      simp only
      split_ifs
      · exact hnew q hpid _ rfl
      · exact hnew q hpid _ rfl

/-- An id that is handed out is the counter, which moves on; a refusal leaves the counter. -/
theorem Kernel.reserveThreadId_counter (k : Kernel σ) (pid : Pid) :
    (∃ tid, (k.reserveThreadId pid).1 = .ok tid ∧ k.tidCounter pid = some tid ∧
      tid ≤ maxGuestThreadId ∧ (k.reserveThreadId pid).2.tidCounter =
        Function.update k.tidCounter pid (some (tid + 1))) ∨
    (∃ errno, (k.reserveThreadId pid).1 = .error errno) ∧
      (k.reserveThreadId pid).2.tidCounter = k.tidCounter := by
  unfold reserveThreadId
  cases hpid : k.processes.get? pid with
  | none => exact .inr ⟨⟨_, rfl⟩, rfl⟩
  | some q =>
    have hmax : max (q.ensureMainThread none).nextTid firstWorkerTid = max q.nextTid firstWorkerTid := by
      simp [Process.ensureMainThread, firstWorkerTid]
    have hcount : k.tidCounter pid = some (max q.nextTid firstWorkerTid) := by
      simp [tidCounter, hpid]
    simp only [hmax]
    split
    · refine .inr ⟨⟨_, rfl⟩, ?_⟩
      rw [tidCounter_setProcess, hmax, ← hcount, Function.update_eq_self]
    · rename_i hbig
      refine .inl ⟨_, rfl, hcount, not_lt.mp hbig, ?_⟩
      rw [tidCounter_setProcess]
      congr 2
      exact max_satAdd_worker (le_max_right _ _) (not_lt.mp hbig)

section
variable (k : Kernel σ) (pid : Pid) (tid : Tid)

theorem Kernel.rollbackReservedThread_thread (p : Pid)
    (t : Tid) : (k.rollbackReservedThread pid tid).2.thread p t = k.thread p t := by
  unfold rollbackReservedThread
  cases hpid : k.processes.get? pid with
  | none => rfl
  | some q =>
    simp only
    split_ifs
    · rw [thread_setProcess]
      by_cases h : p = pid
      · subst h
        simp [thread, hpid]
      · rw [if_neg h]
    · rfl

/-- Giving an id back moves the counter back to it if it was the last, and does nothing otherwise. -/
theorem Kernel.rollbackReservedThread_counter :
    (k.rollbackReservedThread pid tid).2.tidCounter = k.tidCounter ∨
      k.tidCounter pid = some (max (satAdd tid 1) firstWorkerTid) ∧
        (k.rollbackReservedThread pid tid).2.tidCounter =
          Function.update k.tidCounter pid (some (max tid firstWorkerTid)) := by
  unfold rollbackReservedThread
  cases hpid : k.processes.get? pid with
  | none => exact .inl rfl
  | some q =>
    simp only
    split_ifs with hlast
    · refine .inr ⟨?_, k.tidCounter_setProcess pid _⟩
      simp [tidCounter, hpid, hlast]
    · exact .inl rfl

/-- Binding makes a fresh record where there was none, or fails and does nothing. -/
theorem Kernel.bindThreadHandle_cases (handle : Option Int) :
    (∃ k', k.bindThreadHandle pid tid handle = (.ok (), k') ∧ k.thread pid tid = none ∧
      k'.thread pid tid = some (.fresh tid handle) ∧ k'.tidCounter = k.tidCounter ∧
      k'.pendingThreadReleases = k.pendingThreadReleases ∧
      ∀ p t, ¬ (p = pid ∧ t = tid) → k'.thread p t = k.thread p t) ∨
    ∃ errno, k.bindThreadHandle pid tid handle = (.error errno, k) := by
  unfold bindThreadHandle
  cases hpid : k.processes.get? pid with
  | none => exact .inr ⟨_, rfl⟩
  | some q =>
    simp only
    split_ifs with hhas
    · exact .inr ⟨_, rfl⟩
    · have hnone : q.threads.get? tid = none := by simpa [SortedMap.contains] using hhas
      refine .inl ⟨_, rfl, by simp [thread, hpid, hnone], ?_, k.tidCounter_setThread _ _ _,
        rfl, ?_⟩
      · simp [thread, setThread, modifyProcess, hpid]
      · intro p t hne
        by_cases hp : p = pid
        · subst hp
          have ht : t ≠ tid := fun h => hne ⟨rfl, h⟩
          simp [thread, setThread, modifyProcess, hpid, ht]
        · simp [thread, setThread, modifyProcess, hp]

/-- The record of a thread once it is detached: an exited one gives its handle up at once. -/
def ThreadRecord.detach (r : ThreadRecord) : ThreadRecord :=
  { r with
    detached := true
    hostThreadHandle := if r.state = .exited then none else r.hostThreadHandle }

theorem Kernel.detachThread_cases :
    (∃ r, k.thread pid tid = some r ∧ r.detached = false ∧ r.waiterTid = none ∧
      k.detachThread pid tid = (.ok (), (k.setThread pid tid r.detach).pushRelease
        (if r.state = .exited then r.hostThreadHandle else none))) ∨
    ∃ errno, errno ≠ 0 ∧ k.detachThread pid tid = (.error errno, k) := by
  unfold detachThread
  cases hr : k.thread pid tid with
  | none => exact .inr ⟨ESRCH, by decide, rfl⟩
  | some r =>
    simp only
    split_ifs with hdetached hwaiter hexited
    · exact .inr ⟨EINVAL, by decide, rfl⟩
    · exact .inr ⟨EINVAL, by decide, rfl⟩
    · refine .inl ⟨r, rfl, by simpa using hdetached, by simpa using hwaiter, ?_⟩
      rw [ThreadRecord.detach, if_pos hexited, if_pos hexited]
    · refine .inl ⟨r, rfl, by simpa using hdetached, by simpa using hwaiter, ?_⟩
      rw [ThreadRecord.detach, if_neg hexited, if_neg hexited]
      rfl

@[simp] theorem Kernel.pending_pushRelease (handle : Option Int) :
    (k.pushRelease handle).pendingThreadReleases = k.pendingThreadReleases ++ handle.toList := by
  cases handle <;> simp [pushRelease]

@[simp] theorem Kernel.pending_wakeWaiter (waiter : Option Tid) :
    (k.wakeWaiter pid waiter).pendingThreadReleases = k.pendingThreadReleases := by
  cases waiter with
  | none => rfl
  | some w =>
    simp only [wakeWaiter]
    cases k.thread pid w <;> rfl

end

/-- What an exit report does: its thread is marked, its waiter woken, the rest is left alone. -/
structure Kernel.Exits (k k' : Kernel σ) (pid : Pid) (tid : Tid) (r r' : ThreadRecord) : Prop where
  after : k'.thread pid tid = some r'
  detached : r'.detached = r.detached
  waiter : r'.waiterTid = r.waiterTid
  handle : r'.hostThreadHandle = if r.releasesOnExit then none else r.hostThreadHandle
  state : r.waiterTid ≠ some tid → r'.state = .exited
  others : k.LikeExcept (k.ExitIsClean pid tid) k' pid tid
  counter : k'.tidCounter = k.tidCounter
  pending : k'.pendingThreadReleases = k.pendingThreadReleases ++
    (if r.releasesOnExit then r.hostThreadHandle else none).toList

theorem Kernel.exitThreadAuthenticated_exits (hr : k.thread pid tid = some r) (exitValue : Nat) :
    (k.exitThreadAuthenticated pid tid exitValue).1 = .ok r.waiterTid ∧
      ∃ r', k.Exits (k.exitThreadAuthenticated pid tid exitValue).2 pid tid r r' := by
  have hthread := thread_exitThreadAuthenticated hr exitValue
  refine ⟨by simp [exitThreadAuthenticated, hr], ?_⟩
  have hself : ∃ r', (k.exitThreadAuthenticated pid tid exitValue).2.thread pid tid = some r' ∧
      r'.detached = r.detached ∧ r'.waiterTid = r.waiterTid ∧
      r'.hostThreadHandle = (r.exit exitValue).hostThreadHandle ∧
      (r.waiterTid ≠ some tid → r'.state = .exited) := by
    rw [hthread]
    by_cases hwaits : r.waiterTid = some tid
    · rw [if_pos ⟨rfl, hwaits⟩, if_pos rfl]
      exact ⟨_, rfl, rfl, rfl, rfl, fun h => absurd hwaits h⟩
    · rw [if_neg (fun h => hwaits h.2), if_pos ⟨rfl, rfl⟩]
      exact ⟨_, rfl, rfl, rfl, rfl, fun _ => rfl⟩
  obtain ⟨r', hr', hdetached, hwaiter, hhandle, hstate⟩ := hself
  refine ⟨r', ⟨hr', hdetached, hwaiter, hhandle, hstate, ?_, ?_, ?_⟩⟩
  · intro p t hne
    rw [hthread, if_neg hne]
    by_cases hwakes : p = pid ∧ r.waiterTid = some t
    · obtain ⟨rfl, hwaits⟩ := hwakes
      have ht : t ≠ tid := fun h => hne ⟨rfl, h⟩
      rw [if_pos ⟨rfl, hwaits⟩, if_neg ht]
      cases hwaiting : k.thread p t with
      | none => trivial
      | some x =>
        -- a clean exit finds its waiter alive, and leaves it so
        refine ⟨rfl, rfl, .inl rfl, fun hclean => iff_of_false (by simp [ThreadRecord.wake]) ?_⟩
        exact hclean r t x hr hwaits hwaiting
    · rw [if_neg hwakes]
      exact LikeAt.refl _ t _
  · simp only [exitThreadAuthenticated, hr, tidCounter_pushRelease,
      tidCounter_wakeWaiter, tidCounter_setThread]
  · simp only [exitThreadAuthenticated, hr, pending_pushRelease, pending_wakeWaiter]
    rfl

/-! ### Calls -/

/-- No handle waits to be released. -/
def ThreadWorld.Drained (w : ThreadWorld σ) : Prop := w.kernel.pendingThreadReleases = []

variable {w : ThreadWorld σ} {clean : Prop} {aim : Option ThreadNote}

theorem ThreadWorld.Move.same (h : w.kernel.AllLike clean k)
    (hcount : k.tidCounter = w.kernel.tidCounter) : w.Move clean aim (w.after k []) :=
  .still rfl (List.append_nil _) hcount h

theorem ThreadWorld.Move.refl : w.Move clean aim (w.after w.kernel []) :=
  .same (fun _ t => LikeAt.refl clean t _) rfl

/-- A call that reports an exit. -/
theorem ThreadWorld.move_exit (hw : w.Drained) (pid : Pid) (tid : Tid) (exitValue : Nat) :
    w.Move (w.kernel.ExitIsClean pid tid) (some (.exited pid tid))
      (w.after (w.kernel.kernelRecordThreadExit pid tid exitValue).2
        (callNotes (.exited pid tid) pid (w.kernel.kernelRecordThreadExit pid tid exitValue).1)) := by
  cases hr : w.kernel.thread pid tid with
  | none =>
    have hsame : w.kernel.kernelRecordThreadExit pid tid exitValue = ((-ESRCH, []), w.kernel) := by
      simp [kernelRecordThreadExit, exitThreadAuthenticated, hr, drainThreadReleases,
        threadRc, ← show w.kernel.pendingThreadReleases = [] from hw]
    rw [hsame]
    exact .refl
  | some r =>
    obtain ⟨hok, r', hexits⟩ := exitThreadAuthenticated_exits hr exitValue
    refine .exited pid tid rfl r r' hr hexits.after rfl ?_ hexits.counter hexits.detached hexits.waiter
      hexits.handle hexits.state hexits.others
    have hpending := hexits.pending
    rw [show w.kernel.pendingThreadReleases = [] from hw, List.nil_append] at hpending
    simp only [ThreadWorld.after, kernelRecordThreadExit, drainThreadReleases, hok, threadRc,
      callNotes, if_true, hpending]
    rfl

/-- The kernel after a call has given its handles up. -/
def Kernel.drained (k : Kernel σ) : Kernel σ := { k with pendingThreadReleases := [] }

@[simp] theorem Kernel.thread_drained (k : Kernel σ) (pid : Pid) (tid : Tid) :
    k.drained.thread pid tid = k.thread pid tid := rfl

@[simp] theorem Kernel.tidCounter_drained (k : Kernel σ) : k.drained.tidCounter = k.tidCounter := rfl

theorem Kernel.drained_of_nil (h : k.pendingThreadReleases = []) : k.drained = k := by
  rw [drained, ← h]

theorem ThreadWorld.move_detach (hw : w.Drained) (pid : Pid) (tid : Tid) :
    w.Move clean (some (.detached pid tid)) (w.after (w.kernel.kernelDetachThread pid tid).2
      (callNotes (.detached pid tid) pid (w.kernel.kernelDetachThread pid tid).1)) := by
  have hnil : w.kernel.pendingThreadReleases = [] := hw
  obtain ⟨r, hr, hnot, hfree, heq⟩ | ⟨errno, herrno, heq⟩ := w.kernel.detachThread_cases pid tid
  · have hcall : w.kernel.kernelDetachThread pid tid =
        ((0, (if r.state = .exited then r.hostThreadHandle else none).toList),
          ((w.kernel.setThread pid tid r.detach).pushRelease
            (if r.state = .exited then r.hostThreadHandle else none)).drained) := by
      rw [kernelDetachThread, heq]
      simp [drainThreadReleases, threadRc, drained, setThread, modifyProcess, hnil]
    rw [hcall]
    refine .detached pid tid rfl r r.detach hr ?_ rfl hnot hfree ?_ ?_ rfl hfree rfl rfl ?_
    · simp [ThreadWorld.after, thread_setThread hr]
    · simp [ThreadWorld.after, callNotes, releaseNotes]
    · simp [ThreadWorld.after, tidCounter_pushRelease, tidCounter_setThread]
    · intro p t hne
      simp only [ThreadWorld.after, thread_drained, thread_pushRelease, thread_setThread hr, if_neg hne]
      exact LikeAt.refl clean t _
  · have hcall : w.kernel.kernelDetachThread pid tid = ((-errno, []), w.kernel) := by
      rw [kernelDetachThread, heq]
      simp only [drainThreadReleases, threadRc, hnil]
      rw [← hnil]
    rw [hcall]
    have hnotes : callNotes (.detached pid tid) pid (-errno, []) = [] := by
      simp [callNotes, herrno]
    rw [hnotes]
    exact .refl

theorem Kernel.beginThreadJoin_ne_zero (k : Kernel σ) (pid : Pid) (waiter target : Tid) (cap : Nat) :
    (k.beginThreadJoin pid waiter target cap).1 ≠ .error 0 := by
  unfold beginThreadJoin
  split_ifs
  · simp [EINVAL]
  · simp [EDEADLK]
  · cases k.thread pid target with
    | none => simp [ESRCH]
    | some r =>
      simp only
      split_ifs
      · simp [EINVAL]
      · simp
      · simp [EBUSY]
      · cases k.thread pid waiter with
        | none => simp [ESRCH]
        | some wr => simp [EAGAIN]

/-- A join completes and takes the record, or registers its caller, or does nothing. -/
theorem ThreadWorld.move_join (hw : w.Drained) (ctx : DispatchContext) (target : Tid) {cap : Nat} :
    w.Move (∀ r, w.kernel.thread ctx.callerPid ctx.callerTid = some r → r.state ≠ .exited)
      (some (.joined ctx.callerPid target))
      (w.after (w.kernel.beginThreadJoin ctx.callerPid ctx.callerTid target cap).2.drained
        (callNotes (.joined ctx.callerPid target) ctx.callerPid
          ((joinReply (w.kernel.beginThreadJoin ctx.callerPid ctx.callerTid target cap).1).rc,
            (w.kernel.beginThreadJoin ctx.callerPid ctx.callerTid target cap).2.pendingThreadReleases)))
    := by
  have hnil : w.kernel.pendingThreadReleases = [] := hw
  obtain ⟨pid, caller⟩ := ctx
  obtain ⟨r, hr, hnot, hexited, -, -, heq⟩ | ⟨r, wr, hr, hwr, hreg, heq⟩ | ⟨⟨errno, -, heq⟩, -, -⟩ :=
    beginThreadJoin_cases w.kernel pid caller target cap
  · rw [heq]
    refine .joined pid target rfl r hr hnot hexited ?_ rfl ?_ ?_ ?_
    · simp [ThreadWorld.after, thread_eraseThread]
    · simp [ThreadWorld.after, callNotes, joinReply, releaseNotes, eraseThread, modifyProcess, hnil]
    · simp [ThreadWorld.after, tidCounter_pushRelease, tidCounter_eraseThread]
    · intro p t hne
      simp only [ThreadWorld.after, thread_drained, thread_eraseThread, if_neg hne, thread_pushRelease]
      exact LikeAt.refl _ t _
  · rw [heq]
    obtain ⟨-, hne, r₀, hr₀, hnot, -, -⟩ := hreg
    obtain rfl := Option.mem_unique hr hr₀
    have hnotes : callNotes (.joined pid target) pid ((joinReply (.error EAGAIN)).rc, []) = [] := by
      simp [callNotes, joinReply, Reply.code, EAGAIN]
    have hpending : ((w.kernel.setThread pid target { r with waiterTid := some caller }).setThread pid
        caller { wr with state := .blocked, waitReason := some (.threadJoin target) }
        ).pendingThreadReleases = [] := hnil
    rw [hpending, hnotes]
    have hwr' : (w.kernel.setThread pid target { r with waiterTid := some caller }).thread pid caller =
        some wr := by
      rw [thread_setThread hr, if_neg (fun h => hne h.2)]
      exact hwr
    refine .same ?_ ?_
    · intro p t
      rw [thread_drained, thread_setThread hwr', thread_setThread hr]
      by_cases hcaller : p = pid ∧ t = caller
      · -- the caller is marked blocked
        obtain ⟨rfl, rfl⟩ := hcaller
        rw [if_pos ⟨rfl, rfl⟩, hwr]
        exact ⟨rfl, rfl, .inl rfl, fun hclean => iff_of_false (by simp) (hclean wr rfl)⟩
      · rw [if_neg hcaller]
        by_cases htarget : p = pid ∧ t = target
        · -- the target has a waiter now
          obtain ⟨rfl, rfl⟩ := htarget
          rw [if_pos ⟨rfl, rfl⟩, hr]
          exact ⟨rfl, rfl, .inr ⟨hnot, fun h => hne (Option.some.inj h)⟩, fun _ => Iff.rfl⟩
        · rw [if_neg htarget]
          exact LikeAt.refl _ t _
    · simp [tidCounter_setThread]
  · have herrno : errno ≠ 0 := by
      rintro rfl
      exact w.kernel.beginThreadJoin_ne_zero pid caller target cap (by rw [heq])
    have hnotes : callNotes (.joined pid target) pid ((joinReply (.error errno)).rc, []) = [] := by
      simp [callNotes, joinReply, Reply.code, herrno]
    rw [heq, hnil, hnotes, drained_of_nil hnil]
    exact .refl

/-- Any id given to `bind_thread_handle` that is not taken is bound, any other given back. -/
theorem ThreadWorld.move_spawnReturns (pid : Pid) (handle : Int) (hout : tid ∈ w.spawning pid) :
    w.Move clean aim
      { w.after (w.kernel.sysThreadSpawnEnd pid tid handle).2
          (spawnNotes pid tid handle (w.kernel.sysThreadSpawnEnd pid tid handle).1) with
        spawning := Function.update w.spawning pid ((w.spawning pid).erase tid) } := by
  have hback : ∀ p t, (w.kernel.rollbackReservedThread pid tid).2.thread p t = w.kernel.thread p t :=
    w.kernel.rollbackReservedThread_thread pid tid
  unfold sysThreadSpawnEnd spawnNotes
  split
  · exact .rolledBack pid tid [] hout rfl (by simp [ThreadWorld.after]) (.inl rfl)
      (w.kernel.rollbackReservedThread_counter pid tid) (.of_thread_eq hback)
  · obtain ⟨k', heq, hnew, hthread, hcount, -, hsame⟩ | ⟨errno, heq⟩ :=
      w.kernel.bindThreadHandle_cases pid tid (some handle)
    · rw [heq]
      exact .bound pid tid handle hout hnew rfl rfl hcount hthread
        (fun p t hne => LikeAt.of_eq (hsame p t hne))
    · have hfailed : (w.kernel.bindThreadHandle pid tid (some handle)).1 ≠ .ok () := by
        rw [heq]
        simp
      refine .rolledBack pid tid [.spawned pid tid handle, .released pid handle] hout rfl ?_
        (.inr ⟨handle, rfl, hfailed⟩) ?_ ?_
      · rw [heq]
        simp [ThreadWorld.after]
      · rw [heq]
        exact w.kernel.rollbackReservedThread_counter pid tid
      · rw [heq]
        exact .of_thread_eq hback

theorem ThreadWorld.move_cancel (pid : Pid) (tid : Tid) :
    w.Move clean aim (w.after (w.kernel.requestThreadCancel pid tid).2 []) := by
  unfold requestThreadCancel
  cases hr : w.kernel.thread pid tid with
  | none => exact .refl
  | some r =>
    simp only
    split_ifs
    · exact .refl
    · exact .same (.setThread hr ⟨rfl, rfl, .inl rfl, fun _ => Iff.rfl⟩)
        (w.kernel.tidCounter_setThread pid tid _)

theorem ThreadWorld.move_spawn (ctx : DispatchContext) (request : Bytes) :
    w.Move clean aim (ThreadEvent.step w (.spawn ctx request)) := by
  simp only [ThreadEvent.step, sysThreadSpawnBegin]
  by_cases hlen : request.length ≠ 8
  · rw [if_pos hlen]
    exact .refl
  · rw [if_neg hlen]
    have hlike := w.kernel.reserveThreadId_like clean ctx.callerPid
    have hcounter := w.kernel.reserveThreadId_counter ctx.callerPid
    generalize w.kernel.reserveThreadId ctx.callerPid = r at hlike hcounter
    obtain ⟨errno | tid, k'⟩ := r
    · rcases hcounter with ⟨tid, hok, -⟩ | ⟨-, hcount⟩
      · cases hok
      · exact .same hlike hcount
    · rcases hcounter with ⟨tid', hok, hid, hmax, hcount⟩ | ⟨⟨errno, herr⟩, -⟩
      · cases hok
        exact .reserved ctx.callerPid tid hid hmax rfl rfl hcount hlike
      · cases herr

theorem callNotes_failed {rc : Int} (h : rc ≠ 0) (note : ThreadNote) (pid : Pid) :
    callNotes note pid (rc, []) = [] := by
  simp [callNotes, h]

/-- A call with a malformed request does nothing. -/
theorem ThreadWorld.Move.refused (note : ThreadNote) (pid : Pid) :
    w.Move clean aim (w.after w.kernel (callNotes note pid (-EINVAL, []))) := by
  rw [callNotes_failed (by decide)]
  exact .refl

/-- Every event is one of the moves. -/
theorem ThreadWorld.step_move (hw : w.Drained) (e : ThreadEvent) : w.Move (e.Clean w) e.aim (e.step w) := by
  cases e with
  | spawn ctx request => exact w.move_spawn ctx request
  | spawnReturns pid tid handle =>
    simp only [ThreadEvent.step]
    split
    · rename_i hout
      exact move_spawnReturns pid handle hout
    · exact .still rfl rfl rfl (fun _ t => LikeAt.refl _ t _)
  | join ctx request cap =>
    simp only [ThreadEvent.step, sysThreadJoin, readU32Request]
    by_cases hlen : request.length ≠ 4
    · rw [if_pos hlen]
      exact .refused _ _
    · rw [if_neg hlen]
      by_cases hcap : cap < 4
      · simp only [if_pos hcap]
        exact .refused _ _
      · simp only [if_neg hcap]
        exact move_join hw ctx (u32At request 0)
  | detach ctx request =>
    simp only [ThreadEvent.step, sysThreadDetach, readU32Request]
    by_cases hlen : request.length ≠ 4
    · rw [if_pos hlen]
      exact .refused _ _
    · rw [if_neg hlen]
      exact move_detach hw ctx.callerPid (u32At request 0)
  | exit ctx request =>
    simp only [ThreadEvent.step, sysThreadExit, readU32Request]
    by_cases hlen : request.length ≠ 4
    · rw [if_pos hlen]
      exact .refused _ _
    · rw [if_neg hlen]
      exact move_exit hw ctx.callerPid ctx.callerTid (u32At request 0)
  | cancel ctx request =>
    simp only [ThreadEvent.step, sysThreadCancel, readU32Request]
    split
    · exact .refl
    · exact move_cancel _ _
  | hostDetach pid tid => exact move_detach hw pid tid
  | hostExit pid tid exitValue => exact move_exit hw pid tid exitValue
  | hostExitAuthenticated pid tid handle exitValue =>
    have hnil : w.kernel.pendingThreadReleases = [] := hw
    have hrefused : ∀ errno : Int, errno ≠ 0 →
        w.kernel.recordThreadExitAuthenticated pid tid handle exitValue = (.error errno, w.kernel) →
        w.Move (ThreadEvent.Clean w (.hostExitAuthenticated pid tid handle exitValue))
          (some (.exited pid tid))
          (ThreadEvent.step w (.hostExitAuthenticated pid tid handle exitValue)) := by
      intro errno herrno heq
      have hcall : w.kernel.kernelRecordThreadExitAuthenticated pid tid handle exitValue =
          ((-errno, []), w.kernel) := by
        rw [kernelRecordThreadExitAuthenticated, heq]
        simp only [drainThreadReleases, threadRc, hnil]
        rw [← hnil]
      simp only [ThreadEvent.step, hcall]
      rw [callNotes_failed (neg_ne_zero.mpr herrno)]
      exact .refl
    cases hr : w.kernel.thread pid tid with
    | none => exact hrefused ESRCH (by decide) (by simp [recordThreadExitAuthenticated, hr])
    | some r =>
      by_cases hhandle : r.hostThreadHandle ≠ some handle
      · exact hrefused EPERM (by decide) (by simp [recordThreadExitAuthenticated, hr, hhandle])
      · have hcall : w.kernel.kernelRecordThreadExitAuthenticated pid tid handle exitValue =
            w.kernel.kernelRecordThreadExit pid tid exitValue := by
          simp [kernelRecordThreadExitAuthenticated, recordThreadExitAuthenticated, hr,
            hhandle, kernelRecordThreadExit]
        simp only [ThreadEvent.step, hcall]
        exact move_exit hw pid tid exitValue

section
variable (k : Kernel σ) (pid : Pid)

theorem pending_reserveThreadId :
    (k.reserveThreadId pid).2.pendingThreadReleases = k.pendingThreadReleases := by
  unfold reserveThreadId
  cases k.processes.get? pid with
  | none => rfl
  | some q =>
    simp only
    split_ifs <;> rfl

theorem pending_rollbackReservedThread (tid : Tid) :
    (k.rollbackReservedThread pid tid).2.pendingThreadReleases = k.pendingThreadReleases := by
  unfold rollbackReservedThread
  cases k.processes.get? pid with
  | none => rfl
  | some q =>
    simp only
    split_ifs <;> rfl

theorem pending_requestThreadCancel (tid : Tid) :
    (k.requestThreadCancel pid tid).2.pendingThreadReleases = k.pendingThreadReleases := by
  unfold requestThreadCancel
  cases k.thread pid tid with
  | none => rfl
  | some r =>
    simp only
    split_ifs <;> rfl

end

/-- No call leaves a handle behind. -/
theorem ThreadWorld.Drained.step (hw : w.Drained) (e : ThreadEvent) : (e.step w).Drained := by
  have hnil : w.kernel.pendingThreadReleases = [] := hw
  cases e with
  | spawn ctx request =>
    simp only [ThreadEvent.step, sysThreadSpawnBegin]
    by_cases hlen : request.length ≠ 8
    · rw [if_pos hlen]
      exact hw
    · rw [if_neg hlen]
      have hpending := pending_reserveThreadId w.kernel ctx.callerPid
      generalize w.kernel.reserveThreadId ctx.callerPid = r at hpending
      obtain ⟨errno | tid, k'⟩ := r
      · exact hpending.trans hnil
      · exact hpending.trans hnil
  | spawnReturns pid tid handle =>
    simp only [ThreadEvent.step]
    split
    · have hback := (pending_rollbackReservedThread w.kernel pid tid).trans hnil
      simp only [ThreadWorld.Drained, ThreadWorld.after, sysThreadSpawnEnd]
      split_ifs
      · exact hback
      · obtain ⟨k', heq, -, -, -, hpending, -⟩ | ⟨errno, heq⟩ :=
          w.kernel.bindThreadHandle_cases pid tid (some handle)
        · rw [heq]
          exact hpending.trans hnil
        · rw [heq]
          exact hback
    · exact hw
  | join ctx request cap =>
    simp only [ThreadEvent.step, sysThreadJoin]
    cases readU32Request request with
    | error rc => exact hw
    | ok target =>
      simp only
      split_ifs
      · exact hw
      · rfl
  | detach ctx request | exit ctx request =>
    simp only [ThreadEvent.step, sysThreadDetach, sysThreadExit]
    cases readU32Request request with
    | error rc => exact hw
    | ok target => rfl
  | cancel ctx request =>
    simp only [ThreadEvent.step, sysThreadCancel]
    cases readU32Request request with
    | error rc => exact hw
    | ok target => exact (pending_requestThreadCancel w.kernel _ _).trans hnil
  | hostDetach | hostExit | hostExitAuthenticated => rfl

end Yurt
