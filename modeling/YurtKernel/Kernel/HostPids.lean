import YurtKernel.Kernel.Lifecycle
import YurtKernel.Kernel.ThreadExit

/-! Pids of host processes (`try_alloc_host_pid` and its callers).

    `spawn_cached_process` takes a pid before it asks the host for an instance, and registers the
    process when the host has answered. In between the pid is nowhere recorded: the cursor alone keeps
    it from being handed out again, and a release moves the cursor back. `PidWorld` is the kernel
    together with the pids of the spawns under way. -/

namespace Yurt
open Kernel SortedMap
variable {σ : Type}
variable {next : Nat} {q : Pid}

/-! ### What reference counting leaves alone -/

/-- The parts of the kernel that have to do with processes. -/
structure ProcView where
  processes : SortedMap Pid Process
  nextHostPid : Pid
  pendingThreadReleases : List Int

def Kernel.procView (k : Kernel σ) : ProcView := ⟨k.processes, k.nextHostPid, k.pendingThreadReleases⟩

theorem Kernel.procView_incFdEntryRef (k : Kernel σ) (e : FdEntry) :
    (k.incFdEntryRef e).procView = k.procView := by
  cases e <;> rfl

section
variable (kh : Kh σ) (k : Kernel σ)

theorem Kernel.procView_decFdEntryRef (e : FdEntry) :
    (k.decFdEntryRef kh e).procView = k.procView := by
  cases e with
  | pipe id side =>
    obtain ⟨_, h⟩ := k.pipeDecRef_only id side
    rw [decFdEntryRef, h]
    rfl
  | file id =>
    obtain ⟨_, _, h⟩ := k.ofdDecRef_only id
    rw [decFdEntryRef, h]
    rfl
  | socket id =>
    obtain ⟨_, _, _, _, h⟩ := socketDecRefAux_only (k.sockets.size + 1) k id
    rw [decFdEntryRef, socketDecRef, h]
    cases (socketDecRefAux (k.sockets.size + 1) k id).1 <;> rfl
  | _ => rfl

theorem Kernel.procView_foldl {f : Kernel σ → FdEntry → Kernel σ}
    (hf : ∀ k e, (f k e).procView = k.procView) (xs : List FdEntry) (k : Kernel σ) :
    (xs.foldl f k).procView = k.procView := by
  induction xs generalizing k with
  | nil => rfl
  | cons x xs ih => rw [List.foldl_cons, ih, hf]

/-! ### The scan for a free pid -/

/-- The pid looked at `i` steps after the cursor; the range is 1 to 999. -/
def hostPidAt (next i : Nat) : Nat := (next - 1 + i) % 999 + 1

/-- How many steps after the cursor a pid is looked at. -/
def hostPidRank (next pid : Nat) : Nat := (pid + 999 - next) % 999

/-- Where the cursor can stand. -/
def HostCursor (next : Nat) : Prop := 1 ≤ next ∧ next ≤ 1000

theorem hostPidAt_zero (h : HostCursor next) : (if next ≥ 1000 then 1 else next) = hostPidAt next 0 := by
  obtain ⟨hlow, hhigh⟩ := h
  unfold hostPidAt
  split_ifs <;> omega

theorem hostPidAt_succ (h : HostCursor next) (i : Nat) :
    hostPidAt (hostPidAt next 0 + 1) i = hostPidAt next (i + 1) := by
  obtain ⟨hlow, hhigh⟩ := h
  unfold hostPidAt
  omega

theorem hostCursor_succ (next : Nat) (i : Nat) : HostCursor (hostPidAt next i + 1) := by
  unfold hostPidAt HostCursor
  omega

theorem satAdd_hostPidAt (next i : Nat) : satAdd (hostPidAt next i) 1 = hostPidAt next i + 1 := by
  have hle : hostPidAt next i + 1 ≤ u32Max := by
    unfold hostPidAt u32Max
    omega
  exact min_eq_left hle

/-- The scan returns the first pid from the cursor on that is not taken. -/
theorem hostPidSearch_spec (taken : Pid → Bool) (tries : Nat) (hnext : HostCursor next) :
    match (hostPidSearch taken tries next).1 with
    | none => ∀ j, j < tries → taken (hostPidAt next j) = true
    | some pid => ∃ i, i < tries ∧ pid = hostPidAt next i ∧ taken pid = false ∧
      ∀ j, j < i → taken (hostPidAt next j) = true := by
  induction tries generalizing next with
  | zero => exact fun j hj => absurd hj (Nat.not_lt_zero j)
  | succ tries ih =>
    rw [hostPidSearch]
    simp only [hostPidAt_zero hnext, satAdd_hostPidAt]
    cases htaken : taken (hostPidAt next 0) with
    | false => exact ⟨0, Nat.succ_pos tries, rfl, htaken, fun j hj => absurd hj (Nat.not_lt_zero j)⟩
    | true =>
      -- the rest of the scan is a scan from the next number
      have hbefore : ∀ n, (∀ j, j < n → taken (hostPidAt (hostPidAt next 0 + 1) j) = true) →
          ∀ j, j < n + 1 → taken (hostPidAt next j) = true := by
        intro n h j hj
        cases j with
        | zero => exact htaken
        | succ j =>
          rw [← hostPidAt_succ hnext]
          exact h j (Nat.lt_of_succ_lt_succ hj)
      have hrest := ih (hostCursor_succ next 0)
      rw [if_pos rfl]
      split at hrest
      · exact hbefore tries hrest
      · obtain ⟨i, hi, hpid, hfree, h⟩ := hrest
        rw [hostPidAt_succ hnext] at hpid
        exact ⟨i + 1, Nat.succ_lt_succ hi, hpid, hfree, hbefore i h⟩

/-- Every host pid is looked at, in its turn. -/
theorem hostPidAt_rank {pid : Nat} (hnext : HostCursor next) (hpid : 1 ≤ pid ∧ pid < 1000) :
    hostPidAt next (hostPidRank next pid) = pid ∧ hostPidRank next pid < 999 := by
  obtain ⟨hlow, hhigh⟩ := hnext
  unfold hostPidAt hostPidRank
  omega

theorem hostPidRank_at {i : Nat} (hnext : HostCursor next) (hi : i < 999) :
    hostPidRank next (hostPidAt next i) = i := by
  obtain ⟨hlow, hhigh⟩ := hnext
  unfold hostPidAt hostPidRank
  omega

theorem hostPidSearch_cursor {taken : Pid → Bool} {tries : Nat} (hnext : HostCursor next) :
    HostCursor (hostPidSearch taken tries next).2 := by
  induction tries generalizing next with
  | zero => exact hnext
  | succ tries ih =>
    rw [hostPidSearch]
    simp only [hostPidAt_zero hnext, satAdd_hostPidAt]
    cases taken (hostPidAt next 0) with
    | false => exact hostCursor_succ next 0
    | true => exact ih (hostCursor_succ next 0)

/-! ### Spawns in two halves -/

/-- `spawn_cached_process` up to the call of the host: the pid it reserves, and the arguments. -/
def Kernel.spawnCachedBegin (argvRequest : Bytes) :
    Except Int (Pid × List Bytes) × Kernel σ :=
  match parseArgvRecords (argvRequest.length + 1) argvRequest with
  | .error rc => (.error rc, k)
  | .ok argv =>
    match k.tryAllocHostPid with
    | (none, k) => (.error (-EAGAIN), k)
    | (some pid, k) => (.ok (pid, argv), k)

/-- `spawn_cached_process` once the host has answered with `handle`. -/
def Kernel.spawnCachedEnd (pid parentPid : Pid) (argv : List Bytes) (handle : Int) :
    Int × Kernel σ :=
  if handle < 0 then (handle, k.releaseHostPidReservation pid)
  else (pid, k.insertHostProcess pid parentPid argv (some handle))

/-- When nothing runs in between, the halves make up the call. -/
theorem Kernel.spawnCachedProcess_halves (parentPid : Pid)
    (moduleId argvRequest : Bytes) :
    k.spawnCachedProcess kh parentPid moduleId argvRequest =
      match k.spawnCachedBegin argvRequest with
      | (.error rc, k) => (rc, k)
      | (.ok (pid, argv), k) =>
        let answer := kh.spawnProcess k.host moduleId (leBytes 2 1 ++ leBytes 2 0 ++ leBytes 4 pid ++
          leBytes 4 argvRequest.length ++ argvRequest)
        spawnCachedEnd { k with host := answer.2 } pid parentPid argv answer.1 := by
  unfold spawnCachedProcess spawnCachedBegin
  cases parseArgvRecords (argvRequest.length + 1) argvRequest with
  | error rc => rfl
  | ok argv =>
    simp only
    generalize k.tryAllocHostPid = found
    obtain ⟨_ | pid, k'⟩ := found
    · rfl
    · rfl

end

/-! ### Worlds -/

/-- A spawn that waits for the host. -/
structure Reservation where
  pid : Pid
  parentPid : Pid
  argv : List Bytes
  deriving DecidableEq

structure PidWorld (σ : Type) where
  kernel : Kernel σ
  spawning : List Reservation

inductive PidEvent where
  | spawn (parentPid : Pid) (argvRequest : Bytes)
  /-- `kh_spawn_process` returns to one of the spawns under way -/
  | spawnReturns (r : Reservation) (handle : Int)
  | prepareFork (parentPid : Pid)
  | commitFork (parentPid childPid : Pid)
  | rollbackFork (parentPid childPid : Pid)
  deriving DecidableEq

section
variable (kh : Kh σ) (w : PidWorld σ)

def PidEvent.step : PidEvent → PidWorld σ
  | spawn parentPid argvRequest =>
    match w.kernel.spawnCachedBegin argvRequest with
    | (.error _, k) => { w with kernel := k }
    | (.ok (pid, argv), k) => ⟨k, ⟨pid, parentPid, argv⟩ :: w.spawning⟩
  | spawnReturns r handle =>
    -- the host answers only what it was asked
    if r ∈ w.spawning then
      ⟨(w.kernel.spawnCachedEnd r.pid r.parentPid r.argv handle).2, w.spawning.erase r⟩
    else w
  | prepareFork parentPid => { w with kernel := (w.kernel.prepareFork parentPid).2 }
  | commitFork parentPid childPid => { w with kernel := (w.kernel.commitFork parentPid childPid).2 }
  | rollbackFork parentPid childPid =>
    { w with kernel := (w.kernel.rollbackFork kh parentPid childPid).2 }

/-- No spawn under way has reserved `pid`, and no process has it. -/
def PidWorld.Free (pid : Pid) : Prop :=
  (∀ r ∈ w.spawning, r.pid ≠ pid) ∧ w.kernel.processes.get? pid = none

/-- A pid that is handed out is neither reserved nor in use, and a spawn that is committed finds no
    record under its pid. -/
def PidEvent.PidsKept : PidEvent → Prop
  | spawn _ argvRequest => ∀ pid argv k, w.kernel.spawnCachedBegin argvRequest = (.ok (pid, argv), k) →
      w.Free pid
  | prepareFork parentPid => ∀ pid k, w.kernel.prepareFork parentPid = (.ok pid, k) → w.Free pid
  | spawnReturns r handle => r ∈ w.spawning → 0 ≤ handle → w.kernel.processes.get? r.pid = none
  | _ => True

/-- Whether an event asks for a pid. -/
def PidEvent.asks : PidEvent → Prop
  | spawn _ argvRequest => ∃ argv, parseArgvRecords (argvRequest.length + 1) argvRequest = .ok argv
  | prepareFork parentPid => ∃ parent, w.kernel.processes.get? parentPid = some parent ∧
      parent.forkState = .running ∧ parent.exitStatus = none ∧ parent.threads.size ≤ 1
  | _ => False

/-- From the cursor on, a free pid comes before every reserved one. -/
def PidWorld.ScanClear : Prop :=
  ∀ r ∈ w.spawning, ∃ pid, 1 ≤ pid ∧ pid < 1000 ∧ w.Free pid ∧
    hostPidRank w.kernel.nextHostPid pid < hostPidRank w.kernel.nextHostPid r.pid

end

/-- The pids of the spawns under way are distinct pids of host processes without a record. -/
structure PidWorld.Reserved (w : PidWorld σ) : Prop where
  cursor : HostCursor w.kernel.nextHostPid
  nodup : (w.spawning.map Reservation.pid).Nodup
  range : ∀ r ∈ w.spawning, 1 ≤ r.pid ∧ r.pid < 1000
  absent : ∀ r ∈ w.spawning, w.kernel.processes.get? r.pid = none

variable {w : PidWorld σ} {k : Kernel σ}

theorem hostPidAt_range (next i : Nat) : 1 ≤ hostPidAt next i ∧ hostPidAt next i < 1000 := by
  unfold hostPidAt
  omega

/-- The pid handed out is the first one without a record. -/
theorem Kernel.tryAllocHostPid_first {pid : Pid} (hcursor : HostCursor k.nextHostPid)
    (h : k.tryAllocHostPid.1 = some pid) :
    (1 ≤ pid ∧ pid < 1000) ∧ k.processes.get? pid = none ∧
      ∀ q, 1 ≤ q ∧ q < 1000 → k.processes.get? q = none →
        hostPidRank k.nextHostPid pid ≤ hostPidRank k.nextHostPid q := by
  have hfound := hostPidSearch_spec k.hasProcess 999 hcursor
  have h : (hostPidSearch k.hasProcess 999 k.nextHostPid).1 = some pid := h
  rw [h] at hfound
  obtain ⟨i, hi, rfl, hfree, hbefore⟩ := hfound
  refine ⟨hostPidAt_range _ i, contains_eq_false.mp hfree, fun q hq hnone => ?_⟩
  obtain ⟨hat, -⟩ := hostPidAt_rank hcursor hq
  rw [hostPidRank_at hcursor hi]
  by_contra hlt
  have htaken := hbefore _ (not_le.mp hlt)
  rw [hat] at htaken
  have hopen : k.hasProcess q = false := contains_eq_false.mpr hnone
  rw [hopen] at htaken
  cases htaken

/-- As long as a pid has no record, one is handed out. -/
theorem Kernel.tryAllocHostPid_ne_none (hcursor : HostCursor k.nextHostPid) (hq : 1 ≤ q ∧ q < 1000)
    (hnone : k.processes.get? q = none) : k.tryAllocHostPid.1 ≠ none := by
  intro h
  have hfound := hostPidSearch_spec k.hasProcess 999 hcursor
  have h : (hostPidSearch k.hasProcess 999 k.nextHostPid).1 = none := h
  rw [h] at hfound
  obtain ⟨hat, hlt⟩ := hostPidAt_rank hcursor hq
  have htaken := hfound _ hlt
  rw [hat] at htaken
  have hopen : k.hasProcess q = false := contains_eq_false.mpr hnone
  rw [hopen] at htaken
  cases htaken

/-- The pid handed out is free if and only if the scan is clear. -/
theorem PidWorld.Reserved.alloc_free_iff (h : w.Reserved) :
    (∀ pid, w.kernel.tryAllocHostPid.1 = some pid → w.Free pid) ↔ w.ScanClear := by
  obtain ⟨hcursor, -, hrange, habsent⟩ := h
  constructor
  · intro hfree r hr
    cases hfound : w.kernel.tryAllocHostPid.1 with
    | none =>
      -- the reserved pid itself has no record
      exact absurd hfound (tryAllocHostPid_ne_none hcursor (hrange r hr) (habsent r hr))
    | some pid =>
      obtain ⟨⟨hlow, hhigh⟩, -, hfirst⟩ := tryAllocHostPid_first hcursor hfound
      have hpid := hfree pid hfound
      refine ⟨pid, hlow, hhigh, hpid, lt_of_le_of_ne (hfirst r.pid (hrange r hr) (habsent r hr)) ?_⟩
      intro hsame
      have hat := (hostPidAt_rank hcursor ⟨hlow, hhigh⟩).1
      rw [hsame, (hostPidAt_rank hcursor (hrange r hr)).1] at hat
      exact hpid.1 r hr hat
  · intro hclear pid hfound
    obtain ⟨-, hnone, hfirst⟩ := tryAllocHostPid_first hcursor hfound
    refine ⟨fun r hr hsame => ?_, hnone⟩
    obtain ⟨q, hlow, hhigh, hq, hlt⟩ := hclear r hr
    rw [hsame] at hlt
    exact absurd (hfirst q ⟨hlow, hhigh⟩ hq.2) (not_le.mpr hlt)

/-! ### What the events do to pids -/

theorem Kernel.cursor_tryAllocHostPid (h : HostCursor k.nextHostPid) :
    HostCursor k.tryAllocHostPid.2.nextHostPid := hostPidSearch_cursor h

theorem Kernel.cursor_releaseHostPidReservation (h : HostCursor k.nextHostPid) (pid : Pid) :
    HostCursor (k.releaseHostPidReservation pid).nextHostPid := by
  unfold releaseHostPidReservation
  split_ifs with hpid
  · exact ⟨hpid.1, le_of_lt hpid.2.1⟩
  · exact h

section
variable (kh : Kh σ) (k : Kernel σ) (parentPid childPid : Pid)

namespace Kernel

@[simp] theorem processes_releaseHostPidReservation (pid : Pid) :
    (k.releaseHostPidReservation pid).processes = k.processes := by
  unfold releaseHostPidReservation
  split_ifs <;> rfl

/-- A fork either stores its child under the pid it got, or leaves the records alone. -/
theorem prepareFork_cases (parentPid : Pid) :
    (∃ parent child k', k.processes.get? parentPid = some parent ∧ parent.forkState = .running ∧
      parent.exitStatus = none ∧ parent.threads.size ≤ 1 ∧ k.tryAllocHostPid.1 = some child ∧
      k.prepareFork parentPid = (.ok child, k') ∧
      k'.procView = ⟨k.processes.insert child (parent.forkChild parentPid),
        k.tryAllocHostPid.2.nextHostPid, k.pendingThreadReleases⟩) ∨
    ∃ errno k', k.prepareFork parentPid = (.error errno, k') ∧ k'.processes = k.processes ∧
      k'.pendingThreadReleases = k.pendingThreadReleases ∧
      (k'.nextHostPid = k.nextHostPid ∨ k'.nextHostPid = k.tryAllocHostPid.2.nextHostPid) ∧
      ((∃ parent, k.processes.get? parentPid = some parent ∧ parent.forkState = .running ∧
        parent.exitStatus = none ∧ parent.threads.size ≤ 1) → k.tryAllocHostPid.1 = none) := by
  unfold prepareFork
  cases hparent : k.processes.get? parentPid with
  | none => exact .inr ⟨ESRCH, k, rfl, rfl, rfl, .inl rfl, by simp⟩
  | some parent =>
    simp only
    split
    · rename_i hgone
      refine .inr ⟨ESRCH, k, rfl, rfl, rfl, .inl rfl, ?_⟩
      rintro ⟨p, hp, hrunning, halive, -⟩
      cases hp
      rcases hgone with hnot | hexited
      · exact absurd hrunning hnot
      · rw [halive] at hexited
        cases hexited
    · rename_i hgone
      obtain ⟨hrunning, halive⟩ := not_or.mp hgone
      split
      · rename_i hmany
        refine .inr ⟨EAGAIN, k, rfl, rfl, rfl, .inl rfl, ?_⟩
        rintro ⟨p, hp, -, -, hone⟩
        cases hp
        exact absurd hmany (not_lt.mpr hone)
      · rename_i hmany
        have halloc : k.tryAllocHostPid.2.processes = k.processes := rfl
        have hpending : k.tryAllocHostPid.2.pendingThreadReleases = k.pendingThreadReleases := rfl
        generalize k.tryAllocHostPid = found at halloc hpending
        obtain ⟨_ | child, k'⟩ := found
        · exact .inr ⟨EAGAIN, k', rfl, halloc, hpending, .inr rfl, fun _ => rfl⟩
        · refine .inl ⟨parent, child, _, rfl, not_not.mp hrunning, by simpa using halive,
            not_lt.mp hmany, rfl, rfl, ?_⟩
          have hrefs := procView_foldl procView_incFdEntryRef
            parent.fdTable.entries.values k'
          simp only [procView, setProcess, ProcView.mk.injEq] at hrefs ⊢
          rw [hrefs.1, hrefs.2.1, hrefs.2.2]
          exact ⟨by rw [← halloc], rfl, hpending⟩

/-- A commit writes records that are there. -/
theorem commitFork_get?_none (h : k.processes.get? q = none) :
    (k.commitFork parentPid childPid).2.processes.get? q = none := by
  unfold commitFork
  cases hchild : k.processes.get? childPid with
  | none => exact h
  | some child =>
    have hq : q ≠ childPid := by
      rintro rfl
      rw [hchild] at h
      cases h
    simp only
    split_ifs
    · exact h
    · cases hparent : (k.setProcess childPid { child with forkState := .running }).processes.get?
          parentPid with
      | none =>
        simp only [get?_setProcess, if_neg hq]
        exact h
      | some parent =>
        have hq' : q ≠ parentPid := by
          rintro rfl
          rw [get?_setProcess, if_neg hq, h] at hparent
          cases hparent
        simp only [get?_setProcess, if_neg hq, if_neg hq']
        exact h

@[simp] theorem nextHostPid_commitFork :
    (k.commitFork parentPid childPid).2.nextHostPid = k.nextHostPid := by
  unfold commitFork
  cases k.processes.get? childPid with
  | none => rfl
  | some child =>
    simp only
    split_ifs
    · rfl
    · cases (k.setProcess childPid { child with forkState := .running }).processes.get?
          parentPid <;> rfl

@[simp] theorem pending_releaseHostPidReservation (pid : Pid) :
    (k.releaseHostPidReservation pid).pendingThreadReleases = k.pendingThreadReleases := by
  unfold releaseHostPidReservation
  split_ifs <;> rfl

/-- A rollback takes the child's record away and strikes it off the parent's list. -/
theorem rollbackFork_cases :
    (∃ child, k.processes.get? childPid = some child ∧ child.forkState = .forkPreparing parentPid ∧
      (k.rollbackFork kh parentPid childPid).1 = .ok () ∧
      (k.rollbackFork kh parentPid childPid).2.processes =
        (k.processes.erase childPid).modify parentPid
          (fun p => { p with children := p.children.filter (fun pid => pid ≠ childPid) }) ∧
      (k.rollbackFork kh parentPid childPid).2.pendingThreadReleases = k.pendingThreadReleases ∧
      (HostCursor k.nextHostPid → HostCursor (k.rollbackFork kh parentPid childPid).2.nextHostPid)) ∨
    ∃ errno, k.rollbackFork kh parentPid childPid = (.error errno, k) := by
  unfold rollbackFork
  cases hchild : k.processes.get? childPid with
  | none => exact .inr ⟨ESRCH, rfl⟩
  | some child =>
    simp only
    split
    · exact .inr ⟨EINVAL, rfl⟩
    · rename_i hfork
      have hrefs := procView_foldl (procView_decFdEntryRef kh)
        child.fdTable.entries.values { k with processes := k.processes.erase childPid }
      generalize child.fdTable.entries.values.foldl (decFdEntryRef kh)
        { k with processes := k.processes.erase childPid } = k' at hrefs
      simp only [procView, ProcView.mk.injEq] at hrefs
      obtain ⟨hprocesses, hnext, hpending⟩ := hrefs
      refine .inl ⟨child, rfl, not_not.mp hfork, rfl, ?_, ?_, fun hcursor => ?_⟩
      · simp only [processes_releaseHostPidReservation, modifyProcess, hprocesses]
      · simpa only [pending_releaseHostPidReservation, modifyProcess] using hpending
      · refine cursor_releaseHostPidReservation ?_ childPid
        simpa only [modifyProcess, hnext] using hcursor

theorem rollbackFork_get?_none (h : k.processes.get? q = none) :
    (k.rollbackFork kh parentPid childPid).2.processes.get? q = none := by
  obtain ⟨child, -, -, -, hprocesses, -, -⟩ | ⟨errno, heq⟩ := k.rollbackFork_cases kh parentPid childPid
  · have herased : (k.processes.erase childPid).get? q = none := by
      rw [get?_erase, h, ite_self]
    rw [hprocesses, get?_modify]
    by_cases hparent : q = parentPid
    · rw [if_pos hparent, ← hparent, herased]
      rfl
    · rw [if_neg hparent, herased]
  · rw [heq]
    exact h

section
variable (pid parentPid : Pid) (argv : List Bytes) (handle : Option Int)

theorem insertHostProcess_get?_none (hq : q ≠ pid) (h : k.processes.get? q = none) :
    (k.insertHostProcess pid parentPid argv handle).processes.get? q = none := by
  unfold insertHostProcess
  simp only
  split_ifs
  · by_cases hparent : q = parentPid
    · subst hparent
      simp [modifyProcess, updProcess, get?_modify, hq, h]
    · simp [modifyProcess, updProcess, get?_modify, hq, h, hparent]
  · simp [updProcess, hq, h]

@[simp] theorem nextHostPid_insertHostProcess :
    (k.insertHostProcess pid parentPid argv handle).nextHostPid = k.nextHostPid := by
  unfold insertHostProcess
  simp only
  split_ifs <;> rfl

end

/-- A spawn reserves the pid it got, or fails. -/
theorem spawnCachedBegin_cases (argvRequest : Bytes) :
    (∃ argv, parseArgvRecords (argvRequest.length + 1) argvRequest = .ok argv ∧
      ((∃ pid, k.tryAllocHostPid.1 = some pid ∧
        k.spawnCachedBegin argvRequest = (.ok (pid, argv), k.tryAllocHostPid.2)) ∨
      (k.tryAllocHostPid.1 = none ∧
        k.spawnCachedBegin argvRequest = (.error (-EAGAIN), k.tryAllocHostPid.2)))) ∨
    (∃ rc, parseArgvRecords (argvRequest.length + 1) argvRequest = .error rc ∧
      k.spawnCachedBegin argvRequest = (.error rc, k)) := by
  unfold spawnCachedBegin
  cases parseArgvRecords (argvRequest.length + 1) argvRequest with
  | error rc => exact .inr ⟨rc, rfl, rfl⟩
  | ok argv =>
    refine .inl ⟨argv, rfl, ?_⟩
    simp only
    generalize k.tryAllocHostPid = found
    obtain ⟨_ | pid, k'⟩ := found
    · exact .inr ⟨rfl, rfl⟩
    · exact .inl ⟨pid, rfl, rfl⟩

end Kernel

end

/-! ### Runs -/

/-- Under the invariant, an event keeps pids apart if and only if it asks for none or the scan is
    clear. -/
theorem PidWorld.Reserved.pidsKept_iff (h : w.Reserved) (e : PidEvent) :
    e.PidsKept w ↔ (e.asks w → w.ScanClear) := by
  rw [← h.alloc_free_iff]
  cases e with
  | spawn parentPid argvRequest =>
    simp only [PidEvent.PidsKept, PidEvent.asks]
    obtain ⟨argv, hparse, ⟨pid, halloc, heq⟩ | ⟨halloc, heq⟩⟩ | ⟨rc, hparse, heq⟩ :=
      w.kernel.spawnCachedBegin_cases argvRequest
    · rw [heq, halloc, hparse]
      constructor
      · rintro hkept - p hp
        cases hp
        exact hkept pid argv _ rfl
      · rintro hfree p a k' hok
        cases hok
        exact hfree ⟨argv, rfl⟩ pid rfl
    · rw [heq, halloc]
      exact iff_of_true (fun _ _ _ hok => by cases hok) (fun _ _ hp => by cases hp)
    · rw [heq, hparse]
      exact iff_of_true (fun _ _ _ hok => by cases hok) (fun hasks => by obtain ⟨_, hok⟩ := hasks; cases hok)
  | prepareFork parentPid =>
    simp only [PidEvent.PidsKept, PidEvent.asks]
    obtain ⟨parent, child, k', hparent, hrunning, halive, hone, halloc, heq, -⟩ |
      ⟨errno, k', heq, -, -, -, hnone⟩ := w.kernel.prepareFork_cases parentPid
    · rw [heq, halloc]
      constructor
      · rintro hkept - p hp
        cases hp
        exact hkept child k' rfl
      · rintro hfree p k'' hok
        cases hok
        exact hfree ⟨parent, hparent, hrunning, halive, hone⟩ child rfl
    · rw [heq]
      refine iff_of_true (fun _ _ hok => by cases hok) (fun hasks p hp => ?_)
      rw [hnone hasks] at hp
      cases hp
  | spawnReturns r handle =>
    exact iff_of_true (fun hr _ => h.absent r hr) (fun hasks => hasks.elim)
  | commitFork | rollbackFork => exact iff_of_true trivial (fun hasks => hasks.elim)

/-- The same reservations with another kernel. -/
theorem PidWorld.Reserved.withKernel (h : w.Reserved) {k : Kernel σ} (hcursor : HostCursor k.nextHostPid)
    (habsent : ∀ r ∈ w.spawning, k.processes.get? r.pid = none) :
    PidWorld.Reserved { w with kernel := k } :=
  ⟨hcursor, h.nodup, h.range, habsent⟩

/-- An event that keeps pids apart keeps the invariant. -/
theorem PidWorld.Reserved.step (kh : Kh σ) (h : w.Reserved) (e : PidEvent) (he : e.PidsKept w) :
    (e.step kh w).Reserved := by
  have hcursor := h.cursor
  cases e with
  | spawn parentPid argvRequest =>
    simp only [PidEvent.step, PidEvent.PidsKept] at he ⊢
    obtain ⟨argv, -, ⟨pid, halloc, heq⟩ | ⟨-, heq⟩⟩ | ⟨rc, -, heq⟩ :=
      w.kernel.spawnCachedBegin_cases argvRequest
    · obtain ⟨hrange, hnone, -⟩ := tryAllocHostPid_first hcursor halloc
      have hfree := he pid argv _ heq
      rw [heq]
      refine ⟨cursor_tryAllocHostPid hcursor, List.nodup_cons.mpr ⟨?_, h.nodup⟩, ?_, ?_⟩
      · intro hmem
        obtain ⟨r, hr, hsame⟩ := List.mem_map.mp hmem
        exact hfree.1 r hr hsame
      · exact List.forall_mem_cons.mpr ⟨hrange, h.range⟩
      · exact List.forall_mem_cons.mpr ⟨hnone, h.absent⟩
    · rw [heq]
      exact h.withKernel (cursor_tryAllocHostPid hcursor) h.absent
    · rw [heq]
      exact h
  | spawnReturns r handle =>
    simp only [PidEvent.step]
    split
    · rename_i hr
      have hothers : ∀ r' ∈ w.spawning.erase r, r' ∈ w.spawning ∧ r'.pid ≠ r.pid := by
        intro r' hr'
        obtain ⟨hne, hmem⟩ := (List.Nodup.of_map _ h.nodup).mem_erase_iff.mp hr'
        exact ⟨hmem, fun hsame => hne (List.inj_on_of_nodup_map h.nodup hmem hr hsame)⟩
      have hnodup : ((w.spawning.erase r).map Reservation.pid).Nodup :=
        h.nodup.sublist (List.erase_sublist.map _)
      unfold spawnCachedEnd
      split
      · refine ⟨cursor_releaseHostPidReservation hcursor r.pid, hnodup,
          fun r' hr' => h.range r' (hothers r' hr').1, fun r' hr' => ?_⟩
        rw [processes_releaseHostPidReservation]
        exact h.absent r' (hothers r' hr').1
      · refine ⟨?_, hnodup, fun r' hr' => h.range r' (hothers r' hr').1, fun r' hr' => ?_⟩
        · rw [nextHostPid_insertHostProcess]
          exact hcursor
        · obtain ⟨hmem, hne⟩ := hothers r' hr'
          exact insertHostProcess_get?_none _ _ _ _ _ hne (h.absent r' hmem)
    · exact h
  | prepareFork parentPid =>
    simp only [PidEvent.step, PidEvent.PidsKept] at he ⊢
    obtain ⟨parent, child, k', -, -, -, -, halloc, heq, hview⟩ |
      ⟨errno, k', heq, hprocesses, -, hnext, -⟩ := w.kernel.prepareFork_cases parentPid
    · have hfree := he child k' heq
      simp only [procView, ProcView.mk.injEq] at hview
      rw [heq]
      refine h.withKernel ?_ (fun r hr => ?_)
      · rw [hview.2.1]
        exact cursor_tryAllocHostPid hcursor
      · rw [hview.1, get?_insert_ne _ _ (hfree.1 r hr)]
        exact h.absent r hr
    · rw [heq]
      refine h.withKernel ?_ (fun r hr => ?_)
      · rcases hnext with hsame | hmoved
        · rw [hsame]
          exact hcursor
        · rw [hmoved]
          exact cursor_tryAllocHostPid hcursor
      · rw [hprocesses]
        exact h.absent r hr
  | commitFork parentPid childPid =>
    refine h.withKernel ?_ (fun r hr => commitFork_get?_none _ _ _ (h.absent r hr))
    rw [nextHostPid_commitFork]
    exact hcursor
  | rollbackFork parentPid childPid =>
    refine h.withKernel ?_ (fun r hr => rollbackFork_get?_none kh _ _ _ (h.absent r hr))
    obtain ⟨child, -, -, -, -, -, hmoved⟩ | ⟨errno, heq⟩ :=
      w.kernel.rollbackFork_cases kh parentPid childPid
    · exact hmoved hcursor
    · rw [heq]
      exact hcursor

/-- A kernel with no spawn under way. -/
def PidWorld.start (k : Kernel σ) : PidWorld σ := ⟨k, []⟩

/-- Along a run of nested spawns and forks pids are kept apart if and only if each event that asks
    for a pid finds a free one before all reserved ones. -/
theorem host_pids_unique_iff (kh : Kh σ) (k : Kernel σ) (hk : HostCursor k.nextHostPid)
    (es : List PidEvent) :
    Run.Along (PidEvent.step kh) (fun w e => e.PidsKept w) (PidWorld.start k) es ↔
      Run.Along (PidEvent.step kh) (fun w e => e.asks w → w.ScanClear) (PidWorld.start k) es := by
  refine Run.along_iff (PidEvent.step kh) (I := PidWorld.Reserved) (C := fun _ => True)
    (fun w e hw _ => hw.pidsKept_iff e) (fun w e hw _ he => hw.step kh e ((hw.pidsKept_iff e).mpr he))
    ⟨hk, List.nodup_nil, ?_, ?_⟩ (fun _ _ => trivial)
  · exact fun r hr => absurd hr List.not_mem_nil
  · exact fun r hr => absurd hr List.not_mem_nil

/-- Two spawns of process 1 nested in each other; the host refuses the inner one. -/
def nestedHostSpawns : List PidEvent :=
  [.spawn 1 [], .spawn 1 [], .spawnReturns ⟨3, 1, []⟩ (-EAGAIN), .spawnReturns ⟨2, 1, []⟩ 5]

theorem host_pids_unique_iff_nestedHostSpawns : HostCursor oneProcess.nextHostPid ∧
    Run.Along (PidEvent.step Kh.absent) (fun w e => e.PidsKept w) (PidWorld.start oneProcess)
      nestedHostSpawns := by
  have hk : HostCursor oneProcess.nextHostPid := ⟨by decide, by decide⟩
  refine ⟨hk, (host_pids_unique_iff Kh.absent oneProcess hk nestedHostSpawns).mpr
    ⟨?_, ?_, fun hasks => hasks.elim, fun hasks => hasks.elim, trivial⟩⟩
  · exact fun _ r hr => absurd hr List.not_mem_nil
  · intro _ r hr
    obtain rfl := List.mem_singleton.mp hr
    refine ⟨3, by decide, by decide, ⟨fun r hr => ?_, by decide⟩, by decide⟩
    obtain rfl := List.mem_singleton.mp hr
    decide

/-- A fork is prepared; while the host works on a spawn the fork is rolled back, and two more spawns
    are made. -/
def rollbackInSpawn : List PidEvent :=
  [.prepareFork 1, .spawn 1 [], .rollbackFork 1 2, .spawn 1 [], .spawnReturns ⟨2, 1, []⟩ 5,
    .spawn 1 [], .spawnReturns ⟨3, 1, []⟩ 6]

/-- The third spawn gets the pid the first one holds, and the first one will overwrite its record. -/
theorem reserved_pid_handed_out_twice :
    let before := Run.run (PidEvent.step Kh.absent) (PidWorld.start oneProcess)
      (rollbackInSpawn.take 5)
    let after := Run.run (PidEvent.step Kh.absent) (PidWorld.start oneProcess) rollbackInSpawn
    before.spawning = [⟨3, 1, []⟩] ∧ (before.kernel.spawnCachedBegin []).1 = .ok (3, []) ∧
      after.spawning = [⟨3, 1, []⟩] ∧ after.kernel.processes.contains 3 = true ∧
      ¬ Run.Along (PidEvent.step Kh.absent) (fun w e => e.PidsKept w)
        (PidWorld.start oneProcess) rollbackInSpawn := by
  refine ⟨by decide, by decide, by decide, by decide, fun h => ?_⟩
  have hkept := (Run.along_iff_split (PidEvent.step Kh.absent)).mp h (rollbackInSpawn.take 5)
    (.spawn 1 []) [.spawnReturns ⟨3, 1, []⟩ 6] rfl
  obtain ⟨hunreserved, -⟩ := hkept 3 [] _ (Prod.ext (by decide) rfl)
  exact hunreserved ⟨3, 1, []⟩ (by decide) rfl

end Yurt
