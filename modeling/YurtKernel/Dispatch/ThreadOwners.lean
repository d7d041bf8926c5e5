import YurtKernel.Kernel.HostPids
import YurtKernel.Dispatch.ThreadHandles

/-! Whose handles a guest can have released.

    A thread record holds a number from one of two host calls: a worker's came from
    `kh_thread_spawn`, the main thread's from `kh_spawn_process`. Both go to `kh_thread_release` when
    the record is given up, so processes are kept to their own threads' handles only as long as no
    main thread's number is given up. -/

namespace Yurt
open Kernel SortedMap
variable {σ : Type}
variable {given : Option Int}

/-- Calls on threads, and the ways for processes to come and go. -/
inductive HostEvent where
  | thread (e : ThreadEvent)
  | spawnProcess (parentPid : Pid) (moduleId argvRequest : Bytes)
  | prepareFork (parentPid : Pid)
  | commitFork (parentPid childPid : Pid)
  | rollbackFork (parentPid childPid : Pid)
  deriving DecidableEq

def HostEvent.step (kh : Kh σ) (w : ThreadWorld σ) : HostEvent → ThreadWorld σ
  | thread e => e.step w
  | spawnProcess parentPid moduleId argvRequest =>
    { w with kernel := (w.kernel.spawnCachedProcess kh parentPid moduleId argvRequest).2 }
  | prepareFork parentPid => { w with kernel := (w.kernel.prepareFork parentPid).2 }
  | commitFork parentPid childPid => { w with kernel := (w.kernel.commitFork parentPid childPid).2 }
  | rollbackFork parentPid childPid =>
    { w with kernel := (w.kernel.rollbackFork kh parentPid childPid).2 }

/-! ### Processes come and go without workers -/

/-- Every worker's record was there before, and no handle is pending that was not. -/
structure Kernel.NoNewWorkers (k k' : Kernel σ) : Prop where
  back : ∀ p t r, k'.thread p t = some r → t ≠ mainThreadTid → k.thread p t = some r
  pending : k'.pendingThreadReleases = k.pendingThreadReleases

section
variable (kh : Kh σ) (k : Kernel σ)

namespace Kernel

theorem NoNewWorkers.refl : k.NoNewWorkers k := ⟨fun _ _ _ h _ => h, rfl⟩

theorem NoNewWorkers.trans {k₁ k₂ k₃ : Kernel σ} (h₁₂ : k₁.NoNewWorkers k₂)
    (h₂₃ : k₂.NoNewWorkers k₃) : k₁.NoNewWorkers k₃ where
  back p t r hr hworker := h₁₂.back p t r (h₂₃.back p t r hr hworker) hworker
  pending := h₂₃.pending.trans h₁₂.pending

theorem NoNewWorkers.of_processes {k k' : Kernel σ} (h : k'.processes = k.processes)
    (hpending : k'.pendingThreadReleases = k.pendingThreadReleases) : k.NoNewWorkers k' where
  back p t r hr _ := by rwa [thread, h] at hr
  pending := hpending

/-- A record with the threads of the one before it, or a main thread alone. -/
theorem NoNewWorkers.setProcess {k : Kernel σ} {pid : Pid} {p : Process}
    (h : (∃ q, k.processes.get? pid = some q ∧ p.threads = q.threads) ∨
      ∃ handle, p.threads = SortedMap.empty.insert mainThreadTid (.main handle)) :
    k.NoNewWorkers (k.setProcess pid p) where
  back a t r hr hworker := by
    rw [thread_setProcess] at hr
    by_cases ha : a = pid
    · rw [if_pos ha] at hr
      rcases h with ⟨q, hq, hthreads⟩ | ⟨handle, hthreads⟩
      · rw [hthreads] at hr
        exact thread_eq_some.mpr ⟨q, ha ▸ hq, hr⟩
      · rw [hthreads, get?_insert_ne _ _ hworker] at hr
        cases hr
    · rwa [if_neg ha] at hr
  pending := rfl

theorem NoNewWorkers.modifyProcess (pid : Pid) {f : Process → Process}
    (hf : ∀ p, (f p).threads = p.threads) : k.NoNewWorkers (k.modifyProcess pid f) where
  back a t r hr _ := by
    obtain ⟨p, hp, hr⟩ := thread_eq_some.mp hr
    rw [Kernel.modifyProcess, get?_modify] at hp
    by_cases ha : a = pid
    · rw [if_pos ha] at hp
      obtain ⟨q, hq, rfl⟩ := Option.map_eq_some_iff.mp hp
      rw [hf] at hr
      exact thread_eq_some.mpr ⟨q, ha ▸ hq, hr⟩
    · rw [if_neg ha] at hp
      exact thread_eq_some.mpr ⟨p, hp, hr⟩
  pending := rfl

theorem NoNewWorkers.prepareFork (parentPid : Pid) : k.NoNewWorkers (k.prepareFork parentPid).2 := by
  obtain ⟨parent, child, k', -, -, -, -, -, heq, hview⟩ | ⟨errno, k', heq, hprocesses, hpending, -, -⟩ :=
    k.prepareFork_cases parentPid
  · rw [heq]
    simp only [procView, ProcView.mk.injEq] at hview
    have hset : k.NoNewWorkers (k.setProcess child (parent.forkChild parentPid)) :=
      .setProcess (.inr ⟨none, rfl⟩)
    exact hset.trans (.of_processes hview.1 hview.2.2)
  · rw [heq]
    exact .of_processes hprocesses hpending

theorem NoNewWorkers.commitFork (parentPid childPid : Pid) :
    k.NoNewWorkers (k.commitFork parentPid childPid).2 := by
  unfold Kernel.commitFork
  cases hchild : k.processes.get? childPid with
  | none => exact .refl k
  | some child =>
    simp only
    split_ifs
    · exact .refl k
    · have hset : k.NoNewWorkers (k.setProcess childPid { child with forkState := .running }) :=
        .setProcess (.inl ⟨child, hchild, rfl⟩)
      cases hparent : (k.setProcess childPid { child with forkState := .running }).processes.get?
          parentPid with
      | none => exact hset
      | some parent => exact hset.trans (.setProcess (.inl ⟨parent, hparent, rfl⟩))

theorem NoNewWorkers.rollbackFork (parentPid childPid : Pid) :
    k.NoNewWorkers (k.rollbackFork kh parentPid childPid).2 := by
  obtain ⟨child, -, -, -, hprocesses, hpending, -⟩ | ⟨errno, heq⟩ :=
    k.rollbackFork_cases kh parentPid childPid
  · have herase : k.NoNewWorkers { k with processes := k.processes.erase childPid } := by
      refine ⟨fun p t r hr _ => ?_, rfl⟩
      obtain ⟨q, hq, hr⟩ := thread_eq_some.mp hr
      rw [get?_erase] at hq
      split_ifs at hq
      exact thread_eq_some.mpr ⟨q, hq, hr⟩
    have hmodify := NoNewWorkers.modifyProcess { k with processes := k.processes.erase childPid }
      parentPid (f := fun p => { p with children := p.children.filter (fun pid => pid ≠ childPid) })
      (fun _ => rfl)
    exact herase.trans (hmodify.trans (.of_processes hprocesses hpending))
  · rw [heq]
    exact .refl k

theorem NoNewWorkers.insertHostProcess (pid parentPid : Pid) (argv : List Bytes)
    (handle : Option Int) : k.NoNewWorkers (k.insertHostProcess pid parentPid argv handle) := by
  unfold Kernel.insertHostProcess
  simp only
  split_ifs
  · exact (NoNewWorkers.setProcess (.inr ⟨handle, rfl⟩)).trans
      (.modifyProcess _ _ (fun _ => rfl))
  · exact .setProcess (.inr ⟨handle, rfl⟩)

theorem NoNewWorkers.spawnCachedEnd (pid parentPid : Pid) (argv : List Bytes)
    (handle : Int) : k.NoNewWorkers (k.spawnCachedEnd pid parentPid argv handle).2 := by
  unfold Kernel.spawnCachedEnd
  split_ifs
  · exact .of_processes (processes_releaseHostPidReservation k pid)
      (pending_releaseHostPidReservation k pid)
  · exact .insertHostProcess k pid parentPid argv _

theorem NoNewWorkers.spawnCachedProcess (parentPid : Pid) (moduleId argvRequest : Bytes) :
    k.NoNewWorkers (k.spawnCachedProcess kh parentPid moduleId argvRequest).2 := by
  have halloc : k.NoNewWorkers k.tryAllocHostPid.2 := .of_processes rfl rfl
  rw [spawnCachedProcess_halves]
  obtain ⟨argv, -, ⟨pid, -, heq⟩ | ⟨-, heq⟩⟩ | ⟨rc, -, heq⟩ := k.spawnCachedBegin_cases argvRequest
  · rw [heq]
    have hhost : ∀ host, k.NoNewWorkers { k.tryAllocHostPid.2 with host := host } :=
      fun _ => .of_processes rfl rfl
    exact (hhost _).trans (.spawnCachedEnd _ pid parentPid argv _)
  · rw [heq]
    exact halloc
  · rw [heq]
    exact .refl k

end Kernel

/-- Whatever event is not a call on threads. -/
theorem HostEvent.noNewWorkers (w : ThreadWorld σ) {e : HostEvent}
    (he : ∀ t, e ≠ .thread t) : w.kernel.NoNewWorkers (e.step kh w).kernel ∧
      (e.step kh w).notes = w.notes := by
  cases e with
  | thread t => exact absurd rfl (he t)
  | spawnProcess parentPid moduleId argvRequest => exact ⟨.spawnCachedProcess .., rfl⟩
  | prepareFork parentPid => exact ⟨.prepareFork .., rfl⟩
  | commitFork parentPid childPid => exact ⟨.commitFork .., rfl⟩
  | rollbackFork parentPid childPid => exact ⟨.rollbackFork .., rfl⟩

end

/-! ### Where released handles come from -/

/-- The records of workers, and all releases, have handles that `kh_thread_spawn` returned for a
    thread of the process. -/
structure ThreadWorld.HandlesOwned (w : ThreadWorld σ) : Prop where
  held : ∀ pid tid r handle, w.kernel.thread pid tid = some r → tid ≠ mainThreadTid →
    r.hostThreadHandle = some handle → .spawned pid tid handle ∈ w.notes
  released : ∀ pid handle, .released pid handle ∈ w.notes → ∃ tid, .spawned pid tid handle ∈ w.notes

def HostEvent.KeepsInstance (w : ThreadWorld σ) : HostEvent → Prop
  | .thread e => e.KeepsInstance w
  | _ => True

variable {w w' : ThreadWorld σ} {clean : Prop} {pid : Pid} {tid : Tid}

theorem released_mem_releaseNotes {p : Pid} {handle : Int} :
    .released p handle ∈ releaseNotes pid given ↔ p = pid ∧ given = some handle := by
  cases given with
  | none => simp [releaseNotes]
  | some g => simp [releaseNotes, eq_comm]

/-- An event about thread `tid` of `pid` that gives up what its record holds, or nothing. -/
theorem ThreadWorld.HandlesOwned.about (h : w.HandlesOwned) {note : ThreadNote}
    (hnotes : w'.notes = w.notes ++ note :: releaseNotes pid given)
    (hnote : note.handleReleased = none) {r : ThreadRecord} (hr : w.kernel.thread pid tid = some r)
    (hgiven : ∀ x, given = some x → r.hostThreadHandle = some x ∧ tid ≠ mainThreadTid)
    (hhandle : ∀ r' x, w'.kernel.thread pid tid = some r' → r'.hostThreadHandle = some x →
      r.hostThreadHandle = some x)
    (hlike : w.kernel.LikeExcept clean w'.kernel pid tid) : w'.HandlesOwned where
  held p t r' x hr' hworker hx := by
    rw [hnotes]
    refine List.mem_append_left _ ?_
    by_cases hsame : p = pid ∧ t = tid
    · obtain ⟨rfl, rfl⟩ := hsame
      exact h.held p t r x hr hworker (hhandle r' x hr' hx)
    · obtain ⟨r₀, hr₀, hx₀⟩ := (hlike p t hsame).held hr' hworker hx
      exact h.held p t r₀ x hr₀ hworker hx₀
  released p x hx := by
    rw [hnotes] at hx ⊢
    have hold : ∃ t, .spawned p t x ∈ w.notes := by
      rcases List.mem_append.mp hx with hold | hnew
      · exact h.released p x hold
      · rcases List.mem_cons.mp hnew with rfl | hnew
        · cases hnote
        · obtain ⟨rfl, hgives⟩ := released_mem_releaseNotes.mp hnew
          obtain ⟨hrx, hworker⟩ := hgiven x hgives
          exact ⟨tid, h.held p tid r x hr hworker hrx⟩
    obtain ⟨t, ht⟩ := hold
    exact ⟨t, List.mem_append_left _ ht⟩

/-- Nothing is released, and no worker gets a handle. -/
theorem ThreadWorld.HandlesOwned.keep (h : w.HandlesOwned)
    (hheld : ∀ p t r' x, w'.kernel.thread p t = some r' → t ≠ mainThreadTid →
      r'.hostThreadHandle = some x → ∃ r, w.kernel.thread p t = some r ∧ r.hostThreadHandle = some x)
    (hspawned : ∀ p t x, .spawned p t x ∈ w.notes → .spawned p t x ∈ w'.notes)
    (hreleased : ∀ p x, .released p x ∈ w'.notes → .released p x ∈ w.notes) : w'.HandlesOwned where
  held p t r' x hr' hworker hx := by
    obtain ⟨r, hr, hrx⟩ := hheld p t r' x hr' hworker hx
    exact hspawned p t x (h.held p t r x hr hworker hrx)
  released p x hx := by
    obtain ⟨t, ht⟩ := h.released p x (hreleased p x hx)
    exact ⟨t, hspawned p t x ht⟩

theorem ThreadWorld.HandlesOwned.move (h : w.HandlesOwned) {e : ThreadEvent}
    (he : e.KeepsInstance w) (hmove : w.Move clean e.aim w') : w'.HandlesOwned := by
  cases hmove with
  | still hspawn hnotes hcount hlike | reserved pid tid hid hmax hspawn hnotes hcount hlike =>
    exact h.keep (fun p t r' x hr' hworker hx => (hlike p t).held hr' hworker hx)
      (by simp +contextual [hnotes]) (by simp [hnotes])
  | rolledBack pid tid failed hout hspawn hnotes hfailed hcount hlike =>
    have hheld : ∀ p t r' x, w'.kernel.thread p t = some r' → t ≠ mainThreadTid →
        r'.hostThreadHandle = some x →
        ∃ r, w.kernel.thread p t = some r ∧ r.hostThreadHandle = some x :=
      fun p t r' x hr' hworker hx => (hlike p t).held hr' hworker hx
    rcases hfailed with rfl | ⟨handle, rfl, -⟩
    · exact h.keep hheld (by simp +contextual [hnotes]) (by simp [hnotes])
    · -- the thread that could not be bound was spawned by the same call
      refine ⟨fun p t r' x hr' hworker hx => ?_, fun p x hx => ?_⟩
      · obtain ⟨r, hr, hrx⟩ := hheld p t r' x hr' hworker hx
        simp [hnotes, h.held p t r x hr hworker hrx]
      · have hold : .released p x ∈ w.notes ∨ p = pid ∧ x = handle := by simpa [hnotes] using hx
        rcases hold with hold | ⟨rfl, rfl⟩
        · obtain ⟨t, ht⟩ := h.released p x hold
          exact ⟨t, by simp [hnotes, ht]⟩
        · exact ⟨tid, by simp [hnotes]⟩
  | bound pid tid handle hout hnew hspawn hnotes hcount hthread hlike =>
    refine ⟨fun p t r' x hr' hworker hx => ?_, fun p x hx => ?_⟩
    · by_cases hsame : p = pid ∧ t = tid
      · obtain ⟨rfl, rfl⟩ := hsame
        obtain rfl := Option.mem_unique hthread hr'
        cases hx
        simp [hnotes]
      · obtain ⟨r, hr, hrx⟩ := (hlike p t hsame).held hr' hworker hx
        simp [hnotes, h.held p t r x hr hworker hrx]
    · obtain ⟨t, ht⟩ := h.released p x (by simpa [hnotes] using hx)
      exact ⟨t, by simp [hnotes, ht]⟩
  | exited pid tid haim r r' hr hr' hspawn hnotes hcount _ _ hhandle _ hlike
  | detached pid tid haim r r' hr hr' hspawn _ _ hnotes hcount _ _ hhandle _ hlike =>
    rw [ThreadEvent.KeepsInstance, haim] at he
    refine h.about hnotes rfl hr (fun x hx => ?_) (fun r₁ x hr₁ hx => ?_) hlike
    · obtain ⟨hreleases, hx⟩ := Option.ite_none_right_eq_some.mp hx
      exact ⟨hx, fun hmain => nomatch (he hmain r hr hreleases).symm.trans hx⟩
    · obtain rfl := Option.mem_unique hr' hr₁
      rw [hhandle] at hx
      exact (Option.ite_none_left_eq_some.mp hx).2
  | joined pid tid haim r hr hnot hexited hgone hspawn hnotes hcount hlike =>
    rw [ThreadEvent.KeepsInstance, haim] at he
    refine h.about hnotes rfl hr (fun x hx => ⟨hx, fun hmain => ?_⟩) (fun r₁ x hr₁ => ?_) hlike
    · cases (he hmain r hr hexited).symm.trans hx
    · cases hgone.symm.trans hr₁

theorem ThreadWorld.HandlesOwned.step (kh : Kh σ) (h : w.HandlesOwned) (hdrained : w.Drained)
    (e : HostEvent) (he : e.KeepsInstance w) :
    (e.step kh w).HandlesOwned ∧ (e.step kh w).Drained := by
  by_cases hthread : ∃ t, e = .thread t
  · obtain ⟨t, rfl⟩ := hthread
    exact ⟨h.move he (ThreadWorld.step_move hdrained t), hdrained.step t⟩
  · obtain ⟨hworkers, hnotes⟩ := e.noNewWorkers kh w (fun t ht => hthread ⟨t, ht⟩)
    refine ⟨h.keep (fun p t r' x hr' hworker hx => ?_) (by simp [hnotes]) (by simp [hnotes]), ?_⟩
    · exact ⟨r', hworkers.back p t r' hr' hworker, hx⟩
    · exact hworkers.pending.trans hdrained

/-- Along every run that never gives up the number in a main thread's record, a process has only
    handles of its own threads released. -/
theorem released_handles_own_threads (kh : Kh σ) (k : Kernel σ) (hk : k.WorkerFree)
    (es : List HostEvent)
    (hrun : Run.Along (HostEvent.step kh) (fun w e => e.KeepsInstance w) (ThreadWorld.start k) es)
    (pid : Pid) (handle : Int)
    (hreleased : .released pid handle ∈ (Run.run (HostEvent.step kh) (ThreadWorld.start k) es).notes) :
    ∃ tid, .spawned pid tid handle ∈ (Run.run (HostEvent.step kh) (ThreadWorld.start k) es).notes := by
  have hstart : (ThreadWorld.start k).HandlesOwned ∧ (ThreadWorld.start k).Drained := by
    refine ⟨⟨fun pid tid r _ hr hworker => ?_, fun _ _ hnote => by cases hnote⟩, hk.drained⟩
    exact absurd (hk.main pid tid r hr) hworker
  have hstep : ∀ (w : ThreadWorld σ) (e : HostEvent), e.KeepsInstance w → w.HandlesOwned ∧ w.Drained →
      (e.step kh w).HandlesOwned ∧ (e.step kh w).Drained :=
    fun w e he h => h.1.step kh h.2 e he
  obtain ⟨howned, -⟩ := hrun.invariant _ hstep hstart
  exact howned.released pid handle hreleased

/-- A host that starts every process, under instance 5. -/
def Kh.instanceFive : Kh Unit := { Kh.absent with spawnProcess := fun host _ _ => (5, host) }

/-- A process that the host started, with a worker that is detached and exits. -/
def spawnedProcess : List HostEvent :=
  [.spawnProcess 0 [] [], .thread (.spawn ⟨1, mainThreadTid⟩ (leBytes 8 0)),
    .thread (.spawnReturns 1 2 7), .thread (.detach ⟨1, mainThreadTid⟩ (leBytes 4 2)),
    .thread (.exit ⟨1, 2⟩ (leBytes 4 0))]

theorem Kernel.new_workerFree : (Kernel.new ()).WorkerFree where
  main _ _ _ hr := by cases hr
  drained := rfl

instance (w : ThreadWorld σ) (e : HostEvent) : Decidable (e.KeepsInstance w) :=
  match e with
  | .thread t => inferInstanceAs (Decidable (t.KeepsInstance w))
  | .spawnProcess _ _ _ => isTrue trivial
  | .prepareFork _ => isTrue trivial
  | .commitFork _ _ => isTrue trivial
  | .rollbackFork _ _ => isTrue trivial

theorem released_handles_own_threads_spawnedProcess : ∃ tid, .spawned 1 tid 7 ∈
      (Run.run (HostEvent.step Kh.instanceFive) (ThreadWorld.start (Kernel.new ())) spawnedProcess).notes :=
  released_handles_own_threads Kh.instanceFive (new ()) new_workerFree spawnedProcess
    (by decide) 1 7 (by decide)

/-- The main thread of such a process detaches itself and exits. -/
def detachedMain : List HostEvent :=
  [.spawnProcess 0 [] [], .thread (.detach ⟨1, mainThreadTid⟩ (leBytes 4 1)),
    .thread (.exit ⟨1, mainThreadTid⟩ (leBytes 4 0))]

theorem detachedMain_notes :
    (Run.run (HostEvent.step Kh.instanceFive) (ThreadWorld.start (Kernel.new ()))
      detachedMain).notes = [.detached 1 1, .exited 1 1, .released 1 5] := by
  decide

/-- The number of the instance is passed to `kh_thread_release`, and no thread was ever spawned. -/
theorem instance_released_as_thread :
    let w := Run.run (HostEvent.step Kh.instanceFive) (ThreadWorld.start (new ())) detachedMain
    .released 1 5 ∈ w.notes ∧ ¬ ∃ tid, .spawned 1 tid 5 ∈ w.notes := by
  simp [detachedMain_notes]

end Yurt
