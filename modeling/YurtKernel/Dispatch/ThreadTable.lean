import YurtKernel.Dispatch.ThreadIds

/-! How long thread records stay, and what that means for fork.

    `prepare_fork` refuses a process with more than one thread record. A record is erased by a
    completed join only: a thread that is detached and has exited leaves its record behind for ever.
    So fork waits for live and joinable threads only as long as no thread is both. -/

namespace Yurt
open Kernel
variable {σ : Type}
variable {handle : Option Int} {k : Kernel σ} {r : ThreadRecord} {p : Process} {t : Tid}

/-- Still to be waited for: it has not exited, or nobody has joined or detached it. -/
def Unfinished (notes : List ThreadNote) (pid : Pid) (tid : Tid) : Prop := .exited pid tid ∉ notes ∨
    .exited pid tid ∈ notes ∧ .joined pid tid ∉ notes ∧ .detached pid tid ∉ notes

instance (notes : List ThreadNote) (pid : Pid) (tid : Tid) : Decidable (Unfinished notes pid tid) :=
  inferInstanceAs (Decidable (_ ∨ _))

/-- The thread of `pid` a note says was made. -/
def ThreadNote.made (pid : Pid) : ThreadNote → Option Tid
  | .bound p tid => if p = pid then some tid else none
  | _ => none

/-- Worker threads of `pid` that are not finished. -/
def unfinished (notes : List ThreadNote) (pid : Pid) : List Tid :=
  (notes.filterMap (ThreadNote.made pid)).filter (fun tid => Unfinished notes pid tid)

theorem mem_unfinished {notes : List ThreadNote} {pid : Pid} {tid : Tid} :
    tid ∈ unfinished notes pid ↔ .bound pid tid ∈ notes ∧ Unfinished notes pid tid := by
  have hmade : ∀ note : ThreadNote, note.made pid = some tid ↔ note = .bound pid tid := by
    intro note
    cases note <;> simp [ThreadNote.made]
  simp [unfinished, hmade]

/-- A kernel between calls none of whose processes has worker threads. -/
structure Kernel.WorkerFree (k : Kernel σ) : Prop where
  main : ∀ pid tid r, k.thread pid tid = some r → tid = mainThreadTid
  drained : k.pendingThreadReleases = []

theorem Kernel.WorkerFree.atRest (h : k.WorkerFree) : k.AtRest where
  below pid tid r next hr hnext := by
    obtain ⟨p, -, rfl⟩ := Option.map_eq_some_iff.mp hnext
    rw [h.main pid tid r hr]
    exact lt_of_lt_of_le (by decide) (le_max_right _ _)
  drained := h.drained

/-- Records of workers are those that were bound and not joined. -/
structure ThreadWorld.Tracked (w : ThreadWorld σ) : Prop where
  present : ∀ pid tid r, w.kernel.thread pid tid = some r → tid ≠ mainThreadTid →
    .bound pid tid ∈ w.notes ∧ .joined pid tid ∉ w.notes
  joined : ∀ pid tid, .joined pid tid ∈ w.notes → tid ≠ mainThreadTid → .bound pid tid ∈ w.notes
  worker : ∀ pid tid, .bound pid tid ∈ w.notes → tid ≠ mainThreadTid

theorem Kernel.WorkerFree.tracked (h : k.WorkerFree) : (ThreadWorld.start k).Tracked where
  present pid tid r hr hworker := absurd (h.main pid tid r hr) hworker
  joined _ _ hnote := by cases hnote
  worker _ _ hnote := by cases hnote

variable {w w' : ThreadWorld σ} {clean : Prop} {aim : Option ThreadNote} {pid : Pid} {tid : Tid}

/-- A move that binds and joins nothing, where every worker's record stood before. -/
theorem ThreadWorld.Tracked.keep (h : w.Tracked)
    (hrecords : ∀ p t r', w'.kernel.thread p t = some r' → t ≠ mainThreadTid →
      ∃ r, w.kernel.thread p t = some r)
    (hbound : ∀ p t, .bound p t ∈ w'.notes ↔ .bound p t ∈ w.notes)
    (hjoined : ∀ p t, .joined p t ∈ w'.notes ↔ .joined p t ∈ w.notes) : w'.Tracked where
  present p t r' hr' hworker := by
    obtain ⟨r, hr⟩ := hrecords p t r' hr' hworker
    rw [hbound, hjoined]
    exact h.present p t r hr hworker
  joined p t hnote hworker := by
    rw [hbound]
    exact h.joined p t ((hjoined p t).mp hnote) hworker
  worker p t hnote := h.worker p t ((hbound p t).mp hnote)

theorem LikeAt.stood {o o' : Option ThreadRecord} {r' : ThreadRecord} (h : LikeAt clean tid o o')
    (hr' : o' = some r') (hworker : tid ≠ mainThreadTid) : ∃ r, o = some r := by
  rcases h.back hr' with ⟨r, hr, -⟩ | ⟨-, hmain, -⟩
  · exact ⟨r, hr⟩
  · exact absurd hmain hworker

theorem Kernel.LikeExcept.stood (hlike : w.kernel.LikeExcept clean w'.kernel pid tid)
    (hr : w.kernel.thread pid tid = some r) :
    ∀ p t r', w'.kernel.thread p t = some r' → t ≠ mainThreadTid → ∃ r, w.kernel.thread p t = some r := by
  intro p t r' hr' hworker
  by_cases hsame : p = pid ∧ t = tid
  · obtain ⟨rfl, rfl⟩ := hsame
    exact ⟨r, hr⟩
  · exact (hlike p t hsame).stood hr' hworker

@[simp] theorem joined_mem_releaseNotes {p pid : Pid} : ThreadNote.joined p t ∉ releaseNotes pid handle := by
  cases handle <;> simp [releaseNotes]

theorem ThreadWorld.Tracked.move (h : w.Tracked) (hids : w.IdsFit) (hmove : w.Move clean aim w') :
    w'.Tracked := by
  cases hmove with
  | still hspawn hnotes hcount hlike | reserved pid tid hid hmax hspawn hnotes hcount hlike =>
    exact h.keep (fun p t _ hr' => (hlike p t).stood hr') (by simp [hnotes]) (by simp [hnotes])
  | rolledBack pid tid failed hout hspawn hnotes hfailed hcount hlike =>
    rcases hfailed with rfl | ⟨handle, rfl, -⟩
    · exact h.keep (fun p t _ hr' => (hlike p t).stood hr') (by simp [hnotes]) (by simp [hnotes])
    · exact h.keep (fun p t _ hr' => (hlike p t).stood hr') (by simp [hnotes]) (by simp [hnotes])
  | bound pid tid handle hout hnew hspawn hnotes hcount hthread hlike =>
    obtain ⟨next, hnext⟩ := hids.alive pid tid hout
    have hfits := (hids.fits pid next hnext).outstanding tid hout
    refine ⟨fun p t r' hr' hworker => ?_, fun p t hnote hworker => ?_, fun p t hnote => ?_⟩
    · by_cases hsame : p = pid ∧ t = tid
      · -- an id under way was never bound, so it was never joined either
        obtain ⟨rfl, rfl⟩ := hsame
        refine ⟨by simp [hnotes], fun hnote => hfits.2.2 (.inl ?_)⟩
        exact h.joined p t (by simpa [hnotes] using hnote) hworker
      · obtain ⟨r, hr⟩ := (hlike p t hsame).stood hr' hworker
        obtain ⟨hbound, hjoined⟩ := h.present p t r hr hworker
        exact ⟨by simp [hnotes, hbound], by simpa [hnotes] using hjoined⟩
    · have hbound := h.joined p t (by simpa [hnotes] using hnote) hworker
      simp [hnotes, hbound]
    · have hold : ThreadNote.bound p t ∈ w.notes ∨ p = pid ∧ t = tid := by
        simpa [hnotes] using hnote
      rcases hold with hold | ⟨rfl, rfl⟩
      · exact h.worker p t hold
      · exact ne_of_gt (lt_of_lt_of_le (by decide) hfits.1)
  | exited pid tid _ r r' hr hr' hspawn hnotes hcount _ _ _ _ hlike
  | detached pid tid _ r r' hr hr' hspawn _ _ hnotes hcount _ _ _ _ hlike =>
    exact h.keep (hlike.stood hr) (by simp [hnotes]) (by simp [hnotes])
  | joined pid tid _ r hr _ _ hgone hspawn hnotes hcount hlike =>
    have hbound : ∀ p t, .bound p t ∈ w'.notes ↔ .bound p t ∈ w.notes := by
      simp [hnotes]
    have hjoined : ∀ p t, .joined p t ∈ w'.notes ↔ .joined p t ∈ w.notes ∨ p = pid ∧ t = tid := by
      simp [hnotes]
    refine ⟨fun p t r' hr' hworker => ?_, fun p t hnote hworker => ?_,
      fun p t hnote => h.worker p t ((hbound p t).mp hnote)⟩
    · have hsame : ¬ (p = pid ∧ t = tid) := by
        rintro ⟨rfl, rfl⟩
        rw [hgone] at hr'
        cases hr'
      obtain ⟨r₀, hr₀⟩ := (hlike p t hsame).stood hr' hworker
      obtain ⟨hb, hj⟩ := h.present p t r₀ hr₀ hworker
      exact ⟨(hbound p t).mpr hb, fun hnote => (((hjoined p t).mp hnote).elim hj hsame)⟩
    · rw [hbound]
      rcases (hjoined p t).mp hnote with hold | ⟨rfl, rfl⟩
      · exact h.joined p t hold hworker
      · exact (h.present p t r hr hworker).1

/-! ### Conditions on events -/

/-- The call does not detach a worker that has exited, nor end one that is detached. -/
def ThreadEvent.LeavesNoRecord (w : ThreadWorld σ) (e : ThreadEvent) : Prop :=
  match e.aim with
  | some (.exited pid tid) => tid ≠ mainThreadTid → .detached pid tid ∉ w.notes
  | some (.detached pid tid) => tid ≠ mainThreadTid → .exited pid tid ∉ w.notes
  | _ => True

instance (w : ThreadWorld σ) (e : ThreadEvent) : Decidable (e.LeavesNoRecord w) := by
  unfold ThreadEvent.LeavesNoRecord
  split <;> infer_instance

/-- The thread an event is out to exit, detach or join is a worker. -/
def ThreadEvent.AtWorker (e : ThreadEvent) : Prop :=
  match e.aim with
  | some (.exited _ tid) => tid ≠ mainThreadTid
  | some (.joined _ tid) => tid ≠ mainThreadTid
  | some (.detached _ tid) => tid ≠ mainThreadTid
  | _ => True

instance (e : ThreadEvent) : Decidable e.AtWorker := by
  unfold ThreadEvent.AtWorker
  split <;> infer_instance

/-- A call does not give up the number that the record of a main thread holds. -/
def ThreadEvent.KeepsInstance (w : ThreadWorld σ) (e : ThreadEvent) : Prop :=
  match e.aim with
  | some (.exited pid tid) => tid = mainThreadTid → ∀ r ∈ w.kernel.thread pid tid,
      r.releasesOnExit = true → r.hostThreadHandle = none
  | some (.detached pid tid) => tid = mainThreadTid → ∀ r ∈ w.kernel.thread pid tid,
      r.state = .exited → r.hostThreadHandle = none
  | some (.joined pid tid) => tid = mainThreadTid → ∀ r ∈ w.kernel.thread pid tid,
      r.state = .exited → r.hostThreadHandle = none
  | _ => True

instance (w : ThreadWorld σ) (e : ThreadEvent) : Decidable (e.KeepsInstance w) := by
  unfold ThreadEvent.KeepsInstance
  split <;> infer_instance

/-! ### Threads that are both detached and exited -/

/-- No worker has both exited and been detached. -/
def ThreadWorld.NoneLeft (w : ThreadWorld σ) : Prop :=
  ∀ pid tid, tid ≠ mainThreadTid → .exited pid tid ∈ w.notes → .detached pid tid ∉ w.notes

@[simp] theorem exited_mem_releaseNotes {p pid : Pid} : ThreadNote.exited p t ∉ releaseNotes pid handle := by
  cases handle <;> simp [releaseNotes]

@[simp] theorem detached_mem_releaseNotes {p pid : Pid} : ThreadNote.detached p t ∉ releaseNotes pid handle := by
  cases handle <;> simp [releaseNotes]

theorem ThreadWorld.NoneLeft.keep (h : w.NoneLeft)
    (hexited : ∀ p t, .exited p t ∈ w'.notes ↔ .exited p t ∈ w.notes)
    (hdetached : ∀ p t, .detached p t ∈ w'.notes ↔ .detached p t ∈ w.notes) : w'.NoneLeft := by
  intro p t hworker hnote
  rw [hdetached]
  exact h p t hworker ((hexited p t).mp hnote)

theorem ThreadWorld.NoneLeft.move (h : w.NoneLeft) {e : ThreadEvent} (he : e.LeavesNoRecord w)
    (hmove : w.Move clean e.aim w') : w'.NoneLeft := by
  cases hmove with
  | still hspawn hnotes | reserved pid tid hid hmax hspawn hnotes
  | bound pid tid handle hout hnew hspawn hnotes | joined pid tid _ r hr _ _ hgone hspawn hnotes =>
    exact h.keep (by simp [hnotes]) (by simp [hnotes])
  | rolledBack pid tid failed hout hspawn hnotes hfailed hcount hlike =>
    rcases hfailed with rfl | ⟨handle, rfl, -⟩
    · exact h.keep (by simp [hnotes]) (by simp [hnotes])
    · exact h.keep (by simp [hnotes]) (by simp [hnotes])
  | exited pid tid haim r r' hr hr' hspawn hnotes =>
    intro p t hworker hnote
    have hold : ThreadNote.exited p t ∈ w.notes ∨ p = pid ∧ t = tid := by
      simpa [hnotes] using hnote
    simp only [hnotes, List.mem_append, List.mem_cons, reduceCtorEq, detached_mem_releaseNotes, or_false]
    rcases hold with hold | ⟨rfl, rfl⟩
    · exact h p t hworker hold
    · rw [ThreadEvent.LeavesNoRecord, haim] at he
      exact he hworker
  | detached pid tid haim r r' hr hr' hspawn _ _ hnotes =>
    intro p t hworker hnote hboth
    have hexited : ThreadNote.exited p t ∈ w.notes := by
      simpa [hnotes] using hnote
    have hold : ThreadNote.detached p t ∈ w.notes ∨ p = pid ∧ t = tid := by
      simpa [hnotes] using hboth
    rcases hold with hold | ⟨rfl, rfl⟩
    · exact h p t hworker hexited hold
    · rw [ThreadEvent.LeavesNoRecord, haim] at he
      exact he hworker hexited

/-! ### Fork -/

/-- Every record but the main thread's is one to wait for. -/
theorem ThreadWorld.Tracked.unfinished (h : w.Tracked) (hnone : w.NoneLeft)
    (hr : w.kernel.thread pid tid = some r) (hworker : tid ≠ mainThreadTid) :
    tid ∈ unfinished w.notes pid := by
  obtain ⟨hbound, hjoined⟩ := h.present pid tid r hr hworker
  refine mem_unfinished.mpr ⟨hbound, ?_⟩
  by_cases hexited : ThreadNote.exited pid tid ∈ w.notes
  · exact .inr ⟨hexited, hjoined, hnone pid tid hworker hexited⟩
  · exact .inl hexited

theorem ThreadWorld.Tracked.size_le (h : w.Tracked) (hnone : w.NoneLeft)
    (hp : w.kernel.processes.get? pid = some p) :
    p.threads.size ≤ 1 + (Yurt.unfinished w.notes pid).length := by
  have hsubset : p.threads.keys ⊆ mainThreadTid :: Yurt.unfinished w.notes pid := by
    intro tid htid
    obtain ⟨⟨t, r⟩, hmem, rfl⟩ := List.mem_map.mp htid
    by_cases hmain : t = mainThreadTid
    · exact List.mem_cons.mpr (.inl hmain)
    · have hr : w.kernel.thread pid t = some r := thread_eq_some.mpr ⟨p, hp, SortedMap.mem_toList.mp hmem⟩
      exact List.mem_cons_of_mem _ (h.unfinished hnone hr hmain)
  have hnodup : p.threads.keys.Nodup := p.threads.nodup_keys
  calc p.threads.size = p.threads.keys.length := (List.length_map _).symm
    _ ≤ (mainThreadTid :: Yurt.unfinished w.notes pid).length :=
      (List.subperm_of_subset hnodup hsubset).length_le
    _ = 1 + (Yurt.unfinished w.notes pid).length := by rw [List.length_cons, Nat.add_comm]

/-- A running process with one thread record forks as long as there are pids. -/
theorem Kernel.prepareFork_ok (hp : k.processes.get? pid = some p)
    (hrunning : p.forkState = .running) (halive : p.exitStatus = none)
    (hpids : k.tryAllocHostPid.1 ≠ none) (hone : p.threads.size ≤ 1) :
    ∃ child, (k.prepareFork pid).1 = .ok child := by
  rw [Kernel.prepareFork, hp]
  simp only [hrunning, halive, Option.isSome_none, ne_eq, not_true_eq_false, Bool.false_eq_true,
    or_self, if_false, not_lt.mpr hone]
  generalize k.tryAllocHostPid = found at hpids
  obtain ⟨_ | child, k'⟩ := found
  · exact absurd rfl hpids
  · exact ⟨child, rfl⟩

/-- Fork does not wait for finished threads in the world: with pids left, it refuses a running
    process only if a worker is unfinished, and no more records stand than there are such workers,
    and the main thread. -/
def ThreadWorld.ForkWaitsForNone (w : ThreadWorld σ) : Prop :=
  ∀ pid p, w.kernel.processes.get? pid = some p →
    (∀ errno, p.forkState = .running → p.exitStatus = none → w.kernel.tryAllocHostPid.1 ≠ none →
      (w.kernel.prepareFork pid).1 = .error errno →
      ∃ tid, tid ≠ mainThreadTid ∧ .bound pid tid ∈ w.notes ∧ Unfinished w.notes pid tid) ∧
    p.threads.size ≤ 1 + (unfinished w.notes pid).length

theorem ThreadWorld.Tracked.forkWaitsForNone (h : w.Tracked) (hnone : w.NoneLeft) : w.ForkWaitsForNone := by
  intro pid p hp
  refine ⟨fun errno hrunning halive hpids hfails => ?_, h.size_le hnone hp⟩
  have hmany : 1 < p.threads.size := by
    by_contra hone
    obtain ⟨child, hok⟩ := prepareFork_ok hp hrunning halive hpids (not_lt.mp hone)
    rw [hok] at hfails
    cases hfails
  have hsize := h.size_le hnone hp
  have hsome : 0 < (Yurt.unfinished w.notes pid).length := by omega
  obtain ⟨tid, htid⟩ := List.exists_mem_of_length_pos hsome
  obtain ⟨hbound, hopen⟩ := mem_unfinished.mp htid
  exact ⟨tid, h.worker pid tid hbound, hbound, hopen⟩

/-- Along every run in which no worker thread both exits and is detached, finished threads never
    keep a process from forking. -/
theorem finished_threads_let_fork (k : Kernel σ) (hk : k.WorkerFree) (es : List ThreadEvent)
    (hrun : Run.Along ThreadEvent.step (fun w e => e.LeavesNoRecord w) (ThreadWorld.start k) es) :
    (Run.run ThreadEvent.step (ThreadWorld.start k) es).ForkWaitsForNone := by
  have hstep : ∀ (w : ThreadWorld σ) (e : ThreadEvent), e.LeavesNoRecord w →
      w.Drained ∧ w.IdsFit ∧ w.Tracked ∧ w.NoneLeft →
      (e.step w).Drained ∧ (e.step w).IdsFit ∧ (e.step w).Tracked ∧ (e.step w).NoneLeft := by
    rintro w e he ⟨hdrained, hids, htracked, hnone⟩
    have hmove := ThreadWorld.step_move hdrained e
    exact ⟨hdrained.step e, hids.move hmove, htracked.move hids hmove, hnone.move he hmove⟩
  obtain ⟨-, -, htracked, hnone⟩ := hrun.invariant _ hstep
    ⟨hk.drained, hk.atRest.idsFit, hk.tracked, fun _ _ _ hnote => by cases hnote⟩
  exact htracked.forkWaitsForNone hnone

/-- A worker is spawned with handle 7 and runs until it exits; the main thread joins it. -/
def joinedWorker : List ThreadEvent :=
  let main : DispatchContext := ⟨1, mainThreadTid⟩
  [.spawn main (leBytes 8 0), .spawnReturns 1 2 7, .exit ⟨1, 2⟩ (leBytes 4 0), .join main (leBytes 4 2) 4]

theorem Kernel.oneProcess_workerFree : oneProcess.WorkerFree where
  main pid tid r hr := by
    by_contra hworker
    have hnone : oneProcess.thread pid tid = none := by
      rw [oneProcess, updProcess, thread_setProcess]
      split
      · exact SortedMap.get?_insert_ne SortedMap.empty (ThreadRecord.main none) hworker
      · rfl
    rw [hnone] at hr
    cases hr
  drained := rfl

theorem finished_threads_let_fork_joinedWorker :
    (Run.run ThreadEvent.step (ThreadWorld.start oneProcess) joinedWorker).ForkWaitsForNone :=
  finished_threads_let_fork oneProcess oneProcess_workerFree joinedWorker
    (by decide)

/-- A worker that the main thread detaches before it exits. -/
def detachedWorker : List ThreadEvent :=
  let main : DispatchContext := ⟨1, mainThreadTid⟩
  [.spawn main (leBytes 8 0), .spawnReturns 1 2 7, .detach main (leBytes 4 2), .exit ⟨1, 2⟩ (leBytes 4 0)]

/-- Every worker is finished, and fork is refused all the same. -/
theorem detached_worker_blocks_fork :
    let w := Run.run ThreadEvent.step (ThreadWorld.start oneProcess) detachedWorker
    unfinished w.notes 1 = [] ∧ (w.kernel.prepareFork 1).1 = .error EAGAIN ∧ ¬ w.ForkWaitsForNone := by
  have hfork : (((Run.run ThreadEvent.step (ThreadWorld.start oneProcess)
      detachedWorker).kernel).prepareFork 1).1 = .error EAGAIN := by decide
  refine ⟨by decide, hfork, fun h => ?_⟩
  obtain ⟨hwaits, -⟩ := h 1 _ rfl
  obtain ⟨tid, -, hbound, hopen⟩ := hwaits EAGAIN (by decide) (by decide) (by decide) hfork
  have hnone := mem_unfinished.mpr ⟨hbound, hopen⟩
  rw [show unfinished _ 1 = [] by decide] at hnone
  cases hnone

end Yurt
