import YurtKernel.Lib.Tickets
import YurtKernel.Dispatch.ThreadMoves

/-! Thread ids are never confused.

    The ids of a process come from its counter, and a spawn that fails moves the counter back only if
    its id was the last one. `Tickets.Fits` is the invariant: the ids of the spawns under way and
    those that were ever bound lie below the counter and do not meet. -/

namespace Yurt
open Kernel SortedMap
variable {σ : Type}
variable {k : Kernel σ} {p : Pid} {t : Tid}

/-- Ids of `pid` that are not to be handed out again: bound once, or standing in the table. -/
def ThreadWorld.Used (w : ThreadWorld σ) (pid : Pid) (tid : Tid) : Prop :=
  ThreadNote.bound pid tid ∈ w.notes ∨ ∃ r, w.kernel.thread pid tid = some r

/-- The counters are above the ids under way and in use. -/
structure ThreadWorld.IdsFit (w : ThreadWorld σ) : Prop where
  fits : ∀ pid next, w.kernel.tidCounter pid = some next →
    Tickets.Fits firstWorkerTid next (w.spawning pid) (w.Used pid)
  small : ∀ pid, ∀ tid ∈ w.spawning pid, tid ≤ maxGuestThreadId
  alive : ∀ pid, ∀ tid ∈ w.spawning pid, ∃ next, w.kernel.tidCounter pid = some next

/-- A kernel between calls: its threads have ids below the counters, and no handle is pending. -/
structure Kernel.AtRest (k : Kernel σ) : Prop where
  below : ∀ pid tid r next, k.thread pid tid = some r → k.tidCounter pid = some next → tid < next
  drained : k.pendingThreadReleases = []

theorem Kernel.atRest_new (host : σ) : (Kernel.new host).AtRest where
  below _ _ _ _ h := by cases h
  drained := rfl

theorem Kernel.AtRest.touch (h : k.AtRest) (pid : Pid) : (k.touch pid).AtRest where
  below p t r next hr hnext := by
    by_cases hp : p = pid
    · subst hp
      have hr : (k.process p).threads.get? t = some r := by
        simpa [Kernel.touch, updProcess, thread_setProcess] using hr
      have hnext : max (k.process p).nextTid firstWorkerTid = next := by
        simpa [Kernel.touch, updProcess, tidCounter_setProcess] using hnext
      by_cases hmain : t = 1
      · subst hmain
        rw [← hnext]
        exact lt_of_lt_of_le (by decide) (le_max_right _ _)
      · -- another thread stood in the record that was there
        cases hold : k.processes.get? p with
        | none =>
          have hempty : (SortedMap.empty.insert 1 (ThreadRecord.main none)).get? t = some r := by
            rwa [process, hold] at hr
          rw [get?_insert_ne _ _ hmain] at hempty
          cases hempty
        | some q =>
          have hq : q.threads.get? t = some r := by
            simp only [process, hold, Option.getD_some, Process.ensureMainThread] at hr
            split_ifs at hr with hhas
            · exact hr
            · rwa [get?_insert_ne _ _ hmain] at hr
          have hcount : k.tidCounter p = some next := by
            rw [← hnext]
            simp [tidCounter, process, hold, Process.ensureMainThread, firstWorkerTid]
          exact h.below p t r next (thread_eq_some.mpr ⟨q, hold, hq⟩) hcount
    · have hr : k.thread p t = some r := by
        simpa [Kernel.touch, updProcess, thread_setProcess, hp] using hr
      have hnext : k.tidCounter p = some next := by
        simpa [Kernel.touch, updProcess, tidCounter_setProcess, Function.update_of_ne hp] using hnext
      exact h.below p t r next hr hnext
  drained := h.drained

theorem Kernel.AtRest.idsFit (h : k.AtRest) : (ThreadWorld.start k).IdsFit where
  fits pid next hnext := by
    refine ⟨?_, List.nodup_nil, by simp [ThreadWorld.start], ?_⟩
    · obtain ⟨p, -, hp⟩ := Option.map_eq_some_iff.mp hnext
      rw [← hp]
      exact le_max_right _ _
    · rintro tid (hbound | ⟨r, hr⟩)
      · cases hbound
      · exact h.below pid tid r next hr hnext
  small _ _ h := by cases h
  alive _ _ h := by cases h

variable {w w' : ThreadWorld σ} {clean : Prop} {aim : Option ThreadNote} {pid : Pid} {tid : Tid}

/-- Threads alike and no id bound: nothing new is in use, but for a main thread. -/
theorem LikeAt.used (hlike : LikeAt clean t (w.kernel.thread p t) (w'.kernel.thread p t))
    (hnotes : ThreadNote.bound p t ∈ w'.notes → ThreadNote.bound p t ∈ w.notes) (h : w'.Used p t) :
    w.Used p t ∨ t < firstWorkerTid := by
  rcases h with hbound | ⟨r', hr'⟩
  · exact .inl (.inl (hnotes hbound))
  · rcases hlike.back hr' with ⟨r, hr, -⟩ | ⟨-, rfl, -⟩
    · exact .inl (.inr ⟨r, hr⟩)
    · exact .inr (by decide)

/-- A call about a thread that has its record already. -/
theorem Kernel.LikeExcept.used {r : ThreadRecord}
    (hlike : w.kernel.LikeExcept clean w'.kernel pid tid) (hr : w.kernel.thread pid tid = some r)
    (hnotes : ∀ p t, ThreadNote.bound p t ∈ w'.notes → ThreadNote.bound p t ∈ w.notes) (p : Pid)
    (t : Tid) (h : w'.Used p t) : w.Used p t ∨ t < firstWorkerTid := by
  by_cases hsame : p = pid ∧ t = tid
  · obtain ⟨rfl, rfl⟩ := hsame
    exact .inl (.inr ⟨r, hr⟩)
  · exact (hlike p t hsame).used (hnotes p t) h

/-- The invariant survives a move that hands out, gives back and binds nothing. -/
theorem ThreadWorld.IdsFit.keep (h : w.IdsFit) (hspawn : w'.spawning = w.spawning)
    (hcount : w'.kernel.tidCounter = w.kernel.tidCounter)
    (hused : ∀ p t, w'.Used p t → w.Used p t ∨ t < firstWorkerTid) : w'.IdsFit where
  fits p next hnext := by
    rw [hcount] at hnext
    rw [hspawn]
    exact (h.fits p next hnext).mono (hused p)
  small := hspawn ▸ h.small
  alive := by
    rw [hspawn, hcount]
    exact h.alive

@[simp] theorem bound_mem_releaseNotes {pid : Pid} {handle : Option Int} :
    ThreadNote.bound p t ∉ releaseNotes pid handle := by
  cases handle <;> simp [releaseNotes]

/-- Handing an id out. -/
theorem ThreadWorld.IdsFit.reserved (h : w.IdsFit) (hid : w.kernel.tidCounter pid = some tid)
    (hmax : tid ≤ maxGuestThreadId)
    (hspawn : w'.spawning = Function.update w.spawning pid (tid :: w.spawning pid))
    (hcount : w'.kernel.tidCounter = Function.update w.kernel.tidCounter pid (some (tid + 1)))
    (hused : ∀ p t, w'.Used p t → w.Used p t ∨ t < firstWorkerTid) : w'.IdsFit where
  fits p next hnext := by
    rw [hcount, Function.update_apply] at hnext
    rw [hspawn, Function.update_apply]
    split_ifs at hnext ⊢ with hp
    · subst hp
      cases hnext
      exact ((h.fits p tid hid).mono (hused p)).hand
    · exact (h.fits p next hnext).mono (hused p)
  small p t ht := by
    rw [hspawn, Function.update_apply] at ht
    split_ifs at ht with hp
    · subst hp
      rcases List.mem_cons.mp ht with rfl | ht
      · exact hmax
      · exact h.small p t ht
    · exact h.small p t ht
  alive p t ht := by
    rw [hcount, Function.update_apply]
    rw [hspawn, Function.update_apply] at ht
    split_ifs at ht ⊢
    · exact ⟨_, rfl⟩
    · exact h.alive p t ht

/-- The ids under way once one of them has come back. -/
theorem mem_spawning_of_erase
    (hspawn : w'.spawning = Function.update w.spawning pid ((w.spawning pid).erase tid))
    (ht : t ∈ w'.spawning p) : t ∈ w.spawning p := by
  rw [hspawn, Function.update_apply] at ht
  split_ifs at ht with hp
  · subst hp
    exact List.mem_of_mem_erase ht
  · exact ht

/-- Giving an id back: the counter returns to it if it was the last. -/
theorem ThreadWorld.IdsFit.rolledBack (h : w.IdsFit) (hout : tid ∈ w.spawning pid)
    (hspawn : w'.spawning = Function.update w.spawning pid ((w.spawning pid).erase tid))
    (hcount : w'.kernel.tidCounter = w.kernel.tidCounter ∨
      w.kernel.tidCounter pid = some (max (satAdd tid 1) firstWorkerTid) ∧
        w'.kernel.tidCounter =
          Function.update w.kernel.tidCounter pid (some (max tid firstWorkerTid)))
    (hused : ∀ p t, w'.Used p t → w.Used p t ∨ t < firstWorkerTid) : w'.IdsFit where
  fits p next hnext := by
    rw [hspawn, Function.update_apply]
    rcases hcount with hsame | ⟨hlast, hback⟩
    · rw [hsame] at hnext
      have hfits := (h.fits p next hnext).mono (hused p)
      split_ifs with hp
      · subst hp
        exact hfits.lose tid
      · exact hfits
    · rw [hback, Function.update_apply] at hnext
      split_ifs at hnext ⊢ with hp
      · subst hp
        have hfits := (h.fits p _ hlast).mono (hused p)
        have hworker : firstWorkerTid ≤ tid := (hfits.outstanding tid hout).1
        rw [max_satAdd_worker hworker (h.small p tid hout)] at hfits
        rw [max_eq_left hworker] at hnext
        cases hnext
        exact hfits.giveBack hout
      · exact (h.fits p next hnext).mono (hused p)
  small p t ht := h.small p t (mem_spawning_of_erase hspawn ht)
  alive p t ht := by
    have hold := h.alive p t (mem_spawning_of_erase hspawn ht)
    rcases hcount with hsame | ⟨-, hback⟩
    · rwa [hsame]
    · rw [hback, Function.update_apply]
      split_ifs
      · exact ⟨_, rfl⟩
      · exact hold

/-- Binding an id: it is in use from now on. -/
theorem ThreadWorld.IdsFit.bound (h : w.IdsFit) (hout : tid ∈ w.spawning pid)
    (hspawn : w'.spawning = Function.update w.spawning pid ((w.spawning pid).erase tid))
    (hcount : w'.kernel.tidCounter = w.kernel.tidCounter)
    (hused : ∀ p t, w'.Used p t → (p = pid ∧ t = tid) ∨ w.Used p t ∨ t < firstWorkerTid) :
    w'.IdsFit where
  fits p next hnext := by
    rw [hcount] at hnext
    rw [hspawn, Function.update_apply]
    have hfits := h.fits p next hnext
    split_ifs with hp
    · subst hp
      refine (hfits.use hout).mono (fun t ht => ?_)
      rcases hused p t ht with ⟨-, rfl⟩ | hold | hsmall
      · exact .inl (.inl rfl)
      · exact .inl (.inr hold)
      · exact .inr hsmall
    · refine hfits.mono (fun t ht => ?_)
      rcases hused p t ht with ⟨hpp, -⟩ | hold
      · exact absurd hpp hp
      · exact hold
  small p t ht := h.small p t (mem_spawning_of_erase hspawn ht)
  alive p t ht := hcount ▸ h.alive p t (mem_spawning_of_erase hspawn ht)

theorem ThreadWorld.IdsFit.move (h : w.IdsFit) (hmove : w.Move clean aim w') : w'.IdsFit := by
  cases hmove with
  | still hspawn hnotes hcount hlike =>
    exact h.keep hspawn hcount (fun p t => (hlike p t).used (by rw [hnotes]; exact id))
  | reserved pid tid hid hmax hspawn hnotes hcount hlike =>
    exact h.reserved hid hmax hspawn hcount (fun p t => (hlike p t).used (by rw [hnotes]; simp))
  | rolledBack pid tid failed hout hspawn hnotes hfailed hcount hlike =>
    refine h.rolledBack hout hspawn hcount (fun p t => (hlike p t).used ?_)
    rw [hnotes]
    rcases hfailed with rfl | ⟨handle, rfl, -⟩
    · simp
    · simp
  | bound pid tid handle hout hnew hspawn hnotes hcount hthread hlike =>
    refine h.bound hout hspawn hcount (fun p t ht => ?_)
    by_cases hsame : p = pid ∧ t = tid
    · exact .inl hsame
    · refine .inr ((hlike p t hsame).used ?_ ht)
      rw [hnotes]
      intro hbound
      have hother : ThreadNote.bound p t ∈ w.notes ∨ p = pid ∧ t = tid := by simpa using hbound
      exact hother.resolve_right hsame
  | exited pid tid _ r r' hr hr' hspawn hnotes hcount _ _ _ _ hlike
  | detached pid tid _ r r' hr hr' hspawn _ _ hnotes hcount _ _ _ _ hlike
  | joined pid tid _ r hr _ _ _ hspawn hnotes hcount hlike =>
    refine h.keep hspawn hcount (hlike.used hr (fun p t => ?_))
    rw [hnotes]
    simp

/-- An id under way can be bound. -/
theorem ThreadWorld.IdsFit.bind_ok (h : w.IdsFit) (hout : tid ∈ w.spawning pid)
    (handle : Option Int) : (w.kernel.bindThreadHandle pid tid handle).1 = .ok () := by
  obtain ⟨next, hnext⟩ := h.alive pid tid hout
  obtain ⟨p, hpid, -⟩ := Option.map_eq_some_iff.mp hnext
  have hfree : p.threads.contains tid = false := by
    by_contra hhas
    obtain ⟨r, hr⟩ := contains_iff.mp (by simpa using hhas)
    exact ((h.fits pid next hnext).outstanding tid hout).2.2
      (.inr ⟨r, thread_eq_some.mpr ⟨p, hpid, hr⟩⟩)
  simp [bindThreadHandle, hpid, hfree]

/-- No thread id is confused by the event: an id handed out is in range, not under way and not in
    use, and binding an id that is under way does not find it taken. -/
def ThreadEvent.IdsKept (w : ThreadWorld σ) : ThreadEvent → Prop
  | .spawn ctx request => ∀ tid k, w.kernel.sysThreadSpawnBegin ctx request = (.ok tid, k) →
      (firstWorkerTid ≤ tid ∧ tid ≤ maxGuestThreadId) ∧ tid ∉ w.spawning ctx.callerPid ∧
        ¬ w.Used ctx.callerPid tid
  | .spawnReturns pid tid handle => tid ∈ w.spawning pid →
      (w.kernel.bindThreadHandle pid tid (some handle)).1 ≠ .error EEXIST
  | _ => True

theorem ThreadWorld.IdsFit.idsKept (h : w.IdsFit) (e : ThreadEvent) : e.IdsKept w := by
  cases e with
  | spawn ctx request =>
    intro tid k' hbegin
    have hcounter : w.kernel.tidCounter ctx.callerPid = some tid ∧ tid ≤ maxGuestThreadId := by
      simp only [sysThreadSpawnBegin] at hbegin
      by_cases hlen : request.length ≠ 8
      · rw [if_pos hlen] at hbegin
        cases hbegin
      · rw [if_neg hlen] at hbegin
        have hreserve := w.kernel.reserveThreadId_counter ctx.callerPid
        generalize w.kernel.reserveThreadId ctx.callerPid = r at hbegin hreserve
        obtain ⟨errno | tid', k''⟩ := r
        · cases hbegin
        · cases hbegin
          rcases hreserve with ⟨x, hok, hid, hmax, -⟩ | ⟨⟨errno, herr⟩, -⟩
          · cases hok
            exact ⟨hid, hmax⟩
          · cases herr
    have hfits := h.fits ctx.callerPid tid hcounter.1
    exact ⟨⟨hfits.start, hcounter.2⟩, hfits.fresh⟩
  | spawnReturns pid tid handle =>
    intro hout
    rw [h.bind_ok hout (some handle)]
    simp
  | _ => exact trivial

/-- Whatever spawns, returns of the host, joins, exits, detaches and cancellations are interleaved,
    no thread id is confused. -/
theorem thread_ids_never_confused (k : Kernel σ) (hk : k.AtRest) (es : List ThreadEvent) :
    Run.Along ThreadEvent.step (fun w e => e.IdsKept w) (ThreadWorld.start k) es := by
  have hstart : (ThreadWorld.start k).IdsFit ∧ (ThreadWorld.start k).Drained := ⟨hk.idsFit, hk.drained⟩
  generalize ThreadWorld.start k = w at hstart
  induction es generalizing w with
  | nil => trivial
  | cons e es ih =>
    obtain ⟨hfit, hdrained⟩ := hstart
    exact ⟨hfit.idsKept e, ih _ ⟨hfit.move (ThreadWorld.step_move hdrained e), hdrained.step e⟩⟩

/-- Two spawns of one process under way at once: the outer one fails first and loses its id, the inner
    one fails and gives its id back, the next spawn gets that one, which is bound and joined. -/
def nestedSpawns : List ThreadEvent :=
  let main : DispatchContext := ⟨1, mainThreadTid⟩
  [.spawn main (leBytes 8 0), .spawn main (leBytes 8 0), .spawnReturns 1 2 (-EAGAIN),
    .spawnReturns 1 3 (-EAGAIN), .spawn main (leBytes 8 0), .spawnReturns 1 3 7,
    .exit ⟨1, 3⟩ (leBytes 4 0), .join main (leBytes 4 3) 4, .spawn main (leBytes 8 0)]

theorem thread_ids_never_confused_nestedSpawns :
    Run.Along ThreadEvent.step (fun w e => e.IdsKept w) (ThreadWorld.start oneProcess)
      nestedSpawns ∧
    (Run.run ThreadEvent.step (ThreadWorld.start oneProcess) nestedSpawns).spawning 1 = [4] :=
  ⟨thread_ids_never_confused oneProcess ((atRest_new ()).touch 1) nestedSpawns, by decide⟩

end Yurt
