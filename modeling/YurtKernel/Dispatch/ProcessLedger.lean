import YurtKernel.Dispatch.PathLedger

/-! Starting and ending processes keeps the reference ledger.

    `prepareFork` and `sysSpawn` take one reference for each descriptor of the child before the
    child's record is there; `rollbackFork` gives them back after it is gone. The other calls leave
    the tables alone, and so does `recordExit`. -/

namespace Yurt
open Kernel SortedMap
variable {σ : Type} {k : Kernel σ} {es : List FdEntry}
variable {p : Process} {e : FdEntry} {pid child parentPid caller : Pid}

/-! ### Records that are not there yet -/

namespace Kernel

/-- The table of a record made on the spot holds nothing that is counted. -/
theorem count_table_of_none (he : e.counted = true) (hnone : k.processes.get? pid = none) :
    (k.process pid).fdTable.entries.values.count e = 0 := by
  rw [← weight_process he, weight_none _ hnone]

theorem processes_incEntries (xs : List FdEntry) (k : Kernel σ) :
    (xs.foldl Kernel.incFdEntryRef k).processes = k.processes :=
  List.foldlRecOn (motive := fun k' : Kernel σ => k'.processes = _) xs _ rfl
    (fun k' h x _ => (k'.processes_incFdEntryRef x).trans h)

theorem process_congr {k' : Kernel σ} (h : k'.processes = k.processes) (pid : Pid) :
    k'.process pid = k.process pid := by
  rw [process, h, process]

/-- References for a new table are taken and the record with that table is written. -/
theorem Ledger.addTable (pid : Pid) {xs : List FdEntry} (h : k.Ledger es)
    (hxs : ∀ e ∈ xs, ∃ fd, k.fdEntry pid fd = some e)
    (hroom : ∀ e ∈ xs, k.counter e + xs.count e ≤ u32Max) (hp : p.fdTable.entries.values = xs)
    (hchild : ∀ e, e.counted = true → (k.process child).fdTable.entries.values.count e = 0) :
    ((xs.foldl Kernel.incFdEntryRef k).setProcess child p).Ledger es := by
  have hinc : (xs.foldl Kernel.incFdEntryRef k).Ledger (xs ++ es) := by
    refine h.incEntries (fun e he hcounted => ?_) hroom
    obtain ⟨fd, hfd⟩ := hxs e he
    exact h.live_of_fdEntry hfd hcounted
  refine hinc.setProcess (fun e he => ?_)
  rw [process_congr (processes_incEntries xs k), hchild e he, hp, List.count_append, Nat.zero_add]

/-! ### Fork -/

theorem Ledger.tryAllocHostPid (h : k.Ledger es) : k.tryAllocHostPid.2.Ledger es := h.frame rfl

theorem get?_of_tryAllocHostPid (hchild : k.tryAllocHostPid.1 = some child) :
    k.processes.get? child = none := by
  have hsearch : hostPidSearch k.hasProcess 999 k.nextHostPid =
      (some child, (hostPidSearch k.hasProcess 999 k.nextHostPid).2) := Prod.ext hchild rfl
  exact contains_eq_false.mp (hostPidSearch_free hsearch)

theorem Ledger.prepareFork (h : k.Ledger es)
    (hroom : ∀ e ∈ (k.process parentPid).fdTable.entries.values,
      k.counter e + (k.process parentPid).fdTable.entries.values.count e ≤ u32Max) :
    (k.prepareFork parentPid).2.Ledger es := by
  unfold Kernel.prepareFork
  cases hparent : k.processes.get? parentPid with
  | none => exact h
  | some parent =>
    have hrecord : (k.process parentPid).fdTable = parent.fdTable := by
      rw [process, hparent]
      rfl
    simp only
    refine Ledger.ite h (Ledger.ite h ?_)
    have halloc : k.tryAllocHostPid.2.Ledger es := h.tryAllocHostPid
    have hrest : k.tryAllocHostPid.2.processes = k.processes := rfl
    have hcounter : ∀ e, k.tryAllocHostPid.2.counter e = k.counter e := fun _ => rfl
    have hfree : ∀ child, k.tryAllocHostPid.1 = some child → k.processes.get? child = none :=
      fun child hchild => get?_of_tryAllocHostPid hchild
    generalize k.tryAllocHostPid = r at halloc hrest hcounter hfree ⊢
    obtain ⟨_ | child, k'⟩ := r
    · exact halloc
    · have hprocess := fun pid => process_congr hrest pid
      refine halloc.addTable parentPid (fun e he => ?_) (fun e he => ?_) rfl
        (fun e he => ?_)
      · rw [← hrecord] at he
        obtain ⟨fd, hfd⟩ := mem_values.mp he
        refine ⟨fd, ?_⟩
        rw [fdEntry, hprocess]
        exact hfd
      · rw [hcounter, ← hrecord]
        exact hroom e (hrecord ▸ he)
      · rw [hprocess]
        exact count_table_of_none he (hfree child rfl)

theorem minor_setProcess {p' : Process} (hp : k.processes.get? pid = some p)
    (htable : p'.fdTable = p.fdTable) (hqueues : p'.queues = p.queues) :
    k.Minor (k.setProcess pid p') := by
  have hold : (k.process pid).fdTable = p.fdTable ∧ (k.process pid).queues = p.queues := by
    rw [process, hp]
    exact ⟨rfl, rfl⟩
  have hget : ∀ pid', pid' ≠ pid → (k.setProcess pid p').process pid' = k.process pid' := by
    intro pid' hpid
    simp only [process, setProcess, get?_insert, if_neg hpid]
  have hset : (k.setProcess pid p').process pid = p'.ensureMainThread none := by
    simp only [process, setProcess, get?_insert, if_true, Option.getD_some]
  refine ⟨⟨refView_setProcess ?_, fun pid' => ?_⟩, rfl, rfl, fun pid' => ?_⟩
  · rw [htable, hold.1]
  · by_cases hpid : pid' = pid
    · subst hpid
      rw [hset, hold.1]
      exact htable
    · rw [hget pid' hpid]
  · by_cases hpid : pid' = pid
    · subst hpid
      rw [hset, hold.2]
      exact hqueues
    · rw [hget pid' hpid]

theorem minor_modifyProcess (k : Kernel σ) (pid : Pid) {f : Process → Process}
    (hf : ∀ p, (f p).fdTable = p.fdTable) (hqueues : ∀ p, (f p).queues = p.queues) :
    k.Minor (k.modifyProcess pid f) := by
  cases hp : k.processes.get? pid with
  | none =>
    have hsame : k.modifyProcess pid f = k := by
      simp only [modifyProcess, SortedMap.modify, hp]
    rw [hsame]
    exact .refl k
  | some p =>
    have hset : k.modifyProcess pid f = k.setProcess pid (f p) := by
      simp only [modifyProcess, SortedMap.modify, hp, setProcess]
    rw [hset]
    exact minor_setProcess hp (hf p) (hqueues p)

theorem minor_commitFork (k : Kernel σ) (parentPid childPid : Pid) :
    k.Minor (k.commitFork parentPid childPid).2 := by
  unfold commitFork
  split
  · exact .refl k
  · next child hchild =>
    have hcommit : k.Minor (k.setProcess childPid { child with forkState := .running }) :=
      minor_setProcess hchild rfl rfl
    refine ite_keeps (.refl k) ?_
    dsimp only
    split
    · exact hcommit
    · next hparent => exact hcommit.trans (minor_setProcess hparent rfl rfl)

/-- What a rollback gives up: the table of a child that `parentPid` prepared. -/
def rolledBack (k : Kernel σ) (parentPid childPid : Pid) : List FdEntry :=
  match k.processes.get? childPid with
  | none => []
  | some child =>
    if child.forkState ≠ .forkPreparing parentPid then [] else child.fdTable.entries.values

theorem Ledger.eraseProcess (h : k.Ledger es) (hp : k.processes.get? pid = some p) :
    ({ k with processes := k.processes.erase pid } : Kernel σ).Ledger
      (p.fdTable.entries.values ++ es) := by
  refine RefView.Ledger.setTables h (fun e he => ?_)
  have hsum := sum_erase k.processes pid (fun _ p => p.fdTable.entries.values.count e)
  rw [weight_some _ hp] at hsum
  simp only [refView, if_pos he, tableCount, List.count_append]
  omega

theorem minor_releaseHostPidReservation (k : Kernel σ) (pid : Pid) :
    k.Minor (k.releaseHostPidReservation pid) := by
  unfold releaseHostPidReservation
  split_ifs
  · exact ⟨⟨rfl, fun _ => rfl⟩, rfl, rfl, fun _ => rfl⟩
  · exact .refl k

theorem Ledger.rollbackFork (kh : Kh σ) {childPid : Pid} (h : k.Ledger es)
    (hsafe : k.SafeDrop (k.rolledBack parentPid childPid)) :
    (k.rollbackFork kh parentPid childPid).2.Ledger es := by
  unfold Kernel.rollbackFork
  unfold Kernel.rolledBack at hsafe
  cases hchild : k.processes.get? childPid with
  | none => exact h
  | some child =>
    rw [hchild] at hsafe
    simp only at hsafe ⊢
    by_cases hfork : child.forkState ≠ .forkPreparing parentPid
    · rw [if_pos hfork]
      exact h
    · rw [if_neg hfork] at hsafe ⊢
      have hdrop := (h.eraseProcess hchild).decFdEntryRefs kh (hsafe.congr rfl)
      generalize child.fdTable.entries.values.foldl (Kernel.decFdEntryRef kh)
        { k with processes := k.processes.erase childPid } = k' at hdrop ⊢
      refine hdrop.frame ((minor_releaseHostPidReservation _ childPid).refs.view.trans ?_)
      exact refView_modifyProcess (fun _ => rfl)

/-! ### Spawn -/

theorem get?_of_tryAllocSpawnPid (hchild : k.tryAllocSpawnPid.1 = some child) :
    k.processes.get? child = none := by
  unfold tryAllocSpawnPid at hchild
  simp only at hchild
  split at hchild
  · cases hchild
  · next pid hpid =>
    cases hchild
    exact contains_eq_false.mp (spawnPidSearch_free hpid)

theorem tryAllocSpawnPid_frame (k : Kernel σ) :
    k.Minor k.tryAllocSpawnPid.2 ∧ k.tryAllocSpawnPid.2.processes = k.processes := by
  unfold tryAllocSpawnPid
  simp only
  split
  · exact ⟨.refl k, rfl⟩
  · exact ⟨⟨⟨rfl, fun _ => rfl⟩, rfl, rfl, fun _ => rfl⟩, rfl⟩

end Kernel

/-- What a spawned child inherits is in the parent's table. -/
theorem FdTable.entry_of_inheritable {t : FdTable} (he : e ∈ t.inheritableEntries.values) :
    ∃ fd, t.entry fd = some e := by
  obtain ⟨fd, hfd⟩ := mem_values.mp he
  refine ⟨fd, ?_⟩
  rw [FdTable.inheritableEntries, get?_filter, Option.filter_eq_some_iff] at hfd
  exact hfd.1

namespace Kernel

theorem Ledger.stageSpawn (h : k.Ledger es) (wasm : Bytes) (argv : List Bytes)
    (hroom : ∀ e ∈ (k.process caller).fdTable.inheritableEntries.values,
      k.counter e + (k.process caller).fdTable.inheritableEntries.values.count e ≤ u32Max) :
    (k.stageSpawn caller wasm argv).2.Ledger es := by
  unfold Kernel.stageSpawn
  obtain ⟨hsame, hrest⟩ := k.tryAllocSpawnPid_frame
  have hfree : ∀ child, k.tryAllocSpawnPid.1 = some child → k.processes.get? child = none :=
    fun child hchild => get?_of_tryAllocSpawnPid hchild
  have hcounter : ∀ e, k.tryAllocSpawnPid.2.counter e = k.counter e := fun e => by
    rw [Kernel.counter, hsame.refs.view, Kernel.counter]
  generalize k.tryAllocSpawnPid = r at hsame hrest hfree hcounter ⊢
  obtain ⟨_ | child, k'⟩ := r
  · exact h.sameRefs hsame.refs
  have htouch := (hsame.trans (k'.minor_touch caller)).refs
  have htable := htouch.table caller
  simp only
  -- the record of the child may have been made by the touch, if the caller had none
  have hchild : ∀ e, e.counted = true →
      ((k'.touch caller).process child).fdTable.entries.values.count e = 0 := fun e he => by
    rw [htouch.table child]
    exact count_table_of_none he (hfree child rfl)
  have hadd : ∀ p : Process, p.fdTable.entries.values =
      ((k'.touch caller).process caller).fdTable.inheritableEntries.values →
      ((((k'.touch caller).process caller).fdTable.inheritableEntries.values.foldl
        Kernel.incFdEntryRef (k'.touch caller)).setProcess child p).Ledger es := by
    intro p hp
    refine (h.sameRefs htouch).addTable caller (fun e he => ?_) (fun e he => ?_) hp hchild
    · exact FdTable.entry_of_inheritable he
    · rw [htable, Kernel.counter, htouch.view]
      rw [htable] at he
      exact hroom e he
  generalize ((k'.touch caller).process caller).fdTable.inheritableEntries.values.foldl
    Kernel.incFdEntryRef (k'.touch caller) = staged at hadd ⊢
  have hregistered : (staged.updProcess child (fun fresh =>
      ((k'.touch caller).process caller).spawnChild fresh caller argv)).Ledger es := hadd _ rfl
  generalize staged.updProcess child (fun fresh =>
    ((k'.touch caller).process caller).spawnChild fresh caller argv) = registered at hregistered ⊢
  have hchildren : (registered.updProcess caller (fun p =>
      { p with children := pushChild p.children child })).refView = registered.refView :=
    refView_updProcess (fun _ => rfl)
  exact hregistered.frame hchildren

theorem Ledger.sysSpawn (kh : Kh σ) (h : k.Ledger es) (request : Bytes)
    (hroom : ∀ e ∈ (k.process caller).fdTable.inheritableEntries.values,
      k.counter e + (k.process caller).fdTable.inheritableEntries.values.count e ≤ u32Max) :
    (k.sysSpawn kh caller request).2.Ledger es := by
  obtain hr | ⟨path, argv, hr⟩ := k.sysSpawn_cases kh caller request <;> rw [hr]
  · exact h
  · have hworks : k.Works kh True True k := .refl
    refine onPath_ends (P := k.Minor) (Q := fun k => k.Ledger es) (hworks.loadImage _ _).minor
      (fun _ hsame => h.sameRefs hsame.refs) (fun wasm k' ⟨hsame, _, _, _⟩ => ?_)
    refine (h.sameRefs hsame).stageSpawn wasm _ (fun e he => ?_)
    rw [hsame.table] at he
    rw [hsame.table, counter, hsame.view]
    exact hroom e he

/-! ### Processes of the host, exit and wait -/

/-- A new record of the host starts from what `process_mut` hands out for its pid. -/
theorem minor_insertHostProcess (k : Kernel σ) (pid parentPid : Pid) (argv : List Bytes)
    (handle : Option Int) : k.Minor (k.insertHostProcess pid parentPid argv handle) := by
  unfold insertHostProcess
  dsimp only
  split_ifs
  · refine Minor.trans ?_ (minor_modifyProcess _ parentPid ?_ ?_)
    · exact k.minor_updProcess pid (fun _ => rfl) (fun _ => rfl)
    · exact fun _ => rfl
    · exact fun _ => rfl
  · exact k.minor_updProcess pid (fun _ => rfl) (fun _ => rfl)

theorem minor_spawnCachedProcess (kh : Kh σ) (k : Kernel σ) (parentPid : Pid)
    (moduleId argvRequest : Bytes) :
    k.Minor (k.spawnCachedProcess kh parentPid moduleId argvRequest).2 := by
  unfold spawnCachedProcess
  split
  · exact .refl k
  · have halloc : k.Minor k.tryAllocHostPid.2 := ⟨⟨rfl, fun _ => rfl⟩, rfl, rfl, fun _ => rfl⟩
    generalize k.tryAllocHostPid = r at halloc ⊢
    obtain ⟨_ | pid, k'⟩ := r
    · exact halloc
    · have hhost := fun host => halloc.trans (k'.minor_vfs k'.vfs host)
      dsimp only
      split_ifs
      · dsimp only
        exact (hhost _).trans (minor_releaseHostPidReservation _ pid)
      · dsimp only
        exact (hhost _).trans (minor_insertHostProcess _ pid parentPid _ _)

theorem minor_recordExit (k : Kernel σ) (request : Bytes) : k.Minor (k.recordExit request).2 := by
  have hexit : k.Minor (k.updProcess (u32At request 0)
      (fun p => { p with exitStatus := some (i32At request 4) })) :=
    k.minor_updProcess _ (fun _ => rfl) (fun _ => rfl)
  unfold recordExit recordExitOf
  refine ite_keeps (.refl k) (ite_keeps (.refl k) (ite_keeps (hexit.trans ?_) hexit))
  dsimp only
  exact minor_updProcess _ _ (fun _ => rfl) (fun _ => rfl)

theorem minor_findExited : ∀ (cs : List Pid) (k : Kernel σ), k.Minor (findExited cs k).2
  | [], k => .refl k
  | c :: cs, k => by
    unfold findExited
    split
    · exact k.minor_touch c
    · exact (k.minor_touch c).trans (minor_findExited cs _)

theorem minor_waitResponse (k : Kernel σ) (pid : Pid) (request : Bytes) (cap : Nat) :
    k.Minor (k.waitResponse pid request cap).2 := by
  have hfind := fun cs => (k.minor_touch pid).trans (minor_findExited cs (k.touch pid))
  unfold waitResponse
  split
  · refine ite_keeps (.refl k) (ite_keeps (k.minor_touch pid) ?_)
    split
    · next hr => exact (hfind _).of_eq hr
    · next child status k' hr =>
      refine ((hfind _).of_eq hr).trans ?_
      dsimp only
      exact k'.minor_updProcess pid (fun _ => rfl) (fun _ => rfl)
  · exact .refl k

end Kernel

end Yurt
