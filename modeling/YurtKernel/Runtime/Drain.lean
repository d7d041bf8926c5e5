import YurtKernel.Runtime.Waitpid

/-! Running staged children.

    `sys_spawn` puts a child on a queue of the kernel. The host takes children off it one by one
    (`drain_and_run_pending_spawns`), compiles and runs each, and records its exit. A child may spawn
    and wait itself, and a wait runs the queue again, so drains nest, up to a depth of 256. -/

namespace Yurt
open Kernel
variable {σ : Type} {k k' : Kernel σ}
variable {s : PendingSpawn} {rest : List PendingSpawn} {argv : List Bytes} {pid child : Pid}

/-! ### The record of a staged child -/

def PendingSpawn.record (s : PendingSpawn) : Bytes :=
  leBytes 4 s.childPid ++ (leBytes 4 s.wasm.length ++ (s.wasm ++
    (leBytes 4 s.argv.length ++ s.argv.flatMap argRecord)))

def PendingSpawn.need (s : PendingSpawn) : Nat :=
  4 + 4 + s.wasm.length + 4 + (s.argv.map (fun arg => 4 + arg.length)).sum

def Kernel.pendingSpawnsPushFront (k : Kernel σ) (s : PendingSpawn) : Kernel σ :=
  { k with pendingSpawns := s :: k.pendingSpawns }

/-- `drain_spawn` into a buffer of `cap` bytes; a record that does not fit goes back to the front. -/
def Kernel.drainSpawn (k : Kernel σ) (cap : Nat) : Reply × Kernel σ :=
  match k.pendingSpawns with
  | [] => (.code (-ENOENT), k)
  | s :: rest =>
    let k := { k with pendingSpawns := rest }
    if cap < s.need then (.code s.need, k.pendingSpawnsPushFront s) else (.data s.record, k)

def parseArgs : Nat → Bytes → Option (List Bytes)
  | 0, _ => some []
  | argc + 1, buf =>
    if buf.length < 4 then none
    else if buf.length < 4 + u32At buf 0 then none
    else (parseArgs argc (buf.drop (4 + u32At buf 0))).map
      (fun argv => (buf.drop 4).take (u32At buf 0) :: argv)

/-- The host's reading of a record. -/
def parsePendingSpawn (buf : Bytes) : Option PendingSpawn :=
  if buf.length < 8 then none
  else if buf.length < 8 + u32At buf 4 + 4 then none
  else (parseArgs (u32At buf (8 + u32At buf 4)) (buf.drop (8 + u32At buf 4 + 4))).map
    (fun argv => ⟨u32At buf 0, (buf.drop 8).take (u32At buf 4), argv⟩)

/-- `drain_pending_spawn_raw`. -/
def Kernel.drainPendingSpawn (k : Kernel σ) : Except Unit (Option PendingSpawn) × Kernel σ :=
  let (reply, k) := k.drainSpawn scratchLen
  if reply.rc = -ENOENT then (.ok none, k)
  else if reply.rc < 0 then (.error (), k)
  else if (scratchLen : Int) < reply.rc then (.error (), k)
  else
    match parsePendingSpawn (reply.writes.flatMap Prod.snd) with
    | none => (.error (), k)
    | some s => (.ok (some s), k)

/-! ### Children -/

/-- How a child ends. -/
inductive ChildEnd where
  | returns
  | exits (status : Int)
  | traps
  deriving DecidableEq

def childTrapExit : Int := 134

def ChildEnd.status : ChildEnd → Int
  | .returns => 0
  | .exits status => status
  | .traps => childTrapExit

/-- A step that stages no child, records no exit and reaps nobody. -/
structure Kernel.Quiet (k k' : Kernel σ) : Prop where
  queue : k'.pendingSpawns = k.pendingSpawns
  cursor : k'.nextSpawnPid = k.nextSpawnPid
  kept : ∀ q, k.processes.get? q ≠ none → k'.processes.get? q ≠ none
  exits : ∀ q, (k'.process q).exitStatus = (k.process q).exitStatus
  children : ∀ q, ∀ c ∈ (k.process q).children, c ∈ (k'.process q).children

/-- What the module of a child does: spawn, wait, anything else that is quiet, each going on as it
    likes with the answer, until it ends. -/
inductive Behaviour (σ : Type) where
  | ends (how : ChildEnd)
  | spawn (request : Bytes) (next : Int → Behaviour σ)
  | wait (pid flags : Int) (next : Int × Option WaitResult → Behaviour σ)
  | other (act : Kernel σ → Reply × Kernel σ) (quiet : ∀ k : Kernel σ, k.Quiet (act k).2)
      (next : Reply → Behaviour σ)

/-- A host: its imports, and what compiling and instantiating a module gives, if it works. -/
structure ChildHost (σ : Type) where
  kh : Kh σ
  load : Kernel σ → PendingSpawn → Option (Behaviour σ)

/-- The kernel, and what happened so far: children staged and by whom, run, recorded and reaped. -/
structure SpawnWorld (σ : Type) where
  kernel : Kernel σ
  staged : List (Pid × PendingSpawn)
  started : List Pid
  recorded : List (Pid × Int)
  reaped : List (Pid × Pid)

def SpawnWorld.start (k : Kernel σ) : SpawnWorld σ := ⟨k, [], [], [], []⟩

section
variable (kh : Kh σ) (w : SpawnWorld σ) (caller : Pid) (request : Bytes)

/-- `sys_spawn`; what it put on the queue is staged. -/
def SpawnWorld.spawn : Int × SpawnWorld σ :=
  let (rc, k) := w.kernel.sysSpawn kh caller request
  (rc, { w with
    kernel := k
    staged := w.staged ++
      (k.pendingSpawns.drop w.kernel.pendingSpawns.length).map (fun s => (caller, s)) })

/-- The kernel's `wait`; an answer of 8 bytes is a child reaped. -/
def SpawnWorld.ask (w : SpawnWorld σ) : Reply × SpawnWorld σ :=
  let (reply, k) := w.kernel.waitResponse caller request 8
  (reply, { w with
    kernel := k
    reaped := if reply.rc = 8 then (caller, u32At (reply.writes.flatMap Prod.snd) 0) :: w.reaped
      else w.reaped })

/-- `record_exit_raw`. -/
def SpawnWorld.recordExit (pid : Pid) (status : Int) : Int × SpawnWorld σ :=
  let (rc, k) := w.kernel.recordExitOf pid status
  (rc, { w with
    kernel := k
    recorded := if rc = 0 then w.recorded ++ [(pid, status)] else w.recorded })

end

/-- Run a child with pid `pid` to its end. -/
def Behaviour.run (kh : Kh σ) (d : WaitDriver (SpawnWorld σ)) (pid : Pid) :
    Behaviour σ → SpawnWorld σ → ChildEnd × SpawnWorld σ
  | .ends how, w => (how, w)
  | .spawn request next, w =>
    let (rc, w) := w.spawn kh pid request
    (next rc).run kh d pid w
  | .wait child flags next, w =>
    let (answer, w) := hostWaitBy d (SpawnWorld.ask pid) child flags w
    (next answer).run kh d pid w
  | .other act _ next, w =>
    let (reply, k) := act w.kernel
    (next reply).run kh d pid { w with kernel := k }

/-- `drain_and_run_pending_spawns`, with as many rounds as the runaway limit leaves. -/
def SpawnWorld.drainRounds (h : ChildHost σ) (d : WaitDriver (SpawnWorld σ)) : Nat → SpawnWorld σ → Bool × SpawnWorld σ
  | fuel, w =>
    match w.kernel.drainPendingSpawn with
    | (.error _, k) => (false, { w with kernel := k })
    | (.ok none, k) => (true, { w with kernel := k })
    | (.ok (some s), k) =>
      match fuel with
      | 0 => (false, { w with kernel := k })
      | fuel + 1 =>
        match h.load k s with
        | none => (false, { w with kernel := k })
        | some b =>
          let (how, w) := b.run h.kh d s.childPid
            { w with kernel := k, started := w.started ++ [s.childPid] }
          let (rc, w) := w.recordExit s.childPid how.status
          if rc ≠ 0 then (false, w) else SpawnWorld.drainRounds h d fuel w

/-- The waits of children with `left` levels of nesting to go; at the last one nothing is run. -/
def ChildHost.driver (h : ChildHost σ) : Nat → WaitDriver (SpawnWorld σ)
  | 0 => ⟨fun w => (true, w), hostWaitMaxDrainDepth⟩
  | left + 1 =>
    ⟨SpawnWorld.drainRounds h (h.driver left) hostWaitMaxDrainIters, hostWaitMaxDrainDepth - (left + 1)⟩

/-- The drain from outside of any wait. -/
def SpawnWorld.drain (h : ChildHost σ) (w : SpawnWorld σ) : Bool × SpawnWorld σ :=
  SpawnWorld.drainRounds h (h.driver hostWaitMaxDrainDepth) hostWaitMaxDrainIters w

/-! ### Reading a record back -/

theorem u32At_front (buf : Bytes) (off : Nat) : u32At buf off = u32At (buf.drop off) 0 := by
  rw [u32At_drop, Nat.add_zero]

theorem PendingSpawn.record_length (s : PendingSpawn) : s.record.length = s.need := by
  simp only [PendingSpawn.record, PendingSpawn.need, List.length_append, leBytes_length, sum_argRecord]
  omega

theorem parseArgs_records (hsmall : ∀ arg ∈ argv, arg.length < 2 ^ 32) :
    parseArgs argv.length (argv.flatMap argRecord) = some argv := by
  induction argv with
  | nil => rfl
  | cons arg argv ih =>
    have hlen : u32At ((arg :: argv).flatMap argRecord) 0 = arg.length := by
      rw [List.flatMap_cons, argRecord, List.append_assoc]
      exact u32At_leBytes_append (hsmall arg (List.mem_cons_self ..)) _
    have hhead : (leBytes 4 arg.length ++ arg).length = 4 + arg.length := by
      rw [List.length_append, leBytes_length]
    have hrest : ((arg :: argv).flatMap argRecord).drop (4 + arg.length) = argv.flatMap argRecord := by
      rw [List.flatMap_cons, argRecord, List.drop_left' hhead]
    have harg : (((arg :: argv).flatMap argRecord).drop 4).take arg.length = arg := by
      rw [List.flatMap_cons, argRecord, List.append_assoc, List.drop_left' (leBytes_length 4 arg.length),
        List.take_left' rfl]
    have hroom : 4 + arg.length ≤ ((arg :: argv).flatMap argRecord).length := by
      rw [List.flatMap_cons, argRecord, List.length_append, hhead]
      omega
    rw [List.length_cons, parseArgs, hlen, if_neg (by omega), if_neg (by omega), hrest, harg,
      ih (fun a ha => hsmall a (List.mem_cons_of_mem _ ha))]
    rfl

/-- What the kernel writes is what the host reads. -/
theorem parsePendingSpawn_record (hpid : s.childPid < 2 ^ 32) (hfits : s.need ≤ scratchLen) :
    parsePendingSpawn s.record = some s := by
  have hlen := s.record_length
  have hlimit : scratchLen < 2 ^ 32 := by decide
  have hneed : s.need = 12 + s.wasm.length + (s.argv.flatMap argRecord).length := by
    rw [PendingSpawn.need, sum_argRecord]
    omega
  have hargs : s.argv.length ≤ (s.argv.flatMap argRecord).length ∧
      ∀ arg ∈ s.argv, arg.length ≤ (s.argv.flatMap argRecord).length := by
    rw [sum_argRecord]
    constructor
    · have hsum := List.card_nsmul_le_sum (s.argv.map (fun arg => 4 + arg.length)) 1 (fun n hn => by
        obtain ⟨arg, -, rfl⟩ := List.mem_map.mp hn
        omega)
      simpa using hsum
    · intro arg harg
      have hmem := List.mem_map_of_mem (f := fun arg : Bytes => 4 + arg.length) harg
      have hle := List.single_le_sum (fun _ _ => Nat.zero_le _) _ hmem
      omega
  have hbody : s.record.drop 8 = s.wasm ++ (leBytes 4 s.argv.length ++ s.argv.flatMap argRecord) := by
    rw [PendingSpawn.record, ← List.append_assoc, List.drop_left']
    rw [List.length_append, leBytes_length, leBytes_length]
  have hwasm : u32At s.record 4 = s.wasm.length := by
    rw [u32At_front, PendingSpawn.record, List.drop_left' (leBytes_length 4 _)]
    exact u32At_leBytes_append (by omega) _
  have htail : s.record.drop (8 + s.wasm.length) = leBytes 4 s.argv.length ++ s.argv.flatMap argRecord := by
    rw [← List.drop_drop, hbody, List.drop_left' rfl]
  have hargc : u32At s.record (8 + s.wasm.length) = s.argv.length := by
    rw [u32At_front, htail]
    exact u32At_leBytes_append (by omega) _
  have hargv : s.record.drop (8 + s.wasm.length + 4) = s.argv.flatMap argRecord := by
    rw [← List.drop_drop, htail, List.drop_left' (leBytes_length 4 _)]
  have hchild : u32At s.record 0 = s.childPid := u32At_leBytes_append hpid _
  rw [parsePendingSpawn, if_neg (by omega), hwasm, if_neg (by omega), hargc, hargv, hchild, hbody,
    List.take_left' rfl, parseArgs_records (fun arg harg => by have := hargs.2 arg harg; omega)]
  rfl

/-- A queue whose head fits gives it up. -/
theorem Kernel.drainPendingSpawn_fits (hqueue : k.pendingSpawns = s :: rest)
    (hpid : s.childPid < 2 ^ 32) (hfits : s.need ≤ scratchLen) :
    k.drainPendingSpawn = (.ok (some s), { k with pendingSpawns := rest }) := by
  have hdrain : k.drainSpawn scratchLen = (.data s.record, { k with pendingSpawns := rest }) := by
    rw [drainSpawn, hqueue]
    exact if_neg (not_lt.mpr hfits)
  have hbytes : (Reply.data s.record).writes.flatMap Prod.snd = s.record := List.append_nil _
  have hrc : (Reply.data s.record).rc = s.need := by rw [Reply.data, s.record_length]
  have hent : ¬ (s.need : Int) = -ENOENT := by
    have hneg : -ENOENT < 0 := by decide
    omega
  rw [drainPendingSpawn, hdrain]
  simp only [hrc, hbytes, parsePendingSpawn_record hpid hfits]
  rw [if_neg hent, if_neg (by omega), if_neg (by omega)]

theorem Kernel.drainPendingSpawn_empty (hqueue : k.pendingSpawns = []) :
    k.drainPendingSpawn = (.ok none, k) := by
  have hdrain : k.drainSpawn scratchLen = (.code (-ENOENT), k) := by
    rw [drainSpawn, hqueue]
  rw [drainPendingSpawn, hdrain]
  rfl

/-- A head that does not fit is put back, and nothing is taken. -/
theorem Kernel.drainPendingSpawn_oversized (hqueue : k.pendingSpawns = s :: rest)
    (hlarge : scratchLen < s.need) :
    k.drainPendingSpawn = (.error (), k) := by
  have hback : ({ k with pendingSpawns := rest } : Kernel σ).pendingSpawnsPushFront s = k := by
    rw [pendingSpawnsPushFront, ← hqueue]
  have hdrain : k.drainSpawn scratchLen = (.code s.need, k) := by
    rw [drainSpawn, hqueue]
    dsimp only
    rw [if_pos hlarge, hback]
  have hent : ¬ (s.need : Int) = -ENOENT := by
    have hneg : -ENOENT < 0 := by decide
    omega
  have hpos : ¬ (s.need : Int) < 0 := by omega
  have hover : (scratchLen : Int) < s.need := by exact_mod_cast hlarge
  rw [drainPendingSpawn, hdrain]
  exact (if_neg hent).trans ((if_neg hpos).trans (if_pos hover))

/-! ### What the calls do to the queue -/

section
variable (kh : Kh σ) (k : Kernel σ) (caller : Pid)

/-- The queue and the cursor of the pids given out for it. -/
def Kernel.spawnView : List PendingSpawn × Pid := (k.pendingSpawns, k.nextSpawnPid)

theorem Kernel.spawnView_loadImage (raw : Bytes) :
    (k.loadImage kh caller raw).2.spawnView = k.spawnView := by
  have hworks : k.Works kh False False k := .refl
  have hload := hworks.loadImage caller raw
  generalize (k.loadImage kh caller raw).2 = k' at hload ⊢
  induction hload <;> first | rfl | assumption

theorem nextSpawnCandidate_range {pid : Nat} (h : 1000 ≤ pid ∧ pid ≤ u32Max) :
    1000 ≤ nextSpawnCandidate pid ∧ nextSpawnCandidate pid ≤ u32Max := by
  have hmax : 1000 ≤ u32Max := by decide
  unfold nextSpawnCandidate
  split
  · exact ⟨le_refl 1000, hmax⟩
  · rename_i hlast
    exact ⟨Nat.le_succ_of_le h.1, Nat.lt_of_le_of_ne h.2 hlast⟩

theorem spawnPidSearch_range {taken : Pid → Bool} {first tries pid pid' : Nat}
    (hpid : 1000 ≤ pid ∧ pid ≤ u32Max) (h : spawnPidSearch taken first tries pid = some pid') :
    1000 ≤ pid' ∧ pid' ≤ u32Max := by
  induction tries generalizing pid with
  | zero => simp [spawnPidSearch] at h
  | succ tries ih =>
    rw [spawnPidSearch] at h
    split_ifs at h with hfree hround
    · cases h
      exact hpid
    · exact ih (nextSpawnCandidate_range hpid) h

namespace Kernel

theorem spawnView_incFdEntryRef (e : FdEntry) : (k.incFdEntryRef e).spawnView = k.spawnView := by
  cases e <;> rfl

/-- What staging does to the queue. -/
theorem stageSpawn_queue (wasm : Bytes) (argv : List Bytes) :
    (∃ child : Pid, (k.stageSpawn caller wasm argv).1 = child ∧
      (k.stageSpawn caller wasm argv).2.pendingSpawns = k.pendingSpawns ++ [⟨child, wasm, argv⟩] ∧
      (k.nextSpawnPid ≤ u32Max → (1000 ≤ child ∧ child ≤ u32Max) ∧
        (k.stageSpawn caller wasm argv).2.nextSpawnPid ≤ u32Max)) ∨
    ((k.stageSpawn caller wasm argv).1 < 0 ∧
      (k.stageSpawn caller wasm argv).2.spawnView = k.spawnView) := by
  unfold stageSpawn tryAllocSpawnPid
  cases hsearch : spawnPidSearch k.hasProcess (max k.nextSpawnPid 1000) (u32Max - 999)
      (max k.nextSpawnPid 1000) with
  | none =>
    have hagain : -EAGAIN < 0 := by decide
    simp only [hsearch]
    exact .inr ⟨hagain, trivial⟩
  | some child =>
    simp only [hsearch]
    generalize hk1 : ({ k with nextSpawnPid := nextSpawnCandidate child } : Kernel σ).touch caller = k1
    have hview : k1.spawnView = (k.pendingSpawns, nextSpawnCandidate child) := by rw [← hk1]; rfl
    generalize hes : (k1.process caller).fdTable.inheritableEntries.values = es
    have hafter := List.foldlRecOn (motive := fun k : Kernel σ => k.spawnView = _) es Kernel.incFdEntryRef hview
      (fun k h e _ => (k.spawnView_incFdEntryRef e).trans h)
    refine .inl ⟨child, rfl, ?_, fun hcursor => ⟨?_, ?_⟩⟩
    · exact congrArg (· ++ [(⟨child, wasm, argv⟩ : PendingSpawn)]) (congrArg Prod.fst hafter)
    · have hmax : 1000 ≤ u32Max := by decide
      exact spawnPidSearch_range ⟨le_max_right _ _, max_le hcursor hmax⟩ hsearch
    · refine le_of_eq_of_le (congrArg Prod.snd hafter) ?_
      have hmax : 1000 ≤ u32Max := by decide
      exact (nextSpawnCandidate_range
        (spawnPidSearch_range ⟨le_max_right _ _, max_le hcursor hmax⟩ hsearch)).2

theorem sysSpawn_queue (request : Bytes) :
    (∃ (s : PendingSpawn), (k.sysSpawn kh caller request).1 = s.childPid ∧
      (k.sysSpawn kh caller request).2.pendingSpawns = k.pendingSpawns ++ [s] ∧
      (k.nextSpawnPid ≤ u32Max → (1000 ≤ s.childPid ∧ s.childPid ≤ u32Max) ∧
        (k.sysSpawn kh caller request).2.nextSpawnPid ≤ u32Max)) ∨
    ((k.sysSpawn kh caller request).1 < 0 ∧ (k.sysSpawn kh caller request).2.spawnView = k.spawnView) := by
  have hinval : -EINVAL < 0 := by decide
  obtain hr | ⟨path, argv, hr⟩ := k.sysSpawn_cases kh caller request <;> rw [hr]
  · exact .inr ⟨hinval, rfl⟩
  · have hload := k.spawnView_loadImage kh caller path
    have hneg : ∀ rc, (k.loadImage kh caller path).1 = .error rc → rc < 0 := fun _ => loadImage_neg
    generalize k.loadImage kh caller path = r at hload hneg ⊢
    obtain ⟨rc | wasm, k'⟩ := r
    · exact .inr ⟨hneg rc rfl, hload⟩
    · have hqueue : k'.pendingSpawns = k.pendingSpawns := congrArg Prod.fst hload
      have hcursor : k'.nextSpawnPid = k.nextSpawnPid := congrArg Prod.snd hload
      obtain ⟨child, hrc, hpushed, hrange⟩ | ⟨hrc, hview⟩ := k'.stageSpawn_queue caller wasm argv
      · exact .inl ⟨⟨child, wasm, argv⟩, hrc, hpushed.trans (by rw [hqueue]), by rwa [← hcursor]⟩
      · exact .inr ⟨hrc, hview.trans hload⟩

theorem spawnView_findExited (cs : List Pid) (k : Kernel σ) :
    (findExited cs k).2.spawnView = k.spawnView := by
  induction cs generalizing k with
  | nil => rfl
  | cons c cs ih =>
    rw [findExited]
    cases (k.process c).exitStatus with
    | some s => rfl
    | none => exact ih (k.touch c)

theorem spawnView_waitResponse (request : Bytes) (cap : Nat) :
    (k.waitResponse caller request cap).2.spawnView = k.spawnView := by
  unfold waitResponse
  split
  · refine ite_keeps (P := fun k' => k'.spawnView = k.spawnView) rfl ?_
    refine ite_keeps (P := fun k' => k'.spawnView = k.spawnView) rfl ?_
    have hfind := fun cs => spawnView_findExited cs (k.touch caller)
    split
    · next k' heq => exact (congrArg (fun r => spawnView r.2) heq).symm.trans (hfind _)
    · next pid status k' heq =>
      exact (congrArg (fun r => spawnView r.2) heq).symm.trans (hfind _)
  · rfl

theorem spawnView_recordExitOf (pid : Pid) (status : Int) :
    (k.recordExitOf pid status).2.spawnView = k.spawnView := by
  unfold recordExitOf
  dsimp only
  split_ifs <;> rfl

end Kernel

end

/-- The exit of a process with a record. -/
theorem Kernel.recordExitOf_known (hknown : k.processes.get? pid ≠ none) (status : Int) :
    (k.recordExitOf pid status).1 = 0 ∧
    (∀ q, k.processes.get? q ≠ none → (k.recordExitOf pid status).2.processes.get? q ≠ none) ∧
    (∀ q, ((k.recordExitOf pid status).2.process q).exitStatus =
      if q = pid then some status else (k.process q).exitStatus) ∧
    ∀ q, ∀ c ∈ (k.process q).children, c ∈ ((k.recordExitOf pid status).2.process q).children := by
  obtain ⟨k', heq, -, hkept, hcore⟩ | ⟨habsent, -⟩ := k.recordExitOf_records pid status
  · rw [heq]
    refine ⟨rfl, hkept, fun q => (congrArg Process.exitStatus (hcore q) :), fun q c hc => ?_⟩
    have hlist : (k'.process q).children = _ := (congrArg Process.children (hcore q) :)
    exact hlist ▸ hc
  · exact absurd habsent hknown

/-- A wait takes a child off a list only to return it. -/
theorem Kernel.waitResponse_takes (k : Kernel σ) (caller : Pid) {request : Bytes}
    (hlen : request.length = 8) :
    (∀ q, k.processes.get? q ≠ none → (k.waitResponse caller request 8).2.processes.get? q ≠ none) ∧
    (∀ q, ((k.waitResponse caller request 8).2.process q).exitStatus = (k.process q).exitStatus) ∧
    ∀ q, ∀ c ∈ (k.process q).children, c ∈ ((k.waitResponse caller request 8).2.process q).children ∨
      q = caller ∧ ∃ s, (k.waitResponse caller request 8).1 =
        .data (leBytes 4 c ++ leBytes 4 (ofI32 s)) := by
  obtain ⟨hreply, hafter⟩ := k.waitResponse_eq caller (le_of_eq hlen.symm) (le_refl 8)
  generalize k.waitResponse caller request 8 = r at hreply hafter ⊢
  generalize k.waitCandidates caller (u32At request 0) = candidates at hreply hafter
  cases hfound : k.firstExited candidates with
  | none =>
    rw [hfound] at hafter
    have hcalm := hafter.calm
    exact ⟨hafter.kept, hcalm.exits, fun q c hc => .inl (by rwa [hcalm.children])⟩
  | some found =>
    obtain ⟨child, status⟩ := found
    rw [hfound] at hafter
    obtain ⟨k1, hreads, hk1⟩ := hafter
    obtain ⟨hkept, hchildren, hexits, -⟩ := hreads.withoutChild caller child
    have hsome : candidates.isEmpty = false := by
      cases candidates with
      | nil => exact absurd (firstExited_some hfound).1 List.not_mem_nil
      | cons _ _ => rfl
    have hdata : r.1 = .data (leBytes 4 child ++ leBytes 4 (ofI32 status)) := by
      rw [hreply, waitReply, hsome, hfound]
      rfl
    rw [hk1]
    refine ⟨hkept, hexits, fun q c hc => ?_⟩
    by_cases htaken : q = caller ∧ c = child
    · exact .inr ⟨htaken.1, status, by rw [hdata, htaken.2]⟩
    · left
      rw [hchildren]
      split_ifs with hq
      · exact List.mem_filter.mpr ⟨hc, by simpa using fun h => htaken ⟨hq, h⟩⟩
      · exact hc

/-! ### What is known of a world -/

/-- Children leave the queue in the order they were staged in and are run then; each staged child has
    a record, a pid of its own, and its place on its parent's list until it is reaped. -/
structure SpawnWorld.Sound (w : SpawnWorld σ) : Prop where
  order : ∃ gone, w.staged.map Prod.snd = gone ++ w.kernel.pendingSpawns ∧
    w.started = gone.map PendingSpawn.childPid
  cursor : w.kernel.nextSpawnPid ≤ u32Max
  range : ∀ e ∈ w.staged, 1000 ≤ e.2.childPid ∧ e.2.childPid ≤ u32Max
  made : ∀ e ∈ w.staged, w.kernel.processes.get? e.2.childPid ≠ none
  distinct : (w.staged.map (fun e => e.2.childPid)).Nodup
  ran : ∀ e ∈ w.recorded, e.1 ∈ w.started
  exits : ∀ e ∈ w.recorded, (w.kernel.process e.1).exitStatus = some e.2
  child : ∀ e ∈ w.staged, e.2.childPid ∈ (w.kernel.process e.1).children ∨ (e.1, e.2.childPid) ∈ w.reaped

/-- Every staged child fits the scratch buffer and loads, and there are no more than the limit. -/
def ChildHost.Fine (h : ChildHost σ) (w : SpawnWorld σ) : Prop :=
  (∀ e ∈ w.staged, e.2.need ≤ scratchLen ∧ ∀ k, (h.load k e.2).isSome = true) ∧
    w.staged.length ≤ hostWaitMaxDrainIters

/-- Every child run in between has its exit recorded. -/
def SpawnWorld.Balanced (w w' : SpawnWorld σ) : Prop := ∃ new, w'.started = w.started ++ new ∧
    (w'.recorded.map Prod.fst).Perm (w.recorded.map Prod.fst ++ new)

/-- The head of the queue does not fit the scratch buffer. -/
def SpawnWorld.Blocked (w : SpawnWorld σ) : Prop :=
  ∃ s rest, w.kernel.pendingSpawns = s :: rest ∧ scratchLen < s.need

/-- Nothing is run, no exit is recorded, and what is staged queues up behind the rest. -/
structure SpawnWorld.Stalls (w w' : SpawnWorld σ) : Prop where
  started : w'.started = w.started
  recorded : w'.recorded = w.recorded
  queue : ∃ more, w'.staged = w.staged ++ more ∧
    w'.kernel.pendingSpawns = w.kernel.pendingSpawns ++ more.map Prod.snd

/-- What one step, or many, make of a world. -/
structure SpawnWorld.Leads (h : ChildHost σ) (w w' : SpawnWorld σ) : Prop where
  grows : w.staged <+: w'.staged
  sound : w.Sound → h.Fine w' → w'.Sound ∧ w.Balanced w'
  stalls : w.Blocked → w.Stalls w'

section
variable {h : ChildHost σ} {w w' w'' : SpawnWorld σ}

theorem ChildHost.Fine.of_grows (hfine : h.Fine w') (hgrows : w.staged <+: w'.staged) : h.Fine w :=
  ⟨fun e he => hfine.1 e (hgrows.subset he), hgrows.length_le.trans hfine.2⟩

namespace SpawnWorld

theorem Balanced.refl (w : SpawnWorld σ) : w.Balanced w :=
  ⟨[], (List.append_nil _).symm, by rw [List.append_nil]⟩

theorem Balanced.trans (h1 : w.Balanced w') (h2 : w'.Balanced w'') : w.Balanced w'' := by
  obtain ⟨new1, hstarted1, hrecorded1⟩ := h1
  obtain ⟨new2, hstarted2, hrecorded2⟩ := h2
  refine ⟨new1 ++ new2, by rw [hstarted2, hstarted1, List.append_assoc], ?_⟩
  rw [← List.append_assoc]
  exact hrecorded2.trans (hrecorded1.append_right new2)

theorem Stalls.of_queue (hstarted : w'.started = w.started) (hrecorded : w'.recorded = w.recorded)
    (hstaged : w'.staged = w.staged) (hqueue : w'.kernel.pendingSpawns = w.kernel.pendingSpawns) :
    w.Stalls w' :=
  ⟨hstarted, hrecorded, [], by rw [hstaged, List.append_nil], by rw [hqueue, List.map_nil, List.append_nil]⟩

theorem Stalls.trans (h1 : w.Stalls w') (h2 : w'.Stalls w'') : w.Stalls w'' := by
  obtain ⟨more1, hstaged1, hqueue1⟩ := h1.queue
  obtain ⟨more2, hstaged2, hqueue2⟩ := h2.queue
  refine ⟨h2.started.trans h1.started, h2.recorded.trans h1.recorded, more1 ++ more2, ?_, ?_⟩
  · rw [hstaged2, hstaged1, List.append_assoc]
  · rw [hqueue2, hqueue1, List.map_append, List.append_assoc]

theorem Blocked.stalls (hb : w.Blocked) (h : w.Stalls w') : w'.Blocked := by
  obtain ⟨s, rest, hqueue, hlarge⟩ := hb
  obtain ⟨more, -, hqueue'⟩ := h.queue
  exact ⟨s, rest ++ more.map Prod.snd, by rw [hqueue', hqueue, List.cons_append], hlarge⟩

theorem Leads.refl (w : SpawnWorld σ) : w.Leads h w :=
  ⟨List.prefix_rfl, fun hs _ => ⟨hs, .refl w⟩, fun _ => .of_queue rfl rfl rfl rfl⟩

theorem Leads.trans (h1 : w.Leads h w') (h2 : w'.Leads h w'') : w.Leads h w'' where
  grows := h1.grows.trans h2.grows
  sound hs hfine := by
    obtain ⟨hs1, hb1⟩ := h1.sound hs (hfine.of_grows h2.grows)
    obtain ⟨hs2, hb2⟩ := h2.sound hs1 hfine
    exact ⟨hs2, hb1.trans hb2⟩
  stalls hb := (h1.stalls hb).trans (h2.stalls (hb.stalls (h1.stalls hb)))

/-- Children that were run are a part of those staged. -/
theorem Sound.started_prefix (hs : w.Sound) :
    w.started <+: w.staged.map (fun e => e.2.childPid) := by
  obtain ⟨gone, hstaged, hstarted⟩ := hs.order
  have hpids : w.staged.map (fun e => e.2.childPid) =
      (w.staged.map Prod.snd).map PendingSpawn.childPid := by rw [List.map_map]; rfl
  rw [hpids, hstaged, List.map_append, hstarted]
  exact List.prefix_append _ _

theorem Balanced.of_logs (hstarted : w'.started = w.started)
    (hrecorded : w'.recorded = w.recorded) : w.Balanced w' :=
  ⟨[], by rw [hstarted, List.append_nil], by rw [hrecorded, List.append_nil]⟩

/-! ### One step -/

theorem Sound.quiet (hs : w.Sound) (hq : w.kernel.Quiet k') :
    ({ w with kernel := k' } : SpawnWorld σ).Sound where
  order := by
    obtain ⟨gone, hstaged, hstarted⟩ := hs.order
    exact ⟨gone, by rw [hq.queue]; exact hstaged, hstarted⟩
  cursor := by
    rw [hq.cursor]
    exact hs.cursor
  range := hs.range
  made e he := hq.kept _ (hs.made e he)
  distinct := hs.distinct
  ran := hs.ran
  exits e he := (hq.exits e.1).trans (hs.exits e he)
  child e he := (hs.child e he).imp_left (hq.children e.1 _)

theorem leads_quiet (w : SpawnWorld σ) (hq : w.kernel.Quiet k') :
    w.Leads h { w with kernel := k' } where
  grows := List.prefix_rfl
  sound hs _ := ⟨hs.quiet hq, .of_logs rfl rfl⟩
  stalls _ := .of_queue rfl rfl rfl hq.queue

end SpawnWorld

theorem mem_pushChild {children : List Pid} {c : Pid} :
    c ∈ pushChild children child ↔ c ∈ children ∨ c = child := by
  unfold pushChild
  split_ifs with hin
  · refine ⟨.inl, ?_⟩
    rintro (hc | rfl)
    · exact hc
    · simpa using hin
  · simp

/-- The lists after a spawn. -/
theorem Kernel.Spawned.children {caller : Pid} (hspawned : k.Spawned caller child argv k') :
    child ∈ (k'.process caller).children ∧
      ∀ q, ∀ c ∈ (k.process q).children, c ∈ (k'.process q).children := by
  have hlist := hspawned.adopts.children
  refine ⟨?_, fun q c hc => ?_⟩
  · rw [hlist, if_pos rfl]
    exact mem_pushChild.mpr (.inr rfl)
  · rw [hlist]
    split_ifs
    · exact mem_pushChild.mpr (.inl hc)
    · exact hc

/-- A child more. -/
theorem SpawnWorld.Sound.stage (hs : w.Sound) {caller : Pid}
    (hspawned : w.kernel.Spawned caller s.childPid argv k')
    (hqueue : k'.pendingSpawns = w.kernel.pendingSpawns ++ [s])
    (hrange : 1000 ≤ s.childPid ∧ s.childPid ≤ u32Max) (hcursor : k'.nextSpawnPid ≤ u32Max) :
    ({ w with kernel := k', staged := w.staged ++ [(caller, s)] } : SpawnWorld σ).Sound where
  order := by
    obtain ⟨gone, hstaged, hstarted⟩ := hs.order
    refine ⟨gone, ?_, hstarted⟩
    rw [List.map_append, hstaged, hqueue, List.append_assoc]
    rfl
  cursor := hcursor
  range := List.forall_mem_append.mpr ⟨hs.range, List.forall_mem_singleton.mpr hrange⟩
  made := List.forall_mem_append.mpr
    ⟨fun e he => hspawned.kept _ (hs.made e he), List.forall_mem_singleton.mpr hspawned.made⟩
  distinct := by
    rw [List.map_append]
    refine List.nodup_append.mpr ⟨hs.distinct, List.nodup_singleton _, ?_⟩
    intro pid hpid pid' hpid' hsame
    obtain ⟨e, he, rfl⟩ := List.mem_map.mp hpid
    obtain rfl := List.mem_singleton.mp hpid'
    exact hs.made e he (hsame ▸ hspawned.free)
  ran := hs.ran
  exits e he := (hspawned.adopts.exits e.1).trans (hs.exits e he)
  child := List.forall_mem_append.mpr
    ⟨fun e he => (hs.child e he).imp_left (hspawned.children.2 e.1 _),
      List.forall_mem_singleton.mpr (.inl hspawned.children.1)⟩

theorem SpawnWorld.leads_spawn (w : SpawnWorld σ) (caller : Pid) (request : Bytes) :
    w.Leads h (w.spawn h.kh caller request).2 := by
  unfold SpawnWorld.spawn
  have hqueue := w.kernel.sysSpawn_queue h.kh caller request
  have hrecords := w.kernel.sysSpawn_records h.kh caller request
  generalize w.kernel.sysSpawn h.kh caller request = r at hqueue hrecords ⊢
  obtain ⟨rc, k'⟩ := r
  dsimp only at hqueue hrecords ⊢
  -- the code says which of the two descriptions of a success, or of a failure, go together
  obtain ⟨s, hrc, hpushed, hrange⟩ | ⟨hneg, hview⟩ := hqueue
  · obtain ⟨child, argv, hrc', hspawned⟩ | ⟨hneg, -⟩ := hrecords
    · obtain rfl : s.childPid = child := Int.natCast_inj.mp (hrc.symm.trans hrc')
      rw [hpushed, List.drop_left' rfl]
      refine ⟨List.prefix_append _ _, fun hs _ => ?_, fun _ => ⟨rfl, rfl, [(caller, s)], rfl, hpushed⟩⟩
      obtain ⟨hsmall, hcursor⟩ := hrange hs.cursor
      exact ⟨hs.stage hspawned hpushed hsmall hcursor, .of_logs rfl rfl⟩
    · omega
  · obtain ⟨child, argv, hrc', -⟩ | ⟨-, hreads⟩ := hrecords
    · omega
    · have hqueue : k'.pendingSpawns = w.kernel.pendingSpawns := congrArg Prod.fst hview
      rw [hqueue, List.drop_length, List.map_nil, List.append_nil]
      exact w.leads_quiet ⟨hqueue, congrArg Prod.snd hview, hreads.kept, hreads.calm.exits,
        fun q c hc => by rwa [hreads.calm.children]⟩

theorem SpawnWorld.leads_ask (w : SpawnWorld σ) (caller : Pid) (pid flags : Int) :
    w.Leads h (w.ask caller (waitRequest pid flags)).2 := by
  unfold SpawnWorld.ask
  obtain ⟨hkept, hexits, htaken⟩ := w.kernel.waitResponse_takes caller (waitRequest_length pid flags)
  have hview := w.kernel.spawnView_waitResponse caller (waitRequest pid flags) 8
  generalize w.kernel.waitResponse caller (waitRequest pid flags) 8 = r at hkept hexits htaken hview ⊢
  obtain ⟨reply, k'⟩ := r
  refine ⟨List.prefix_rfl, fun hs _ => ⟨⟨?_, ?_, hs.range, fun e he => hkept _ (hs.made e he),
    hs.distinct, hs.ran, fun e he => (hexits e.1).trans (hs.exits e he), fun e he => ?_⟩,
    .of_logs rfl rfl⟩, fun _ => .of_queue rfl rfl rfl (congrArg Prod.fst hview)⟩
  · obtain ⟨gone, hstaged, hstarted⟩ := hs.order
    exact ⟨gone, hstaged.trans (congrArg (gone ++ ·) (congrArg Prod.fst hview).symm), hstarted⟩
  · exact le_of_eq_of_le (congrArg Prod.snd hview) hs.cursor
  · have hlog : ∀ x ∈ w.reaped, x ∈ if reply.rc = 8 then
        (caller, u32At (reply.writes.flatMap Prod.snd) 0) :: w.reaped else w.reaped := by
      intro x hx
      split_ifs
      · exact List.mem_cons_of_mem _ hx
      · exact hx
    rcases hs.child e he with hmem | hreaped
    · rcases htaken e.1 _ hmem with hmem | ⟨hcaller, status, hdata⟩
      · exact .inl hmem
      · right
        have hreply : reply = .data (leBytes 4 e.2.childPid ++ leBytes 4 (ofI32 status)) := hdata
        have hsmall : e.2.childPid < 2 ^ 32 :=
          lt_of_le_of_lt (hs.range e he).2 (by decide : u32Max < 2 ^ 32)
        have hbytes : reply.writes.flatMap Prod.snd = leBytes 4 e.2.childPid ++ leBytes 4 (ofI32 status) := by
          rw [hreply]
          exact List.append_nil _
        have hrc : reply.rc = 8 := by rw [hreply, leBytes_pair_rc]
        simp only [hrc, if_true, hbytes, u32At_leBytes_append hsmall]
        rw [hcaller]
        exact List.mem_cons_self ..
    · exact .inr (hlog _ hreaped)

end

/-! ### Waits and children -/

/-- What holds of questions and of drains holds of a wait made of them. -/
theorem waitRounds_keeps {S : Type} {R : S → S → Prop} (htrans : ∀ {a b c}, R a b → R b c → R a c)
    {d : WaitDriver S} {ask : S → Reply × S} (hask : ∀ s, R s (ask s).2)
    (hdrain : ∀ s, R s (d.drain s).2) (nohang : Bool) (fuel : Nat) (s : S) :
    R s (waitRounds d ask nohang fuel s).2 := by
  induction fuel generalizing s with
  | zero =>
    have hstep := hask s
    rw [waitRounds]
    dsimp only
    split_ifs <;> exact hstep
  | succ fuel ih =>
    have hstep := hask s
    rw [waitRounds]
    dsimp only
    split_ifs
    · exact hstep
    · exact hstep
    · have hran := hdrain (ask s).2
      generalize d.drain (ask s).2 = r at hran ⊢
      obtain ⟨ok, s'⟩ := r
      cases ok with
      | false => exact htrans hstep hran
      | true => exact htrans (htrans hstep hran) (ih s')

section
variable {h : ChildHost σ} {d : WaitDriver (SpawnWorld σ)}

theorem SpawnWorld.leads_wait (hdrain : ∀ w : SpawnWorld σ, w.Leads h (d.drain w).2) (caller : Pid) (pid flags : Int)
    (w : SpawnWorld σ) : w.Leads h (hostWaitBy d (SpawnWorld.ask caller) pid flags w).2 := by
  have hrounds := waitRounds_keeps (R := SpawnWorld.Leads h) .trans
    (fun w => w.leads_ask caller pid flags) hdrain (flags % 2 = 1) hostWaitMaxDrainIters w
  rw [hostWaitBy]
  generalize waitRounds d _ _ hostWaitMaxDrainIters w = r at hrounds ⊢
  unfold decodeWait
  split_ifs <;> exact hrounds

theorem Behaviour.leads_run (hdrain : ∀ w : SpawnWorld σ, w.Leads h (d.drain w).2) (pid : Pid) (b : Behaviour σ)
    (w : SpawnWorld σ) : w.Leads h (b.run h.kh d pid w).2 := by
  induction b generalizing w with
  | ends how => exact .refl w
  | spawn request next ih => exact (w.leads_spawn pid request).trans (ih _ _)
  | wait child flags next ih => exact (SpawnWorld.leads_wait hdrain pid child flags w).trans (ih _ _)
  | other act quiet next ih => exact (w.leads_quiet (quiet w.kernel)).trans (ih _ _)

/-! ### The drain -/

namespace SpawnWorld

theorem drainRounds_grows (hdrain : ∀ w : SpawnWorld σ, w.Leads h (d.drain w).2) (fuel : Nat)
    (w : SpawnWorld σ) : w.staged <+: (SpawnWorld.drainRounds h d fuel w).2.staged := by
  induction fuel generalizing w with
  | zero =>
    rw [SpawnWorld.drainRounds]
    split <;> exact List.prefix_rfl
  | succ fuel ih =>
    rw [SpawnWorld.drainRounds]
    split
    · exact List.prefix_rfl
    · exact List.prefix_rfl
    · next s k' _ =>
      dsimp only
      split
      · exact List.prefix_rfl
      · next b _ =>
        have hrun := (b.leads_run hdrain s.childPid
          { w with kernel := k', started := w.started ++ [s.childPid] }).grows
        generalize b.run h.kh d s.childPid
          { w with kernel := k', started := w.started ++ [s.childPid] } = r at hrun ⊢
        obtain ⟨how, w₂⟩ := r
        dsimp only
        split_ifs
        · exact hrun
        · exact hrun.trans (ih (w₂.recordExit s.childPid how.status).2)

/-- The head of the queue is taken off to be run. -/
theorem Sound.take {w : SpawnWorld σ} (hs : w.Sound)
    (hqueue : w.kernel.pendingSpawns = s :: rest) :
    ({ w with kernel := { w.kernel with pendingSpawns := rest }, started := w.started ++ [s.childPid] } :
      SpawnWorld σ).Sound where
  order := by
    obtain ⟨gone, hstaged, hstarted⟩ := hs.order
    refine ⟨gone ++ [s], ?_, by rw [hstarted, List.map_append]; rfl⟩
    rw [hstaged, hqueue, List.append_assoc]
    rfl
  cursor := hs.cursor
  range := hs.range
  made := hs.made
  distinct := hs.distinct
  ran e he := List.mem_append_left _ (hs.ran e he)
  exits := hs.exits
  child := hs.child

/-- The exit of a child that was run and has none yet. -/
theorem Sound.record {w : SpawnWorld σ} (hs : w.Sound) (status : Int)
    (hstarted : pid ∈ w.started) (hnew : pid ∉ w.recorded.map Prod.fst) :
    (w.recordExit pid status).1 = 0 ∧
    (w.recordExit pid status).2.recorded = w.recorded ++ [(pid, status)] ∧
    (w.recordExit pid status).2.Sound := by
  obtain ⟨e, he, hpid⟩ := List.mem_map.mp (hs.started_prefix.subset hstarted)
  have hknown : w.kernel.processes.get? pid ≠ none := by
    rw [← hpid]
    exact hs.made e he
  obtain ⟨hrc, hkept, hexits, hchildren⟩ := recordExitOf_known hknown status
  have hview := w.kernel.spawnView_recordExitOf pid status
  have hlog : (w.recordExit pid status).2.recorded = w.recorded ++ [(pid, status)] := if_pos hrc
  refine ⟨hrc, hlog, ⟨?_, ?_, hs.range, fun e he => hkept _ (hs.made e he), hs.distinct, ?_, ?_,
    fun e he => (hs.child e he).imp_left (hchildren e.1 _)⟩⟩
  · obtain ⟨gone, hstaged, hran⟩ := hs.order
    exact ⟨gone, hstaged.trans (congrArg (gone ++ ·) (congrArg Prod.fst hview).symm), hran⟩
  · exact le_of_eq_of_le (congrArg Prod.snd hview) hs.cursor
  · rw [hlog]
    exact List.forall_mem_append.mpr ⟨hs.ran, List.forall_mem_singleton.mpr hstarted⟩
  · rw [hlog]
    refine List.forall_mem_append.mpr ⟨fun e he => ?_, List.forall_mem_singleton.mpr ?_⟩
    · have hother : e.1 ≠ pid := fun hsame => hnew (hsame ▸ List.mem_map_of_mem he)
      exact ((hexits e.1).trans (if_neg hother)).trans (hs.exits e he)
    · exact (hexits pid).trans (if_pos rfl)

/-- A child whose run has just ended has no exit yet. -/
theorem Balanced.unrecorded {w w₁ w₂ : SpawnWorld σ} (hran : w₁.Balanced w₂)
    (hs : w.Sound) (hs₂ : w₂.Sound) (hstarted : w₁.started = w.started ++ [pid])
    (hrecorded : w₁.recorded = w.recorded) : pid ∈ w₂.started ∧ pid ∉ w₂.recorded.map Prod.fst := by
  obtain ⟨new, hnew, hperm⟩ := hran
  rw [hstarted, List.append_assoc] at hnew
  have hdistinct : (w.started ++ ([pid] ++ new)).Nodup := by
    rw [← hnew]
    exact hs₂.started_prefix.sublist.nodup hs₂.distinct
  obtain ⟨-, hrest, hapart⟩ := List.nodup_append.mp hdistinct
  refine ⟨by rw [hnew]; simp, fun hmem => ?_⟩
  rw [hperm.mem_iff, hrecorded] at hmem
  rcases List.mem_append.mp hmem with hold | hlater
  · obtain ⟨e, he, rfl⟩ := List.mem_map.mp hold
    exact hapart e.1 (hs.ran e he) e.1 (List.mem_cons_self ..) rfl
  · exact (List.nodup_cons.mp hrest).1 hlater

/-- With enough rounds, a drain of children that fit and load empties the queue. -/
theorem drainRounds_sound (hdrain : ∀ w : SpawnWorld σ, w.Leads h (d.drain w).2) (fuel : Nat)
    (w : SpawnWorld σ) (hs : w.Sound) (hfuel : hostWaitMaxDrainIters ≤ fuel + w.started.length)
    (hfine : h.Fine (SpawnWorld.drainRounds h d fuel w).2) :
    (SpawnWorld.drainRounds h d fuel w).1 = true ∧
    (SpawnWorld.drainRounds h d fuel w).2.kernel.pendingSpawns = [] ∧
    (SpawnWorld.drainRounds h d fuel w).2.Sound ∧ w.Balanced (SpawnWorld.drainRounds h d fuel w).2 := by
  induction fuel generalizing w with
  | zero =>
    have hfine₀ := hfine.of_grows (SpawnWorld.drainRounds_grows hdrain 0 w)
    cases hqueue : w.kernel.pendingSpawns with
    | nil =>
      have hdone : SpawnWorld.drainRounds h d 0 w = (true, w) := by
        rw [SpawnWorld.drainRounds, drainPendingSpawn_empty hqueue]
      rw [hdone]
      exact ⟨rfl, hqueue, hs, .refl w⟩
    | cons s rest =>
      obtain ⟨gone, hstaged, hstarted⟩ := hs.order
      have hcount := congrArg List.length hstaged
      rw [hqueue, List.length_map, List.length_append, List.length_cons] at hcount
      rw [hstarted, List.length_map] at hfuel
      have hlimit := hfine₀.2
      omega
  | succ fuel ih =>
    have hfine₀ := hfine.of_grows (SpawnWorld.drainRounds_grows hdrain (fuel + 1) w)
    cases hqueue : w.kernel.pendingSpawns with
    | nil =>
      have hdone : SpawnWorld.drainRounds h d (fuel + 1) w = (true, w) := by
        rw [SpawnWorld.drainRounds, drainPendingSpawn_empty hqueue]
      rw [hdone]
      exact ⟨rfl, hqueue, hs, .refl w⟩
    | cons s rest =>
      obtain ⟨e, he, rfl⟩ : ∃ e ∈ w.staged, e.2 = s := by
        obtain ⟨gone, hstaged, -⟩ := hs.order
        refine List.mem_map.mp ?_
        rw [hstaged, hqueue]
        exact List.mem_append_right _ (List.mem_cons_self ..)
      obtain ⟨hfits, hload⟩ := hfine₀.1 e he
      have hsmall : e.2.childPid < 2 ^ 32 := lt_of_le_of_lt (hs.range e he).2 (by decide : u32Max < 2 ^ 32)
      obtain ⟨b, hb⟩ := Option.isSome_iff_exists.mp (hload { w.kernel with pendingSpawns := rest })
      -- the child is taken off, run, and its exit recorded; then come the others
      have htaken := hs.take hqueue
      have hran := b.leads_run hdrain e.2.childPid { w with
        kernel := { w.kernel with pendingSpawns := rest }, started := w.started ++ [e.2.childPid] }
      rw [SpawnWorld.drainRounds, drainPendingSpawn_fits hqueue hsmall hfits] at hfine ⊢
      simp only [hb] at hfine ⊢
      generalize b.run h.kh d e.2.childPid { w with
        kernel := { w.kernel with pendingSpawns := rest }, started := w.started ++ [e.2.childPid] } = r
        at hran hfine ⊢
      obtain ⟨how, w₂⟩ := r
      dsimp only at hran hfine ⊢
      have hfine₂ : h.Fine w₂ := by
        have hgrows := SpawnWorld.drainRounds_grows hdrain fuel
          (w₂.recordExit e.2.childPid how.status).2
        refine hfine.of_grows ?_
        split_ifs
        · exact List.prefix_rfl
        · exact hgrows
      obtain ⟨hs₂, hbalanced⟩ := hran.sound htaken hfine₂
      obtain ⟨hin, hout⟩ := hbalanced.unrecorded hs hs₂ rfl rfl
      obtain ⟨hrc, hlog, hs₃⟩ := hs₂.record how.status hin hout
      rw [if_neg (not_not.mpr hrc)] at hfine ⊢
      obtain ⟨new, hstarted, hrecorded⟩ := hbalanced
      dsimp only at hstarted hrecorded
      have hfuel₃ : hostWaitMaxDrainIters ≤ fuel + w₂.started.length := by
        rw [hstarted, List.length_append, List.length_append, List.length_singleton]
        omega
      obtain ⟨hok, hempty, hsound, hrest⟩ := ih _ hs₃ hfuel₃ hfine
      refine ⟨hok, hempty, hsound, SpawnWorld.Balanced.trans ⟨[e.2.childPid] ++ new, ?_, ?_⟩ hrest⟩
      · exact hstarted.trans (List.append_assoc ..)
      · rw [hlog, List.map_append]
        refine (hrecorded.append_right _).trans ?_
        rw [List.append_assoc]
        exact List.Perm.append_left _ List.perm_append_comm

theorem Blocked.drainRounds {w : SpawnWorld σ} (hb : w.Blocked) (fuel : Nat) :
    SpawnWorld.drainRounds h d fuel w = (false, w) := by
  obtain ⟨s, rest, hqueue, hlarge⟩ := hb
  rw [SpawnWorld.drainRounds.eq_def]
  simp only [drainPendingSpawn_oversized hqueue hlarge]

end SpawnWorld

theorem ChildHost.driver_leads (h : ChildHost σ) (left : Nat) :
    ∀ w : SpawnWorld σ, w.Leads h ((h.driver left).drain w).2 := by
  induction left with
  | zero => exact fun w => .refl w
  | succ left ih =>
    intro w
    refine ⟨SpawnWorld.drainRounds_grows ih hostWaitMaxDrainIters w, fun hs hfine => ?_, fun hb => ?_⟩
    · obtain ⟨-, -, hsound, hbalanced⟩ := SpawnWorld.drainRounds_sound ih hostWaitMaxDrainIters w hs
        (Nat.le_add_right _ _) hfine
      exact ⟨hsound, hbalanced⟩
    · have hsame : ((h.driver (left + 1)).drain w).2 = w := congrArg Prod.snd (hb.drainRounds _)
      rw [hsame]
      exact .of_queue rfl rfl rfl rfl

end

/-! ### Runs -/

/-- What happens outside of the queue's children: a process spawns, or does whatever it does, and the
    host drains. -/
inductive SpawnCall (σ : Type) where
  | spawn (caller : Pid) (request : Bytes)
  | acts (pid : Pid) (b : Behaviour σ)
  | drain

def SpawnCall.step (h : ChildHost σ) (w : SpawnWorld σ) : SpawnCall σ → SpawnWorld σ
  | .spawn caller request => (w.spawn h.kh caller request).2
  | .acts pid b => (b.run h.kh (h.driver hostWaitMaxDrainDepth) pid w).2
  | .drain => (w.drain h).2

/-- All staged children are run, in the order they were staged in, each has one exit recorded, and
    the parent's wait returns it unless it did so before. -/
structure SpawnWorld.Finished (w : SpawnWorld σ) : Prop where
  idle : w.kernel.pendingSpawns = []
  order : w.started = w.staged.map (fun e => e.2.childPid)
  once : ∀ e ∈ w.staged, (w.recorded.map Prod.fst).count e.2.childPid = 1
  waitable : ∀ e ∈ w.staged, (e.1, e.2.childPid) ∉ w.reaped → ∀ flags, ∃ status,
    (e.2.childPid, status) ∈ w.recorded ∧
    (w.kernel.waitResponse e.1 (waitRequest e.2.childPid flags) 8).1 =
      .data (leBytes 4 e.2.childPid ++ leBytes 4 (ofI32 status))

section
variable {h : ChildHost σ} {w : SpawnWorld σ}

theorem SpawnCall.leads (call : SpawnCall σ) (w : SpawnWorld σ) : w.Leads h (call.step h w) := by
  cases call with
  | spawn caller request => exact w.leads_spawn caller request
  | acts pid b => exact b.leads_run (h.driver_leads hostWaitMaxDrainDepth) pid w
  | drain => exact h.driver_leads (hostWaitMaxDrainDepth + 1) w

theorem SpawnCall.leads_run (calls : List (SpawnCall σ)) (w : SpawnWorld σ) :
    w.Leads h (Run.run (SpawnCall.step h) w calls) := by
  induction calls generalizing w with
  | nil => exact .refl w
  | cons call calls ih => exact (call.leads w).trans (ih _)

theorem SpawnWorld.sound_start {k : Kernel σ} (hqueue : k.pendingSpawns = [])
    (hcursor : k.nextSpawnPid ≤ u32Max) : (SpawnWorld.start k).Sound where
  order := ⟨[], by rw [SpawnWorld.start, hqueue]; rfl, rfl⟩
  cursor := hcursor
  range _ he := absurd he List.not_mem_nil
  made _ he := absurd he List.not_mem_nil
  distinct := List.nodup_nil
  ran _ he := absurd he List.not_mem_nil
  exits _ he := absurd he List.not_mem_nil
  child _ he := absurd he List.not_mem_nil

/-- A world with an empty queue in which everything that was run has its exit. -/
theorem SpawnWorld.Sound.finished (hs : w.Sound) (hidle : w.kernel.pendingSpawns = [])
    (hran : (w.recorded.map Prod.fst).Perm w.started) : w.Finished := by
  have horder : w.started = w.staged.map (fun e => e.2.childPid) := by
    obtain ⟨gone, hstaged, hstarted⟩ := hs.order
    rw [hidle, List.append_nil] at hstaged
    rw [hstarted, ← hstaged, List.map_map]
    rfl
  refine ⟨hidle, horder, fun e he => ?_, fun e he hreaped flags => ?_⟩
  · rw [hran.count_eq, horder]
    exact List.count_eq_one_of_mem hs.distinct (List.mem_map_of_mem he)
  · have hmem : e.2.childPid ∈ w.recorded.map Prod.fst := by
      rw [hran.mem_iff, horder]
      exact List.mem_map_of_mem he
    obtain ⟨⟨pid, status⟩, hrecorded, hpid⟩ := List.mem_map.mp hmem
    obtain rfl : pid = e.2.childPid := hpid
    refine ⟨status, hrecorded, ?_⟩
    have hrange := hs.range e he
    have hword : ofI32 e.2.childPid = e.2.childPid :=
      ofI32_natCast (lt_of_le_of_lt hrange.2 (by decide : u32Max < 2 ^ 32))
    have hnz : ofI32 e.2.childPid ≠ 0 := by
      rw [hword]
      exact Nat.ne_of_gt (lt_of_lt_of_le (by decide : 0 < 1000) hrange.1)
    have hchild : ofI32 e.2.childPid ∈ w.kernel.unreaped e.1 := by
      rw [hword]
      exact (hs.child e he).resolve_right hreaped
    have hwait := wait_present flags hnz hchild
    rw [hword, hs.exits _ hrecorded] at hwait
    exact hwait

/-- In every run whose staged children fit the scratch buffer and load, and are no more than the
    runaway limit, a drain at the end leaves every staged child finished. -/
theorem staged_children_finish (h : ChildHost σ) (k : Kernel σ) (hqueue : k.pendingSpawns = [])
    (hcursor : k.nextSpawnPid ≤ u32Max) (calls : List (SpawnCall σ))
    (hfine : h.Fine ((Run.run (SpawnCall.step h) (SpawnWorld.start k) calls).drain h).2) :
    ((Run.run (SpawnCall.step h) (SpawnWorld.start k) calls).drain h).1 = true ∧
    ((Run.run (SpawnCall.step h) (SpawnWorld.start k) calls).drain h).2.Finished := by
  have hleads := SpawnCall.leads_run (h := h) calls (SpawnWorld.start k)
  generalize Run.run (SpawnCall.step h) (SpawnWorld.start k) calls = w at hfine hleads ⊢
  have hdriver := h.driver_leads hostWaitMaxDrainDepth
  have hgrows := SpawnWorld.drainRounds_grows hdriver hostWaitMaxDrainIters w
  obtain ⟨hs, hbalanced⟩ := hleads.sound (SpawnWorld.sound_start hqueue hcursor) (hfine.of_grows hgrows)
  obtain ⟨hok, hidle, hsound, hrest⟩ := SpawnWorld.drainRounds_sound hdriver hostWaitMaxDrainIters w hs
    (Nat.le_add_right _ _) hfine
  obtain ⟨new, hstarted, hrecorded⟩ := hbalanced.trans hrest
  refine ⟨hok, hsound.finished hidle ?_⟩
  rw [hstarted]
  exact hrecorded

end

/-- Process 1 and an empty file `/a`. -/
def Kernel.withModule : Kernel Unit := (oneProcess.sysOpen Kh.absent 1 (leBytes 4 3 ++ ascii ['/', 'a'])).2

/-- Process 1 spawns `/a` twice. -/
def spawnTwice : List (SpawnCall Unit) :=
  [.spawn 1 (leBytes 4 2 ++ ascii ['/', 'a']), .spawn 1 (leBytes 4 2 ++ ascii ['/', 'a'])]

/-- A host whose modules wait for any child, which they do not have, and return. -/
def ChildHost.waiting : ChildHost Unit := ⟨Kh.absent, fun _ _ => some (.wait 0 0 (fun _ => .ends .returns))⟩

theorem staged_children_finish_spawnTwice :
    ((Run.run (SpawnCall.step ChildHost.waiting) (SpawnWorld.start withModule)
      spawnTwice).drain ChildHost.waiting).2.started = [1000, 1001] ∧
    ((Run.run (SpawnCall.step ChildHost.waiting) (SpawnWorld.start withModule)
      spawnTwice).drain ChildHost.waiting).2.Finished := by
  have hstaged : ((Run.run (SpawnCall.step ChildHost.waiting) (SpawnWorld.start withModule)
      spawnTwice).drain ChildHost.waiting).2.staged = [(1, ⟨1000, [], []⟩), (1, ⟨1001, [], []⟩)] := by
    decide
  refine ⟨by decide, (staged_children_finish ChildHost.waiting withModule (by decide) (by decide)
    spawnTwice ⟨fun e he => ⟨?_, fun _ => rfl⟩, ?_⟩).2⟩
  · rw [hstaged] at he
    revert e
    decide
  · rw [hstaged]
    decide

/-! ### Children that do not load, or do not fit -/

/-- A host that cannot compile anything. -/
def ChildHost.broken : ChildHost Unit := ⟨Kh.absent, fun _ _ => none⟩

/-- Two drains take both children off the queue, fail, and record no exit; the parent's wait for
    either of them goes on forever. -/
theorem unloadable_children_never_exit :
    let w := Run.run (SpawnCall.step ChildHost.broken) (SpawnWorld.start withModule)
      (spawnTwice ++ [.drain, .drain])
    w.staged.map (fun e => e.2.childPid) = [1000, 1001] ∧ w.kernel.pendingSpawns = [] ∧
    w.started = [] ∧ w.recorded = [] ∧ (w.drain ChildHost.broken).1 = true ∧
    (w.kernel.waitResponse 1 (waitRequest 1000 0) 8).1 = .code (-EAGAIN) ∧ ¬ w.Finished := by
  refine ⟨by decide, by decide, by decide, by decide, by decide, by decide, fun hfinished => ?_⟩
  have horder := hfinished.order
  revert horder
  decide

/-- Behind a record that does not fit the scratch buffer, the queue only grows: whatever processes
    spawn, wait for or do, and however often anyone drains, nothing is run and no exit recorded. -/
theorem SpawnWorld.oversized_head_stalls (h : ChildHost σ) (w : SpawnWorld σ) (hb : w.Blocked)
    (calls : List (SpawnCall σ)) :
    w.Stalls (Run.run (SpawnCall.step h) w calls) ∧
      (Run.run (SpawnCall.step h) w calls).drain h = (false, Run.run (SpawnCall.step h) w calls) := by
  have hstalls := (SpawnCall.leads_run (h := h) calls w).stalls hb
  exact ⟨hstalls, (hb.stalls hstalls).drainRounds _⟩

/-- One child is behind such a record and two more are staged later; the wait for one of them runs
    nobody. -/
theorem SpawnWorld.oversized_head_stalls_waits :
    let w : SpawnWorld Unit := .start { withModule with
      pendingSpawns := [⟨9, .replicate scratchLen 0, []⟩, ⟨10, [], []⟩] }
    w.Stalls (Run.run (SpawnCall.step ChildHost.waiting) w
      (.drain :: spawnTwice ++ [.acts 1 (.wait 1000 0 (fun _ => .ends .returns)), .drain])) :=
  have hneed : ∀ n, n < PendingSpawn.need ⟨9, .replicate n 0, []⟩ := fun n => by
    simp only [PendingSpawn.need, List.length_replicate]
    omega
  (SpawnWorld.oversized_head_stalls ChildHost.waiting _ ⟨_, _, rfl, hneed _⟩ _).1

end Yurt
