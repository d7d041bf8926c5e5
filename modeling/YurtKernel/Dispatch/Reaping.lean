import YurtKernel.Dispatch.Spawned

/-! Waiting for children (`dispatch/process.rs`).

    A child gets on its parent's list when its fork is committed or its spawn registered, the host
    records its exit, and `wait` or `waitid` of the parent takes it off the list. A run is followed by
    the pairs of parent and child not yet reaped, the exits recorded and the children reaped. -/

namespace Yurt
open Kernel SortedMap
variable {σ : Type} {k k' : Kernel σ}
variable {parent : Option Pid} {request : Bytes} {children candidates : List Pid} {child c pid : Pid}
  {cap : Nat} {status rc : Int}

/-! ### `waitid` -/

/-- The loop of `effective_pgid`: up the parents until a group is set. -/
def Kernel.effectivePgidFrom (k : Kernel σ) : Nat → Pid → Pid
  | 0, cur => cur
  | steps + 1, cur =>
    match k.processes.get? cur with
    | some p =>
      if p.pgid ≠ 0 then p.pgid
      else if p.ppid ≠ 0 ∧ p.ppid ≠ cur then k.effectivePgidFrom steps p.ppid
      else cur
    | none => cur

def Kernel.effectivePgid (k : Kernel σ) (pid : Pid) : Pid := k.effectivePgidFrom 64 pid

def wnohang : Nat := 1
def wexited : Nat := 4
def wnowait : Nat := 0x01000000

/-- Children that a `waitid` selects: one pid, a group or all. -/
def Kernel.waitidCandidates (k : Kernel σ) (caller : Pid) (idtype id : Nat) : List Pid :=
  let children := (k.process caller).children
  let wantPgid := if idtype = 2 ∧ id = 0 then k.effectivePgid caller else id
  if idtype = 1 then if children.contains id then [id] else []
  else if idtype = 2 then children.filter (fun c => k.effectivePgid c = wantPgid)
  else children

/-- First child of the list with an exit status. -/
def Kernel.firstExited (k : Kernel σ) (children : List Pid) : Option (Pid × Int) :=
  children.findSome? (fun c =>
    ((k.processes.get? c).bind Process.exitStatus).map (fun status => (c, status)))

/-- The siginfo record of an exited child; a status from 129 to 192 is a death by signal. -/
def childSiginfo (pid uid : Nat) (status : Int) : Bytes :=
  let killed := 129 ≤ status ∧ status ≤ 192
  leBytes 4 17 ++ leBytes 4 (if killed then 2 else 1) ++ leBytes 4 pid ++ leBytes 4 uid ++
    leBytes 4 (ofI32 (if killed then status - 128 else status))

/-- A `waitid` request with known options and room for the answer. -/
def waitidValid (idtype options cap : Nat) : Prop := 20 ≤ cap ∧ idtype ≤ 2 ∧ options &&& wexited ≠ 0 ∧
  options &&& (u32Max ^^^ (wnohang ||| wexited ||| wnowait)) = 0

instance (idtype options cap : Nat) : Decidable (waitidValid idtype options cap) :=
  inferInstanceAs (Decidable (_ ∧ _))

section
variable (k : Kernel σ) (caller : Pid) (request : Bytes) (cap : Nat)

/-- `waitid(idtype, id, options)`. A caller without children has no candidates. -/
def Kernel.waitid : Reply × Kernel σ :=
  match readU32Args 3 request with
  | some [idtype, id, options] =>
    if waitidValid idtype options cap then
      let k := k.touch caller
      let candidates := k.waitidCandidates caller idtype id
      if candidates.isEmpty then (.code (-ECHILD), k)
      else
        match k.firstExited candidates with
        | none =>
          if options &&& wnohang ≠ 0 then (.data (List.replicate 20 0), k) else (.code (-EAGAIN), k)
        | some (pid, status) =>
          let uid := ((k.processes.get? pid).map (fun p => p.credentials.uid)).getD 0
          let k := if options &&& wnowait ≠ 0 then k
            else k.updProcess caller (fun p => { p with children := p.children.filter (fun c => c ≠ pid) })
          (.data (childSiginfo pid uid status), k)
    else (.code (-EINVAL), k)
  | _ => (.code (-EINVAL), k)

/-! ### The child that a wait returns -/

/-- Children that a `wait` selects. -/
def Kernel.waitCandidates (caller wantPid : Pid) : List Pid :=
  let children := (k.process caller).children
  if wantPid = 0 then children else if children.contains wantPid then [wantPid] else []

/-- The child and status that a `wait` returns. -/
def Kernel.waitReturns : Option (Pid × Int) :=
  if request.length < 8 ∨ cap < 8 then none
  else k.firstExited (k.waitCandidates caller (u32At request 0))

/-- The child and status that a `waitid` returns. -/
def Kernel.waitidReturns : Option (Pid × Int) :=
  if request.length < 12 ∨ ¬ waitidValid (u32At request 0) (u32At request 8) cap then none
  else k.firstExited (k.waitidCandidates caller (u32At request 0) (u32At request 4))

end

/-! ### Runs -/

/-- The calls by which children come, exit and are waited for. -/
inductive ChildCall where
  | prepareFork (parent : Pid)
  | commitFork (parent child : Pid)
  | rollbackFork (parent child : Pid)
  | spawn (caller : Pid) (request : Bytes)
  | spawnCached (parent : Pid) (moduleId argvRequest : Bytes)
  | recordExit (request : Bytes)
  | wait (caller : Pid) (request : Bytes) (cap : Nat)
  | waitid (caller : Pid) (request : Bytes) (cap : Nat)
  deriving DecidableEq

structure ReapWorld (σ : Type) where
  kernel : Kernel σ
  /-- Parents with their children, in the order in which these came. -/
  unreaped : List (Pid × Pid)
  recorded : Pid → Option Int
  reaped : List Pid

def ReapWorld.start (k : Kernel σ) : ReapWorld σ := ⟨k, [], fun _ => none, []⟩

section
variable (w : ReapWorld σ) (k : Kernel σ)

/-- The same pairs with a child more. -/
def ReapWorld.adopt (parent : Option Pid) (child : Pid) : ReapWorld σ :=
  { w with kernel := k, unreaped := w.unreaped ++ (parent.map (fun p => (p, child))).toList }

/-- The pairs without the child that `caller` got back. -/
def ReapWorld.reap (caller : Pid) : Option (Pid × Int) → ReapWorld σ
  | some (child, _) =>
    { w with
      kernel := k
      unreaped := w.unreaped.filter (fun e => e ≠ (caller, child))
      reaped := w.reaped ++ [child] }
  | none => { w with kernel := k }

/-- The parent of a process that the host starts, if the kernel knows it. -/
def Kernel.knownParent (parent pid : Pid) : Option Pid :=
  if parent ≠ 0 ∧ (k.hasProcess parent ∨ parent = pid) then some parent else none

end

def ChildCall.step (kh : Kh σ) (w : ReapWorld σ) : ChildCall → ReapWorld σ
  | .prepareFork parent => { w with kernel := (w.kernel.prepareFork parent).2 }
  | .commitFork parent child =>
    match w.kernel.commitFork parent child with
    | (.ok _, k) => w.adopt k (some parent) child
    | (.error _, k) => { w with kernel := k }
  | .rollbackFork parent child =>
    match w.kernel.rollbackFork kh parent child with
    | (.ok _, k) =>
      { w with
        kernel := k
        unreaped := w.unreaped.filter (fun e => e.1 ≠ child)
        recorded := Function.update w.recorded child none }
    | (.error _, k) => { w with kernel := k }
  | .spawn caller request =>
    match w.kernel.sysSpawn kh caller request with
    | (Int.ofNat child, k) => w.adopt k (some caller) child
    | (Int.negSucc _, k) => { w with kernel := k }
  | .spawnCached parent moduleId argvRequest =>
    match w.kernel.spawnCachedProcess kh parent moduleId argvRequest with
    | (Int.ofNat pid, k) => w.adopt k (w.kernel.knownParent parent pid) pid
    | (Int.negSucc _, k) => { w with kernel := k }
  | .recordExit request =>
    match w.kernel.recordExit request with
    | (0, k) =>
      { w with
        kernel := k
        recorded := Function.update w.recorded (u32At request 0) (some (i32At request 4)) }
    | (_, k) => { w with kernel := k }
  | .wait caller request cap =>
    w.reap (w.kernel.waitResponse caller request cap).2 caller (w.kernel.waitReturns caller request cap)
  | .waitid caller request cap =>
    if u32At request 8 &&& wnowait ≠ 0 then { w with kernel := (w.kernel.waitid caller request cap).2 }
    else w.reap (w.kernel.waitid caller request cap).2 caller
      (w.kernel.waitidReturns caller request cap)

/-! ### The law -/

/-- How a wait of `caller` is answered: `found` is the child it returns, `encode` the record of it and
    `idle` the reply when no selected child has exited. -/
structure ReapWorld.Answers (w : ReapWorld σ) (caller : Pid) (selects : Pid → Prop)
    (found : Option (Pid × Int)) (encode : Pid → Int → Bytes) (idle reply : Reply) : Prop where
  /-- `ECHILD` if and only if no unreaped child is selected. -/
  childless : reply = .code (-ECHILD) ↔ ∀ c, (caller, c) ∈ w.unreaped → ¬ selects c
  /-- What is returned is an unreaped child of the caller with its recorded exit. -/
  returned : ∀ c status, found = some (c, status) → (caller, c) ∈ w.unreaped ∧ selects c ∧
    w.recorded c = some status ∧ c ∉ w.reaped ∧ reply = .data (encode c status)
  /-- Nothing is returned only if no selected child has exited. -/
  waiting : found = none → (∃ c, (caller, c) ∈ w.unreaped ∧ selects c) →
    reply = idle ∧ ∀ c, (caller, c) ∈ w.unreaped → selects c → w.recorded c = none

/-- The selector of a `waitid`. -/
def Kernel.waitidSelects (k : Kernel σ) (caller : Pid) (idtype id : Nat) (c : Pid) : Prop :=
  if idtype = 1 then c = id
  else if idtype = 2 then
    k.effectivePgid c = if id = 0 then k.effectivePgid caller else id
  else True

structure ReapWorld.Lawful (w : ReapWorld σ) : Prop where
  wait : ∀ caller request cap, 8 ≤ request.length → 8 ≤ cap →
    w.Answers caller (fun c => u32At request 0 = 0 ∨ c = u32At request 0)
      (w.kernel.waitReturns caller request cap)
      (fun c status => leBytes 4 c ++ leBytes 4 (ofI32 status)) (.code (-EAGAIN))
      (w.kernel.waitResponse caller request cap).1
  waitid : ∀ caller request cap, 12 ≤ request.length → waitidValid (u32At request 0) (u32At request 8) cap →
    w.Answers caller (w.kernel.waitidSelects caller (u32At request 0) (u32At request 4))
      (w.kernel.waitidReturns caller request cap)
      (fun c status => childSiginfo c (w.kernel.process c).credentials.uid status)
      (if u32At request 8 &&& wnohang ≠ 0 then .data (List.replicate 20 0) else .code (-EAGAIN))
      (w.kernel.waitid caller request cap).1
  /-- `WNOWAIT` writes nothing; the caller's record is made if there was none. -/
  nowait : ∀ caller request cap, u32At request 8 &&& wnowait ≠ 0 →
    (w.kernel.waitid caller request cap).2 = w.kernel ∨
    (w.kernel.waitid caller request cap).2 = w.kernel.touch caller
  /-- No reaped child is to be reaped again. -/
  once : ∀ e ∈ w.unreaped, e.2 ∉ w.reaped

/-! ### The invariant -/

/-- There is a record, and no fork of it is under way. -/
def Kernel.Settled (k : Kernel σ) (q : Pid) : Prop :=
  k.processes.get? q ≠ none ∧ (k.process q).forkState = .running

/-- The logs and the records agree. -/
structure ReapWorld.Sound (w : ReapWorld σ) : Prop where
  lists : ∀ q, (w.kernel.process q).children = (w.unreaped.filter (fun e => e.1 = q)).map Prod.snd
  exits : ∀ q, (w.kernel.process q).exitStatus = w.recorded q
  settled : ∀ e ∈ w.unreaped, w.kernel.Settled e.2
  nodup : (w.unreaped.map Prod.snd).Nodup
  reaped : ∀ c ∈ w.reaped, w.kernel.Settled c ∧ c ∉ w.unreaped.map Prod.snd

variable {w : ReapWorld σ}

theorem ReapWorld.Sound.mem_children (h : w.Sound) {q : Pid} :
    c ∈ (w.kernel.process q).children ↔ (q, c) ∈ w.unreaped := by
  rw [h.lists q, List.mem_map]
  constructor
  · rintro ⟨⟨p, c'⟩, he, rfl⟩
    obtain ⟨hmem, hp⟩ := List.mem_filter.mp he
    obtain rfl : p = q := of_decide_eq_true hp
    exact hmem
  · intro hmem
    exact ⟨(q, c), List.mem_filter.mpr ⟨hmem, decide_eq_true rfl⟩, rfl⟩

/-- Children and exits read the same, and no settled process is lost. -/
structure Kernel.Calm (k k' : Kernel σ) : Prop where
  children : ∀ q, (k'.process q).children = (k.process q).children
  exits : ∀ q, (k'.process q).exitStatus = (k.process q).exitStatus
  settled : ∀ q, k.Settled q → k'.Settled q

theorem Kernel.Reads.calm (h : k.Reads k') : k.Calm k' where
  children q := Process.view_of_core (fun _ => rfl) (h.same q)
  exits q := Process.view_of_core (fun _ => rfl) (h.same q)
  settled q hq := by
    have hfork : (k'.process q).forkState = (k.process q).forkState :=
      Process.view_of_core (fun _ => rfl) (h.same q)
    exact ⟨h.kept q hq.1, hfork.trans hq.2⟩

theorem ReapWorld.Sound.calm (h : w.Sound) (hk : w.kernel.Calm k') :
    ReapWorld.Sound { w with kernel := k' } where
  lists q := (hk.children q).trans (h.lists q)
  exits q := (hk.exits q).trans (h.exits q)
  settled e he := hk.settled e.2 (h.settled e he)
  nodup := h.nodup
  reaped c hc := ⟨hk.settled c (h.reaped c hc).1, (h.reaped c hc).2⟩

/-- A process that was not settled becomes a child of `parent`, if one is given. -/
structure Kernel.Adopts (k : Kernel σ) (parent : Option Pid) (child : Pid) (k' : Kernel σ) : Prop where
  unsettled : ¬ k.Settled child
  born : k'.Settled child
  settled : ∀ q, k.Settled q → k'.Settled q
  children : ∀ q, (k'.process q).children =
    if parent = some q then pushChild (k.process q).children child else (k.process q).children
  exits : ∀ q, (k'.process q).exitStatus = (k.process q).exitStatus

/-- An adoption as the records show it: one begins, and the parent lists it. -/
theorem Kernel.Adopts.of_core {p : Process}
    (hunsettled : ¬ k.Settled child) (hmade : k'.processes.get? child ≠ none)
    (hkept : ∀ q, k.processes.get? q ≠ none → k'.processes.get? q ≠ none)
    (hborn : p.forkState = .running ∧ p.children = (k.process child).children ∧
      p.exitStatus = (k.process child).exitStatus)
    (hcore : ∀ q, (k'.process q).core =
      let p := if q = child then p else k.process q
      (if parent = some q then { p with children := pushChild p.children child } else p).core) :
    k.Adopts parent child k' := by
  have hview : ∀ {α : Type} {view : Process → α}, (∀ p : Process, view p.core = view p) →
      (∀ (p : Process) children, view { p with children := children } = view p) →
      ∀ q, view (k'.process q) = view (if q = child then p else k.process q) := by
    intro α view hpure hlist q
    refine (Process.view_of_core hpure (hcore q)).trans ?_
    by_cases hq : parent = some q
    · rw [if_pos hq, hlist]
    · rw [if_neg hq]
  have hforks : ∀ q, (k'.process q).forkState = _ := hview (fun _ => rfl) (fun _ _ => rfl)
  refine ⟨hunsettled, ⟨hmade, ?_⟩, fun q hq => ⟨hkept q hq.1, ?_⟩, fun q => ?_, fun q => ?_⟩
  · rw [hforks, if_pos rfl]
    exact hborn.1
  · rw [hforks, if_neg (fun heq : q = child => hunsettled (heq ▸ hq))]
    exact hq.2
  · have hsame : (if q = child then p else k.process q).children = (k.process q).children := by
      split_ifs with hq
      · rw [hq, hborn.2.1]
      · rfl
    refine (Process.view_of_core (fun _ => rfl) (hcore q)).trans ?_
    rw [← hsame]
    split_ifs <;> rfl
  · refine (hview (fun _ => rfl) (fun _ _ => rfl) q).trans ?_
    split_ifs with hq
    · rw [hq, hborn.2.2]
    · rfl

theorem ReapWorld.eq_of_mem_adopted
    (h : c ∈ (parent.map (fun p => (p, child))).toList.map Prod.snd) : c = child := by
  cases parent with
  | none => simp at h
  | some p => simpa using h

theorem ReapWorld.Sound.adopt (h : w.Sound) (hk : w.kernel.Adopts parent child k') :
    (w.adopt k' parent child).Sound where
  lists q := by
    have hnot : (w.kernel.process q).children.contains child = false := by
      rw [Bool.eq_false_iff, ne_eq, List.contains_iff_mem]
      intro hmem
      exact hk.unsettled (h.settled _ (h.mem_children.mp hmem))
    simp only [ReapWorld.adopt]
    rw [hk.children q, List.filter_append, List.map_append, ← h.lists q]
    cases parent with
    | none => simp
    | some p =>
      by_cases hp : p = q
      · simp [hp, pushChild, List.contains_iff_mem.not.mp (Bool.eq_false_iff.mp hnot)]
      · simp [hp]
  exits q := (hk.exits q).trans (h.exits q)
  settled e he := by
    rcases List.mem_append.mp he with he | he
    · exact hk.settled e.2 (h.settled e he)
    · obtain ⟨p, -, rfl⟩ := Option.map_eq_some_iff.mp (Option.mem_toList.mp he)
      exact hk.born
  nodup := by
    rw [ReapWorld.adopt, List.map_append]
    refine List.Nodup.append h.nodup ?_ ?_
    · cases parent <;> simp
    · intro c hc hc'
      obtain ⟨e, he, rfl⟩ := List.mem_map.mp hc
      exact hk.unsettled (ReapWorld.eq_of_mem_adopted hc' ▸ h.settled e he)
  reaped c hc := by
    obtain ⟨hsettled, hnot⟩ := h.reaped c hc
    refine ⟨hk.settled c hsettled, ?_⟩
    rw [ReapWorld.adopt, List.map_append, List.mem_append, not_or]
    exact ⟨hnot, fun hc' => hk.unsettled (ReapWorld.eq_of_mem_adopted hc' ▸ hsettled)⟩

/-- The caller's list loses the child that is returned. -/
theorem ReapWorld.Sound.reap (h : w.Sound) {caller : Pid}
    (hmem : (caller, child) ∈ w.unreaped)
    (hchildren : ∀ q, (k'.process q).children =
      if q = caller then (w.kernel.process q).children.filter (fun c => c ≠ child)
      else (w.kernel.process q).children)
    (hexits : ∀ q, (k'.process q).exitStatus = (w.kernel.process q).exitStatus)
    (hsettled : ∀ q, w.kernel.Settled q → k'.Settled q) :
    (w.reap k' caller (some (child, status))).Sound where
  lists q := by
    simp only [ReapWorld.reap]
    rw [hchildren q, h.lists q, List.filter_map, List.filter_filter, List.filter_filter]
    split_ifs with hq
    all_goals
      refine congrArg _ (List.filter_congr (fun e _ => ?_))
      by_cases hp : e.1 = q
      · simp [Prod.ext_iff, hp, hq]
      · simp [hp]
  exits q := (hexits q).trans (h.exits q)
  settled e he := hsettled e.2 (h.settled e (List.mem_filter.mp he).1)
  nodup := h.nodup.sublist (List.filter_sublist.map _)
  reaped c hc := by
    have hshrinks : ∀ c, c ∈ (w.unreaped.filter (fun e => e ≠ (caller, child))).map Prod.snd →
        ∃ p, (p, c) ∈ w.unreaped ∧ (p, c) ≠ (caller, child) := by
      intro c hc
      obtain ⟨⟨p, c'⟩, he, rfl⟩ := List.mem_map.mp hc
      obtain ⟨hmem, hne⟩ := List.mem_filter.mp he
      exact ⟨p, hmem, of_decide_eq_true hne⟩
    rcases List.mem_append.mp hc with hc | hc
    · obtain ⟨hc', hnot⟩ := h.reaped c hc
      refine ⟨hsettled c hc', fun hleft => ?_⟩
      obtain ⟨p, hp, -⟩ := hshrinks c hleft
      exact hnot (List.mem_map_of_mem hp)
    · obtain rfl := List.mem_singleton.mp hc
      refine ⟨hsettled c (h.settled _ hmem), fun hleft => ?_⟩
      -- each child has one parent, so no other pair names it
      obtain ⟨p, hp, hne⟩ := hshrinks c hleft
      exact hne (List.inj_on_of_nodup_map h.nodup hp hmem rfl)

/-! ### Children coming and going -/

theorem Kernel.calm_prepareFork (k : Kernel σ) (parent : Pid) : k.Calm (k.prepareFork parent).2 := by
  obtain ⟨p, child, k', -, -, hfree, heq, hget⟩ | ⟨errno, k', heq, hprocs⟩ := k.prepareFork_records parent
  · rw [heq]
    -- the child reads as a process without a record: no children, no exit
    have hsame : ∀ q, (k'.process q).children = (k.process q).children ∧
        (k'.process q).exitStatus = (k.process q).exitStatus := by
      intro q
      rw [process, process, hget]
      by_cases hq : q = child
      · rw [if_pos hq, hq, hfree]
        exact ⟨rfl, rfl⟩
      · rw [if_neg hq]
        exact ⟨rfl, rfl⟩
    refine ⟨fun q => (hsame q).1, fun q => (hsame q).2, fun q hq => ?_⟩
    have hne : q ≠ child := fun hchild => hq.1 (hchild ▸ hfree)
    rw [Settled, process, hget, if_neg hne]
    exact hq
  · rw [heq]
    exact (Reads.of_processes hprocs).calm

/-- A child whose fork is under way. -/
theorem Kernel.not_settled_of_fork {p : Process} {parent : Pid} (hc : k.processes.get? child = some p)
    (hfork : p.forkState = .forkPreparing parent) : ¬ k.Settled child := by
  rintro ⟨-, hrunning⟩
  rw [process, hc] at hrunning
  exact absurd (hfork.symm.trans hrunning) (fun heq => by cases heq)

theorem Kernel.commitFork_adopts (k : Kernel σ) (parent child : Pid) :
    (∃ k', k.commitFork parent child = (.ok (), k') ∧ k.Adopts (some parent) child k') ∨
    (∃ errno k', k.commitFork parent child = (.error errno, k') ∧ k.Adopts none child k') ∨
    ∃ errno, k.commitFork parent child = (.error errno, k) := by
  obtain ⟨c, hc, hfork, hok, hget⟩ | ⟨errno, heq⟩ := k.commitFork_records parent child
  · have hadopts : k.Adopts (if k.processes.get? parent ≠ none then some parent else none) child
        (k.commitFork parent child).2 := by
      generalize (k.commitFork parent child).2 = k' at hget
      refine .of_core (p := { c with forkState := .running }) (not_settled_of_fork hc hfork) ?_ (fun q hq => ?_)
        ⟨rfl, ?_, ?_⟩ (fun q => ?_)
      · simp [hget]
      · rw [hget, ne_eq, Option.map_eq_none_iff]
        split_ifs
        · simp
        · exact hq
      · rw [process, hc]
        rfl
      · rw [process, hc]
        rfl
      · rw [process, process, hget]
        by_cases hq : q = parent
        · subst hq
          by_cases hqc : q = child
          · simp [hqc, hc, Process.core, Process.ensureMainThread]
          · cases k.processes.get? q with
            | none => simp [hqc]
            | some p => simp [hqc, Process.core, Process.ensureMainThread]
        · have hnot : (if k.processes.get? parent ≠ none then some parent else none) ≠ some q := by
            split_ifs
            · exact fun heq => hq (Option.some.inj heq).symm
            · exact fun heq => by cases heq
          simp only [if_neg hnot, if_neg hq, Option.map_id']
          split_ifs <;> rfl
    generalize k.commitFork parent child = r at hok hadopts ⊢
    obtain ⟨errno | u, k'⟩ := r
    · have hnone : k.processes.get? parent = none := by
        by_contra hsome
        cases hok.mpr hsome
      rw [hnone] at hadopts
      exact .inr (.inl ⟨errno, k', rfl, by simpa using hadopts⟩)
    · have hsome : k.processes.get? parent ≠ none := hok.mp rfl
      rw [if_pos hsome] at hadopts
      exact .inl ⟨k', rfl, hadopts⟩
  · exact .inr (.inr ⟨errno, heq⟩)

theorem ReapWorld.Sound.rollback (kh : Kh σ) (h : w.Sound) (parent child : Pid) :
    ((ChildCall.rollbackFork parent child).step kh w).Sound := by
  simp only [ChildCall.step]
  have hcases := w.kernel.rollbackFork_records kh parent child
  generalize w.kernel.rollbackFork kh parent child = r at hcases ⊢
  obtain ⟨result, k'⟩ := r
  obtain ⟨c, hc, hfork, hok, hget⟩ | ⟨errno, heq⟩ := hcases
  · simp only at hok hget
    subst hok
    have hunsettled := not_settled_of_fork hc hfork
    have hsettled : ∀ q, w.kernel.Settled q → k'.Settled q := by
      intro q hq
      have hne : q ≠ child := fun hq' => hunsettled (hq' ▸ hq)
      obtain ⟨hsome, hrunning⟩ := hq
      obtain ⟨p, hp⟩ := Option.ne_none_iff_exists'.mp hsome
      rw [process, hp] at hrunning
      rw [Settled, process, hget, if_neg hne, hp]
      refine ⟨Option.some_ne_none _, ?_⟩
      simp only [Option.map_some, Option.getD_some]
      split_ifs <;> exact hrunning
    refine ⟨fun q => ?_, fun q => ?_, fun e he => ?_, ?_, fun c' hc' => ?_⟩
    · simp only [List.filter_filter]
      rw [process, hget]
      by_cases hq : q = child
      · -- the record is gone, and the pairs it was the parent in
        have hnone : ∀ e ∈ w.unreaped, (decide (e.1 = q) && decide (e.1 ≠ child)) = false := by
          intro e _
          by_cases he : e.1 = q
          · simp [he, hq]
          · simp [he]
        rw [if_pos hq, List.filter_eq_nil_iff.mpr (fun e he => by rw [hnone e he]; exact Bool.false_ne_true)]
        rfl
      · have hfilter : w.unreaped.filter (fun e => decide (e.1 = q) && decide (e.1 ≠ child)) =
            w.unreaped.filter (fun e => decide (e.1 = q)) := by
          refine List.filter_congr (fun e _ => ?_)
          by_cases he : e.1 = q
          · simp [he, hq]
          · simp [he]
        have hnot : child ∉ (w.kernel.process q).children :=
          fun hmem => hunsettled (h.settled _ (h.mem_children.mp hmem))
        rw [if_neg hq, hfilter, ← h.lists q]
        rw [process] at hnot ⊢
        cases hp : w.kernel.processes.get? q with
        | none => rfl
        | some p =>
          rw [hp] at hnot
          simp only [Option.map_some, Option.getD_some] at hnot ⊢
          split_ifs
          · refine List.filter_eq_self.mpr (fun c' hc' => ?_)
            exact decide_eq_true (fun heq => hnot (heq ▸ hc'))
          · rfl
    · have hexit := h.exits q
      rw [process] at hexit
      simp only
      rw [process, hget]
      by_cases hq : q = child
      · rw [if_pos hq, hq, Function.update_self]
        rfl
      · rw [if_neg hq, Function.update_of_ne hq, ← hexit]
        cases w.kernel.processes.get? q with
        | none => rfl
        | some p =>
          simp only [Option.map_some, Option.getD_some]
          split_ifs <;> rfl
    · exact hsettled e.2 (h.settled e (List.mem_filter.mp he).1)
    · exact h.nodup.sublist (List.filter_sublist.map _)
    · obtain ⟨hc'', hnot⟩ := h.reaped c' hc'
      exact ⟨hsettled c' hc'', fun hmem => hnot ((List.filter_sublist.map _).subset hmem)⟩
  · cases heq
    exact h

theorem Kernel.Spawned.adopts {caller : Pid} {argv : List Bytes}
    (h : k.Spawned caller child argv k') : k.Adopts (some caller) child k' := by
  have hdefault : (k.process child).core = Process.default.core := by
    rw [process, h.free]
    rfl
  have hnochildren : (k.process child).children = [] := Process.view_of_core (fun _ => rfl) hdefault
  have hnoexit : (k.process child).exitStatus = none := Process.view_of_core (fun _ => rfl) hdefault
  refine .of_core (p := (k.process caller).spawnChild .default caller argv)
    (fun hsettled => hsettled.1 h.free) h.made h.kept
    ⟨rfl, hnochildren.symm, hnoexit.symm⟩ (fun q => ?_)
  simp only [Option.some.injEq, eq_comm (a := caller)]
  exact h.records q

theorem parseArgvRecords_neg {fuel : Nat} (h : parseArgvRecords fuel request = .error rc) : rc < 0 := by
  have hinval : -EINVAL < 0 := by decide
  induction fuel generalizing request with
  | zero => cases h
  | succ fuel ih =>
    cases request with
    | nil => cases h
    | cons b rest =>
      simp only [parseArgvRecords] at h
      split_ifs at h
      · exact Except.error.inj h ▸ hinval
      · exact Except.error.inj h ▸ hinval
      · split at h
        · next hrest =>
          cases h
          exact ih hrest
        · cases h

namespace Kernel

theorem get?_modifyProcess_ne_none (k : Kernel σ) (pid : Pid) (f : Process → Process) (q : Pid) :
    (k.modifyProcess pid f).processes.get? q ≠ none ↔ k.processes.get? q ≠ none := by
  rw [modifyProcess, get?_modify]
  split_ifs with hq
  · rw [hq, ne_eq, Option.map_eq_none_iff]
  · rfl

theorem core_modifyProcess_pushChild (k : Kernel σ) (parent child q : Pid) :
    ((k.modifyProcess parent (fun p => { p with children := pushChild p.children child })).process
      q).core =
    (if q = parent ∧ k.processes.get? parent ≠ none then
      { k.process q with children := pushChild (k.process q).children child }
    else k.process q).core := by
  rw [process, process, modifyProcess, get?_modify]
  by_cases hq : q = parent
  · subst hq
    cases hp : k.processes.get? q with
    | none => simp
    | some p =>
      simp only [if_true, Option.map_some, Option.getD_some, ne_eq, reduceCtorEq, not_false_eq_true,
        and_self]
      rfl
  · simp [hq]

/-- A record made under a free pid and put on the list of its parent, if that has a record. -/
theorem adopts_registered {parent : Pid} (hfree : k.processes.get? pid = none)
    (f : Process → Process) (hchildren : ∀ p, (f p).children = p.children)
    (hexits : ∀ p, (f p).exitStatus = p.exitStatus) (hforks : ∀ p, (f p).forkState = p.forkState) :
    k.Adopts (k.knownParent parent pid) pid
      (if parent ≠ 0 then (k.updProcess pid f).modifyProcess parent
        (fun p => { p with children := pushChild p.children pid }) else k.updProcess pid f) := by
  have hrunning : (k.process pid).forkState = .running := by
    rw [process, hfree]
    rfl
  have hcore := k.core_updProcess pid f
  have hmade := k.made_updProcess pid f
  have hkept : ∀ q, k.processes.get? q ≠ none → (k.updProcess pid f).processes.get? q ≠ none :=
    fun q => k.kept_updProcess pid f
  have hborn : (f (k.process pid)).forkState = .running ∧
      (f (k.process pid)).children = (k.process pid).children ∧
      (f (k.process pid)).exitStatus = (k.process pid).exitStatus :=
    ⟨(hforks _).trans hrunning, hchildren _, hexits _⟩
  have hparent : ∀ q, k.knownParent parent pid = some q ↔
      parent ≠ 0 ∧ q = parent ∧ (k.updProcess pid f).processes.get? parent ≠ none := by
    intro q
    rw [← hasProcess_iff, hasProcess_updProcess, Bool.or_eq_true, decide_eq_true_iff, or_comm, knownParent]
    by_cases hknown : parent ≠ 0 ∧ (k.hasProcess parent = true ∨ parent = pid)
    · rw [if_pos hknown, Option.some.injEq]
      exact ⟨fun heq => ⟨hknown.1, heq.symm, hknown.2⟩, fun hc => hc.2.1.symm⟩
    · simp only [if_neg hknown, reduceCtorEq, false_iff]
      exact fun hc => hknown ⟨hc.1, hc.2.2⟩
  generalize k.updProcess pid f = k1 at hcore hmade hkept hparent
  split
  · rename_i hzero
    have hstays := k1.get?_modifyProcess_ne_none parent
      (fun p => { p with children := pushChild p.children pid })
    refine .of_core (fun hsettled => hsettled.1 hfree) ((hstays pid).mpr hmade)
      (fun q hq => (hstays q).mpr (hkept q hq)) hborn (fun q => ?_)
    refine (k1.core_modifyProcess_pushChild parent pid q).trans ?_
    by_cases hq : q = parent ∧ k1.processes.get? parent ≠ none
    · simp only [if_pos hq, if_pos ((hparent q).mpr ⟨hzero, hq⟩)]
      exact congrArg (fun p : Process => { p with children := pushChild p.children pid }) (hcore q)
    · simp only [if_neg hq, if_neg (fun hc => hq ((hparent q).mp hc).2)]
      exact hcore q
  · rename_i hzero
    refine .of_core (fun hsettled => hsettled.1 hfree) hmade hkept hborn (fun q => ?_)
    simp only [hparent, hzero, false_and, if_false]
    exact hcore q

/-- Registering a process of the host under a free pid. -/
theorem insertHostProcess_adopts (hfree : k.processes.get? pid = none) (parent : Pid)
    (argv : List Bytes) (handle : Option Int) :
    k.Adopts (k.knownParent parent pid) pid (k.insertHostProcess pid parent argv handle) := by
  unfold insertHostProcess
  simp only
  exact adopts_registered hfree _ (fun _ => rfl) (fun _ => rfl) (fun _ => rfl)

theorem Adopts.of_processes {k1 : Kernel σ} (h : k1.Adopts parent child k')
    (hprocs : k1.processes = k.processes) :
    k.Adopts parent child k' := by
  have hprocess : ∀ q, k1.process q = k.process q := fun q => by
    rw [process, process, hprocs]
  have hsettled : ∀ q, k1.Settled q ↔ k.Settled q := fun q => by
    rw [Settled, Settled, hprocs, hprocess]
  refine ⟨(hsettled child).not.mp h.unsettled, h.born, fun q hq => h.settled q ((hsettled q).mpr hq),
    fun q => ?_, fun q => ?_⟩
  · rw [h.children q, hprocess]
  · rw [h.exits q, hprocess]

theorem spawnCachedProcess_adopts (kh : Kh σ) (k : Kernel σ) (parent : Pid)
    (moduleId argvRequest : Bytes) :
    (∃ pid k', k.spawnCachedProcess kh parent moduleId argvRequest = (Int.ofNat pid, k') ∧
      k.Adopts (k.knownParent parent pid) pid k') ∨
    ∃ rc k', k.spawnCachedProcess kh parent moduleId argvRequest = (Int.negSucc rc, k') ∧ k.Calm k' := by
  have hfail : ∀ (rc : Int) (k' : Kernel σ), rc < 0 → k'.processes = k.processes →
      ∃ rc' k'', (rc, k') = (Int.negSucc rc', k'') ∧ k.Calm k'' := by
    intro rc k' hneg hprocs
    cases rc with
    | ofNat n => exact absurd hneg (by simp)
    | negSucc n => exact ⟨n, k', rfl, (Reads.of_processes hprocs).calm⟩
  rw [spawnCachedProcess_halves]
  obtain ⟨argv, -, ⟨pid, halloc, heq⟩ | ⟨-, heq⟩⟩ | ⟨rc, hparse, heq⟩ := k.spawnCachedBegin_cases argvRequest
  · rw [heq]
    simp only
    generalize kh.spawnProcess _ moduleId _ = answer
    obtain ⟨handle, host⟩ := answer
    have hprocs : ({ k.tryAllocHostPid.2 with host := host } : Kernel σ).processes = k.processes := rfl
    generalize ({ k.tryAllocHostPid.2 with host := host } : Kernel σ) = k1 at hprocs
    simp only [spawnCachedEnd]
    split
    · rename_i hhandle
      refine .inr (hfail handle _ hhandle ?_)
      rw [processes_releaseHostPidReservation]
      exact hprocs
    · have hfree : k1.processes.get? pid = none := by
        rw [hprocs]
        exact contains_eq_false.mp (hostPidSearch_free (Prod.ext halloc rfl))
      have hadopts := insertHostProcess_adopts hfree parent argv (some handle)
      have hknown : k1.knownParent parent pid = k.knownParent parent pid := by
        rw [knownParent, knownParent, hasProcess, hasProcess, hprocs]
      rw [hknown] at hadopts
      exact .inl ⟨pid, _, rfl, hadopts.of_processes hprocs⟩
  · have hagain : -EAGAIN < 0 := by decide
    rw [heq]
    exact .inr (hfail _ _ hagain rfl)
  · rw [heq]
    exact .inr (hfail rc k (parseArgvRecords_neg hparse) rfl)

/-- Recording an exit writes the status of one process and a signal of its parent. -/
theorem recordExit_cases (k : Kernel σ) (request : Bytes) :
    (∃ k', k.recordExit request = (0, k') ∧ (∀ q, (k'.process q).children = (k.process q).children) ∧
      (∀ q, (k'.process q).exitStatus =
        if q = u32At request 0 then some (i32At request 4) else (k.process q).exitStatus) ∧
      ∀ q, k.Settled q → k'.Settled q) ∨
    ∃ rc, k.recordExit request = (Int.negSucc rc, k) := by
  unfold recordExit
  split_ifs
  · exact .inr ⟨21, rfl⟩
  obtain ⟨k', heq, -, hkept, hcore⟩ | ⟨-, heq⟩ := k.recordExitOf_records (u32At request 0) (i32At request 4)
  · exact .inl ⟨k', heq, fun q => (congrArg Process.children (hcore q) :),
      fun q => (congrArg Process.exitStatus (hcore q) :),
      fun q hq => ⟨hkept q hq.1, (congrArg Process.forkState (hcore q) :).trans hq.2⟩⟩
  · exact .inr ⟨2, heq⟩

/-! ### Waits -/

theorem exitStatus_of_get? (k : Kernel σ) (c : Pid) :
    (k.processes.get? c).bind Process.exitStatus = (k.process c).exitStatus := by
  rw [process]
  cases k.processes.get? c <;> rfl

theorem firstExited_some (h : k.firstExited children = some (c, status)) :
    c ∈ children ∧ (k.process c).exitStatus = some status := by
  unfold firstExited at h
  obtain ⟨c', hmem, hfound⟩ := List.exists_of_findSome?_eq_some h
  rw [exitStatus_of_get?] at hfound
  obtain ⟨status', hexit, heq⟩ := Option.map_eq_some_iff.mp hfound
  cases heq
  exact ⟨hmem, hexit⟩

theorem firstExited_none (h : k.firstExited children = none) :
    ∀ c ∈ children, (k.process c).exitStatus = none := by
  intro c hc
  have hnone := List.findSome?_eq_none_iff.mp h c hc
  rw [exitStatus_of_get?] at hnone
  exact Option.map_eq_none_iff.mp hnone

theorem Reads.firstExited (h : k.Reads k') (children : List Pid) :
    k'.firstExited children = k.firstExited children := by
  unfold Kernel.firstExited
  refine congrArg (fun f => List.findSome? f children) (funext fun c => ?_)
  rw [exitStatus_of_get?, exitStatus_of_get?, h.calm.exits c]

theorem findExited_eq (children : List Pid) (k : Kernel σ) :
    (findExited children k).1 = k.firstExited children ∧
    k.Reads (findExited children k).2 := by
  induction children generalizing k with
  | nil => exact ⟨rfl, .refl k⟩
  | cons c children ih =>
    have htouch := k.reads_touch c
    have hcons : k.firstExited (c :: children) =
        ((k.process c).exitStatus.map (fun status => (c, status))).or (k.firstExited children) := by
      rw [firstExited, List.findSome?_cons, exitStatus_of_get?]
      cases (k.process c).exitStatus <;> rfl
    rw [findExited, hcons]
    cases (k.process c).exitStatus with
    | some status => exact ⟨rfl, htouch⟩
    | none =>
      obtain ⟨hfound, hreads⟩ := ih (k.touch c)
      exact ⟨hfound.trans (htouch.firstExited children), htouch.trans hreads⟩

end Kernel

section
variable (k : Kernel σ) (caller : Pid)

/-- A reply that follows from the list of candidates. -/
def Kernel.waitReply (candidates : List Pid) (encode : Pid → Int → Bytes) (idle : Reply) : Reply :=
  if candidates.isEmpty then .code (-ECHILD)
  else
    match k.firstExited candidates with
    | none => idle
    | some (c, status) => .data (encode c status)

theorem Reply.data_ne_code {bytes : Bytes} (h : rc < 0) : Reply.data bytes ≠ .code rc := by
  intro heq
  have hrc : (bytes.length : Int) = rc := congrArg Reply.rc heq
  omega

/-- Candidates that are the selected unreaped children answer a wait as they should. -/
theorem ReapWorld.Sound.answers (h : w.Sound) {caller : Pid} {selects : Pid → Prop}
    {encode : Pid → Int → Bytes} {idle : Reply}
    (hcandidates : ∀ c, c ∈ candidates ↔ (caller, c) ∈ w.unreaped ∧ selects c)
    (hidle : idle ≠ .code (-ECHILD)) :
    w.Answers caller selects (w.kernel.firstExited candidates) encode idle
      (w.kernel.waitReply candidates encode idle) := by
  have hchild : -ECHILD < 0 := by decide
  refine ⟨?_, fun c status hfound => ?_, fun hfound hsome => ?_⟩
  · unfold waitReply
    split
    · rename_i hempty
      refine iff_of_true rfl (fun c hc hselects => ?_)
      have hmem := (hcandidates c).mpr ⟨hc, hselects⟩
      rw [List.isEmpty_iff.mp hempty] at hmem
      cases hmem
    · rename_i hempty
      obtain ⟨c, hc⟩ := List.exists_mem_of_ne_nil candidates (fun hnil => hempty (List.isEmpty_iff.mpr hnil))
      obtain ⟨hunreaped, hselects⟩ := (hcandidates c).mp hc
      refine iff_of_false ?_ (fun hnone => hnone c hunreaped hselects)
      cases w.kernel.firstExited candidates with
      | none => exact hidle
      | some found => exact Reply.data_ne_code hchild
  · obtain ⟨hmem, hexit⟩ := firstExited_some hfound
    obtain ⟨hunreaped, hselects⟩ := (hcandidates c).mp hmem
    refine ⟨hunreaped, hselects, (h.exits c).symm.trans hexit, fun hreaped => ?_, ?_⟩
    · exact (h.reaped c hreaped).2 (List.mem_map_of_mem hunreaped)
    · rw [waitReply, if_neg (fun hempty => ?_), hfound]
      rw [List.isEmpty_iff.mp hempty] at hmem
      cases hmem
  · obtain ⟨c, hc, hselects⟩ := hsome
    have hmem := (hcandidates c).mpr ⟨hc, hselects⟩
    refine ⟨?_, fun c' hc' hselects' => ?_⟩
    · rw [waitReply, if_neg (fun hempty => ?_), hfound]
      rw [List.isEmpty_iff.mp hempty] at hmem
      cases hmem
    · rw [← h.exits c']
      exact firstExited_none hfound c' ((hcandidates c').mpr ⟨hc', hselects'⟩)

/-- The record of the caller without the child it got back. -/
def Process.withoutChild (child : Pid) (p : Process) : Process :=
  { p with children := p.children.filter (fun c => c ≠ child) }

/-- What a wait leaves: `k` as it reads, less the child that is reaped. -/
def Kernel.Waited (found : Option (Pid × Int)) (k' : Kernel σ) : Prop :=
  match found with
  | none => k.Reads k'
  | some (child, _) => ∃ k1, k.Reads k1 ∧ k' = k1.updProcess caller (Process.withoutChild child)

/-- The child is off the list of the caller, and nothing else is different. -/
theorem Kernel.Reads.withoutChild {k k1 : Kernel σ} (h : k.Reads k1) (caller child : Pid) :
    let k' := k1.updProcess caller (Process.withoutChild child)
    (∀ q, k.processes.get? q ≠ none → k'.processes.get? q ≠ none) ∧
    (∀ q, (k'.process q).children =
      if q = caller then (k.process q).children.filter (fun c => c ≠ child) else (k.process q).children) ∧
    (∀ q, (k'.process q).exitStatus = (k.process q).exitStatus) ∧
    ∀ q, k.Settled q → k'.Settled q := by
  have hcalm := h.calm
  have hview : ∀ {α : Type} {view : Process → α} (q : Pid), (∀ p : Process, view p.core = view p) →
      view ((k1.updProcess caller (Process.withoutChild child)).process q) =
        view (if q = caller then (k1.process q).withoutChild child else k1.process q) := by
    intro α view q hpure
    refine (Process.view_of_core hpure (k1.core_updProcess caller (Process.withoutChild child) q)).trans ?_
    split_ifs with hq
    · rw [hq]
    · rfl
  refine ⟨fun q hq => k1.kept_updProcess caller _ (h.kept q hq), fun q => ?_, fun q => ?_, fun q hq => ?_⟩
  · refine (hview q (fun _ => rfl)).trans ?_
    rw [← hcalm.children q]
    split_ifs <;> rfl
  · refine (hview q (fun _ => rfl)).trans ?_
    rw [← hcalm.exits q]
    split_ifs <;> rfl
  · obtain ⟨hsome, hrunning⟩ := hcalm.settled q hq
    refine ⟨k1.kept_updProcess caller _ hsome, (hview q (fun _ => rfl)).trans ?_⟩
    split_ifs <;> exact hrunning

theorem ReapWorld.Sound.waited (h : w.Sound) {caller : Pid}
    (hcandidates : ∀ c ∈ candidates, (caller, c) ∈ w.unreaped)
    (hk : w.kernel.Waited caller (w.kernel.firstExited candidates) k') :
    (w.reap k' caller (w.kernel.firstExited candidates)).Sound := by
  cases hfound : w.kernel.firstExited candidates with
  | none =>
    rw [hfound] at hk
    exact h.calm hk.calm
  | some found =>
    rw [hfound] at hk
    obtain ⟨k1, hreads, rfl⟩ := hk
    obtain ⟨-, hchildren, hexits, hsettled⟩ := hreads.withoutChild caller found.1
    exact h.reap (hcandidates found.1 (firstExited_some hfound).1) hchildren hexits hsettled

theorem Kernel.waitResponse_eq (hlen : 8 ≤ request.length) (hcap : 8 ≤ cap) :
    (k.waitResponse caller request cap).1 = k.waitReply (k.waitCandidates caller (u32At request 0))
      (fun c status => leBytes 4 c ++ leBytes 4 (ofI32 status)) (.code (-EAGAIN)) ∧
    k.Waited caller (k.firstExited (k.waitCandidates caller (u32At request 0)))
      (k.waitResponse caller request cap).2 := by
  unfold waitResponse
  rw [readU32Args_two, if_neg (not_lt.mpr hlen)]
  simp only [if_neg (not_lt.mpr hcap)]
  have hcandidates : (if u32At request 0 = 0 then ((k.touch caller).process caller).children
      else if ((k.touch caller).process caller).children.contains (u32At request 0) = true
        then [u32At request 0] else []) = k.waitCandidates caller (u32At request 0) := by
    rw [process_touch, waitCandidates]
  rw [hcandidates]
  have htouch := k.reads_touch caller
  generalize k.waitCandidates caller (u32At request 0) = candidates
  unfold waitReply
  by_cases hempty : candidates.isEmpty = true
  · rw [if_pos hempty, if_pos hempty, List.isEmpty_iff.mp hempty]
    exact ⟨rfl, htouch⟩
  · rw [if_neg hempty, if_neg hempty]
    obtain ⟨hfound, hreads⟩ := findExited_eq candidates (k.touch caller)
    rw [htouch.firstExited] at hfound
    generalize findExited candidates (k.touch caller) = r at hfound hreads ⊢
    obtain ⟨found, k1⟩ := r
    simp only at hfound
    subst hfound
    cases k.firstExited candidates with
    | none => exact ⟨rfl, htouch.trans hreads⟩
    | some found => exact ⟨rfl, k1, htouch.trans hreads, rfl⟩

/-- Making the caller's record puts it in no other group. -/
theorem Kernel.effectivePgid_touch (caller pid : Pid) :
    (k.touch caller).effectivePgid pid = k.effectivePgid pid := by
  have hloop : ∀ (steps : Nat) (cur : Pid),
      (k.touch caller).effectivePgidFrom steps cur = k.effectivePgidFrom steps cur := by
    intro steps
    induction steps with
    | zero => exact fun _ => rfl
    | succ steps ih =>
      intro cur
      rw [effectivePgidFrom, effectivePgidFrom]
      by_cases hcur : cur = caller
      · have hget : (k.touch caller).processes.get? caller = some (k.process caller) := by
          simp [touch, updProcess]
        rw [hcur, hget, process]
        cases k.processes.get? caller with
        | none => rfl
        | some p => simp only [Option.getD_some, Process.ensureMainThread, ih]
      · rw [get?_touch_ne hcur]
        simp only [ih]
  exact hloop 64 pid

theorem Kernel.waitidCandidates_touch (idtype id : Nat) :
    (k.touch caller).waitidCandidates caller idtype id = k.waitidCandidates caller idtype id := by
  unfold waitidCandidates
  simp only [process_touch, effectivePgid_touch]

theorem readU32Args_three (h : 12 ≤ request.length) :
    readU32Args 3 request = some [u32At request 0, u32At request 4, u32At request 8] := by
  rw [readU32Args, if_neg (not_lt.mpr h)]
  rfl

theorem Kernel.waitid_eq (hlen : 12 ≤ request.length)
    (hvalid : waitidValid (u32At request 0) (u32At request 8) cap) :
    (k.waitid caller request cap).1 =
      k.waitReply (k.waitidCandidates caller (u32At request 0) (u32At request 4))
        (fun c status => childSiginfo c (k.process c).credentials.uid status)
        (if u32At request 8 &&& wnohang ≠ 0 then .data (List.replicate 20 0) else .code (-EAGAIN)) ∧
    if u32At request 8 &&& wnowait ≠ 0 then (k.waitid caller request cap).2 = k.touch caller
    else k.Waited caller
      (k.firstExited (k.waitidCandidates caller (u32At request 0) (u32At request 4)))
      (k.waitid caller request cap).2 := by
  have htouch := k.reads_touch caller
  unfold waitid
  rw [readU32Args_three hlen]
  simp only [if_pos hvalid]
  rw [waitidCandidates_touch, htouch.firstExited]
  generalize k.waitidCandidates caller (u32At request 0) (u32At request 4) = candidates
  unfold waitReply
  by_cases hempty : candidates.isEmpty = true
  · rw [if_pos hempty, if_pos hempty, List.isEmpty_iff.mp hempty]
    refine ⟨rfl, ?_⟩
    split_ifs
    · rfl
    · exact htouch
  · rw [if_neg hempty, if_neg hempty]
    cases hfound : k.firstExited candidates with
    | none =>
      simp only
      split_ifs
      · exact ⟨rfl, rfl⟩
      · exact ⟨rfl, htouch⟩
      · exact ⟨rfl, rfl⟩
      · exact ⟨rfl, htouch⟩
    | some found =>
      obtain ⟨child, status⟩ := found
      simp only
      have huid : (((k.touch caller).processes.get? child).map (fun p => p.credentials.uid)).getD 0 =
          (k.process child).credentials.uid := by
        -- a child that has exited has a record
        have hexit := (firstExited_some hfound).2
        have hsome : (k.touch caller).processes.get? child ≠ none := by
          refine htouch.kept child (fun hnone => ?_)
          rw [process, hnone] at hexit
          cases hexit
        obtain ⟨p, hp⟩ := Option.ne_none_iff_exists'.mp hsome
        have hcred : ((k.touch caller).process child).credentials = (k.process child).credentials :=
          Process.view_of_core (fun _ => rfl) (htouch.same child)
        rw [← hcred, process, hp]
        rfl
      rw [huid]
      refine ⟨rfl, ?_⟩
      split_ifs
      · rfl
      · exact ⟨k.touch caller, htouch, rfl⟩

theorem Kernel.waitid_invalid
    (h : request.length < 12 ∨ ¬ waitidValid (u32At request 0) (u32At request 8) cap) :
    k.waitid caller request cap = (.code (-EINVAL), k) := by
  unfold waitid
  by_cases hlen : request.length < 12
  · rw [readU32Args, if_pos hlen]
  · rw [readU32Args_three (not_lt.mp hlen)]
    simp only [if_neg (h.resolve_left hlen)]

theorem Kernel.waitResponse_invalid (h : request.length < 8 ∨ cap < 8) :
    k.waitResponse caller request cap = (.code (-EINVAL), k) := by
  unfold waitResponse
  rw [readU32Args_two]
  by_cases hlen : request.length < 8
  · rw [if_pos hlen]
  · rw [if_neg hlen]
    simp only [if_pos (h.resolve_left hlen)]

end

/-! ### Every run -/

theorem mem_ite_contains {id : Pid} : c ∈ (if children.contains id then [id] else []) ↔
    c ∈ children ∧ c = id := by
  split_ifs with hchild
  · rw [List.mem_singleton]
    constructor
    · rintro rfl
      exact ⟨List.contains_iff_mem.mp hchild, rfl⟩
    · exact fun hc => hc.2
  · refine iff_of_false List.not_mem_nil ?_
    rintro ⟨hmem, rfl⟩
    exact hchild (List.contains_iff_mem.mpr hmem)

theorem ReapWorld.Sound.mem_waitCandidates (h : w.Sound) (caller want c : Pid) :
    c ∈ w.kernel.waitCandidates caller want ↔ (caller, c) ∈ w.unreaped ∧ (want = 0 ∨ c = want) := by
  rw [← h.mem_children, waitCandidates]
  by_cases hany : want = 0
  · simp [hany]
  · rw [if_neg hany, mem_ite_contains, or_iff_right hany]

theorem ReapWorld.Sound.mem_waitidCandidates (h : w.Sound) (caller : Pid) (idtype id : Nat) (c : Pid) :
    c ∈ w.kernel.waitidCandidates caller idtype id ↔
      (caller, c) ∈ w.unreaped ∧ w.kernel.waitidSelects caller idtype id c := by
  rw [← h.mem_children, waitidCandidates, waitidSelects]
  split
  · exact mem_ite_contains
  · by_cases hgroup : idtype = 2
    · simp [hgroup]
    · simp [hgroup]

theorem ReapWorld.Sound.lawful (h : w.Sound) : w.Lawful where
  wait caller request cap hlen hcap := by
    rw [(w.kernel.waitResponse_eq caller hlen hcap).1, waitReturns,
      if_neg (not_or.mpr ⟨not_lt.mpr hlen, not_lt.mpr hcap⟩)]
    exact h.answers (h.mem_waitCandidates caller _) (by decide)
  waitid caller request cap hlen hvalid := by
    rw [(w.kernel.waitid_eq caller hlen hvalid).1, waitidReturns,
      if_neg (not_or.mpr ⟨not_lt.mpr hlen, not_not.mpr hvalid⟩)]
    refine h.answers (h.mem_waitidCandidates caller _ _) ?_
    split_ifs <;> decide
  nowait caller request cap hnowait := by
    by_cases hinvalid : request.length < 12 ∨ ¬ waitidValid (u32At request 0) (u32At request 8) cap
    · rw [w.kernel.waitid_invalid caller hinvalid]
      exact .inl rfl
    · obtain ⟨hlen, hvalid⟩ := not_or.mp hinvalid
      have hkernel := (w.kernel.waitid_eq caller (not_lt.mp hlen) (not_not.mp hvalid)).2
      rw [if_pos hnowait] at hkernel
      exact .inr hkernel
  once e he hreaped := (h.reaped e.2 hreaped).2 (List.mem_map_of_mem he)

theorem ReapWorld.Sound.step (kh : Kh σ) (h : w.Sound) (call : ChildCall) : (call.step kh w).Sound := by
  cases call with
  | prepareFork parent => exact h.calm (w.kernel.calm_prepareFork parent)
  | commitFork parent child =>
    simp only [ChildCall.step]
    obtain ⟨k, heq, hk⟩ | ⟨errno, k, heq, hk⟩ | ⟨errno, heq⟩ := w.kernel.commitFork_adopts parent child
    · rw [heq]
      exact h.adopt hk
    · rw [heq]
      have hadopt := h.adopt hk
      rw [ReapWorld.adopt, Option.map_none, Option.toList_none, List.append_nil] at hadopt
      exact hadopt
    · rw [heq]
      exact h
  | rollbackFork parent child => exact h.rollback kh parent child
  | spawn caller request =>
    simp only [ChildCall.step]
    have hcases := w.kernel.sysSpawn_records kh caller request
    generalize w.kernel.sysSpawn kh caller request = r at hcases ⊢
    obtain ⟨rc, k⟩ := r
    obtain ⟨child, argv, hrc, hspawned⟩ | ⟨hrc, hreads⟩ := hcases
    · obtain rfl : rc = Int.ofNat child := hrc
      exact h.adopt hspawned.adopts
    · cases rc with
      | ofNat n => exact absurd hrc (by simp)
      | negSucc n => exact h.calm hreads.calm
  | spawnCached parent moduleId argvRequest =>
    simp only [ChildCall.step]
    obtain ⟨pid, k, heq, hk⟩ | ⟨rc, k, heq, hk⟩ :=
      w.kernel.spawnCachedProcess_adopts kh parent moduleId argvRequest
    · rw [heq]
      exact h.adopt hk
    · rw [heq]
      exact h.calm hk
  | recordExit request =>
    simp only [ChildCall.step]
    obtain ⟨k, heq, hchildren, hexits, hsettled⟩ | ⟨rc, heq⟩ := w.kernel.recordExit_cases request
    · rw [heq]
      change ReapWorld.Sound { w with
        kernel := k
        recorded := Function.update w.recorded (u32At request 0) (some (i32At request 4)) }
      refine ⟨fun q => (hchildren q).trans (h.lists q), fun q => ?_,
        fun e he => hsettled e.2 (h.settled e he), h.nodup,
        fun c hc => ⟨hsettled c (h.reaped c hc).1, (h.reaped c hc).2⟩⟩
      dsimp only
      rw [hexits q]
      by_cases hq : q = u32At request 0
      · rw [if_pos hq, hq, Function.update_self]
      · rw [if_neg hq, Function.update_of_ne hq, h.exits q]
    · rw [heq]
      exact h
  | wait caller request cap =>
    simp only [ChildCall.step, waitReturns]
    by_cases hinvalid : request.length < 8 ∨ cap < 8
    · rw [if_pos hinvalid, w.kernel.waitResponse_invalid caller hinvalid]
      exact h
    · obtain ⟨hlen, hcap⟩ := not_or.mp hinvalid
      rw [if_neg hinvalid]
      exact h.waited (fun c hc => ((h.mem_waitCandidates caller _ c).mp hc).1)
        (w.kernel.waitResponse_eq caller (not_lt.mp hlen) (not_lt.mp hcap)).2
  | waitid caller request cap =>
    simp only [ChildCall.step, waitidReturns]
    by_cases hinvalid : request.length < 12 ∨ ¬ waitidValid (u32At request 0) (u32At request 8) cap
    · rw [if_pos hinvalid, w.kernel.waitid_invalid caller hinvalid]
      split_ifs <;> exact h
    · obtain ⟨hlen, hvalid⟩ := not_or.mp hinvalid
      have hkernel := (w.kernel.waitid_eq caller (not_lt.mp hlen) (not_not.mp hvalid)).2
      rw [if_neg hinvalid]
      split_ifs at hkernel ⊢ with hnowait
      · rw [hkernel]
        exact h.calm (w.kernel.reads_touch caller).calm
      · exact h.waited (fun c hc => ((h.mem_waitidCandidates caller _ _ c).mp hc).1) hkernel

/-- From a kernel in which no process has children and no exit is recorded, waits return exactly the
    unreaped children with their recorded exits, each once. -/
theorem children_reaped_once (kh : Kh σ) (k : Kernel σ)
    (hk : ∀ q, (k.process q).children = [] ∧ (k.process q).exitStatus = none)
    (calls : List ChildCall) :
    (Run.run (ChildCall.step kh) (ReapWorld.start k) calls).Lawful := by
  have hstart : (ReapWorld.start k).Sound :=
    ⟨fun q => (hk q).1, fun q => (hk q).2, fun e he => absurd he List.not_mem_nil, List.nodup_nil,
      fun c hc => absurd hc List.not_mem_nil⟩
  have hrun : (Run.run (ChildCall.step kh) (ReapWorld.start k) calls).Sound := by
    generalize ReapWorld.start k = w at hstart
    induction calls generalizing w with
    | nil => exact hstart
    | cons call calls ih => exact ih _ (hstart.step kh call)
  exact hrun.lawful

theorem Kernel.oneProcess_childless (q : Pid) :
    (oneProcess.process q).children = [] ∧ (oneProcess.process q).exitStatus = none := by
  by_cases hq : q = 1
  · subst hq
    decide
  · rw [oneProcess, process_updProcess_ne hq]
    exact ⟨rfl, rfl⟩

/-- Process 1 forks, the child exits with 7 and process 1 waits for any child. -/
def forkExitWait : List ChildCall :=
  [.prepareFork 1, .commitFork 1 2, .recordExit (leBytes 4 2 ++ leBytes 4 7),
    .wait 1 (leBytes 4 0 ++ leBytes 4 0) 8]

theorem children_reaped_once_forkExitWait :
    (Run.run (ChildCall.step Kh.absent) (ReapWorld.start oneProcess) forkExitWait).reaped = [2] ∧
    (Run.run (ChildCall.step Kh.absent) (ReapWorld.start oneProcess) forkExitWait).Lawful :=
  ⟨by decide, children_reaped_once Kh.absent oneProcess oneProcess_childless forkExitWait⟩

/-! ### A parent the kernel does not know -/

/-- A host that starts every process it is asked for. -/
def Kh.starting : Kh Unit := { Kh.absent with spawnProcess := fun h _ _ => (5, h) }

/-- The host starts a process for the parent 7, which has no record, and the process exits. -/
def spawnForUnknown : List ChildCall := [.spawnCached 7 [] [], .recordExit (leBytes 4 1 ++ leBytes 4 0)]

/-- The exited child of a parent without a record at its birth is never waitable. -/
theorem unknown_parent_childless :
    let k := (Run.run (ChildCall.step Kh.starting) (ReapWorld.start (new ())) spawnForUnknown).kernel
    (k.process 1).ppid = 7 ∧ (k.process 1).exitStatus = some 0 ∧
    (k.waitResponse 7 (leBytes 4 0 ++ leBytes 4 0) 8).1 = .code (-ECHILD) := by
  decide

end Yurt
