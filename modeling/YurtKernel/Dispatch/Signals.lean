import YurtKernel.Lib.Lanes
import YurtKernel.Kernel.Records
import YurtKernel.Dispatch.Process

/-! Pending signals (`dispatch/process.rs`).

    `kill`, `killpg` and the exit of a child set bits of a mask; `sigqueue` appends to a queue of its
    own, from which `sigwaitinfo` takes the oldest entry that is waited for. `sigpending` shows both
    stores. A run is followed by what was queued, returned and raised for each process. A signal
    reaches a child also while its fork is prepared, and then the child starts with it. -/

namespace Yurt
open Kernel
variable {σ : Type} {k k' k'' : Kernel σ}
variable {queued : Pid → List RtSignal} {f : Process → Process} {call : SignalCall}
  {raised : Pid → List Nat} {request : Bytes} {pid q caller : Pid}

/-! ### Waiting for a queued signal -/

/-- The siginfo record of a queued signal, with `si_code = SI_QUEUE`. -/
def RtSignal.siginfo (s : RtSignal) : Bytes :=
  leBytes 4 s.signo ++ leBytes 4 (ofI32 (-1)) ++ leBytes 4 s.senderPid ++ leBytes 4 (ofI32 s.value)

/-- The signal is in range and its bit is in the set. -/
def waitsFor (set signo : Nat) : Bool := 1 ≤ signo && signo ≤ 64 && set.testBit (signo - 1)

/-- `sigwaitinfo(set)`: takes the first matching entry out of the queue. -/
def Kernel.sigwaitinfo (k : Kernel σ) (caller : Pid) (request : Bytes) (cap : Nat) : Reply × Kernel σ :=
  if request.length < 8 ∨ cap < 16 then (.code (-EINVAL), k)
  else if !k.hasProcess caller then (.code (-ESRCH), k)
  else
    let set := u64At request 0
    match (k.process caller).pendingRt.find? (fun s => waitsFor set s.signo) with
    | none => (.code (-EAGAIN), k.touch caller)
    | some sig => (.data sig.siginfo, k.updProcess caller (fun p =>
        { p with pendingRt := p.pendingRt.eraseP (fun s => waitsFor set s.signo) }))

/-- The mask with the bits of the queued signals. -/
def rtMask (mask : Nat) (queue : List RtSignal) : Nat :=
  queue.foldl (fun mask s =>
    if 1 ≤ s.signo ∧ s.signo ≤ 64 then mask ||| 2 ^ (s.signo - 1) else mask) mask

def Kernel.sigpending (k : Kernel σ) (caller : Pid) (cap : Nat) : Reply × Kernel σ :=
  if cap < 8 then (.code (-EINVAL), k)
  else if !k.hasProcess caller then (.code (-ESRCH), k)
  else
    let p := k.process caller
    (.data (leBytes 8 (rtMask p.pendingSignals p.pendingRt)), k.touch caller)

/-! ### The two stores of a process -/

structure Pending where
  mask : Nat
  queue : List RtSignal
  deriving DecidableEq

def Process.pending (p : Process) : Pending := ⟨p.pendingSignals, p.pendingRt⟩

def Kernel.pending (k : Kernel σ) (q : Pid) : Pending := (k.process q).pending

/-- Raise signals and queue others. -/
def Pending.put (p : Pending) (raised : List Nat) (queued : List RtSignal) : Pending :=
  ⟨raised.foldl (fun mask sig => mask ||| 2 ^ (sig - 1)) p.mask, p.queue ++ queued⟩

@[simp] theorem Pending.put_nil (p : Pending) : p.put [] [] = p := by
  simp [Pending.put]

namespace Kernel

/-- No record yet, or one whose fork is not committed. -/
def Unborn (k : Kernel σ) (q : Pid) : Prop := k.processes.get? q = none ∨ (k.process q).forkState ≠ .running

theorem unborn_updProcess (hf : ∀ p, (f p).forkState = p.forkState)
    (h : (k.updProcess pid f).Unborn q) :
    k.Unborn q := by
  by_cases hq : q = pid
  · subst hq
    rcases h with hnone | hfork
    · simp [updProcess] at hnone
    · rw [process_updProcess] at hfork
      exact .inr (hf (k.process q) ▸ hfork)
  · rw [Unborn, get?_updProcess_ne hq, process_updProcess_ne hq] at h
    exact h

/-! ### What a call puts where -/

/-- `k'` comes from `k` by raising and queueing the given signals, all at born processes. -/
structure Signals (k k' : Kernel σ) (raised : Pid → List Nat) (queued : Pid → List RtSignal) : Prop where
  pending : ∀ q, k'.pending q = (k.pending q).put (raised q) (queued q)
  born : ∀ q, k'.Unborn q → k.Unborn q
  landed : ∀ q, k'.Unborn q → raised q = [] ∧ queued q = []

/-- Nothing raised and nothing queued. -/
def Quietly (k k' : Kernel σ) : Prop := k.Signals k' (fun _ => []) (fun _ => [])

theorem Quietly.intro (hpending : ∀ q, k'.pending q = k.pending q)
    (hborn : ∀ q, k'.Unborn q → k.Unborn q) : k.Quietly k' where
  pending q := by rw [hpending q, Pending.put_nil]
  born := hborn
  landed _ _ := ⟨rfl, rfl⟩

theorem Quietly.pending_eq (h : k.Quietly k') (q : Pid) : k'.pending q = k.pending q := by
  rw [Signals.pending h q, Pending.put_nil]

theorem Quietly.refl (k : Kernel σ) : k.Quietly k := .intro (fun _ => rfl) (fun _ => id)

theorem Quietly.then (h : k.Quietly k') (h' : k'.Signals k'' raised queued) :
    k.Signals k'' raised queued where
  pending q := by rw [h'.pending q, h.pending_eq q]
  born q hq := Signals.born h q (h'.born q hq)
  landed := h'.landed

section
variable (k : Kernel σ)

theorem quietly_updProcess (pid : Pid) (hpending : ∀ p, (f p).pending = p.pending)
    (hfork : ∀ p, (f p).forkState = p.forkState) :
    k.Quietly (k.updProcess pid f) := by
  refine .intro (fun q => ?_) (fun q => unborn_updProcess hfork)
  by_cases hq : q = pid
  · subst hq
    rw [pending, process_updProcess]
    exact hpending (k.process q)
  · rw [pending, process_updProcess_ne hq, pending]

theorem quietly_touch (pid : Pid) : k.Quietly (k.touch pid) :=
  k.quietly_updProcess pid (fun _ => rfl) (fun _ => rfl)

/-- Asking fetches the record of who asks. -/
theorem maySignal_cases (caller target : Pid) (sig : Nat) :
    ∃ answer k', k.maySignal caller target sig = (answer, k') ∧ k.Quietly k' ∧
      (∀ q, k'.process q = k.process q) ∧
      (answer = .ok () ∨ answer = .error (-ESRCH) ∨ answer = .error (-EPERM)) := by
  have htouch : ∀ q, (k.touch caller).process q = k.process q := by
    intro q
    by_cases hq : q = caller
    · rw [hq, process_touch]
    · exact k.process_updProcess_ne hq id
  unfold maySignal
  split_ifs
  · exact ⟨_, _, rfl, .refl k, fun _ => rfl, .inl rfl⟩
  · dsimp only
    split
    · exact ⟨_, _, rfl, k.quietly_touch caller, htouch, .inr (.inl rfl)⟩
    · split_ifs
      · exact ⟨_, _, rfl, k.quietly_touch caller, htouch, .inl rfl⟩
      · exact ⟨_, _, rfl, k.quietly_touch caller, htouch, .inr (.inr rfl)⟩

/-- A write to the record of one process that is not being prepared. -/
theorem signals_updProcess (pid : Pid) (f : Process → Process) (raised : List Nat)
    (queued : List RtSignal) (hpending : ∀ p, (f p).pending = p.pending.put raised queued)
    (hfork : ∀ p, (f p).forkState = p.forkState) (hrunning : (k.process pid).forkState = .running) :
    k.Signals (k.updProcess pid f) (fun q => if q = pid then raised else [])
      (fun q => if q = pid then queued else []) where
  pending q := by
    by_cases hq : q = pid
    · subst hq
      rw [if_pos rfl, if_pos rfl, pending, process_updProcess]
      exact hpending (k.process q)
    · rw [if_neg hq, if_neg hq, Pending.put_nil, pending, process_updProcess_ne hq, pending]
  born q := unborn_updProcess hfork
  landed q hq := by
    by_cases hpid : q = pid
    · subst hpid
      rcases hq with hnone | hnot
      · simp [updProcess] at hnone
      · rw [process_updProcess] at hnot
        exact absurd ((hfork (k.process q)).trans hrunning) hnot
    · rw [if_neg hpid, if_neg hpid]
      exact ⟨rfl, rfl⟩

end

end Kernel

/-! ### Calls -/

/-- The calls on pending signals, and the fork of a process. -/
inductive SignalCall where
  | sigqueue (caller : Pid) (request : Bytes)
  | kill (caller : Pid) (request : Bytes)
  | killpg (caller : Pid) (request : Bytes)
  | recordExit (request : Bytes)
  | sigwaitinfo (caller : Pid) (request : Bytes) (cap : Nat)
  | sigpending (caller : Pid) (cap : Nat)
  | prepareFork (parent : Pid)
  | commitFork (parent child : Pid)
  | rollbackFork (parent child : Pid)
  deriving DecidableEq

def SignalCall.run (kh : Kh σ) (k : Kernel σ) : SignalCall → Kernel σ
  | .sigqueue caller request => (k.sigqueue caller request).2
  | .kill caller request => (k.killRequest caller request).2
  | .killpg caller request => (k.killpgRequest caller request).2
  | .recordExit request => (k.recordExit request).2
  | .sigwaitinfo caller request cap => (k.sigwaitinfo caller request cap).2
  | .sigpending caller cap => (k.sigpending caller cap).2
  | .prepareFork parent => (k.prepareFork parent).2
  | .commitFork parent child => (k.commitFork parent child).2
  | .rollbackFork parent child => (k.rollbackFork kh parent child).2

section
variable (k : Kernel σ)

/-- The `sigqueue` for `q` that is accepted by this call. -/
def SignalCall.queues (q : Pid) : SignalCall → List RtSignal
  | .sigqueue caller request =>
    if (k.sigqueue caller request).1 = 0 ∧ u32At request 0 = q ∧ u32At request 4 ≠ 0 then
      [⟨u32At request 4, i32At request 8, caller⟩]
    else []
  | _ => []

/-- What `sigwaitinfo` of `q` returns in this call. -/
def SignalCall.returns (q : Pid) : SignalCall → List Bytes
  | .sigwaitinfo caller request cap =>
    if caller = q then (k.sigwaitinfo caller request cap).1.writes.map Prod.snd else []
  | _ => []

/-- Members of the group that a `killpg` lands on. -/
def Kernel.killpgTargets (caller : Pid) (request : Bytes) : List Pid :=
  let (pgid, k) := k.killpgGroup caller (u32At request 0)
  (permitted caller (u32At request 4) (k.processGroupMemberPids pgid) k).1

/-- The signal that this call raises at `q`: by `kill`, by `killpg`, or as a child of `q` exits. -/
def SignalCall.raises (q : Pid) : SignalCall → List Nat
  | .kill caller request =>
    if (k.killRequest caller request).1 = 0 ∧ u32At request 0 = q ∧ u32At request 4 ≠ 0 then
      [u32At request 4]
    else []
  | .killpg caller request =>
    if (k.killpgRequest caller request).1 = 0 ∧ q ∈ k.killpgTargets caller request ∧
        u32At request 4 ≠ 0 then
      [u32At request 4]
    else []
  | .recordExit request =>
    if (k.recordExit request).1 = 0 ∧ (k.process (u32At request 0)).ppid = q ∧ q ≠ 0 ∧ k.hasProcess q then
      [17]
    else []
  | _ => []

/-- No signal goes to a process whose fork is prepared and not yet committed. -/
def SignalCall.Spares : SignalCall → Prop
  | .sigqueue _ request | .kill _ request =>
    u32At request 4 ≠ 0 → (k.process (u32At request 0)).forkState = .running
  | .recordExit request =>
    (k.process (k.process (u32At request 0)).ppid).forkState = .running
  | _ => True

end

instance (k : Kernel σ) (call : SignalCall) : Decidable (call.Spares k) :=
  match call with
  | .sigqueue _ _ | .kill _ _ => inferInstanceAs (Decidable (_ → _))
  | .recordExit _ => inferInstanceAs (Decidable (_ = _))
  | .killpg _ _ | .sigwaitinfo _ _ _ | .sigpending _ _ | .prepareFork _ | .commitFork _ _
  | .rollbackFork _ _ => inferInstanceAs (Decidable True)

/-! ### What each call does -/

namespace Kernel

theorem Signals.congr {raised' : Pid → List Nat} {queued' : Pid → List RtSignal}
    (h : k.Signals k' raised queued) (hraised : ∀ q, raised' q = raised q)
    (hqueued : ∀ q, queued' q = queued q) : k.Signals k' raised' queued' := by
  obtain rfl : raised' = raised := funext hraised
  obtain rfl : queued' = queued := funext hqueued
  exact h

/-- A `sigqueue` is refused, is a probe, or appends to a queue that has room. -/
theorem sigqueue_cases (k : Kernel σ) (caller : Pid) (request : Bytes) :
    ((k.sigqueue caller request).1 ≠ 0 ∧ k.Quietly (k.sigqueue caller request).2 ∧
      ((k.sigqueue caller request).1 = -EAGAIN ↔ 12 ≤ request.length ∧ 1 ≤ u32At request 4 ∧
        u32At request 4 ≤ 64 ∧ (k.maySignal caller (u32At request 0) (u32At request 4)).1 = .ok () ∧
        kernelRtSignalQueueCap ≤ (k.process (u32At request 0)).pendingRt.length)) ∨
    (u32At request 4 = 0 ∧ k.Quietly (k.sigqueue caller request).2 ∧ (k.sigqueue caller request).1 = 0) ∨
    ∃ k', k.Quietly k' ∧ (∀ q, k'.process q = k.process q) ∧ u32At request 4 ≠ 0 ∧ u32At request 4 ≤ 64 ∧
      (k.process (u32At request 0)).pendingRt.length < kernelRtSignalQueueCap ∧
      k.sigqueue caller request = (0, k'.updProcess (u32At request 0) (fun p =>
        { p with pendingRt := p.pendingRt ++ [⟨u32At request 4, i32At request 8, caller⟩] })) := by
  have hcodes : -EINVAL ≠ 0 ∧ -EINVAL ≠ -EAGAIN ∧ -ESRCH ≠ 0 ∧ -ESRCH ≠ -EAGAIN ∧ -EPERM ≠ 0 ∧
      -EPERM ≠ -EAGAIN ∧ -EAGAIN ≠ 0 := by decide
  obtain ⟨answer, k', hmay, hquiet, hprocess, hanswer⟩ :=
    k.maySignal_cases caller (u32At request 0) (u32At request 4)
  unfold sigqueue
  split
  · exact .inl ⟨hcodes.1, .refl k, iff_of_false hcodes.2.1 (by omega)⟩
  dsimp only
  by_cases hrange : u32At request 4 > 64
  · rw [if_pos hrange]
    exact .inl ⟨hcodes.1, .refl k, iff_of_false hcodes.2.1 (by omega)⟩
  rw [if_neg hrange, hmay]
  rcases hanswer with rfl | rfl | rfl
  · dsimp only
    by_cases hprobe : u32At request 4 = 0
    · rw [if_pos hprobe]
      exact .inr (.inl ⟨hprobe, hquiet, rfl⟩)
    · rw [if_neg hprobe, hprocess]
      split
      · rename_i hfull
        exact .inl ⟨hcodes.2.2.2.2.2.2, hquiet.then (k'.quietly_touch _),
          iff_of_true rfl ⟨by omega, by omega, by omega, rfl, hfull⟩⟩
      · rename_i hfull
        exact .inr (.inr ⟨k', hquiet, hprocess, hprobe, by omega, not_le.mp hfull, rfl⟩)
  · exact .inl ⟨hcodes.2.2.1, hquiet, iff_of_false hcodes.2.2.2.1 (by simp)⟩
  · exact .inl ⟨hcodes.2.2.2.2.1, hquiet, iff_of_false hcodes.2.2.2.2.2.1 (by simp)⟩

theorem signals_sigqueue (h : (SignalCall.sigqueue caller request).Spares k) :
    k.Signals (k.sigqueue caller request).2 (fun _ => [])
      (fun q => (SignalCall.sigqueue caller request).queues k q) := by
  simp only [SignalCall.queues]
  obtain ⟨hrc, hquiet, -⟩ | ⟨hprobe, hquiet, -⟩ | ⟨k', hquiet, hprocess, hsig, -, -, heq⟩ :=
    k.sigqueue_cases caller request
  · exact hquiet.congr (fun _ => rfl) (fun q => if_neg (fun hc => hrc hc.1))
  · exact hquiet.congr (fun _ => rfl) (fun q => if_neg (fun hc => hc.2.2 hprobe))
  · have hput := k'.signals_updProcess (u32At request 0) (fun p =>
      { p with pendingRt := p.pendingRt ++ [⟨u32At request 4, i32At request 8, caller⟩] }) [] _
      (fun _ => rfl) (fun _ => rfl) (by rw [hprocess]; exact h hsig)
    rw [heq]
    refine (hquiet.then hput).congr (fun q => (ite_self _).symm) (fun q => ?_)
    simp [hsig, eq_comm]

/-- A `kill` is refused, is a probe, or raises the signal. -/
theorem killRequest_cases (k : Kernel σ) (caller : Pid) (request : Bytes) :
    ((k.killRequest caller request).1 ≠ 0 ∧ k.Quietly (k.killRequest caller request).2) ∨
    (u32At request 4 = 0 ∧ k.Quietly (k.killRequest caller request).2) ∨
    ∃ k', k.Quietly k' ∧ (∀ q, k'.process q = k.process q) ∧ u32At request 4 ≠ 0 ∧ u32At request 4 ≤ 64 ∧
      k.killRequest caller request =
        (0, k'.updProcess (u32At request 0) (Process.raise (u32At request 4))) := by
  have hcodes : -EINVAL ≠ 0 ∧ -ESRCH ≠ 0 ∧ -EPERM ≠ 0 := by decide
  obtain ⟨answer, k', hmay, hquiet, hprocess, hanswer⟩ :=
    k.maySignal_cases caller (u32At request 0) (u32At request 4)
  unfold killRequest
  rw [readU32Args_two]
  by_cases hlen : request.length < 8
  · rw [if_pos hlen]
    exact .inl ⟨hcodes.1, .refl k⟩
  rw [if_neg hlen]
  dsimp only
  rw [hmay]
  split
  · exact .inl ⟨hcodes.1, .refl k⟩
  rename_i hrange
  rcases hanswer with rfl | rfl | rfl
  · simp only [killPid, if_neg hrange]
    split_ifs with habsent hprobe
    · exact .inl ⟨hcodes.2.1, hquiet⟩
    · exact .inr (.inl ⟨hprobe, hquiet⟩)
    · exact .inr (.inr ⟨k', hquiet, hprocess, hprobe, not_lt.mp hrange, rfl⟩)
  · exact .inl ⟨hcodes.2.1, hquiet⟩
  · exact .inl ⟨hcodes.2.2, hquiet⟩

theorem signals_kill (h : (SignalCall.kill caller request).Spares k) :
    k.Signals (k.killRequest caller request).2
      (fun q => (SignalCall.kill caller request).raises k q) (fun _ => []) := by
  simp only [SignalCall.raises]
  obtain ⟨hrc, hquiet⟩ | ⟨hprobe, hquiet⟩ | ⟨k', hquiet, hprocess, hsig, -, heq⟩ :=
    k.killRequest_cases caller request
  · exact hquiet.congr (fun q => if_neg (fun hc => hrc hc.1)) (fun _ => rfl)
  · exact hquiet.congr (fun q => if_neg (fun hc => hc.2.2 hprobe)) (fun _ => rfl)
  · have hput := k'.signals_updProcess (u32At request 0) (Process.raise (u32At request 4))
      [u32At request 4] []
      (fun p => by simp [Process.raise, Process.pending, Pending.put]) (fun _ => rfl)
      (by rw [hprocess]; exact h hsig)
    rw [heq]
    refine (hquiet.then hput).congr (fun q => ?_) (fun q => (ite_self _).symm)
    simp [hsig, eq_comm]

end Kernel

/-- Raising a signal twice is raising it once. -/
theorem Pending.put_raise_twice (p : Pending) (sig : Nat) : (p.put [sig] []).put [sig] [] = p.put [sig] [] := by
  simp [Pending.put]

namespace Kernel

theorem signals_raiseAll (sig : Nat) (targets : List Pid) (k : Kernel σ)
    (hrunning : ∀ t ∈ targets, (k.process t).forkState = .running) :
    k.Signals (targets.foldl (fun k m => k.updProcess m (Process.raise sig)) k)
      (fun q => if q ∈ targets then [sig] else []) (fun _ => []) := by
  induction targets generalizing k with
  | nil => exact (Quietly.refl k).congr (fun q => by simp) (fun _ => rfl)
  | cons t targets ih =>
    have hput := k.signals_updProcess t (Process.raise sig) [sig] []
      (fun p => by simp [Process.raise, Process.pending, Pending.put]) (fun _ => rfl)
      (hrunning t List.mem_cons_self)
    have hrest := ih (k.updProcess t (Process.raise sig)) (fun t' ht' => by
      have hbefore := hrunning t' (List.mem_cons_of_mem t ht')
      by_cases heq : t' = t
      · subst heq
        rw [process_updProcess]
        exact hbefore
      · rw [process_updProcess_ne heq]
        exact hbefore)
    simp only [ite_self] at hput
    rw [List.foldl_cons]
    refine ⟨fun q => ?_, fun q hq => hput.born q (hrest.born q hq), fun q hq => ?_⟩
    · rw [hrest.pending q, hput.pending q]
      by_cases ht : q = t
      · by_cases hmem : q ∈ targets
        · simp only [ht ▸ hmem, ht, List.mem_cons_self, if_true, Pending.put_raise_twice]
        · simp [ht, ht ▸ hmem]
      · simp [ht]
    · have ht : q ≠ t := by
        rintro rfl
        have := (hput.landed q (hrest.born q hq)).1
        simp at this
      have hmem : q ∉ targets := by
        intro hmem
        have := (hrest.landed q hq).1
        simp [hmem] at this
      simp [ht, hmem]

theorem quietly_killpgGroup (k : Kernel σ) (caller pgidArg : Pid) :
    k.Quietly (k.killpgGroup caller pgidArg).2 := by
  unfold killpgGroup
  split_ifs
  · refine .intro (fun q => ?_) (fun q hq => ?_)
    · by_cases hq : q = caller
      · simp [pending, process, hq]
        rfl
      · simp [pending, process, hq]
    · by_cases hcaller : q = caller
      · subst hcaller
        rcases hq with hnone | hfork
        · simp at hnone
        · refine .inr ?_
          simpa [process, Process.ensureMainThread] using hfork
      · simpa [Unborn, process, hcaller] using hq
  · exact .refl k

theorem quietly_permitted (caller : Pid) (sig : Nat) (members : List Pid) (k : Kernel σ) :
    k.Quietly (permitted caller sig members k).2 ∧
    (∀ q, (permitted caller sig members k).2.process q = k.process q) ∧
    ∀ t ∈ (permitted caller sig members k).1, t ∈ members := by
  induction members generalizing k with
  | nil => exact ⟨.refl k, fun _ => rfl, fun _ ht => ht⟩
  | cons m members ih =>
    obtain ⟨answer, k', hmay, hquiet, hprocess, -⟩ := k.maySignal_cases caller m sig
    obtain ⟨hrest, hsame, hmem⟩ := ih k'
    unfold permitted
    rw [hmay]
    cases answer with
    | error =>
      exact ⟨hquiet.then hrest, fun q => (hsame q).trans (hprocess q),
        fun t ht => List.mem_cons_of_mem m (hmem t ht)⟩
    | ok =>
      exact ⟨hquiet.then hrest, fun q => (hsame q).trans (hprocess q), fun t ht =>
        (List.mem_cons.mp ht).elim (fun heq => heq ▸ List.mem_cons_self)
          (fun ht => List.mem_cons_of_mem m (hmem t ht))⟩

theorem running_of_member {pgid t : Pid} (h : t ∈ k.processGroupMemberPids pgid) :
    (k.process t).forkState = .running := by
  unfold processGroupMemberPids at h
  obtain ⟨⟨pid, p⟩, he, rfl⟩ := List.mem_map.mp h
  obtain ⟨hmem, hlive⟩ := List.mem_filter.mp he
  rw [process, SortedMap.mem_toList.mp hmem]
  have hlive := of_decide_eq_true hlive
  exact hlive.1

theorem signals_killpg (k : Kernel σ) (caller : Pid) (request : Bytes) :
    k.Signals (k.killpgRequest caller request).2
      (fun q => (SignalCall.killpg caller request).raises k q) (fun _ => []) := by
  have hinval : -EINVAL ≠ 0 := by decide
  have hsrch : -ESRCH ≠ 0 := by decide
  have hperm : -EPERM ≠ 0 := by decide
  simp only [SignalCall.raises, killpgTargets]
  unfold killpgRequest
  rw [readU32Args_two]
  by_cases hlen : request.length < 8
  · simp only [if_pos hlen]
    exact (Quietly.refl k).congr (fun q => if_neg (fun hc => hinval hc.1)) (fun _ => rfl)
  simp only [if_neg hlen]
  split
  · exact (Quietly.refl k).congr (fun q => if_neg (fun hc => hinval hc.1)) (fun _ => rfl)
  have hgroup := k.quietly_killpgGroup caller (u32At request 0)
  generalize k.killpgGroup caller (u32At request 0) = g at hgroup ⊢
  obtain ⟨pgid, k1⟩ := g
  simp only
  split
  · exact Signals.congr hgroup (fun q => if_neg (fun hc => hsrch hc.1)) (fun _ => rfl)
  obtain ⟨hquiet, hprocess, hmem⟩ :=
    quietly_permitted caller (u32At request 4) (k1.processGroupMemberPids pgid) k1
  have hrunning : ∀ t ∈ (permitted caller (u32At request 4)
      (k1.processGroupMemberPids pgid) k1).1, (k1.process t).forkState = .running :=
    fun t ht => running_of_member (hmem t ht)
  generalize permitted caller (u32At request 4) (k1.processGroupMemberPids pgid) k1 = r
    at hquiet hprocess hrunning ⊢
  obtain ⟨targets, k2⟩ := r
  simp only
  have hasked : k.Quietly k2 := hgroup.then hquiet
  split
  · exact Signals.congr hasked (fun q => if_neg (fun hc => hperm hc.1)) (fun _ => rfl)
  split
  · rename_i hprobe
    exact Signals.congr hasked (fun q => if_neg (fun hc => hc.2.2 hprobe)) (fun _ => rfl)
  · rename_i hprobe
    have hraise := signals_raiseAll (u32At request 4) targets k2
      (fun t ht => by rw [hprocess]; exact hrunning t ht)
    exact (hasked.then hraise).congr (fun q => by simp [hprobe]) (fun _ => rfl)

theorem signals_recordExit (h : (SignalCall.recordExit request).Spares k) :
    k.Signals (k.recordExit request).2 (fun q => (SignalCall.recordExit request).raises k q)
      (fun _ => []) := by
  have hinval : -EINVAL ≠ 0 := by decide
  have hsrch : -ESRCH ≠ 0 := by decide
  simp only [SignalCall.Spares] at h
  simp only [SignalCall.raises]
  unfold recordExit
  by_cases hlen : request.length < 8
  · simp only [if_pos hlen]
    exact (Quietly.refl k).congr (fun q => if_neg (fun hc => hinval hc.1)) (fun _ => rfl)
  obtain ⟨k', heq, -, hkept, hcore⟩ | ⟨-, heq⟩ := k.recordExitOf_records (u32At request 0) (i32At request 4) <;>
    simp only [if_neg hlen, heq]
  · have hfork : ∀ q, (k'.process q).forkState = (k.process q).forkState := fun q =>
      (congrArg Process.forkState (hcore q) :)
    refine ⟨fun q => ?_, fun q hq => ?_, fun q hq => ⟨if_neg ?_, rfl⟩⟩
    · refine (congrArg Process.pending (hcore q) :).trans ?_
      split_ifs <;> simp_all [Process.pending, Pending.put, pending, Process.core]
    · exact hq.imp (fun hnone => not_not.mp (fun hsome => hkept q hsome hnone)) (fun hnot => hfork q ▸ hnot)
    · rintro ⟨-, rfl, -, hparent⟩
      rcases hq with hnone | hnot
      · exact hkept _ (hasProcess_iff.mp hparent) hnone
      · exact hnot ((hfork _).trans h)
  · exact (Quietly.refl k).congr (fun q => if_neg (fun hc => hsrch hc.1)) (fun _ => rfl)

section
variable (k : Kernel σ)

/-- `sigwaitinfo` takes out what it returns. -/
theorem sigwaitinfo_cases (caller : Pid) (request : Bytes) (cap : Nat) :
    (∃ rc, (k.sigwaitinfo caller request cap).1 = .code rc ∧
      k.Quietly (k.sigwaitinfo caller request cap).2) ∨
    ∃ s, Lanes.oldest RtSignal.signo (waitsFor (u64At request 0)) (k.pending caller).queue = some s ∧
      k.sigwaitinfo caller request cap = (.data s.siginfo, k.updProcess caller (fun p =>
        { p with pendingRt := p.pendingRt.eraseP (fun s => waitsFor (u64At request 0) s.signo) })) := by
  unfold sigwaitinfo
  split_ifs
  · exact .inl ⟨_, rfl, .refl k⟩
  · exact .inl ⟨_, rfl, .refl k⟩
  · simp only
    split
    · exact .inl ⟨_, rfl, k.quietly_touch caller⟩
    · next s hs => exact .inr ⟨s, hs, rfl⟩

theorem quietly_sigpending (caller : Pid) (cap : Nat) :
    k.Quietly (k.sigpending caller cap).2 := by
  unfold sigpending
  split_ifs
  · exact .refl k
  · exact .refl k
  · exact k.quietly_touch caller

theorem quietly_prepareFork (parent : Pid) : k.Quietly (k.prepareFork parent).2 := by
  obtain ⟨p, child, k', -, -, hfree, heq, hget⟩ | ⟨errno, k', heq, hprocs⟩ := k.prepareFork_records parent
  · rw [heq]
    refine .intro (fun q => ?_) (fun q hq => ?_)
    · rw [pending, pending, process, process, hget]
      by_cases hq : q = child
      · -- a pid without a record has nothing pending, and so has the child
        rw [if_pos hq, hq, hfree]
        rfl
      · rw [if_neg hq]
    · by_cases hchild : q = child
      · exact .inl (hchild ▸ hfree)
      · rw [Unborn, process, hget, if_neg hchild] at hq
        exact hq
  · rw [heq]
    refine .intro (fun q => ?_) (fun q hq => ?_)
    · rw [pending, process, hprocs, pending, process]
    · rw [Unborn, process, hprocs] at hq
      exact hq

theorem quietly_setProcess {p p' : Process} (hp : k.processes.get? pid = some p)
    (hpending : p'.pending = p.pending)
    (hfork : p'.forkState = p.forkState ∨ p'.forkState = .running) :
    k.Quietly (k.setProcess pid p') := by
  refine .intro (fun q => ?_) (fun q hq => ?_)
  · by_cases hpid : q = pid
    · simp only [pending, process, get?_setProcess, hpid, if_true, hp]
      exact hpending
    · simp [pending, process, hpid]
  · by_cases hpid : q = pid
    · subst hpid
      rcases hq with hnone | hnot
      · simp at hnone
      · refine .inr ?_
        rw [process, hp]
        rw [process, get?_setProcess, if_pos rfl] at hnot
        rcases hfork with hfork | hfork
        · exact hfork ▸ hnot
        · exact absurd hfork hnot
    · simpa [Unborn, process, hpid] using hq

theorem quietly_commitFork (parent child : Pid) :
    k.Quietly (k.commitFork parent child).2 := by
  unfold commitFork
  split
  · exact .refl k
  · next c hc =>
    split_ifs
    · exact .refl k
    · have hrunning : k.Quietly (k.setProcess child { c with forkState := .running }) :=
        k.quietly_setProcess hc rfl (.inr rfl)
      simp only
      split
      · exact hrunning
      · next p hp => exact hrunning.then (quietly_setProcess _ hp rfl (.inl rfl))

end

end Kernel

/-! ### A run with its logs -/

structure SignalWorld (σ : Type) where
  kernel : Kernel σ
  queued : Pid → List RtSignal
  returned : Pid → List Bytes
  raised : Pid → List Nat

def SignalWorld.start (k : Kernel σ) : SignalWorld σ := ⟨k, fun _ => [], fun _ => [], fun _ => []⟩

def SignalCall.step (kh : Kh σ) (w : SignalWorld σ) (call : SignalCall) : SignalWorld σ where
  kernel := call.run kh w.kernel
  queued q := w.queued q ++ call.queues w.kernel q
  returned q := w.returned q ++ call.returns w.kernel q
  raised q := w.raised q ++ call.raises w.kernel q

/-- The mask that a list of signals makes. -/
def maskOf (raised : List Nat) : Nat := raised.foldl (fun mask sig => mask ||| 2 ^ (sig - 1)) 0

/-- The logs account for both stores of every process, and an unborn one has no log. -/
structure SignalWorld.Sound (w : SignalWorld σ) : Prop where
  lanes : ∀ q, ∃ taken, w.returned q = taken.map RtSignal.siginfo ∧
    Lanes.Tracks RtSignal.signo (w.queued q) taken (w.kernel.pending q).queue
  queuedRange : ∀ q, ∀ s ∈ w.queued q, 1 ≤ s.signo ∧ s.signo ≤ 64
  bound : ∀ q, (w.kernel.pending q).queue.length ≤ kernelRtSignalQueueCap
  mask : ∀ q, (w.kernel.pending q).mask = maskOf (w.raised q)
  raisedRange : ∀ q, ∀ sig ∈ w.raised q, 1 ≤ sig ∧ sig ≤ 64
  blank : ∀ q, w.kernel.Unborn q → w.queued q = [] ∧ w.raised q = []

variable {w : SignalWorld σ}

section
variable (k : Kernel σ) (q : Pid)

theorem SignalCall.queues_range (call : SignalCall) :
    ∀ s ∈ call.queues k q, (1 ≤ s.signo ∧ s.signo ≤ 64) := by
  intro s hs
  cases call with
  | sigqueue caller request =>
    simp only [SignalCall.queues] at hs
    split_ifs at hs with hc
    · obtain rfl := List.mem_singleton.mp hs
      obtain ⟨hrc, -⟩ | ⟨hprobe, -⟩ | ⟨k', -, -, hsig, hrange, -, -⟩ := k.sigqueue_cases caller request
      · exact absurd hc.1 hrc
      · exact absurd hprobe hc.2.2
      · exact ⟨Nat.one_le_iff_ne_zero.mpr hsig, hrange⟩
    · cases hs
  | _ => cases hs

theorem SignalCall.queues_room (call : SignalCall)
    (hbound : (k.pending q).queue.length ≤ kernelRtSignalQueueCap) :
    (k.pending q).queue.length + (call.queues k q).length ≤ kernelRtSignalQueueCap := by
  cases call with
  | sigqueue caller request =>
    simp only [SignalCall.queues]
    split_ifs with hc
    · obtain ⟨hrc, -⟩ | ⟨hprobe, -⟩ | ⟨k', -, -, -, -, hroom, -⟩ := k.sigqueue_cases caller request
      · exact absurd hc.1 hrc
      · exact absurd hprobe hc.2.2
      · exact hc.2.1 ▸ hroom
    · exact hbound
  | _ => exact hbound

theorem SignalCall.raises_range (call : SignalCall) :
    ∀ sig ∈ call.raises k q, (1 ≤ sig ∧ sig ≤ 64) := by
  intro sig hs
  cases call with
  | kill caller request =>
    simp only [SignalCall.raises] at hs
    split_ifs at hs with hc
    · obtain rfl := List.mem_singleton.mp hs
      obtain ⟨hrc, -⟩ | ⟨hprobe, -⟩ | ⟨k', -, -, hsig, hrange, -⟩ := k.killRequest_cases caller request
      · exact absurd hc.1 hrc
      · exact absurd hprobe hc.2.2
      · exact ⟨Nat.one_le_iff_ne_zero.mpr hsig, hrange⟩
    · cases hs
  | killpg caller request =>
    simp only [SignalCall.raises] at hs
    split_ifs at hs with hc
    · obtain rfl := List.mem_singleton.mp hs
      refine ⟨Nat.one_le_iff_ne_zero.mpr hc.2.2, ?_⟩
      by_contra hrange
      have hinval : -EINVAL ≠ 0 := by decide
      have hrc := hc.1
      unfold killpgRequest at hrc
      rw [readU32Args_two] at hrc
      split_ifs at hrc
      · exact hinval hrc
      · simp only [if_pos (not_le.mp hrange)] at hrc
        exact hinval hrc
    · cases hs
  | recordExit request =>
    simp only [SignalCall.raises] at hs
    split_ifs at hs
    · obtain rfl := List.mem_singleton.mp hs
      decide
    · cases hs
  | _ => cases hs

end

theorem maskOf_append (raised raised' : List Nat) :
    maskOf (raised ++ raised') = raised'.foldl (fun mask sig => mask ||| 2 ^ (sig - 1)) (maskOf raised) :=
  List.foldl_append

namespace SignalWorld

/-- A call that puts what it logs. -/
theorem Sound.signals (kh : Kh σ) (h : w.Sound)
    (hk : w.kernel.Signals (call.run kh w.kernel) (fun q => call.raises w.kernel q)
      (fun q => call.queues w.kernel q)) (hreturns : ∀ q, call.returns w.kernel q = []) :
    (call.step kh w).Sound where
  lanes q := by
    obtain ⟨taken, hreturned, htracks⟩ := h.lanes q
    refine ⟨taken, ?_, ?_⟩
    · simp only [SignalCall.step, hreturns q, List.append_nil]
      exact hreturned
    · simp only [SignalCall.step, hk.pending q]
      exact htracks.put _
  queuedRange q s hs := by
    rcases List.mem_append.mp hs with hs | hs
    · exact h.queuedRange q s hs
    · exact SignalCall.queues_range _ q call s hs
  bound q := by
    simp only [SignalCall.step, hk.pending q, Pending.put, List.length_append]
    exact SignalCall.queues_room _ q call (h.bound q)
  mask q := by
    simp only [SignalCall.step, hk.pending q, Pending.put, maskOf_append, h.mask q]
  raisedRange q sig hs := by
    rcases List.mem_append.mp hs with hs | hs
    · exact h.raisedRange q sig hs
    · exact SignalCall.raises_range _ q call sig hs
  blank q hq := by
    obtain ⟨hraised, hqueued⟩ := hk.landed q hq
    obtain ⟨hqueued', hraised'⟩ := h.blank q (hk.born q hq)
    simp only [SignalCall.step]
    rw [hqueued, hraised, hqueued', hraised']
    exact ⟨rfl, rfl⟩

/-- Nothing is pending at an unborn process. -/
theorem Sound.pending_unborn (h : w.Sound) (hq : w.kernel.Unborn q) :
    w.kernel.pending q = ⟨0, []⟩ := by
  obtain ⟨hqueued, hraised⟩ := h.blank q hq
  obtain ⟨taken, -, htracks⟩ := h.lanes q
  have hqueue : (w.kernel.pending q).queue = [] := by
    refine List.eq_nil_iff_forall_not_mem.mpr (fun s hs => ?_)
    have := htracks.mem_sent (List.mem_append_right taken hs)
    rw [hqueued] at this
    cases this
  have hmask := h.mask q
  rw [hraised] at hmask
  exact congrArg₂ Pending.mk hmask hqueue

theorem Sound.quietly_rollbackFork (kh : Kh σ) (h : w.Sound) (parent child : Pid) :
    w.kernel.Quietly (w.kernel.rollbackFork kh parent child).2 := by
  obtain ⟨c, hc, hfork, -, hget⟩ | ⟨errno, heq⟩ := w.kernel.rollbackFork_records kh parent child
  · have hunborn : w.kernel.Unborn child := by
      refine .inr (fun hrunning => ?_)
      rw [process, hc] at hrunning
      exact absurd (hfork.symm.trans hrunning) (fun heq => by cases heq)
    refine .intro (fun q => ?_) (fun q hq => ?_)
    · by_cases hchild : q = child
      · -- the record that goes had nothing pending
        subst hchild
        rw [h.pending_unborn hunborn, pending, process, hget, if_pos rfl]
        rfl
      · rw [pending, pending, process, process, hget, if_neg hchild]
        cases w.kernel.processes.get? q with
        | none => rfl
        | some p => simp only [Option.map_some, Option.getD_some]; split_ifs <;> rfl
    · by_cases hchild : q = child
      · exact hchild ▸ hunborn
      · rw [Unborn, process, hget, if_neg hchild] at hq
        rw [Unborn, process]
        cases hp : w.kernel.processes.get? q with
        | none => exact .inl rfl
        | some p =>
          refine .inr ?_
          rw [hp] at hq
          simp only [Option.map_some, Option.getD_some, reduceCtorEq, false_or] at hq ⊢
          split_ifs at hq <;> exact hq
  · rw [heq]
    exact .refl _

/-- A call that raises, queues and returns nothing. -/
theorem Sound.quiet (kh : Kh σ) (h : w.Sound)
    (hk : w.kernel.Quietly (call.run kh w.kernel)) (hraises : ∀ q, call.raises w.kernel q = [])
    (hqueues : ∀ q, call.queues w.kernel q = []) (hreturns : ∀ q, call.returns w.kernel q = []) :
    (call.step kh w).Sound :=
  h.signals kh (Signals.congr hk hraises hqueues) hreturns

/-- `sigwaitinfo` moves an entry from the queue to the log. -/
theorem Sound.sigwaitinfo (kh : Kh σ) (h : w.Sound) (caller : Pid) (request : Bytes)
    (cap : Nat) : ((SignalCall.sigwaitinfo caller request cap).step kh w).Sound := by
  obtain ⟨rc, hrc, hquiet⟩ | ⟨s, hs, heq⟩ := w.kernel.sigwaitinfo_cases caller request cap
  · refine h.quiet kh hquiet (fun _ => rfl) (fun _ => rfl) (fun q => ?_)
    simp only [SignalCall.returns, hrc, Reply.code]
    exact ite_self _
  · have hpending : ∀ q, ((SignalCall.sigwaitinfo caller request cap).run kh w.kernel).pending q =
        if q = caller then ⟨(w.kernel.pending q).mask, Lanes.rest RtSignal.signo
          (waitsFor (u64At request 0)) (w.kernel.pending q).queue⟩ else w.kernel.pending q := by
      intro q
      simp only [SignalCall.run, heq]
      split_ifs with hq
      · rw [hq, pending, process_updProcess]
        rfl
      · rw [pending, process_updProcess_ne hq, pending]
    have hreturns : ∀ q, (SignalCall.sigwaitinfo caller request cap).returns w.kernel q =
        if caller = q then [s.siginfo] else [] := by
      intro q
      simp only [SignalCall.returns, heq, Reply.data, List.map_cons, List.map_nil]
    refine ⟨fun q => ?_, fun q x hx => ?_, fun q => ?_, fun q => ?_, fun q x hx => ?_, fun q hq => ?_⟩
    · obtain ⟨taken, hreturned, htracks⟩ := h.lanes q
      simp only [SignalCall.step, hpending, hreturns, SignalCall.queues, List.append_nil]
      by_cases hq : q = caller
      · subst hq
        refine ⟨taken ++ [s], ?_, ?_⟩
        · rw [if_pos rfl, hreturned, List.map_append]
          rfl
        · rw [if_pos rfl]
          exact htracks.take hs
      · refine ⟨taken, ?_, ?_⟩
        · rw [if_neg (Ne.symm hq), List.append_nil, hreturned]
        · rw [if_neg hq]
          exact htracks
    · simp only [SignalCall.step, SignalCall.queues, List.append_nil] at hx
      exact h.queuedRange q x hx
    · simp only [SignalCall.step, hpending]
      split_ifs
      · exact (List.length_eraseP_le ..).trans (h.bound q)
      · exact h.bound q
    · simp only [SignalCall.step, hpending, SignalCall.raises, List.append_nil]
      split_ifs <;> exact h.mask q
    · simp only [SignalCall.step, SignalCall.raises, List.append_nil] at hx
      exact h.raisedRange q x hx
    · simp only [SignalCall.step, SignalCall.queues, SignalCall.raises, List.append_nil]
      refine h.blank q ?_
      simp only [SignalCall.step, SignalCall.run, heq] at hq
      refine unborn_updProcess ?_ hq
      exact fun _ => rfl

theorem Sound.step (kh : Kh σ) (h : w.Sound) (hspares : call.Spares w.kernel) :
    (call.step kh w).Sound := by
  cases call with
  | sigqueue caller request => exact h.signals kh (signals_sigqueue hspares) (fun _ => rfl)
  | kill caller request => exact h.signals kh (signals_kill hspares) (fun _ => rfl)
  | killpg caller request =>
    exact h.signals kh (w.kernel.signals_killpg caller request) (fun _ => rfl)
  | recordExit request => exact h.signals kh (signals_recordExit hspares) (fun _ => rfl)
  | sigwaitinfo caller request cap => exact h.sigwaitinfo kh caller request cap
  | sigpending caller cap =>
    exact h.quiet kh (w.kernel.quietly_sigpending caller cap) (fun _ => rfl) (fun _ => rfl) (fun _ => rfl)
  | prepareFork parent =>
    exact h.quiet kh (w.kernel.quietly_prepareFork parent) (fun _ => rfl) (fun _ => rfl) (fun _ => rfl)
  | commitFork parent child =>
    exact h.quiet kh (w.kernel.quietly_commitFork parent child) (fun _ => rfl) (fun _ => rfl)
      (fun _ => rfl)
  | rollbackFork parent child =>
    exact h.quiet kh (h.quietly_rollbackFork kh parent child) (fun _ => rfl) (fun _ => rfl)
      (fun _ => rfl)

end SignalWorld

/-! ### Masks -/

theorem testBit_raise (mask sig i : Nat) :
    (mask ||| 2 ^ (sig - 1)).testBit i = true ↔ mask.testBit i = true ∨ sig - 1 = i := by
  simp [Nat.testBit_or, Nat.testBit_two_pow]

theorem testBit_maskOf {raised : List Nat} (h : ∀ sig ∈ raised, 1 ≤ sig ∧ sig ≤ 64) (i : Nat) :
    (maskOf raised).testBit i = true ↔ i + 1 ∈ raised := by
  have hfold : ∀ (raised : List Nat) (mask : Nat), (∀ sig ∈ raised, 1 ≤ sig ∧ sig ≤ 64) →
      ((raised.foldl (fun mask sig => mask ||| 2 ^ (sig - 1)) mask).testBit i = true ↔
        mask.testBit i = true ∨ i + 1 ∈ raised) := by
    intro raised
    induction raised with
    | nil => simp
    | cons sig raised ih =>
      intro mask hrange
      obtain ⟨⟨hpos, -⟩, hrest⟩ := List.forall_mem_cons.mp hrange
      rw [List.foldl_cons, ih _ hrest, testBit_raise, List.mem_cons, or_assoc]
      have hsig : sig - 1 = i ↔ i + 1 = sig := by omega
      rw [hsig]
  rw [maskOf, hfold raised 0 h]
  simp

theorem testBit_rtMask {queue : List RtSignal} (h : ∀ s ∈ queue, 1 ≤ s.signo ∧ s.signo ≤ 64)
    (mask i : Nat) : (rtMask mask queue).testBit i = true ↔
      mask.testBit i = true ∨ ∃ s ∈ queue, s.signo = i + 1 := by
  induction queue generalizing mask with
  | nil => simp [rtMask]
  | cons s queue ih =>
    obtain ⟨hs, hrest⟩ := List.forall_mem_cons.mp h
    have hcons : rtMask mask (s :: queue) = rtMask (mask ||| 2 ^ (s.signo - 1)) queue := by
      rw [rtMask, List.foldl_cons, if_pos hs, rtMask]
    have hsig : s.signo - 1 = i ↔ s.signo = i + 1 := by omega
    rw [hcons, ih hrest, testBit_raise, hsig, or_assoc]
    simp

/-! ### The law -/

/-- What holds of queued signals in a state of a run. -/
structure SignalWorld.Lawful (w : SignalWorld σ) : Prop where
  /-- The queue is what was accepted without what was returned, oldest first. -/
  kept : ∀ q, ∃ taken, w.returned q = taken.map RtSignal.siginfo ∧
    Lanes.Tracks RtSignal.signo (w.queued q) taken (w.kernel.process q).pendingRt
  /-- Per signal, what was returned is a prefix of what was accepted. -/
  ordered : ∀ q signo, (w.returned q).filter (fun d => u32At d 0 = signo) <+:
    ((w.queued q).filter (fun s => s.signo = signo)).map RtSignal.siginfo
  /-- The oldest entry in the set is returned, and `EAGAIN` if there is none. -/
  oldest : ∀ q request cap, w.kernel.hasProcess q = true → 8 ≤ request.length → 16 ≤ cap →
    (w.kernel.sigwaitinfo q request cap).1 =
      match (w.kernel.process q).pendingRt.find?
        (fun s => (u64At request 0).testBit (s.signo - 1)) with
      | some s => .data s.siginfo
      | none => .code (-EAGAIN)
  bound : ∀ q, (w.kernel.process q).pendingRt.length ≤ 1024
  /-- A valid and permitted `sigqueue` fails exactly at the bound. -/
  full : ∀ caller request, (w.kernel.sigqueue caller request).1 = -EAGAIN ↔
    12 ≤ request.length ∧ 1 ≤ u32At request 4 ∧ u32At request 4 ≤ 64 ∧
    (w.kernel.maySignal caller (u32At request 0) (u32At request 4)).1 = .ok () ∧
    (w.kernel.process (u32At request 0)).pendingRt.length = 1024
  /-- `sigpending` shows what is queued and what was raised. -/
  shown : ∀ q cap, w.kernel.hasProcess q = true → 8 ≤ cap → ∃ mask, mask < 2 ^ 64 ∧
    (w.kernel.sigpending q cap).1 = .data (leBytes 8 mask) ∧
    ∀ sig, 1 ≤ sig → (mask.testBit (sig - 1) = true ↔
      sig ∈ w.raised q ∨ ∃ s ∈ (w.kernel.process q).pendingRt, s.signo = sig)
  /-- `sigwaitinfo` clears no bit. -/
  untouched : ∀ caller request cap q,
    ((w.kernel.sigwaitinfo caller request cap).2.process q).pendingSignals =
      (w.kernel.process q).pendingSignals
  /-- A child is committed with nothing pending. -/
  born : ∀ parent child k', w.kernel.commitFork parent child = (.ok (), k') →
    (k'.process child).pendingSignals = 0 ∧ (k'.process child).pendingRt = []

theorem u32At_siginfo {s : RtSignal} (h : s.signo ≤ 64) : u32At s.siginfo 0 = s.signo := by
  rw [RtSignal.siginfo, List.append_assoc, List.append_assoc, u32At_leBytes_append (by omega)]

theorem SignalWorld.Sound.queue_range (h : w.Sound) (q : Pid) :
    ∀ s ∈ (w.kernel.process q).pendingRt, 1 ≤ s.signo ∧ s.signo ≤ 64 := by
  intro s hs
  obtain ⟨taken, -, htracks⟩ := h.lanes q
  exact h.queuedRange q s (htracks.mem_sent (List.mem_append_right taken hs))

theorem SignalWorld.Sound.lawful (h : w.Sound) : w.Lawful where
  kept q := h.lanes q
  ordered q signo := by
    obtain ⟨taken, hreturned, htracks⟩ := h.lanes q
    have hrange : ∀ s ∈ taken, s.signo ≤ 64 := fun s hs =>
      (h.queuedRange q s (htracks.mem_sent (List.mem_append_left _ hs))).2
    have hfilter : (w.returned q).filter (fun d => u32At d 0 = signo) =
        (Lanes.lane RtSignal.signo signo taken).map RtSignal.siginfo := by
      rw [hreturned, List.filter_map, Lanes.lane]
      refine congrArg _ (List.filter_congr (fun s hs => ?_))
      simp only [Function.comp_apply, u32At_siginfo (hrange s hs)]
    rw [hfilter]
    exact (htracks.lane_prefix signo).map _
  oldest q request cap hq hlen hcap := by
    have hguard : ∀ s ∈ (w.kernel.process q).pendingRt, waitsFor (u64At request 0) s.signo =
        (u64At request 0).testBit (s.signo - 1) := by
      intro s hs
      obtain ⟨hpos, hle⟩ := h.queue_range q s hs
      simp [waitsFor, hpos, hle]
    have hfind : (w.kernel.process q).pendingRt.find? (fun s => waitsFor (u64At request 0) s.signo) =
        (w.kernel.process q).pendingRt.find? (fun s => (u64At request 0).testBit (s.signo - 1)) :=
      List.find?_congr hguard
    have hvalid : ¬ (request.length < 8 ∨ cap < 16) := by omega
    unfold Kernel.sigwaitinfo
    rw [if_neg hvalid, if_neg (by simp [hq])]
    simp only [hfind]
    cases (w.kernel.process q).pendingRt.find? (fun s => (u64At request 0).testBit (s.signo - 1)) <;>
      rfl
  bound q := h.bound q
  full caller request := by
    have hbound : (w.kernel.process (u32At request 0)).pendingRt.length ≤ 1024 := h.bound (u32At request 0)
    have hzero : 0 ≠ -EAGAIN := by decide
    obtain ⟨-, -, hiff⟩ | ⟨hprobe, -, hrc⟩ | ⟨k', -, -, -, -, hroom, heq⟩ :=
      w.kernel.sigqueue_cases caller request
    · exact hiff.trans (by rw [← hbound.ge_iff_eq]; rfl)
    · rw [hrc]
      exact iff_of_false hzero (by omega)
    · rw [heq]
      exact iff_of_false hzero (fun hc => hroom.ne hc.2.2.2.2)
  shown q cap hq hcap := by
    have hmask : (w.kernel.process q).pendingSignals = maskOf (w.raised q) := h.mask q
    refine ⟨rtMask (w.kernel.process q).pendingSignals (w.kernel.process q).pendingRt, ?_, ?_, ?_⟩
    · refine Nat.lt_pow_two_of_testBit _ (fun i hi => ?_)
      rw [← Bool.not_eq_true, testBit_rtMask (h.queue_range q), hmask, testBit_maskOf (h.raisedRange q)]
      rintro (hraised | ⟨s, hs, hsig⟩)
      · have := (h.raisedRange q _ hraised).2
        omega
      · have := (h.queue_range q s hs).2
        omega
    · unfold Kernel.sigpending
      rw [if_neg (not_lt.mpr hcap), if_neg (by simp [hq])]
    · intro sig hsig
      rw [testBit_rtMask (h.queue_range q), Nat.sub_add_cancel hsig]
      refine or_congr_left ?_
      rw [hmask, testBit_maskOf (h.raisedRange q), Nat.sub_add_cancel hsig]
  untouched caller request cap q := by
    obtain ⟨-, -, hquiet⟩ | ⟨s, -, heq⟩ := w.kernel.sigwaitinfo_cases caller request cap
    · exact congrArg Pending.mask (hquiet.pending_eq q)
    · rw [heq]
      by_cases hq : q = caller
      · rw [hq, process_updProcess]
        rfl
      · rw [process_updProcess_ne hq]
  born parent child k' hcommit := by
    have hquiet := w.kernel.quietly_commitFork parent child
    have hunborn : w.kernel.Unborn child := by
      unfold Kernel.commitFork at hcommit
      split at hcommit
      · cases hcommit
      · next c hc =>
        by_cases hfork : c.forkState = .forkPreparing parent
        · refine .inr (fun hrunning => ?_)
          rw [process, hc] at hrunning
          exact absurd (hfork.symm.trans hrunning) (fun heq => by cases heq)
        · rw [if_pos hfork] at hcommit
          cases hcommit
    have hpending := hquiet.pending_eq child
    rw [hcommit, h.pending_unborn hunborn] at hpending
    exact Pending.mk.inj hpending

/-- From a kernel in which nothing is pending, as long as no signal goes to a process whose fork is
    prepared and not committed, queued signals are neither lost, duplicated nor reordered. -/
theorem queued_signals_lawful (kh : Kh σ) (k : Kernel σ) (hk : ∀ q, k.pending q = ⟨0, []⟩)
    (calls : List SignalCall)
    (hcalls : Run.Along (SignalCall.step kh) (fun w call => call.Spares w.kernel)
      (SignalWorld.start k) calls) :
    (Run.run (SignalCall.step kh) (SignalWorld.start k) calls).Lawful := by
  have hstart : (SignalWorld.start k).Sound := by
    refine ⟨fun q => ⟨[], rfl, ?_⟩, fun q s hs => ?_, fun q => ?_, fun q => ?_, fun q s hs => ?_,
      fun _ _ => ⟨rfl, rfl⟩⟩
    · simp only [SignalWorld.start, hk]
      exact Lanes.tracks_new
    · cases hs
    · simp [SignalWorld.start, hk]
    · simp [SignalWorld.start, hk, maskOf]
    · cases hs
  have hstep : ∀ (w : SignalWorld σ) (call : SignalCall), call.Spares w.kernel → w.Sound →
      (call.step kh w).Sound := fun w call hspares hw => hw.step kh hspares
  exact (hcalls.invariant _ hstep hstart).lawful

theorem Kernel.oneProcess_pending (q : Pid) : oneProcess.pending q = ⟨0, []⟩ := by
  by_cases hq : q = 1
  · subst hq
    decide
  · rw [oneProcess, pending, process_updProcess_ne hq]
    rfl

/-- Request of `sigqueue`. -/
def sigqueueRequest (target sig value : Nat) : Bytes := leBytes 4 target ++ leBytes 4 sig ++ leBytes 4 value

/-- Process 1 forks, queues three signals for its child and kills it; the child waits for one. -/
def signalsToChild : List SignalCall :=
  [.prepareFork 1, .commitFork 1 2, .sigqueue 1 (sigqueueRequest 2 34 5),
    .sigqueue 1 (sigqueueRequest 2 35 6), .sigqueue 1 (sigqueueRequest 2 34 7),
    .kill 1 (leBytes 4 2 ++ leBytes 4 34), .sigwaitinfo 2 (leBytes 8 (2 ^ 34)) 16]

theorem queued_signals_lawful_toChild :
    (Run.run (SignalCall.step Kh.absent) (SignalWorld.start oneProcess) signalsToChild).returned 2 =
      [RtSignal.siginfo ⟨35, 6, 1⟩] ∧
    (Run.run (SignalCall.step Kh.absent) (SignalWorld.start oneProcess) signalsToChild).Lawful :=
  ⟨by decide, queued_signals_lawful Kh.absent oneProcess oneProcess_pending signalsToChild
    (by decide)⟩

/-- Process 1 queues a signal for its child between the two halves of the fork. -/
def signalToPrepared : List SignalCall := [.prepareFork 1, .sigqueue 1 (sigqueueRequest 2 34 5)]

theorem prepared_child_starts_signalled :
    ¬ (Run.run (SignalCall.step Kh.absent) (SignalWorld.start oneProcess) signalToPrepared).Lawful := by
  intro h
  have hok : ((Run.run (SignalCall.step Kh.absent) (SignalWorld.start oneProcess)
      signalToPrepared).kernel.commitFork 1 2).1.isOk = true := by decide
  have hqueue : (((Run.run (SignalCall.step Kh.absent) (SignalWorld.start oneProcess)
      signalToPrepared).kernel.commitFork 1 2).2.process 2).pendingRt ≠ [] := by decide
  have hborn := h.born 1 2
  generalize (Run.run (SignalCall.step Kh.absent) (SignalWorld.start oneProcess)
    signalToPrepared).kernel.commitFork 1 2 = r at hok hqueue hborn
  obtain ⟨_ | u, k'⟩ := r
  · cases hok
  · exact hqueue (hborn k' rfl).2

end Yurt
