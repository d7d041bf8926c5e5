import YurtKernel.Dispatch.Reaping

/-! `waitpid` from libc through the host to the kernel.

    Three layers with three encodings: libc (`yurt_process.c`) passes the selector on and has its own
    errno numbers, the host (`host_wait` of `kernel_host_interface.rs`) asks the kernel again and
    again, runs staged children in between and splits a status into code and signal, and the kernel
    takes the selector 0 for any child. -/

namespace Yurt
open Kernel
variable {σ : Type} {k k' : Kernel σ} {caller : Pid} {p : Int} {fuel : Nat}
variable {s : Int} {c : Pid}

/-! ### The host -/

def hostWaitMaxDrainDepth : Nat := 256
def hostWaitMaxDrainIters : Nat := 100000

/-- What a blocking wait is surrounded by in a host with states `S`: running the staged children,
    which says whether it went well, and the number of waits it is nested in. -/
structure WaitDriver (S : Type) where
  drain : S → Bool × S
  depth : Nat

/-- `yurt_wait_result_v1`. -/
structure WaitResult where
  pid : Int
  exitCode : Int
  signal : Int
  deriving DecidableEq

def waitRequest (pid flags : Int) : Bytes := leBytes 4 (ofI32 pid) ++ leBytes 4 (ofI32 flags)

/-- The retry loop around the kernel's `wait`, which `ask` stands for. -/
def waitRounds {S : Type} (d : WaitDriver S) (ask : S → Reply × S) (nohang : Bool) : Nat → S → Reply × S
  | 0, s =>
    let (reply, s) := ask s
    if reply.rc ≠ -EAGAIN || nohang then (reply, s) else (.code (-EDEADLK), s)
  | fuel + 1, s =>
    let (reply, s) := ask s
    if reply.rc ≠ -EAGAIN || nohang then (reply, s)
    else if d.depth + 1 > hostWaitMaxDrainDepth then (.code (-EDEADLK), s)
    else
      match d.drain s with
      | (false, s) => (.code (- EIO), s)
      | (true, s) => waitRounds d ask nohang fuel s

/-- A status as code and signal: 128 and up to 63 more is death by signal. -/
def splitStatus (pid status : Int) : WaitResult :=
  let signal := if 128 ≤ status ∧ status < 192 then status - 128 else 0
  ⟨pid, if signal = 0 then status else 0, signal⟩

/-- What is left for the caller of `host_wait` when the loop is over, in a buffer of 16 bytes. -/
def decodeWait {S : Type} (r : Reply × S) : (Int × Option WaitResult) × S :=
  if r.1.rc < 0 then ((r.1.rc, none), r.2)
  else if r.1.rc ≠ 8 then ((-E2BIG, none), r.2)
  else
    let response := r.1.writes.flatMap Prod.snd
    ((16, some (splitStatus (i32At response 0) (i32At response 4))), r.2)

/-- `host_wait(pid, flags)`. -/
def hostWaitBy {S : Type} (d : WaitDriver S) (ask : Bytes → S → Reply × S) (pid flags : Int) (s : S) :
    (Int × Option WaitResult) × S :=
  decodeWait (waitRounds d (ask (waitRequest pid flags)) (flags % 2 = 1) hostWaitMaxDrainIters s)

/-- The loop of a caller, with nothing but the kernel for a state. -/
def Kernel.waitLoop (d : WaitDriver (Kernel σ)) (caller : Pid) (request : Bytes) (nohang : Bool) :
    Nat → Kernel σ → Reply × Kernel σ :=
  waitRounds d (fun k => k.waitResponse caller request 8) nohang

def Kernel.hostWait (d : WaitDriver (Kernel σ)) (k : Kernel σ) (caller : Pid) (pid flags : Int) :
    (Int × Option WaitResult) × Kernel σ :=
  hostWaitBy d (fun request k => k.waitResponse caller request 8) pid flags k

/-! ### libc -/

/-- Errno numbers of wasi-libc. -/
def wasiEAGAIN : Int := 6
def wasiECHILD : Int := 12
def wasiEINTR : Int := 27

def encodeWaitStatus (kernelExit signal : Int) : Int :=
  if kernelExit < 0 then 0 else if 0 < signal then signal % 128 else kernelExit % 256 * 256

/-- What a caller of `waitpid` sees; `errno` is 0 unless it fails. -/
structure Waitpid where
  ret : Int
  errno : Int
  status : Option Int
  deriving DecidableEq

def wnohangSet (options : Nat) : Bool := options.testBit 0

/-- What libc makes of the answer of `host_wait`. -/
def libcWait {S : Type} (r : (Int × Option WaitResult) × S) : Waitpid × S :=
  if r.1.1 = -wasiEAGAIN then (⟨0, 0, none⟩, r.2)
  else if r.1.1 = -wasiEINTR then (⟨-1, wasiEINTR, none⟩, r.2)
  else
    match r.1.2 with
    | none => (⟨-1, wasiECHILD, none⟩, r.2)
    | some w =>
      if r.1.1 ≠ 16 ∨ w.pid < 0 ∨ w.exitCode < 0 then (⟨-1, wasiECHILD, none⟩, r.2)
      else (⟨w.pid, 0, some (encodeWaitStatus w.exitCode w.signal)⟩, r.2)

/-- `waitpid(pid, &status, options)`. -/
def Kernel.waitpid (d : WaitDriver (Kernel σ)) (k : Kernel σ) (caller : Pid) (pid : Int) (options : Nat) :
    Waitpid × Kernel σ :=
  libcWait (k.hostWait d caller pid (if wnohangSet options then 1 else 0))

def wifexited (status : Int) : Prop := status % 128 = 0
def wexitstatus (status : Int) : Int := status / 256 % 256

/-! ### What `waitpid` should mean -/

namespace Kernel

/-- Children the caller has not reaped. -/
def unreaped (k : Kernel σ) (caller : Pid) : List Pid := (k.process caller).children

/-- A child that a selector asks for. -/
def Asked (k : Kernel σ) (caller : Pid) (p : Int) (c : Pid) : Prop :=
  c ∈ k.unreaped caller ∧ (p = -1 ∨ p = c)

def exited (k : Kernel σ) (c : Pid) : Bool := (k.process c).exitStatus.isSome

/-- The kernel in which the last question of the loop is asked. -/
def lastAsked (d : WaitDriver (Kernel σ)) (caller : Pid) (request : Bytes) (nohang : Bool) :
    Nat → Kernel σ → Kernel σ
  | 0, k => k
  | fuel + 1, k =>
    let (reply, k') := k.waitResponse caller request 8
    if reply.rc ≠ -EAGAIN || nohang || d.depth + 1 > hostWaitMaxDrainDepth then k
    else
      match d.drain k' with
      | (false, _) => k
      | (true, k') => Kernel.lastAsked d caller request nohang fuel k'

/-- The meaning of `waitpid` in kernel `k`, for a call that ends with `r` in kernel `k'` after asking
    for the last time in kernel `k₁`. -/
structure WaitpidMeans (k : Kernel σ) (caller : Pid) (p : Int) (options : Nat)
    (k₁ : Kernel σ) (r : Waitpid) (k' : Kernel σ) : Prop where
  any : p = -1 → (∃ c ∈ k.unreaped caller, k.exited c = true) →
    ∃ c ∈ k.unreaped caller, k.exited c = true ∧ r.ret = c
  one : ∀ c : Pid, p = c → c ∈ k.unreaped caller → k.exited c = true → r.ret = c
  none_yet : wnohangSet options = true →
    (r.ret = 0 ↔ (∃ c, k.Asked caller p c) ∧ ∀ c, k.Asked caller p c → k.exited c = false)
  childless : r.ret = -1 → r.errno = wasiECHILD →
    (∀ c, ¬ k₁.Asked caller p c) ∧ k'.unreaped caller = k₁.unreaped caller
  status : ∀ (c : Pid) s, r.ret = c → k₁.Asked caller p c → (k₁.process c).exitStatus = some s →
    ∃ st, r.status = some st ∧ wifexited st ∧ wexitstatus st = s % 256

/-- The whole composition means what it says. -/
def WaitpidLaw (d : WaitDriver (Kernel σ)) (k : Kernel σ) (caller : Pid) (p : Int) (options : Nat) : Prop :=
  k.WaitpidMeans caller p options
    (lastAsked d caller (waitRequest p (if wnohangSet options then 1 else 0))
      (wnohangSet options) hostWaitMaxDrainIters k)
    (k.waitpid d caller p options).1 (k.waitpid d caller p options).2

end Kernel

/-! ### When it does -/

/-- A status, as the 32-bit word it is, that comes through as an exit. -/
def ReportedWell (status : Int) : Prop :=
  0 ≤ toI32 (ofI32 status) ∧ ¬ (128 < toI32 (ofI32 status) ∧ toI32 (ofI32 status) < 192)

/-- Child `c` is found exited, with such a status, within `fuel` drains. -/
def WaitDriver.Settles (d : WaitDriver (Kernel σ)) (caller : Pid) (c : Pid) : Nat → Kernel σ → Prop
  | 0, k => ∃ s, (k.process c).exitStatus = some s ∧ ReportedWell s
  | fuel + 1, k =>
    match (k.process c).exitStatus with
    | some s => ReportedWell s
    | none =>
      match d.drain (k.waitResponse caller (waitRequest c 0) 8).2 with
      | (true, k') => d.Settles caller c fuel k'
      | (false, _) => False

/-- The selector is not -1 while there are children, and a child that is asked for has exited with a
    status that comes through, or does so in time while a blocking wait drains. -/
def Kernel.WaitpidFine (d : WaitDriver (Kernel σ)) (k : Kernel σ) (caller : Pid) (p : Int) (options : Nat) : Prop :=
  (p = -1 → k.unreaped caller = []) ∧ ∀ c : Pid, p = c → c ∈ k.unreaped caller →
      (k.exited c = true ∨ wnohangSet options = false ∧ d.depth < hostWaitMaxDrainDepth) ∧
        d.Settles caller c (if k.exited c then 0 else hostWaitMaxDrainIters) k

/-- Running staged children reaps no child of the caller. -/
def WaitDriver.Keeps (d : WaitDriver (Kernel σ)) (caller : Pid) : Prop :=
  ∀ k k' : Kernel σ, d.drain k = (true, k') → ∀ c ∈ k.unreaped caller, c ∈ k'.unreaped caller

/-! ### One question -/

theorem waitRequest_length (p flags : Int) : (waitRequest p flags).length = 8 := by
  rw [waitRequest, List.length_append, leBytes_length, leBytes_length]

theorem ofI32_lt (i : Int) : ofI32 i < 2 ^ 32 := by
  rw [ofI32]
  have hlt := Int.emod_lt_of_pos i (show (0 : Int) < 2 ^ 32 by decide)
  have hnn := Int.emod_nonneg i (show (2 ^ 32 : Int) ≠ 0 by decide)
  omega

theorem ofI32_natCast {n : Nat} (h : n < 2 ^ 32) : ofI32 n = n := by
  rw [ofI32]
  omega

theorem u32At_waitRequest (p flags : Int) : u32At (waitRequest p flags) 0 = ofI32 p :=
  u32At_leBytes_append (ofI32_lt p) _

theorem Kernel.Reads.unreaped (h : k.Reads k') (caller : Pid) : k'.unreaped caller = k.unreaped caller :=
  (h.calm).children caller

/-- A selector that is no child of the caller. -/
theorem Kernel.wait_absent (flags : Int) (hnz : ofI32 p ≠ 0) (habsent : ofI32 p ∉ k.unreaped caller) :
    (k.waitResponse caller (waitRequest p flags) 8).1 = .code (-ECHILD) ∧
      k.Reads (k.waitResponse caller (waitRequest p flags) 8).2 := by
  obtain ⟨hreply, hafter⟩ := k.waitResponse_eq caller
    (le_of_eq (waitRequest_length p flags).symm) (le_refl 8)
  have hnone : k.waitCandidates caller (ofI32 p) = [] := by
    rw [waitCandidates]
    simp only [if_neg hnz]
    exact if_neg (by simpa [unreaped] using habsent)
  rw [u32At_waitRequest, hnone] at hreply hafter
  exact ⟨hreply, hafter⟩

/-- A selector that is a child. -/
theorem Kernel.wait_present (flags : Int) (hnz : ofI32 p ≠ 0) (hchild : ofI32 p ∈ k.unreaped caller) :
    match (k.process (ofI32 p)).exitStatus with
    | some s => (k.waitResponse caller (waitRequest p flags) 8).1 =
        .data (leBytes 4 (ofI32 p) ++ leBytes 4 (ofI32 s))
    | none => (k.waitResponse caller (waitRequest p flags) 8).1 = .code (-EAGAIN) ∧
        k.Reads (k.waitResponse caller (waitRequest p flags) 8).2 := by
  obtain ⟨hreply, hafter⟩ := k.waitResponse_eq caller
    (le_of_eq (waitRequest_length p flags).symm) (le_refl 8)
  have hone : k.waitCandidates caller (ofI32 p) = [ofI32 p] := by
    rw [waitCandidates]
    simp only [if_neg hnz]
    exact if_pos (by simpa [unreaped] using hchild)
  have hfound : k.firstExited [ofI32 p] = (k.process (ofI32 p)).exitStatus.map (fun s => (ofI32 p, s)) := by
    rw [firstExited, List.findSome?_cons, exitStatus_of_get?]
    cases (k.process (ofI32 p)).exitStatus <;> rfl
  rw [u32At_waitRequest, hone, hfound] at hafter
  rw [u32At_waitRequest, hone, waitReply, hfound] at hreply
  cases hexit : (k.process (ofI32 p)).exitStatus with
  | none =>
    rw [hexit] at hreply hafter
    exact ⟨hreply, hafter⟩
  | some s =>
    rw [hexit] at hreply
    exact hreply

/-! ### The loop -/

section
variable (d : WaitDriver (Kernel σ)) {request : Bytes} {nohang : Bool}

/-- An answer that ends the loop. -/
theorem Kernel.waitLoop_done
    (hdone : ((k.waitResponse caller request 8).1.rc ≠ -EAGAIN || nohang) = true) (fuel : Nat) :
    waitLoop d caller request nohang fuel k = k.waitResponse caller request 8 ∧
      lastAsked d caller request nohang fuel k = k := by
  cases fuel with
  | zero =>
    rw [waitLoop, waitRounds, lastAsked]
    simp only [hdone, if_true]
    exact ⟨trivial, trivial⟩
  | succ fuel =>
    rw [waitLoop, waitRounds, lastAsked]
    simp only [hdone, if_true, Bool.true_or]
    exact ⟨trivial, trivial⟩

/-- The loop gives up. -/
theorem Kernel.waitLoop_stuck
    (hmore : ((k.waitResponse caller request 8).1.rc ≠ -EAGAIN || nohang) = false)
    (hstop : fuel = 0 ∨ hostWaitMaxDrainDepth ≤ d.depth) :
    waitLoop d caller request nohang fuel k = (.code (-EDEADLK), (k.waitResponse caller request 8).2) ∧
      lastAsked d caller request nohang fuel k = k := by
  cases fuel with
  | zero =>
    rw [waitLoop, waitRounds, lastAsked]
    simp only [hmore, Bool.false_eq_true, if_false]
    exact ⟨trivial, trivial⟩
  | succ fuel =>
    have hdeep : d.depth + 1 > hostWaitMaxDrainDepth :=
      Nat.lt_succ_of_le (hstop.resolve_left (Nat.succ_ne_zero fuel))
    rw [waitLoop, waitRounds, lastAsked]
    simp only [hmore, Bool.false_eq_true, if_false, if_pos hdeep, Bool.false_or, decide_eq_true hdeep,
      if_true]
    exact ⟨trivial, trivial⟩

/-- Another round. -/
theorem Kernel.waitLoop_more
    (hmore : ((k.waitResponse caller request 8).1.rc ≠ -EAGAIN || nohang) = false)
    (hdepth : d.depth < hostWaitMaxDrainDepth) (fuel : Nat) :
    (waitLoop d caller request nohang (fuel + 1) k =
      match d.drain (k.waitResponse caller request 8).2 with
      | (false, k') => (.code (- EIO), k')
      | (true, k') => waitLoop d caller request nohang fuel k') ∧
    lastAsked d caller request nohang (fuel + 1) k =
      match d.drain (k.waitResponse caller request 8).2 with
      | (false, _) => k
      | (true, k') => lastAsked d caller request nohang fuel k' := by
  have hshallow : ¬ d.depth + 1 > hostWaitMaxDrainDepth := by omega
  rw [waitLoop, waitRounds, lastAsked]
  simp only [hmore, Bool.false_eq_true, if_false, if_neg hshallow, Bool.false_or, decide_eq_false hshallow]
  obtain ⟨ok, k'⟩ := d.drain (k.waitResponse caller request 8).2
  cases ok
  · exact ⟨rfl, trivial⟩
  · exact ⟨rfl, trivial⟩

end

theorem Kernel.waitLoop_absent (d : WaitDriver (Kernel σ)) (flags : Int) (nohang : Bool) (hnz : ofI32 p ≠ 0)
    (habsent : ofI32 p ∉ k.unreaped caller) (fuel : Nat) :
    (waitLoop d caller (waitRequest p flags) nohang fuel k).1 = .code (-ECHILD) ∧
      k.Reads (waitLoop d caller (waitRequest p flags) nohang fuel k).2 ∧
      lastAsked d caller (waitRequest p flags) nohang fuel k = k := by
  obtain ⟨hreply, hreads⟩ := wait_absent flags hnz habsent
  have hdone : ((k.waitResponse caller (waitRequest p flags) 8).1.rc ≠ -EAGAIN || nohang) = true := by
    rw [hreply]
    rfl
  obtain ⟨hloop, hlast⟩ := waitLoop_done d hdone fuel
  rw [hloop]
  exact ⟨hreply, hreads, hlast⟩

/-- Codes of a wait that found the child and not its exit. -/
def unsettled : List Int := [-EAGAIN, -EDEADLK, - EIO]

theorem leBytes_pair_rc (a b : Nat) : (Reply.data (leBytes 4 a ++ leBytes 4 b)).rc = 8 := by
  rw [Reply.data, List.length_append, leBytes_length, leBytes_length]
  rfl

section
variable (d : WaitDriver (Kernel σ)) (flags : Int) (nohang : Bool) (hnz : ofI32 p ≠ 0)
include hnz

/-- A child that has exited, or a wait that does not, or no longer, wait for it. -/
theorem Kernel.waitLoop_settled (fuel : Nat) (hchild : ofI32 p ∈ k.unreaped caller)
    (hstop : (k.process (ofI32 p)).exitStatus = none →
      nohang = true ∨ fuel = 0 ∨ hostWaitMaxDrainDepth ≤ d.depth) :
    lastAsked d caller (waitRequest p flags) nohang fuel k = k ∧
    match (k.process (ofI32 p)).exitStatus with
    | some s => (waitLoop d caller (waitRequest p flags) nohang fuel k).1 =
        .data (leBytes 4 (ofI32 p) ++ leBytes 4 (ofI32 s))
    | none => ∃ rc ∈ unsettled, (waitLoop d caller (waitRequest p flags) nohang fuel k).1 = .code rc := by
  have hask := wait_present flags hnz hchild
  cases hexit : (k.process (ofI32 p)).exitStatus with
  | some s =>
    rw [hexit] at hask
    have hdone : ((k.waitResponse caller (waitRequest p flags) 8).1.rc ≠ -EAGAIN || nohang) = true := by
      rw [hask, leBytes_pair_rc]
      rfl
    obtain ⟨hloop, hlast⟩ := waitLoop_done d hdone fuel
    rw [hloop]
    exact ⟨hlast, hask⟩
  | none =>
    rw [hexit] at hask
    cases nohang with
    | true =>
      obtain ⟨hloop, hlast⟩ := waitLoop_done d (Bool.or_true _) fuel
      rw [hloop]
      exact ⟨hlast, -EAGAIN, by decide, hask.1⟩
    | false =>
      have hmore : ((k.waitResponse caller (waitRequest p flags) 8).1.rc ≠ -EAGAIN || false) = false := by
        rw [hask.1]
        rfl
      obtain ⟨hloop, hlast⟩ := waitLoop_stuck d hmore ((hstop hexit).resolve_left Bool.false_ne_true)
      rw [hloop]
      exact ⟨hlast, -EDEADLK, by decide, rfl⟩

/-- A child that runs, and a wait that goes round again. -/
theorem Kernel.waitLoop_round (hchild : ofI32 p ∈ k.unreaped caller)
    (hexit : (k.process (ofI32 p)).exitStatus = none) (hdepth : d.depth < hostWaitMaxDrainDepth)
    (fuel : Nat) :
    k.Reads (k.waitResponse caller (waitRequest p flags) 8).2 ∧
    (waitLoop d caller (waitRequest p flags) false (fuel + 1) k =
      match d.drain (k.waitResponse caller (waitRequest p flags) 8).2 with
      | (false, k') => (.code (- EIO), k')
      | (true, k') => waitLoop d caller (waitRequest p flags) false fuel k') ∧
    lastAsked d caller (waitRequest p flags) false (fuel + 1) k =
      match d.drain (k.waitResponse caller (waitRequest p flags) 8).2 with
      | (false, _) => k
      | (true, k') => lastAsked d caller (waitRequest p flags) false fuel k' := by
  have hask := wait_present flags hnz hchild
  rw [hexit] at hask
  obtain ⟨hreply, hreads⟩ := hask
  have hmore : ((k.waitResponse caller (waitRequest p flags) 8).1.rc ≠ -EAGAIN || false) = false := by
    rw [hreply]
    rfl
  exact ⟨hreads, waitLoop_more d hmore hdepth fuel⟩

/-- Where the loop ends with a child that is there: its status, or one of three codes. -/
theorem Kernel.waitLoop_present (hd : d.Keeps caller) :
    ∀ (fuel : Nat) (k : Kernel σ), ofI32 p ∈ k.unreaped caller →
    ofI32 p ∈ (lastAsked d caller (waitRequest p flags) nohang fuel k).unreaped caller ∧
    match ((lastAsked d caller (waitRequest p flags) nohang fuel k).process (ofI32 p)).exitStatus with
    | some s => (waitLoop d caller (waitRequest p flags) nohang fuel k).1 =
        .data (leBytes 4 (ofI32 p) ++ leBytes 4 (ofI32 s))
    | none => ∃ rc ∈ unsettled, (waitLoop d caller (waitRequest p flags) nohang fuel k).1 = .code rc := by
  intro fuel
  induction fuel with
  | zero =>
    intro k hchild
    obtain ⟨hlast, hloop⟩ := waitLoop_settled d flags nohang hnz 0 hchild (fun _ => .inr (.inl rfl))
    rw [hlast]
    exact ⟨hchild, hloop⟩
  | succ fuel ih =>
    intro k hchild
    by_cases hstop : (k.process (ofI32 p)).exitStatus = none → nohang = true ∨ hostWaitMaxDrainDepth ≤ d.depth
    · obtain ⟨hlast, hloop⟩ := waitLoop_settled d flags nohang hnz (fuel + 1) hchild
        (fun h => (hstop h).imp_right .inr)
      rw [hlast]
      exact ⟨hchild, hloop⟩
    · rw [Classical.not_imp, not_or, Bool.not_eq_true, not_le] at hstop
      obtain ⟨hexit, rfl, hdepth⟩ := hstop
      obtain ⟨hreads, hloop, hlast⟩ := waitLoop_round d flags hnz hchild hexit hdepth fuel
      rw [hloop, hlast]
      rcases hdrain : d.drain (k.waitResponse caller (waitRequest p flags) 8).2 with ⟨_ | _, k'⟩
      · dsimp only
        rw [hexit]
        exact ⟨hchild, - EIO, by decide, rfl⟩
      · exact ih k' (hd _ k' hdrain _ (by rw [hreads.unreaped]; exact hchild))

end

/-- Settling in time is what the loop finds. -/
theorem WaitDriver.settles_iff (d : WaitDriver (Kernel σ)) (hd : d.Keeps caller) (hc : ofI32 c = c)
    (hnz : c ≠ 0) (hdepth : d.depth < hostWaitMaxDrainDepth) :
    ∀ (fuel : Nat) (k : Kernel σ), c ∈ k.unreaped caller →
    (d.Settles caller c fuel k ↔ ∃ s, ((lastAsked d caller (waitRequest c 0) false fuel k).process
      c).exitStatus = some s ∧ ReportedWell s) := by
  have hnz' : ofI32 c ≠ 0 := by rwa [hc]
  intro fuel
  induction fuel with
  | zero => exact fun k _ => Iff.rfl
  | succ fuel ih =>
    intro k hchild
    have hchild' : ofI32 c ∈ k.unreaped caller := by rwa [hc]
    rw [WaitDriver.Settles]
    cases hexit : (k.process c).exitStatus with
    | some s =>
      obtain ⟨hlast, -⟩ := waitLoop_settled d 0 false hnz' (fuel + 1) hchild' (by simp [hc, hexit])
      rw [hlast, hexit]
      constructor
      · exact fun h => ⟨s, rfl, h⟩
      · rintro ⟨s', hs', hwell⟩
        rwa [Option.some.inj hs']
    | none =>
      obtain ⟨hreads, -, hlast⟩ := waitLoop_round d 0 hnz' hchild' (by rwa [hc]) hdepth fuel
      rw [hlast]
      rcases hdrain : d.drain (k.waitResponse caller (waitRequest c 0) 8).2 with ⟨_ | _, k'⟩
      · dsimp only
        rw [hexit]
        simp
      · exact ih k' (hd _ k' hdrain _ (by rw [hreads.unreaped]; exact hchild))

/-! ### What libc makes of it -/

theorem nohangFlag (b : Bool) : decide ((if b then (1 : Int) else 0) % 2 = 1) = b := by
  cases b <;> rfl

/-- The loop of a `waitpid`. -/
def Kernel.waitpidLoop (d : WaitDriver (Kernel σ)) (k : Kernel σ) (caller : Pid) (p : Int) (options : Nat) :
    Reply × Kernel σ :=
  waitLoop d caller (waitRequest p (if wnohangSet options then 1 else 0)) (wnohangSet options)
    hostWaitMaxDrainIters k

section
variable (d : WaitDriver (Kernel σ)) (options : Nat)

theorem Kernel.waitpid_eq : k.waitpid d caller p options =
    libcWait (decodeWait (k.waitpidLoop d caller p options)) := by
  rw [waitpid, hostWait, hostWaitBy, nohangFlag, waitpidLoop, waitLoop]

/-- A code of the kernel or of the host is reported as no child. -/
theorem Kernel.waitpid_code {rc : Int} (h : (k.waitpidLoop d caller p options).1 = .code rc)
    (hrc : rc ∈ -ECHILD :: unsettled) :
    k.waitpid d caller p options = (⟨-1, wasiECHILD, none⟩, (k.waitpidLoop d caller p options).2) := by
  have hcodes : ∀ rc ∈ -ECHILD :: unsettled, rc < 0 ∧ rc ≠ -wasiEAGAIN ∧ rc ≠ -wasiEINTR := by decide
  obtain ⟨hneg, hagain, hintr⟩ := hcodes rc hrc
  rw [waitpid_eq]
  generalize k.waitpidLoop d caller p options = r at h ⊢
  have hdecode : decodeWait r = ((rc, none), r.2) := by
    rw [decodeWait, h]
    exact if_pos hneg
  rw [hdecode, libcWait, if_neg hagain, if_neg hintr]

/-- A status of the kernel is split and put together again. -/
theorem Kernel.waitpid_data {w : Nat} (hw : w < 2 ^ 32)
    (h : (k.waitpidLoop d caller p options).1 = .data (leBytes 4 w ++ leBytes 4 (ofI32 s))) :
    (k.waitpid d caller p options).1 =
      let r := splitStatus (toI32 w) (toI32 (ofI32 s))
      if r.pid < 0 ∨ r.exitCode < 0 then ⟨-1, wasiECHILD, none⟩
      else ⟨r.pid, 0, some (encodeWaitStatus r.exitCode r.signal)⟩ := by
  have hpid : i32At (leBytes 4 w ++ leBytes 4 (ofI32 s)) 0 = toI32 w := by
    rw [i32At, u32At_leBytes_append hw]
  have hstatus : i32At (leBytes 4 w ++ leBytes 4 (ofI32 s)) 4 = toI32 (ofI32 s) := by
    have hword := u32At_leBytes_append (ofI32_lt s) []
    rw [List.append_nil] at hword
    rw [i32At, u32At, List.drop_left' (leBytes_length 4 w)]
    rw [u32At, List.drop_zero] at hword
    rw [hword]
  have hbytes : (Reply.data (leBytes 4 w ++ leBytes 4 (ofI32 s))).writes.flatMap Prod.snd =
      leBytes 4 w ++ leBytes 4 (ofI32 s) := List.append_nil _
  rw [waitpid_eq]
  generalize k.waitpidLoop d caller p options = r at h ⊢
  have hdecode : decodeWait r = ((16, some (splitStatus (toI32 w) (toI32 (ofI32 s)))), r.2) := by
    rw [decodeWait, h, leBytes_pair_rc, hbytes]
    dsimp only
    rw [hpid, hstatus]
    rfl
  rw [hdecode, libcWait]
  generalize splitStatus (toI32 w) (toI32 (ofI32 s)) = r
  by_cases hbad : r.pid < 0 ∨ r.exitCode < 0
  · simp [wasiEAGAIN, wasiEINTR, hbad]
  · simp [wasiEAGAIN, wasiEINTR, hbad]

end

theorem toI32_ofI32_emod (s : Int) : toI32 (ofI32 s) % 256 = s % 256 := by
  rw [toI32, ofI32]
  split_ifs <;> omega

/-- A status that comes through. -/
theorem splitStatus_well (pid : Int) (hs : ReportedWell s) :
    splitStatus pid (toI32 (ofI32 s)) = ⟨pid, toI32 (ofI32 s), 0⟩ ∧ 0 ≤ toI32 (ofI32 s) ∧
      wifexited (encodeWaitStatus (toI32 (ofI32 s)) 0) ∧
      wexitstatus (encodeWaitStatus (toI32 (ofI32 s)) 0) = s % 256 := by
  obtain ⟨hnn, hsignal⟩ := hs
  rw [← toI32_ofI32_emod s]
  generalize toI32 (ofI32 s) = x at hnn hsignal
  have hzero : (if 128 ≤ x ∧ x < 192 then x - 128 else 0) = 0 := by
    split_ifs <;> omega
  refine ⟨by simp only [splitStatus, hzero, if_true], hnn, ?_, ?_⟩
  · rw [encodeWaitStatus, if_neg (by omega), if_neg (by omega), wifexited]
    omega
  · rw [encodeWaitStatus, if_neg (by omega), if_neg (by omega), wexitstatus]
    omega

/-- A status that does not: it reads as an error, or as a signal. -/
theorem splitStatus_ill (pid : Int) (hs : ¬ ReportedWell s) :
    (splitStatus pid (toI32 (ofI32 s))).exitCode < 0 ∨
      ¬ wifexited (encodeWaitStatus (splitStatus pid (toI32 (ofI32 s))).exitCode
        (splitStatus pid (toI32 (ofI32 s))).signal) := by
  rw [ReportedWell, not_and, not_not] at hs
  generalize toI32 (ofI32 s) = x at hs
  by_cases hnn : 0 ≤ x
  · obtain ⟨hlow, hhigh⟩ := hs hnn
    have hsplit : splitStatus pid x = ⟨pid, 0, x - 128⟩ := by
      simp only [splitStatus, if_pos (show 128 ≤ x ∧ x < 192 by omega)]
      rw [if_neg (by omega)]
    right
    rw [hsplit]
    dsimp only
    rw [encodeWaitStatus, if_neg (by omega), if_pos (by omega), wifexited]
    omega
  · have hsplit : splitStatus pid x = ⟨pid, x, 0⟩ := by
      simp only [splitStatus, if_neg (show ¬ (128 ≤ x ∧ x < 192) by omega), if_true]
    left
    rw [hsplit]
    dsimp only
    omega

/-! ### The composition -/

section
variable (d : WaitDriver (Kernel σ)) (options : Nat)

namespace Kernel

/-- The kernel in which a `waitpid` asks for the last time. -/
def waitpidAsked (d : WaitDriver (Kernel σ)) (k : Kernel σ) (caller : Pid) (p : Int) (options : Nat) :
    Kernel σ :=
  lastAsked d caller (waitRequest p (if wnohangSet options then 1 else 0)) (wnohangSet options)
    hostWaitMaxDrainIters k

/-- No child of that number: the answer is `ECHILD`, and nothing is reaped. -/
theorem waitpid_absent (hnz : ofI32 p ≠ 0) (habsent : ofI32 p ∉ k.unreaped caller) :
    (k.waitpid d caller p options).1 = ⟨-1, wasiECHILD, none⟩ ∧
      (k.waitpid d caller p options).2.unreaped caller = k.unreaped caller ∧
      k.waitpidAsked d caller p options = k := by
  obtain ⟨hloop, hreads, hlast⟩ := waitLoop_absent d (if wnohangSet options then 1 else 0)
    (wnohangSet options) hnz habsent hostWaitMaxDrainIters
  have hcode := waitpid_code d (k := k) options hloop (List.mem_cons_self ..)
  rw [hcode]
  exact ⟨rfl, hreads.unreaped caller, hlast⟩

/-- A child of that number: what the answer says about its status. -/
theorem waitpid_present (hd : d.Keeps caller) (hnz : ofI32 p ≠ 0)
    (hchild : ofI32 p ∈ k.unreaped caller) :
    ofI32 p ∈ (k.waitpidAsked d caller p options).unreaped caller ∧
    match ((k.waitpidAsked d caller p options).process (ofI32 p)).exitStatus with
    | some s => (k.waitpid d caller p options).1 =
        let r := splitStatus (toI32 (ofI32 p)) (toI32 (ofI32 s))
        if r.pid < 0 ∨ r.exitCode < 0 then ⟨-1, wasiECHILD, none⟩
        else ⟨r.pid, 0, some (encodeWaitStatus r.exitCode r.signal)⟩
    | none => (k.waitpid d caller p options).1 = ⟨-1, wasiECHILD, none⟩ := by
  obtain ⟨hstill, hends⟩ := waitLoop_present d (if wnohangSet options then 1 else 0)
    (wnohangSet options) hnz hd hostWaitMaxDrainIters k hchild
  refine ⟨hstill, ?_⟩
  rw [waitpidAsked]
  cases hexit : ((lastAsked d caller (waitRequest p (if wnohangSet options then 1 else 0))
      (wnohangSet options) hostWaitMaxDrainIters k).process (ofI32 p)).exitStatus with
  | some s =>
    rw [hexit] at hends
    exact waitpid_data d options (ofI32_lt p) hends
  | none =>
    rw [hexit] at hends
    obtain ⟨rc, hrc, hloop⟩ := hends
    rw [waitpid_code d options hloop (List.mem_cons_of_mem _ hrc)]

/-- A selector of -1 asks the kernel for a child with the greatest number. -/
theorem waitpid_any (hd : d.Keeps caller) :
    (k.waitpid d caller (-1) options).1 = ⟨-1, wasiECHILD, none⟩ := by
  have hnz : ofI32 (-1) ≠ 0 := by decide
  by_cases hchild : ofI32 (-1) ∈ k.unreaped caller
  · obtain ⟨-, hends⟩ := waitpid_present d options hd hnz hchild
    cases hexit : ((k.waitpidAsked d caller (-1) options).process (ofI32 (-1))).exitStatus with
    | some s =>
      rw [hexit] at hends
      rw [hends]
      exact if_pos (.inl (by decide : toI32 (ofI32 (-1)) < 0))
    | none =>
      rw [hexit] at hends
      exact hends
  · exact (waitpid_absent d options hnz hchild).1

/-- A wait without hanging asks once, and a child that has exited ends it at once. -/
theorem waitpidAsked_eq (hnz : ofI32 p ≠ 0) (hchild : ofI32 p ∈ k.unreaped caller)
    (hstop : k.exited (ofI32 p) = true ∨ wnohangSet options = true ∨ hostWaitMaxDrainDepth ≤ d.depth) :
    k.waitpidAsked d caller p options = k := by
  refine (waitLoop_settled d _ _ hnz _ hchild (fun hexit => ?_)).1
  rw [exited, hexit] at hstop
  exact (hstop.resolve_left Bool.false_ne_true).imp_right .inr

/-- For a child that is there, to be found exited with a status that comes through is the condition. -/
theorem settled_iff (hd : d.Keeps caller) (hc : ofI32 c = c) (hnz : c ≠ 0)
    (hchild : c ∈ k.unreaped caller) :
    ((k.exited c = true ∨ wnohangSet options = false ∧ d.depth < hostWaitMaxDrainDepth) ∧
        d.Settles caller c (if k.exited c then 0 else hostWaitMaxDrainIters) k) ↔
      ∃ s, ((k.waitpidAsked d caller c options).process c).exitStatus = some s ∧ ReportedWell s := by
  have hchild' : ofI32 c ∈ k.unreaped caller := by rwa [hc]
  have hnz' : ofI32 c ≠ 0 := by rwa [hc]
  by_cases hexited : k.exited c = true
  · rw [waitpidAsked_eq d options hnz' hchild' (.inl (by rwa [hc])), if_pos hexited]
    exact ⟨And.right, And.intro (.inl hexited)⟩
  · by_cases hstop : wnohangSet options = true ∨ hostWaitMaxDrainDepth ≤ d.depth
    · rw [waitpidAsked_eq d options hnz' hchild' (.inr hstop)]
      constructor
      · rintro ⟨hexit | ⟨hhang, hdepth⟩, -⟩
        · exact absurd hexit hexited
        · rcases hstop with hnohang | hdeep
          · rw [hhang] at hnohang
            exact absurd hnohang Bool.false_ne_true
          · omega
      · rintro ⟨s, hs, -⟩
        rw [exited, hs] at hexited
        exact absurd rfl hexited
    · rw [not_or, Bool.not_eq_true, not_le] at hstop
      obtain ⟨hhang, hdepth⟩ := hstop
      rw [if_neg hexited, WaitDriver.settles_iff d hd hc hnz hdepth _ k hchild, waitpidAsked, hhang]
      exact ⟨And.right, And.intro (.inr ⟨rfl, hdepth⟩)⟩

end Kernel

end

/-! ### What the answers mean -/

section
variable {options : Nat} {k₁ : Kernel σ}

/-- Nobody to wait for. -/
theorem Kernel.waitpidMeans_nobody (hnobody : ∀ c, ¬ k.Asked caller p c)
    (hsame : k'.unreaped caller = k.unreaped caller) :
    k.WaitpidMeans caller p options k ⟨-1, wasiECHILD, none⟩ k' where
  any hp := fun ⟨c, hc, _⟩ => absurd ⟨hc, .inl hp⟩ (hnobody c)
  one c hp hc _ := absurd ⟨hc, .inr hp⟩ (hnobody c)
  none_yet _ := ⟨fun h => absurd h (by decide), fun ⟨⟨c, hc⟩, _⟩ => absurd hc (hnobody c)⟩
  childless _ _ := ⟨hnobody, hsame⟩
  status c _ _ hc _ := absurd hc (hnobody c)

/-- No child is the wrong answer while there is one. -/
theorem Kernel.not_waitpidMeans_childless (hc : k₁.Asked caller p c) :
    ¬ k.WaitpidMeans caller p options k₁ ⟨-1, wasiECHILD, none⟩ k' :=
  fun h => (h.childless rfl rfl).1 c hc

/-- The child that was asked for, with its status. -/
theorem Kernel.waitpidMeans_status {st : Int} (hnz : c ≠ 0) (hchild : c ∈ k.unreaped caller)
    (hexit : (k₁.process c).exitStatus = some s) (hst : wifexited st ∧ wexitstatus st = s % 256)
    (hnohang : wnohangSet options = true → k.exited c = true) :
    k.WaitpidMeans caller c options k₁ ⟨c, 0, some st⟩ k' where
  any hp := absurd hp (by omega)
  one _ hp _ _ := hp
  none_yet hopt := by
    constructor
    · intro h
      exact absurd (Int.natCast_eq_zero.mp h) hnz
    · rintro ⟨-, hnone⟩
      have hexited := hnohang hopt
      rw [hnone c ⟨hchild, .inr rfl⟩] at hexited
      exact absurd hexited Bool.false_ne_true
  childless hret := absurd hret (by dsimp only; omega)
  status c' s' hret _ hs' := by
    obtain rfl : c = c' := Int.natCast_inj.mp hret
    obtain rfl : s = s' := Option.mem_unique hexit hs'
    exact ⟨st, rfl, hst⟩

end

section
variable (d : WaitDriver (Kernel σ)) (options : Nat)

/-- With a child that is there, the call means what it says iff the status it ends with comes
    through. -/
theorem Kernel.waitpidLaw_present (hd : d.Keeps caller) (hlt : c < 2 ^ 31) (hnz : c ≠ 0)
    (hchild : c ∈ k.unreaped caller) :
    k.WaitpidLaw d caller c options ↔
      ∃ s, ((k.waitpidAsked d caller c options).process c).exitStatus = some s ∧ ReportedWell s := by
  have hc := ofI32_natCast (hlt.trans (by decide))
  have hc' : toI32 c = c := by
    rw [toI32, if_pos hlt]
  have hpresent := waitpid_present d options hd (p := c) (by rwa [hc])
    (by rwa [hc] : ofI32 c ∈ k.unreaped caller)
  rw [hc, hc'] at hpresent
  obtain ⟨hstill, hends⟩ := hpresent
  have hasked : (k.waitpidAsked d caller c options).Asked caller c c := ⟨hstill, .inr rfl⟩
  rw [WaitpidLaw]
  change WaitpidMeans k caller c options (k.waitpidAsked d caller c options) _ _ ↔ _
  cases hexit : ((k.waitpidAsked d caller c options).process c).exitStatus with
  | none =>
    rw [hexit] at hends
    rw [hends]
    exact ⟨fun h => absurd h (not_waitpidMeans_childless hasked), by rintro ⟨s, hs, -⟩; cases hs⟩
  | some s =>
    rw [hexit] at hends
    rw [hends]
    constructor
    · intro h
      refine ⟨s, rfl, ?_⟩
      by_contra hill
      -- the status reads as an error and the child is denied, or as a signal
      rcases splitStatus_ill c hill with hneg | hsignal
      · dsimp only at h
        rw [if_pos (.inr hneg)] at h
        exact not_waitpidMeans_childless hasked h
      · dsimp only at h
        split_ifs at h with hneg
        · exact not_waitpidMeans_childless hasked h
        · obtain ⟨st, hst, hexited, -⟩ := h.status c s rfl hasked hexit
          rw [← Option.some.inj hst] at hexited
          exact hsignal hexited
    · rintro ⟨s', hs', hwell⟩
      obtain rfl : s = s' := Option.some.inj hs'
      obtain ⟨hsplit, hnn, hst⟩ := splitStatus_well c hwell
      rw [hsplit]
      dsimp only
      rw [if_neg (by omega)]
      refine waitpidMeans_status hnz hchild hexit hst fun hnohang => ?_
      rw [waitpidAsked_eq d options (by rwa [hc]) (by rwa [hc]) (.inr (.inl hnohang))] at hexit
      rw [exited, hexit]
      rfl

/-- `waitpid` means what it says from libc down to the kernel exactly when the selector is not -1
    while there are children, and the child that is asked for is found exited with a status that is
    neither negative nor between 129 and 191. -/
theorem waitpid_lawful_iff (k : Kernel σ) (caller : Pid) (p : Int)
    (hp : p = -1 ∨ (0 < p ∧ p < 2 ^ 31)) (hd : d.Keeps caller) :
    k.WaitpidLaw d caller p options ↔ k.WaitpidFine d caller p options := by
  rcases hp with rfl | ⟨hpos, hlt⟩
  · have hnz : ofI32 (-1) ≠ 0 := by decide
    have hfine : k.WaitpidFine d caller (-1) options ↔ k.unreaped caller = [] :=
      ⟨fun h => h.1 rfl, fun h => ⟨fun _ => h, fun c hc => absurd hc (by omega)⟩⟩
    rw [hfine, WaitpidLaw, waitpid_any d options hd]
    change WaitpidMeans k caller (-1) options (k.waitpidAsked d caller (-1) options) _ _ ↔ _
    by_cases hchild : ofI32 (-1) ∈ k.unreaped caller
    · obtain ⟨hstill, -⟩ := waitpid_present d options hd hnz hchild
      constructor
      · exact fun h => absurd h (not_waitpidMeans_childless ⟨hstill, .inl rfl⟩)
      · intro hnil
        rw [hnil] at hchild
        cases hchild
    · obtain ⟨-, hsame, hasked⟩ := waitpid_absent d options hnz hchild
      rw [hasked]
      constructor
      · intro h
        refine List.eq_nil_iff_forall_not_mem.mpr fun c hc => ?_
        exact not_waitpidMeans_childless ⟨hc, .inl rfl⟩ h
      · intro hnil
        refine waitpidMeans_nobody (fun c hc => ?_) hsame
        rw [Asked, hnil] at hc
        cases hc.1
  · obtain ⟨c, rfl⟩ := Int.eq_ofNat_of_zero_le hpos.le
    have hnz : c ≠ 0 := by omega
    have hlt' : c < 2 ^ 31 := by omega
    have hc := ofI32_natCast (hlt'.trans (by decide))
    have hfine : k.WaitpidFine d caller c options ↔ (c ∈ k.unreaped caller →
        (k.exited c = true ∨ wnohangSet options = false ∧ d.depth < hostWaitMaxDrainDepth) ∧
          d.Settles caller c (if k.exited c then 0 else hostWaitMaxDrainIters) k) := by
      refine ⟨fun h => h.2 c rfl, fun h => ⟨fun hp => absurd hp (by omega), fun c' hc' => ?_⟩⟩
      rwa [← Int.natCast_inj.mp hc']
    rw [hfine]
    by_cases hchild : c ∈ k.unreaped caller
    · rw [waitpidLaw_present d options hd hlt' hnz hchild, ← settled_iff d options hd hc hnz hchild]
      exact ⟨fun h _ => h, fun h => h hchild⟩
    · obtain ⟨hans, hsame, hasked⟩ := waitpid_absent d options (p := c)
        (by rwa [hc]) (by rwa [hc] : ofI32 c ∉ k.unreaped caller)
      rw [WaitpidLaw, hans]
      change WaitpidMeans k caller c options (k.waitpidAsked d caller c options) _ _ ↔ _
      rw [hasked]
      refine ⟨fun _ h => absurd h hchild, fun _ => waitpidMeans_nobody (fun c' hc' => ?_) hsame⟩
      obtain ⟨hmem, hminus | hsame⟩ := hc'
      · omega
      · rw [← Int.natCast_inj.mp hsame] at hmem
        exact hchild hmem

end

/-- Process 1 has forked process 2. -/
def Kernel.forked : Kernel Unit := ((oneProcess.prepareFork 1).2.commitFork 1 2).2

/-- Process 2 has exited. -/
def Kernel.forkedExit (status : Int) : Kernel Unit := (forked.recordExitOf 2 status).2

/-- A host with nothing staged. -/
def WaitDriver.idle : WaitDriver (Kernel Unit) := ⟨fun k => (true, k), 0⟩

theorem WaitDriver.idle_keeps (caller : Pid) : WaitDriver.idle.Keeps caller := by
  intro k k' hdrain c hc
  rwa [← (Prod.mk.inj hdrain).2]

theorem waitpid_lawful_iff_exitThree :
    ((forkedExit 3).waitpid WaitDriver.idle 1 2 0).1 = ⟨2, 0, some (3 * 256)⟩ ∧
    (forkedExit 3).WaitpidLaw WaitDriver.idle 1 2 0 := by
  refine ⟨by decide, (waitpid_lawful_iff WaitDriver.idle 0 (forkedExit 3) 1 2 (by decide)
    (WaitDriver.idle_keeps 1)).mpr ⟨fun h => absurd h (by decide), fun c hc _ => ?_⟩⟩
  obtain rfl : c = 2 := (Int.natCast_inj.mp hc).symm
  exact ⟨.inl (by decide), 3, by decide, by decide, by decide⟩

/-- With an exited child of status 0, `waitpid(-1)` finds no child; with `WNOHANG` and a running one,
    neither does it; a child that exited with -1 is reaped and denied; one that exited with 130 is
    reported as killed by signal 2. -/
theorem waitpid_misreads : ((forkedExit 0).waitpid WaitDriver.idle 1 (-1) 0).1 = ⟨-1, wasiECHILD, none⟩ ∧
    (forked.waitpid WaitDriver.idle 1 2 1).1 = ⟨-1, wasiECHILD, none⟩ ∧
    ((forkedExit (-1)).waitpid WaitDriver.idle 1 2 0).1 = ⟨-1, wasiECHILD, none⟩ ∧
    ((forkedExit (-1)).waitpid WaitDriver.idle 1 2 0).2.unreaped 1 = [] ∧
    ((forkedExit 130).waitpid WaitDriver.idle 1 2 0).1 = ⟨2, 0, some 2⟩ ∧
    ¬ (forkedExit 0).WaitpidLaw WaitDriver.idle 1 (-1) 0 := by
  refine ⟨by decide, by decide, by decide, by decide, by decide, fun h => ?_⟩
  obtain ⟨c, hc, -, hret⟩ := h.any rfl ⟨2, by decide, by decide⟩
  have hanswer : ((forkedExit 0).waitpid WaitDriver.idle 1 (-1) 0).1.ret = -1 := by decide
  omega

end Yurt
