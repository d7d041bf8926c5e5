import YurtKernel.Dispatch.Process

/-! What a process without authority over another can do to its record.

    An outsider shares no uid and no session with the target and is not its parent. Signals and
    scheduler calls check the authority before they write; `getpgid`, `getsid` and `setpgid` have no
    check at all, and `setpriority` fetches the target's record, which puts a missing main thread
    back, before it refuses. `control_call_isolated_iff` says for each call when the target's record
    stays as it is. -/

namespace Yurt
open Kernel
variable {σ : Type} {k : Kernel σ} {c t : Pid} {tp : Process}
variable {p : Process} {handle : Option Int} {request : Bytes} {target : Pid} {off : Nat}

/-! ### Outsiders -/

/-- The records of two processes that share neither a uid nor a session, the first not being root. -/
structure Process.Foreign (cp tp : Process) (c t : Pid) : Prop where
  not_root : cp.credentials.euid ≠ 0
  uid_ne : cp.credentials.uid ∉ [tp.credentials.uid, tp.credentials.euid, tp.credentials.suid]
  euid_ne : cp.credentials.euid ∉ [tp.credentials.uid, tp.credentials.euid, tp.credentials.suid]
  session_ne : cp.session c ≠ tp.session t

/-- `c` has no authority over process `t`, whose record is `tp`. -/
structure Kernel.Outsider (k : Kernel σ) (c t : Pid) (tp : Process) : Prop where
  ne : t ≠ c
  record : k.processes.get? t = some tp
  foreign : (k.process c).Foreign tp c t
  not_child : t ∉ (k.process c).children ∧ tp.ppid ≠ c

theorem Process.Foreign.not_maySignal {cp : Process} (h : cp.Foreign tp c t) (sig : Nat) :
    ¬ cp.maySignal tp sig := by
  have huid := h.uid_ne
  have heuid := h.euid_ne
  simp only [List.mem_cons, List.not_mem_nil, or_false, not_or] at huid heuid
  rintro (h0 | h1 | h2 | h3 | h4 | ⟨-, hsid, heq⟩)
  · exact h.not_root h0
  · exact heuid.1 h1
  · exact heuid.2.2 h2
  · exact huid.1 h3
  · exact huid.2.2 h4
  · -- equal raw sessions, set in both records, are equal sessions
    refine h.session_ne ?_
    rw [Process.session, Process.session, if_neg hsid, if_neg (heq ▸ hsid), heq]

/-! ### Records that a step leaves alone -/

namespace Kernel.Outsider
variable (h : k.Outsider c t tp)
include h

/-- Writing the caller's record keeps an outsider one as long as its identity stays. -/
theorem setProcess (hcred : p.credentials = (k.process c).credentials)
    (hsid : p.sid = (k.process c).sid) (hchildren : p.children = (k.process c).children) :
    (k.setProcess c p).Outsider c t tp := by
  have hp : (k.setProcess c p).process c = p.ensureMainThread none := by simp [process]
  have hsession : p.session c = (k.process c).session c := by rw [Process.session, hsid]; rfl
  refine ⟨h.ne, by simp [h.ne, h.record], ?_, ?_⟩
  · rw [hp]
    exact ⟨by simpa [Process.ensureMainThread, hcred] using h.foreign.not_root,
      by simpa [Process.ensureMainThread, hcred] using h.foreign.uid_ne,
      by simpa [Process.ensureMainThread, hcred] using h.foreign.euid_ne,
      fun heq => h.foreign.session_ne (hsession ▸ heq)⟩
  · rw [hp]
    simpa [Process.ensureMainThread, hchildren] using h.not_child

theorem touch : (k.touch c).Outsider c t tp := h.setProcess rfl rfl rfl

/-! ### The authority checks -/

theorem maySignal (target : Pid) (sig : Nat) : (k.maySignal c target sig).2.Outsider c t tp ∧
    (target = t → (k.maySignal c target sig).1 = .error (-EPERM)) := by
  unfold Kernel.maySignal
  split
  · rename_i hself
    exact ⟨h, fun ht => absurd (hself.trans ht) (Ne.symm h.ne)⟩
  · simp only [process_touch]
    by_cases ht : target = t
    · subst ht
      rw [h.touch.record]
      simp only [if_neg (h.foreign.not_maySignal sig)]
      exact ⟨h.touch, fun _ => trivial⟩
    · refine ⟨?_, fun heq => absurd heq ht⟩
      split
      · exact h.touch
      · split_ifs <;> exact h.touch

theorem mayControlPid (target : Pid) : (k.mayControlPid c target).2.Outsider c t tp ∧
    (target = t → (k.mayControlPid c target).1 = .error (-EPERM)) := by
  unfold Kernel.mayControlPid
  split
  · rename_i hself
    exact ⟨h, fun ht => absurd (hself.trans ht) (Ne.symm h.ne)⟩
  · simp only [process_touch, if_neg h.foreign.not_root]
    by_cases ht : target = t
    · subst ht
      have heuid := h.foreign.euid_ne
      simp only [List.mem_cons, List.not_mem_nil, or_false, not_or] at heuid
      rw [h.touch.record]
      simp only [heuid.1, heuid.2.1, or_self, if_false]
      exact ⟨h.touch, fun _ => trivial⟩
    · refine ⟨?_, fun heq => absurd heq ht⟩
      split
      · exact h.touch
      · split_ifs <;> exact h.touch

/-- The prelude of the `sched_*` calls never lets an outsider through to `t`. -/
theorem schedTarget (pid : Pid) : (k.schedTarget c pid).2.Outsider c t tp ∧
    ∀ target, (k.schedTarget c pid).1 = .ok target → target ≠ t := by
  unfold Kernel.schedTarget
  simp only
  generalize (if pid = 0 then c else pid) = target
  obtain ⟨hout, hdeny⟩ := h.mayControlPid target
  split_ifs with habsent
  · exact ⟨h, fun _ hok => by cases hok⟩
  · generalize k.mayControlPid c target = r at hout hdeny ⊢
    obtain ⟨rc | u, k'⟩ := r
    · exact ⟨hout, fun _ hok => by cases hok⟩
    · refine ⟨hout, ?_⟩
      rintro _ hok rfl
      obtain rfl : target = _ := Except.ok.inj hok
      cases hdeny rfl

/-! ### Calls that check first -/

theorem killRequest (request : Bytes) : (k.killRequest c request).2.processes.get? t = some tp := by
  unfold Kernel.killRequest
  split
  · next target sig _ =>
    obtain ⟨hout, hdeny⟩ := h.maySignal target sig
    split_ifs with hsig
    · exact h.record
    · generalize k.maySignal c target sig = r at hout hdeny ⊢
      obtain ⟨rc | u, k'⟩ := r
      · exact hout.record
      · have hne : t ≠ target := fun heq => by cases hdeny heq.symm
        simp only [killPid]
        split_ifs
        · exact hout.record
        · exact hout.record
        · rw [get?_updProcess_ne hne]; exact hout.record
  · exact h.record

theorem sigqueue (request : Bytes) : (k.sigqueue c request).2.processes.get? t = some tp := by
  unfold Kernel.sigqueue
  simp only
  obtain ⟨hout, hdeny⟩ := h.maySignal (u32At request 0) (u32At request 4)
  generalize k.maySignal c (u32At request 0) (u32At request 4) = r at hout hdeny ⊢
  obtain ⟨rc | u, k'⟩ := r
  · simp only
    split_ifs
    · exact h.record
    · exact h.record
    · exact hout.record
  · have hne : t ≠ u32At request 0 := fun heq => by cases hdeny heq.symm
    simp only
    split_ifs
    · exact h.record
    · exact h.record
    · exact hout.record
    · rw [get?_touch_ne hne]; exact hout.record
    · rw [get?_updProcess_ne hne]; exact hout.record

omit h in
/-- An outsider's `killpg` keeps the target out of the list it signals. -/
theorem permitted (sig : Nat) : ∀ (members : List Pid) {k : Kernel σ},
    k.Outsider c t tp → (Kernel.permitted c sig members k).2.Outsider c t tp ∧
      t ∉ (Kernel.permitted c sig members k).1
  | [], _, h => ⟨h, List.not_mem_nil⟩
  | m :: ms, k, h => by
    obtain ⟨hout, hdeny⟩ := h.maySignal m sig
    rw [Kernel.permitted]
    generalize k.maySignal c m sig = r at hout hdeny ⊢
    obtain ⟨hrest, hnot⟩ := Outsider.permitted sig ms hout
    obtain ⟨rc | u, k'⟩ := r
    · exact ⟨hrest, hnot⟩
    · have hne : t ≠ m := fun heq => by cases hdeny heq.symm
      exact ⟨hrest, fun hmem => (List.mem_cons.mp hmem).elim hne hnot⟩

end Kernel.Outsider

theorem get?_foldl_raise (sig : Nat) (targets : List Pid) (k : Kernel σ) (h : t ∉ targets) :
    (targets.foldl (fun k m => k.updProcess m (Process.raise sig)) k).processes.get? t = k.processes.get? t :=
  List.foldlRecOn (motive := fun k' : Kernel σ => k'.processes.get? t = _) targets _ rfl
    (fun _ hk _ hm => (get?_updProcess_ne (ne_of_mem_of_not_mem hm h).symm _ _).trans hk)

namespace Kernel.Outsider
variable (h : k.Outsider c t tp)
include h

theorem killpgGroup (pgidArg : Pid) : (k.killpgGroup c pgidArg).2.Outsider c t tp := by
  unfold Kernel.killpgGroup
  split_ifs
  · exact h.setProcess rfl rfl rfl
  · exact h

theorem killpgRequest (request : Bytes) : (k.killpgRequest c request).2.processes.get? t = some tp := by
  unfold Kernel.killpgRequest
  split
  · next pgidArg sig _ =>
    have hgroup := h.killpgGroup pgidArg
    generalize k.killpgGroup c pgidArg = group at hgroup ⊢
    obtain ⟨pgid, k₁⟩ := group
    obtain ⟨hout, hnot⟩ := Outsider.permitted sig (k₁.processGroupMemberPids pgid) hgroup
    simp only at hout hnot ⊢
    generalize Kernel.permitted c sig (k₁.processGroupMemberPids pgid) k₁ = found at hout hnot ⊢
    obtain ⟨targets, k₂⟩ := found
    split_ifs
    · exact h.record
    · exact hgroup.record
    · exact hout.record
    · exact hout.record
    · rw [get?_foldl_raise sig _ _ hnot]; exact hout.record
  · exact h.record

theorem schedSetscheduler (request : Bytes) :
    (k.schedSetscheduler c request).2.processes.get? t = some tp := by
  unfold Kernel.schedSetscheduler
  split
  · next pid _ =>
    obtain ⟨hout, hpass⟩ := h.schedTarget pid
    split_ifs
    · exact h.record
    · generalize k.schedTarget c pid = r at hout hpass ⊢
      obtain ⟨rc | target, k'⟩ := r
      · exact hout.record
      · simp only
        split
        · exact hout.record
        · rw [get?_updProcess_ne (Ne.symm (hpass target rfl))]; exact hout.record
  · exact h.record

theorem schedSetparam (request : Bytes) : (k.schedSetparam c request).2.processes.get? t = some tp := by
  unfold Kernel.schedSetparam
  split
  · next pid _ =>
    obtain ⟨hout, hpass⟩ := h.schedTarget pid
    split_ifs
    · exact h.record
    · generalize k.schedTarget c pid = r at hout hpass ⊢
      obtain ⟨rc | target, k'⟩ := r
      · exact hout.record
      · have hne := Ne.symm (hpass target rfl)
        simp only
        split
        · rw [get?_touch_ne hne]; exact hout.record
        · rw [get?_updProcess_ne hne]; exact hout.record
  · exact h.record

end Kernel.Outsider

/-! ### Calls that write first -/

/-- `process_mut` has nothing to put right in the record. -/
def Process.MainThreadReady (p : Process) : Prop := p.threads.contains 1 = true ∧ 2 ≤ p.nextTid

instance (p : Process) : Decidable p.MainThreadReady := inferInstanceAs (Decidable (_ ∧ _))

theorem Process.MainThreadReady.ensureMainThread (h : p.MainThreadReady) (handle : Option Int) :
    p.ensureMainThread handle = p := by
  unfold Process.ensureMainThread
  rw [if_pos h.1, max_eq_left h.2]

/-- A record that went through `process_mut` and came out as it was needed nothing put right. -/
theorem Process.mainThreadReady_of_eq {q : Process} (heq : q = p)
    (hthreads : q.threads = (p.ensureMainThread handle).threads)
    (hnext : q.nextTid = (p.ensureMainThread handle).nextTid) : p.MainThreadReady := by
  subst heq
  refine ⟨?_, ?_⟩
  · rw [hthreads]
    unfold Process.ensureMainThread
    split_ifs with hc
    · exact hc
    · exact SortedMap.contains_iff.mpr ⟨_, SortedMap.get?_insert_self _ _ _⟩
  · rw [hnext]
    exact le_max_right _ _

theorem Process.ensureMainThread_eq_self_iff : p.ensureMainThread handle = p ↔ p.MainThreadReady :=
  ⟨fun heq => Process.mainThreadReady_of_eq heq rfl rfl, fun h => h.ensureMainThread handle⟩

theorem Kernel.get?_targetProcess_ne (h : t ≠ target) (k : Kernel σ) (c : Pid) :
    (k.targetProcess c target).2.processes.get? t = k.processes.get? t := by
  unfold targetProcess processExistingMut
  split_ifs
  · exact k.get?_touch_ne h
  · cases k.processes.get? target <;> simp [h]

theorem Kernel.Outsider.targetProcess (h : k.Outsider c t tp) : k.targetProcess c t =
      (some (tp.ensureMainThread none), k.setProcess t (tp.ensureMainThread none)) := by
  rw [Kernel.targetProcess, if_neg h.ne, processExistingMut, h.record]

/-- A request names the target `t` in its word at `off`; 0 would be the caller. -/
def Names (request : Bytes) (off : Nat) (t : Pid) : Prop := u32At request off = t ∧ t ≠ 0

instance (request : Bytes) (off : Nat) (t : Pid) : Decidable (Names request off t) :=
  inferInstanceAs (Decidable (_ ∧ _))

theorem Kernel.Outsider.target_ne (h : k.Outsider c t tp) (hn : ¬ Names request off t) :
    t ≠ (if u32At request off = 0 then c else u32At request off) := by
  split_ifs with h0
  · exact h.ne
  · exact fun heq => hn ⟨heq.symm, heq ▸ h0⟩

theorem Names.target_eq (hn : Names request off t) (c : Pid) :
    (if u32At request off = 0 then c else u32At request off) = t := by
  rw [if_neg (hn.1 ▸ hn.2), hn.1]

namespace Kernel.Outsider
variable (h : k.Outsider c t tp)
include h

theorem primedId (value : Pid → Process → Pid) (store : Process → Pid → Process) (request : Bytes) :
    (k.primedId value store c request).2.processes.get? t = some tp ↔
      (4 ≤ request.length → Names request 0 t →
        store (tp.ensureMainThread none) (value t (tp.ensureMainThread none)) = tp) := by
  unfold Kernel.primedId
  rw [readU32Args_one]
  by_cases hlen : request.length < 4
  · simp [hlen, h.record]
  · simp only [if_neg hlen, Nat.not_lt.mp hlen, forall_const]
    by_cases hn : Names request 0 t
    · rw [hn.target_eq, h.targetProcess]
      simp [hn]
    · have hne := h.target_ne hn
      have hsame := k.get?_targetProcess_ne hne c
      generalize (if u32At request 0 = 0 then c else u32At request 0) = target at hne hsame ⊢
      simp only [hn, false_implies, iff_true]
      generalize k.targetProcess c target = found at hsame ⊢
      rcases found with ⟨_ | p, k'⟩
      · exact hsame.trans h.record
      · simpa [hne] using hsame.trans h.record

omit h in
/-- A word that is filled in where it is 0 stays as it is only if it was set. -/
theorem ne_zero_of_filled {x : Pid} (ht : t ≠ 0) (heq : (if x = 0 then t else x) = x) : x ≠ 0 := by
  rintro rfl
  exact ht heq

theorem getpgid (request : Bytes) : (k.getpgid c request).2.processes.get? t = some tp ↔
      (4 ≤ request.length → Names request 0 t → tp.MainThreadReady ∧ tp.pgid ≠ 0) := by
  unfold Kernel.getpgid
  rw [h.primedId]
  refine imp_congr_right (fun _ => forall_congr' fun hn => ?_)
  constructor
  · intro heq
    exact ⟨Process.mainThreadReady_of_eq heq rfl rfl, ne_zero_of_filled hn.2 (congrArg Process.pgid heq)⟩
  · rintro ⟨hready, hpgid⟩
    rw [hready.ensureMainThread, Process.group, if_neg hpgid]

theorem getsid (request : Bytes) : (k.getsid c request).2.processes.get? t = some tp ↔
      (4 ≤ request.length → Names request 0 t → tp.MainThreadReady ∧ tp.sid ≠ 0) := by
  unfold Kernel.getsid
  rw [h.primedId]
  refine imp_congr_right (fun _ => forall_congr' fun hn => ?_)
  constructor
  · intro heq
    exact ⟨Process.mainThreadReady_of_eq heq rfl rfl, ne_zero_of_filled hn.2 (congrArg Process.sid heq)⟩
  · rintro ⟨hready, hsid⟩
    rw [hready.ensureMainThread, Process.session, if_neg hsid]

theorem setpriority (request : Bytes) : (k.setpriority c request).2.processes.get? t = some tp ↔
      (12 ≤ request.length → u32At request 0 = 0 → Names request 4 t → tp.MainThreadReady) := by
  unfold Kernel.setpriority
  rw [readU32Args_two]
  by_cases hlen : request.length < 12
  · have hshort : ¬ 12 ≤ request.length := Nat.not_le.mpr hlen
    by_cases hlen8 : request.length < 8 <;> simp [hlen8, hlen, hshort, h.record]
  · have hlen8 : ¬ request.length < 8 := by omega
    simp only [if_neg hlen8, if_neg hlen, Nat.not_lt.mp hlen, forall_const]
    by_cases hwhich : u32At request 0 = 0
    · simp only [hwhich, ne_eq, not_true_eq_false, if_false, forall_const, process_touch]
      by_cases hn : Names request 4 t
      · -- the record is fetched, then the request is refused
        have heuid := h.foreign.euid_ne
        simp only [List.mem_cons, List.not_mem_nil, or_false, not_or] at heuid
        rw [hn.target_eq, h.touch.targetProcess]
        simp only
        rw [if_pos ⟨h.ne, h.foreign.not_root, heuid.1, heuid.2.1⟩]
        simp [hn, Process.ensureMainThread_eq_self_iff]
      · have hne := h.target_ne hn
        have hsame := (k.touch c).get?_targetProcess_ne hne c
        generalize (if u32At request 4 = 0 then c else u32At request 4) = target at hne hsame ⊢
        simp only [hn, false_implies, iff_true]
        generalize (k.touch c).targetProcess c target = found at hsame ⊢
        rcases found with ⟨_ | p, k'⟩
        · exact hsame.trans h.touch.record
        · simp only
          split_ifs
          · exact hsame.trans h.touch.record
          · exact hsame.trans h.touch.record
          · simpa [hne] using hsame.trans h.touch.record
    · simp [hwhich, h.record]

end Kernel.Outsider

/-- Group a `setpgid` request asks for. -/
def requestedGroup (request : Bytes) (t : Pid) : Pid :=
  if u32At request 4 = 0 then t else u32At request 4

theorem Kernel.get?_setpgidTarget_ne (h : t ≠ target) (k : Kernel σ) (c : Pid) :
    (k.setpgidTarget c target).2.processes.get? t = k.processes.get? t := by
  unfold setpgidTarget
  split_ifs
  · exact k.get?_touch_ne h
  · rfl

theorem Kernel.Outsider.setpgid (h : k.Outsider c t tp) (request : Bytes) :
    (k.setpgid c request).2.processes.get? t = some tp ↔
      (8 ≤ request.length → Names request 0 t → tp.sid = t ∨ (requestedGroup request t ≠ t ∧
          k.processGroupSession (requestedGroup request t) ≠ some (tp.session t)) ∨
        (tp.MainThreadReady ∧ tp.pgid = requestedGroup request t)) := by
  unfold Kernel.setpgid
  rw [readU32Args_two]
  by_cases hlen : request.length < 8
  · simp [hlen, h.record]
  · simp only [if_neg hlen, Nat.not_lt.mp hlen, forall_const]
    by_cases hn : Names request 0 t
    · have hlook : k.setpgidTarget c t = (some tp, k) := by
        rw [setpgidTarget, if_neg h.ne, h.record]
      rw [hn.target_eq, hlook]
      simp only [hn, forall_const, h.targetProcess]
      rw [← requestedGroup]
      split_ifs with hleader hgroup
      · simp [h.record, hleader]
      · simp [h.record, hgroup]
      · rw [get?_setProcess, if_pos rfl, Option.some.injEq]
        constructor
        · intro heq
          have hpgid : requestedGroup request t = tp.pgid := congrArg Process.pgid heq
          exact .inr (.inr ⟨Process.mainThreadReady_of_eq heq rfl rfl, hpgid.symm⟩)
        · rintro (hl | hg | ⟨hready, hpgid⟩)
          · exact absurd hl hleader
          · exact absurd hg hgroup
          · rw [hready.ensureMainThread, ← hpgid]
    · have hne := h.target_ne hn
      have hsame := k.get?_setpgidTarget_ne hne c
      generalize (if u32At request 0 = 0 then c else u32At request 0) = target at hne hsame ⊢
      simp only [hn, false_implies, iff_true]
      generalize k.setpgidTarget c target = looked at hsame ⊢
      rcases looked with ⟨_ | p, k'⟩
      · exact hsame.trans h.record
      · have hsame' := k'.get?_targetProcess_ne hne c
        simp only
        generalize (if u32At request 4 = 0 then target else u32At request 4) = newPgid
        generalize k'.targetProcess c target = found at hsame' ⊢
        rcases found with ⟨_ | q, k''⟩
        · split_ifs
          · exact hsame.trans h.record
          · exact hsame.trans h.record
          · exact (hsame'.trans hsame).trans h.record
        · split_ifs
          · exact hsame.trans h.record
          · exact hsame.trans h.record
          · simpa [hne] using (hsame'.trans hsame).trans h.record

/-! ### The isolation theorem -/

/-- The call finds nothing to write in the target's record: it checks its authority first, or it is
    not about `t`, or the record already has what the call would put there. -/
def ControlCall.Harmless (k : Kernel σ) (t : Pid) (tp : Process) (request : Bytes) : ControlCall → Prop
  | setpriority =>
    12 ≤ request.length → u32At request 0 = 0 → Names request 4 t → tp.MainThreadReady
  | getpgid => 4 ≤ request.length → Names request 0 t → tp.MainThreadReady ∧ tp.pgid ≠ 0
  | getsid => 4 ≤ request.length → Names request 0 t → tp.MainThreadReady ∧ tp.sid ≠ 0
  | setpgid => 8 ≤ request.length → Names request 0 t → tp.sid = t ∨
      (requestedGroup request t ≠ t ∧
        k.processGroupSession (requestedGroup request t) ≠ some (tp.session t)) ∨
      (tp.MainThreadReady ∧ tp.pgid = requestedGroup request t)
  | _ => True

/-- A call by an outsider leaves every field of the target's record alone exactly when it is
    harmless. -/
theorem control_call_isolated_iff (k : Kernel σ) (c t : Pid) (tp : Process)
    (h : k.Outsider c t tp) (call : ControlCall) (request : Bytes) :
    (call.run k c request).2.processes.get? t = some tp ↔ call.Harmless k t tp request := by
  cases call with
  | kill => exact iff_of_true (h.killRequest request) trivial
  | killpg => exact iff_of_true (h.killpgRequest request) trivial
  | sigqueue => exact iff_of_true (h.sigqueue request) trivial
  | schedSetscheduler => exact iff_of_true (h.schedSetscheduler request) trivial
  | schedSetparam => exact iff_of_true (h.schedSetparam request) trivial
  | setpriority => exact h.setpriority request
  | setpgid => exact h.setpgid request
  | getpgid => exact h.getpgid request
  | getsid => exact h.getsid request

/-- Two processes of different users, each in its own session; the second is in group 7. -/
def Kernel.twoUsers : Kernel Unit :=
  (((Kernel.new ()).insertHostProcess 1 0 [] none).insertHostProcess 2 0 [] none).updProcess 2
    (fun p => { p with credentials := ⟨2000, 2000, 2000, 2000, 2000, 2000⟩, pgid := 7 })

theorem twoUsers_outsider : twoUsers.Outsider 1 2 (twoUsers.process 2) where
  ne := by decide
  record := by decide
  foreign := ⟨by decide, by decide, by decide, by decide⟩
  not_child := by decide

/-- `kill(2, 9)` by the stranger 1 leaves record 2 alone. -/
theorem control_call_isolated_kill : twoUsers.Outsider 1 2 (twoUsers.process 2) ∧
    (ControlCall.kill.run twoUsers 1 (leBytes 4 2 ++ leBytes 4 9)).2.processes.get? 2 =
      some (twoUsers.process 2) :=
  ⟨twoUsers_outsider, (control_call_isolated_iff _ 1 2 _ twoUsers_outsider .kill _).mpr trivial⟩

/-- The stranger 1 moves process 2 out of its group, and primes its session by asking for it. -/
theorem outsider_moves_group : twoUsers.Outsider 1 2 (twoUsers.process 2) ∧ (twoUsers.process 2).pgid = 7 ∧
    ((ControlCall.setpgid.run twoUsers 1 (leBytes 4 2 ++ leBytes 4 0)).2.process 2).pgid = 2 ∧
    (twoUsers.process 2).sid = 0 ∧
    ((ControlCall.getsid.run twoUsers 1 (leBytes 4 2)).2.process 2).sid = 2 :=
  ⟨twoUsers_outsider, by decide, by decide, by decide, by decide⟩

end Yurt
