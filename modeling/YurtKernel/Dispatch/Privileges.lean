import YurtKernel.Dispatch.Spawned

/-! User ids and resource limits of a process and its descendants (`dispatch/process.rs`).

    `setresuid`, `setresgid` and `setrlimit` write the caller's own record, a fork and a spawn copy
    the parent's. So a process without an effective uid of 0 and all processes that come from it
    stay within the ids and the hard limits it had. -/

namespace Yurt
open Kernel
variable {σ : Type} (kh : Kh σ) (k : Kernel σ) (caller : Pid) (request : Bytes)

/-! ### Setting ids -/

def requestedIdAllowed (requested : Nat) (allowed : List Nat) : Bool :=
  requested = idNoChange || allowed.contains requested

/-- The id after a request; `ID_NO_CHANGE` keeps the old one. -/
def requestedId (requested old : Nat) : Nat := if requested ≠ idNoChange then requested else old

/-- The body of `setresuid` and `setresgid`: `ids` are the three ids a caller that is not root may
    choose from, `store` writes the requested ones. -/
def Kernel.setIds (ids : Credentials → List Nat) (store : Nat → Nat → Nat → Credentials → Credentials)
    (k : Kernel σ) (caller : Pid) (request : Bytes) : Int × Kernel σ :=
  match readU32Args 3 request with
  | some [real, effective, saved] =>
    let current := (k.process caller).credentials
    if current.euid ≠ 0 ∧
        ¬ [real, effective, saved].all (fun id => requestedIdAllowed id (ids current)) then
      (-EPERM, k.touch caller)
    else
      (0, k.updProcess caller (fun p =>
        { p with credentials := store real effective saved p.credentials }))
  | _ => (-EINVAL, k)

def Credentials.uids (c : Credentials) : List Nat := [c.uid, c.euid, c.suid]

def Credentials.gids (c : Credentials) : List Nat := [c.gid, c.egid, c.sgid]

def Kernel.setresuid : Int × Kernel σ :=
  k.setIds Credentials.uids (fun ruid euid suid c =>
    { c with
      uid := requestedId ruid c.uid
      euid := requestedId euid c.euid
      suid := requestedId suid c.suid }) caller request

def Kernel.setresgid : Int × Kernel σ :=
  k.setIds Credentials.gids (fun rgid egid sgid c =>
    { c with
      gid := requestedId rgid c.gid
      egid := requestedId egid c.egid
      sgid := requestedId sgid c.sgid }) caller request

/-! ### Staying within a process's rights -/

/-- A limit handed down from `first`: none if `first` has none, else with a hard limit that is not
    higher, and with a soft limit below the hard one if `first` is so. -/
def LimitWithin (first l : Option ResourceLimit) : Prop :=
  match first, l with
  | some first, some l => l.2 ≤ first.2 ∧ (first.1 ≤ first.2 → l.1 ≤ l.2)
  | none, none => True
  | _, _ => False

theorem LimitWithin.lowered {first : Option ResourceLimit} {prev : ResourceLimit} {soft hard : Nat}
    (h : LimitWithin first (some prev)) (hsoft : soft ≤ hard) (hhard : hard ≤ prev.2) :
    LimitWithin first (some (soft, hard)) := by
  cases first with
  | none => exact h.elim
  | some first => exact ⟨hhard.trans h.1, fun _ => hsoft⟩

namespace Process

/-- The ids are among those of `first`, and the limits within its limits. -/
structure Within (first p : Process) : Prop where
  uids : p.credentials.uids ⊆ first.credentials.uids
  gids : p.credentials.gids ⊆ first.credentials.gids
  limits : ∀ resource, LimitWithin (first.rlimits resource) (p.rlimits resource)

/-- The fields that `Process.Within` is about. -/
def rights (p : Process) : Credentials × (Fin 8 → Option ResourceLimit) :=
  (p.credentials, p.rlimits)

theorem rights_ensureMainThread (p : Process) : (p.ensureMainThread none).rights = p.rights := rfl

theorem Within.refl (p : Process) : p.Within p where
  uids := List.Subset.refl _
  gids := List.Subset.refl _
  limits resource := by
    unfold LimitWithin
    cases p.rlimits resource with
    | none => trivial
    | some l => exact ⟨le_rfl, id⟩

theorem Within.of_rights {first p p' : Process} (h : first.Within p)
    (hrights : p'.rights = p.rights) : first.Within p' := by
  obtain ⟨hcreds, hlimits⟩ := Prod.mk.inj hrights
  exact ⟨hcreds ▸ h.uids, hcreds ▸ h.gids, hlimits ▸ h.limits⟩

/-- A process within the rights of one that has no uid 0 is not root. -/
theorem Within.euid_ne_zero {first p : Process} (h : first.Within p)
    (hfirst : 0 ∉ first.credentials.uids) : p.credentials.euid ≠ 0 := by
  intro heuid
  refine hfirst (h.uids ?_)
  rw [← heuid, Credentials.uids]
  simp

end Process

/-! ### The calls of one process -/

theorem requestedId_mem {requested old : Nat} {ids : List Nat} (hold : old ∈ ids)
    (h : requestedIdAllowed requested ids = true) : requestedId requested old ∈ ids := by
  unfold requestedId
  split_ifs with hchange
  · simpa [requestedIdAllowed, hchange] using h
  · exact hold

/-- What a caller that is not root stores is chosen from the three ids. -/
theorem requestedIds_subset {real effective saved a b c : Nat}
    (h : [real, effective, saved].all (fun id => requestedIdAllowed id [a, b, c]) = true) :
    [requestedId real a, requestedId effective b, requestedId saved c] ⊆ [a, b, c] := by
  simp only [List.all_cons, List.all_nil, Bool.and_true, Bool.and_eq_true] at h
  obtain ⟨hreal, heffective, hsaved⟩ := h
  intro id hid
  simp only [List.mem_cons, List.not_mem_nil, or_false] at hid
  obtain rfl | rfl | rfl := hid
  · exact requestedId_mem (by simp) hreal
  · exact requestedId_mem (by simp) heffective
  · exact requestedId_mem (by simp) hsaved

namespace Kernel

/-- `k'` differs from `k` in the rights of `caller` at most, and these stay within what they were. -/
structure Lowers (k : Kernel σ) (caller : Pid) (k' : Kernel σ) : Prop where
  others : ∀ q, q ≠ caller → k'.processes.get? q = k.processes.get? q
  kept : k.processes.get? caller ≠ none → k'.processes.get? caller ≠ none
  own : ∀ first : Process, 0 ∉ first.credentials.uids → first.Within (k.process caller) →
    first.Within (k'.process caller)

theorem Lowers.refl : k.Lowers caller k := ⟨fun _ _ => rfl, id, fun _ _ h => h⟩

theorem lowers_updProcess {f : Process → Process}
    (hf : ∀ first : Process, 0 ∉ first.credentials.uids → first.Within (k.process caller) →
      first.Within (f (k.process caller))) : k.Lowers caller (k.updProcess caller f) where
  others q hq := k.get?_updProcess_ne hq f
  kept _ := by simp [updProcess]
  own first hfirst h := by
    rw [process_updProcess]
    exact (hf first hfirst h).of_rights (Process.rights_ensureMainThread _)

theorem lowers_touch : k.Lowers caller (k.touch caller) := k.lowers_updProcess caller (fun _ _ h => h)

/-- Both calls that set ids: the stored credentials are within any rights the old ones are in. -/
theorem lowers_setIds {ids : Credentials → List Nat}
    {store : Nat → Nat → Nat → Credentials → Credentials} (k : Kernel σ) (caller : Pid)
    (request : Bytes)
    (hstore : ∀ (first p : Process) (r e s : Nat), first.Within p →
      [r, e, s].all (fun id => requestedIdAllowed id (ids p.credentials)) = true →
      first.Within { p with credentials := store r e s p.credentials }) :
    k.Lowers caller (k.setIds ids store caller request).2 := by
  unfold setIds
  split
  · next real effective saved _ =>
    simp only
    by_cases hdenied : (k.process caller).credentials.euid ≠ 0 ∧ ¬ [real, effective, saved].all
          (fun id => requestedIdAllowed id (ids (k.process caller).credentials)) = true
    · rw [if_pos hdenied]
      exact k.lowers_touch caller
    · rw [if_neg hdenied]
      dsimp only
      apply lowers_updProcess
      intro first hfirst h
      refine hstore first (k.process caller) real effective saved h ?_
      by_contra hnot
      exact hdenied ⟨h.euid_ne_zero hfirst, hnot⟩
  · exact .refl k caller

theorem lowers_setresuid : k.Lowers caller (k.setresuid caller request).2 :=
  k.lowers_setIds caller request (fun _ _ _ _ _ h hall =>
    ⟨List.Subset.trans (requestedIds_subset hall) h.uids, h.gids, h.limits⟩)

theorem lowers_setresgid : k.Lowers caller (k.setresgid caller request).2 :=
  k.lowers_setIds caller request (fun _ _ _ _ _ h hall =>
    ⟨h.uids, List.Subset.trans (requestedIds_subset hall) h.gids, h.limits⟩)

theorem lowers_setrlimit : k.Lowers caller (k.setrlimit caller request).2 := by
  unfold Kernel.setrlimit
  refine ite_keeps (.refl k caller) ?_
  simp only
  split
  · next hslot =>
    split_ifs with hsoft
    · exact .refl k caller
    · cases hlimit : (k.process caller).rlimits ⟨u32At request 0, hslot⟩ with
      | none => exact k.lowers_touch caller
      | some l =>
        obtain ⟨prevSoft, prevHard⟩ := l
        simp only
        split_ifs with hhard
        · exact k.lowers_touch caller
        · dsimp only
          apply lowers_updProcess
          intro first _ h
          refine ⟨h.uids, h.gids, fun resource => ?_⟩
          have hbefore := h.limits resource
          by_cases hresource : resource = ⟨u32At request 0, hslot⟩
          · -- the limit that is written: soft ≤ hard ≤ the hard limit before
            subst hresource
            rw [hlimit] at hbefore
            simp only [Function.update_self]
            exact hbefore.lowered (not_lt.mp hsoft) (not_lt.mp hhard)
          · simp only [Function.update_of_ne hresource]
            exact hbefore
  · exact .refl k caller

/-! ### Children -/

/-- No record is gone, and the rights of each are as they were. -/
def RightsKept (k k' : Kernel σ) : Prop := ∀ q, k.processes.get? q ≠ none →
    k'.processes.get? q ≠ none ∧ (k'.process q).rights = (k.process q).rights

/-- `child` is a new record with the rights of `caller`; all other rights are as they were. -/
structure Inherits (k : Kernel σ) (caller child : Pid) (k' : Kernel σ) : Prop where
  kept : k.RightsKept k'
  made : k'.processes.get? child ≠ none
  rights : k.processes.get? caller ≠ none → (k'.process child).rights = (k.process caller).rights

theorem Reads.rightsKept {k k' : Kernel σ} (h : k.Reads k') : k.RightsKept k' :=
  fun q hq => ⟨h.kept q hq, Process.view_of_core (fun _ => rfl) (h.same q)⟩

theorem inherits_prepareFork :
    (∃ child k', k.prepareFork caller = (.ok child, k') ∧ k.Inherits caller child k') ∨
    ∃ errno k', k.prepareFork caller = (.error errno, k') ∧ k.RightsKept k' := by
  obtain ⟨parent, child, k', hparent, -, hfree, heq, hget⟩ | ⟨errno, k', heq, hprocs⟩ :=
    k.prepareFork_records caller
  · refine .inl ⟨child, k', heq, fun q hq => ?_, ?_, fun _ => ?_⟩
    · have hne : q ≠ child := fun heq => hq (heq ▸ hfree)
      rw [process, process, hget, if_neg hne]
      exact ⟨hq, rfl⟩
    · rw [hget, if_pos rfl]
      exact Option.some_ne_none _
    · rw [process, process, hget, if_pos rfl, hparent]
      rfl
  · exact .inr ⟨errno, k', heq, (Reads.of_processes hprocs).rightsKept⟩

theorem rightsKept_commitFork (caller child : Pid) : k.RightsKept (k.commitFork caller child).2 := by
  obtain ⟨c, hchild, -, -, hget⟩ | ⟨errno, heq⟩ := k.commitFork_records caller child
  · intro q hq
    rw [process, process, hget]
    by_cases hqc : q = child
    · rw [if_pos hqc, hqc, hchild, Option.map_some]
      refine ⟨Option.some_ne_none _, ?_⟩
      simp only [Option.getD_some]
      split_ifs <;> rfl
    · rw [if_neg hqc]
      obtain ⟨p, hp⟩ := Option.ne_none_iff_exists'.mp hq
      rw [hp, Option.map_some]
      refine ⟨Option.some_ne_none _, ?_⟩
      simp only [Option.getD_some]
      split_ifs <;> rfl
  · rw [heq]
    exact (Reads.refl k).rightsKept

theorem inherits_sysSpawn :
    (∃ child k', k.sysSpawn kh caller request = (Int.ofNat child, k') ∧ k.Inherits caller child k') ∨
    ∃ rc k', k.sysSpawn kh caller request = (Int.negSucc rc, k') ∧ k.RightsKept k' := by
  have hcases := k.sysSpawn_records kh caller request
  generalize k.sysSpawn kh caller request = r at hcases ⊢
  obtain ⟨rc, k'⟩ := r
  obtain ⟨child, argv, hrc, hspawned⟩ | ⟨hrc, hreads⟩ := hcases
  · have hrights : ∀ q, (k'.process q).rights =
        (if q = child then (k.process caller).spawnChild .default caller argv else k.process q).rights := by
      intro q
      refine (Process.view_of_core (fun _ => rfl) (hspawned.records q)).trans ?_
      split_ifs <;> rfl
    refine .inl ⟨child, k', congrArg (fun rc => (rc, k')) hrc, fun q hq => ?_, hspawned.made,
      fun _ => ?_⟩
    · have hne : q ≠ child := fun heq => hq (heq ▸ hspawned.free)
      exact ⟨hspawned.kept q hq, by rw [hrights q, if_neg hne]⟩
    · rw [hrights child, if_pos rfl]
      rfl
  · cases rc with
    | ofNat n => exact absurd hrc (by simp)
    | negSucc n => exact .inr ⟨n, k', rfl, hreads.rightsKept⟩

end Kernel

/-! ### A process and its descendants -/

/-- The calls that read or write ids and limits, and those that make a child. -/
inductive RightsCall where
  | setresuid (request : Bytes)
  | setresgid (request : Bytes)
  | setrlimit (request : Bytes)
  | prepareFork
  | commitFork (child : Pid)
  | spawn (request : Bytes)
  deriving DecidableEq

/-- A kernel, and a process in it with the descendants it has got. -/
structure Lineage (σ : Type) where
  kernel : Kernel σ
  members : List Pid

/-- The members with a child of `caller`. -/
def Lineage.born (w : Lineage σ) (caller child : Pid) : List Pid :=
  if caller ∈ w.members then child :: w.members else w.members

/-- A call of any process. A child that a member makes is a member. -/
def RightsCall.step (w : Lineage σ) : Pid × RightsCall → Lineage σ
  | (caller, .setresuid request) => { w with kernel := (w.kernel.setresuid caller request).2 }
  | (caller, .setresgid request) => { w with kernel := (w.kernel.setresgid caller request).2 }
  | (caller, .setrlimit request) => { w with kernel := (w.kernel.setrlimit caller request).2 }
  | (caller, .prepareFork) =>
    match w.kernel.prepareFork caller with
    | (.ok child, k) => ⟨k, w.born caller child⟩
    | (.error _, k) => ⟨k, w.members⟩
  | (caller, .commitFork child) => { w with kernel := (w.kernel.commitFork caller child).2 }
  | (caller, .spawn request) =>
    match w.kernel.sysSpawn kh caller request with
    | (Int.ofNat child, k) => ⟨k, w.born caller child⟩
    | (Int.negSucc _, k) => ⟨k, w.members⟩

/-- Every member has a record, and it is within the rights of `first`. -/
def Lineage.Confined (first : Process) (w : Lineage σ) : Prop :=
  ∀ q ∈ w.members, w.kernel.processes.get? q ≠ none ∧ first.Within (w.kernel.process q)

variable {first : Process} {w : Lineage σ}

theorem Lineage.Confined.kept (h : w.Confined first) {k : Kernel σ}
    (hk : w.kernel.RightsKept k) : Lineage.Confined first ⟨k, w.members⟩ := by
  intro q hq
  obtain ⟨hrecord, hwithin⟩ := h q hq
  obtain ⟨hrecord', hrights⟩ := hk q hrecord
  exact ⟨hrecord', hwithin.of_rights hrights⟩

theorem Lineage.Confined.lowered (hfirst : 0 ∉ first.credentials.uids) (h : w.Confined first)
    {k : Kernel σ} {caller : Pid} (hk : w.kernel.Lowers caller k) :
    Lineage.Confined first ⟨k, w.members⟩ := by
  intro q hq
  obtain ⟨hrecord, hwithin⟩ := h q hq
  by_cases hcaller : q = caller
  · subst hcaller
    exact ⟨hk.kept hrecord, hk.own first hfirst hwithin⟩
  · simp only [process, hk.others q hcaller]
    exact ⟨hrecord, hwithin⟩

theorem Lineage.Confined.born (h : w.Confined first) {k : Kernel σ} {caller child : Pid}
    (hk : w.kernel.Inherits caller child k) : Lineage.Confined first ⟨k, w.born caller child⟩ := by
  have hold := h.kept hk.kept
  unfold Lineage.born
  split_ifs with hcaller
  · obtain ⟨hrecord, hwithin⟩ := h caller hcaller
    exact List.forall_mem_cons.mpr ⟨⟨hk.made, hwithin.of_rights (hk.rights hrecord)⟩, hold⟩
  · exact hold

theorem Lineage.Confined.step (hfirst : 0 ∉ first.credentials.uids) (kh : Kh σ) (h : w.Confined first)
    (e : Pid × RightsCall) : (RightsCall.step kh w e).Confined first := by
  obtain ⟨caller, call⟩ := e
  cases call with
  | setresuid request => exact h.lowered hfirst (w.kernel.lowers_setresuid caller request)
  | setresgid request => exact h.lowered hfirst (w.kernel.lowers_setresgid caller request)
  | setrlimit request => exact h.lowered hfirst (w.kernel.lowers_setrlimit caller request)
  | prepareFork =>
    simp only [RightsCall.step]
    obtain ⟨child, k, heq, hinherits⟩ | ⟨errno, k, heq, hkept⟩ := w.kernel.inherits_prepareFork caller
    · rw [heq]
      exact h.born hinherits
    · rw [heq]
      exact h.kept hkept
  | commitFork child => exact h.kept (w.kernel.rightsKept_commitFork caller child)
  | spawn request =>
    simp only [RightsCall.step]
    obtain ⟨child, k, heq, hinherits⟩ | ⟨rc, k, heq, hkept⟩ := w.kernel.inherits_sysSpawn kh caller request
    · rw [heq]
      exact h.born hinherits
    · rw [heq]
      exact h.kept hkept

/-- A process none of whose uids is 0 and the descendants it gets keep to its ids and never have an
    effective uid of 0; their hard limits are at most its own, and their soft limits at most their
    hard ones if that held for it. -/
theorem unprivileged_stays_within (p : Pid)
    (hp : k.processes.get? p ≠ none) (hroot : 0 ∉ (k.process p).credentials.uids)
    (es : List (Pid × RightsCall)) :
    ∀ q ∈ (Run.run (RightsCall.step kh) ⟨k, [p]⟩ es).members,
      (k.process p).Within ((Run.run (RightsCall.step kh) ⟨k, [p]⟩ es).kernel.process q) ∧
      ((Run.run (RightsCall.step kh) ⟨k, [p]⟩ es).kernel.process q).credentials.euid ≠ 0 := by
  have hstart : Lineage.Confined (k.process p) ⟨k, [p]⟩ := by
    intro q hq
    obtain rfl := List.mem_singleton.mp hq
    exact ⟨hp, .refl _⟩
  have hrun : (Run.run (RightsCall.step kh) ⟨k, [p]⟩ es).Confined (k.process p) := by
    generalize (⟨k, [p]⟩ : Lineage σ) = w at hstart
    induction es generalizing w with
    | nil => exact hstart
    | cons e es ih => exact ih _ (hstart.step hroot kh e)
  intro q hq
  obtain ⟨-, hwithin⟩ := hrun q hq
  exact ⟨hwithin, hwithin.euid_ne_zero hroot⟩

/-- Process 1 lowers its limit on open files and forks, and the child asks to be root. -/
def forkAndAskForRoot : List (Pid × RightsCall) :=
  [(1, .setrlimit (leBytes 4 7 ++ leBytes 8 16 ++ leBytes 8 64)), (1, .prepareFork),
    (1, .commitFork 2), (2, .setresuid (leBytes 4 0 ++ leBytes 4 0 ++ leBytes 4 0))]

theorem unprivileged_stays_within_forked :
    let w := Run.run (RightsCall.step Kh.absent) ⟨oneProcess, [1]⟩ forkAndAskForRoot
    w.members = [2, 1] ∧ (w.kernel.process 2).rlimits 7 = some (16, 64) ∧
    (oneProcess.process 1).Within (w.kernel.process 2) ∧
    (w.kernel.process 2).credentials.euid ≠ 0 := by
  have hmembers : (Run.run (RightsCall.step Kh.absent) ⟨oneProcess, [1]⟩
      forkAndAskForRoot).members = [2, 1] := by decide
  refine ⟨hmembers, by decide, unprivileged_stays_within Kh.absent oneProcess 1 (by decide)
    (by decide) forkAndAskForRoot 2 ?_⟩
  rw [hmembers]
  exact List.mem_cons_self

end Yurt
