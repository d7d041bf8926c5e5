import Mathlib

/-! `select` over `poll` (`abi/src/yurt_select.c`).

    The three sets are merged into one array of poll records, one for each descriptor below `nfds` that
    is in a set, and the answer is split again into three sets by the event bits. What the host answers
    is arbitrary: a return value and the `revents` it writes to each record. -/

namespace Yurt.Select

def FD_SETSIZE : Int := 1024
def INT_MAX : Int := 2 ^ 31 - 1

def EBADF : Int := 8
def EINVAL : Int := 28

def POLLIN : Nat := 0x0001
def POLLOUT : Nat := 0x0002
def POLLERR : Nat := 0x0008
def POLLHUP : Nat := 0x0010
def POLLNVAL : Nat := 0x0020

/-- Which of the three arguments. -/
inductive Which where
  | readfds
  | writefds
  | exceptfds
  deriving DecidableEq

def Which.all : List Which := [.readfds, .writefds, .exceptfds]

/-- The conditions that make a descriptor a member of the answer. -/
def Which.conditions : Which → Nat
  | .readfds => POLLIN ||| POLLHUP ||| POLLERR
  | .writefds => POLLOUT ||| POLLERR
  | .exceptfds => POLLERR

/-- The three sets; `none` is NULL. -/
abbrev Sets := Which → Option (Finset Nat)

/-- Is the set there, and the descriptor in it? -/
def Sets.isSet (sets : Sets) (fd : Nat) (w : Which) : Bool := (sets w).any (fd ∈ ·)

/-- A `struct pollfd` before the call. -/
structure PollFd where
  fd : Nat
  events : Nat
  deriving DecidableEq

/-- The host's answer; every record of one call has a descriptor of its own. -/
structure Answer where
  rc : Int
  revents : Nat → Nat

structure Timeval where
  tvSec : Int
  tvUsec : Int

structure Outcome where
  rc : Int
  errno : Option Int
  sets : Sets

/-- `yurt_select_timeout_ms`; `none` is its `-2`. -/
def selectTimeoutMs : Option Timeval → Option Int
  | none => some (-1)
  | some t =>
    if t.tvSec < 0 ∨ t.tvUsec < 0 ∨ t.tvUsec ≥ 1000000 then none
    else
      let ms := (t.tvSec * 1000) % 2 ^ 64 + (t.tvUsec + 999) / 1000
      some (if ms % 2 ^ 64 > INT_MAX then INT_MAX else ms % 2 ^ 64)

def Sets.events (sets : Sets) (fd : Nat) : Nat :=
  (if sets.isSet fd .readfds then POLLIN else 0) ||| (if sets.isSet fd .writefds then POLLOUT else 0) |||
    (if sets.isSet fd .exceptfds then POLLERR else 0)

/-- The first loop: descriptors in none of the sets get no record. -/
def Sets.pollfds (sets : Sets) (nfds : Nat) : List PollFd := (List.range nfds).filterMap fun fd =>
    if sets.events fd = 0 then none else some ⟨fd, sets.events fd⟩

/-- `FD_ZERO` on the sets that are there. -/
def Sets.zero (sets : Sets) : Sets := fun w => (sets w).map fun _ => ∅

section
variable (revents : Nat → Nat) (fd : Nat)

/-- Does the answer put the descriptor into the set? -/
def told (w : Which) : Bool := revents fd &&& w.conditions != 0

/-- `FD_SET` in the sets that are there. -/
def Sets.mark (sets : Sets) : Sets := fun w =>
  (sets w).map fun s => if told revents fd w then insert fd s else s

/-- By how much `ready` grows. -/
def Sets.marked (sets : Sets) : Nat :=
  Which.all.countP fun w => (sets w).isSome && told revents fd w

end

/-- The second loop. -/
def scan (revents : Nat → Nat) : List Nat → Sets → Nat → Outcome
  | [], sets, ready => ⟨ready, none, sets⟩
  | fd :: rest, sets, ready =>
    if revents fd &&& POLLNVAL ≠ 0 then ⟨-1, some EBADF, sets⟩
    else scan revents rest (sets.mark revents fd) (ready + sets.marked revents fd)

def selectImpl (host : List PollFd → Int → Answer) (nfds : Int) (sets : Sets)
    (timeout : Option Timeval) : Outcome :=
  if nfds < 0 ∨ nfds > FD_SETSIZE then ⟨-1, some EINVAL, sets⟩
  else
    match selectTimeoutMs timeout with
    | none => ⟨-1, some EINVAL, sets⟩
    | some timeoutMs =>
      let pollfds := sets.pollfds nfds.toNat
      let answer := host pollfds timeoutMs
      if nfds = 0 then if answer.rc < 0 then ⟨-1, some (-answer.rc), sets⟩ else ⟨0, none, sets⟩
      else if answer.rc < 0 then ⟨-1, some (-answer.rc), sets⟩
      else scan answer.revents (pollfds.map PollFd.fd) sets.zero 0

/-! ### What select is for -/

/-- How many members the sets have together. -/
def Sets.size (sets : Sets) : Nat := (Which.all.map fun w => (sets w).elim 0 Finset.card).sum

/-- Outcome `o` of a call with `before` reports what poll reported. -/
structure Reports (nfds : Int) (before : Sets) (revents : Nat → Nat) (o : Outcome) : Prop where
  subset : 0 ≤ o.rc → ∀ w, (o.sets w).getD ∅ ⊆ ((before w).getD ∅).filter (fun fd => (fd : Int) < nfds)
  exact : 0 ≤ o.rc → ∀ w s, before w = some s → ∃ s', o.sets w = some s' ∧
    ∀ fd : Nat, fd ∈ s' ↔ fd ∈ s ∧ fd < nfds ∧ told revents fd w = true
  count : 0 ≤ o.rc → o.rc = o.sets.size
  failed : o.rc < 0 → o.sets = before

/-- The answer that the call gets. -/
def answerTo (host : List PollFd → Int → Answer) (nfds : Int) (sets : Sets) (timeout : Option Timeval) :
    Answer :=
  host (sets.pollfds nfds.toNat) ((selectTimeoutMs timeout).getD 0)

/-- With no descriptors to look at the sets are empty. Otherwise no descriptor of a set is bad, and poll
    reports a condition of a set that is there only for its members. -/
def OnlyAsked (nfds : Int) (sets : Sets) (answer : Answer) : Prop :=
  if nfds = 0 then ∀ w, (sets w).getD ∅ = ∅
  else ∀ fd : Nat, fd < nfds → (∃ w, sets.isSet fd w = true) → answer.revents fd &&& POLLNVAL = 0 ∧
      ∀ w, (sets w).isSome = true → told answer.revents fd w = true → sets.isSet fd w = true

/-! ### The second loop -/

variable {revents : Nat → Nat} {sets : Sets} {fds : List Nat} {fd : Nat} {w : Which} {ready : Nat}

theorem Sets.size_mark (h : ∀ w, sets.isSet fd w = false) :
    (sets.mark revents fd).size = sets.size + sets.marked revents fd := by
  have hat : ∀ w, ((sets.mark revents fd) w).elim 0 Finset.card =
      (sets w).elim 0 Finset.card + if (sets w).isSome && told revents fd w then 1 else 0 := by
    intro w
    have hw := h w
    unfold Sets.isSet at hw
    cases hs : sets w with
    | none => simp [Sets.mark, hs]
    | some s =>
      have hfresh : fd ∉ s := by simpa [hs] using hw
      by_cases htold : told revents fd w = true <;> simp [Sets.mark, hs, htold, hfresh]
  simp only [Sets.size, hat, Sets.marked, Which.all, List.map_cons, List.map_nil, List.sum_cons,
    List.sum_nil, List.countP_cons, List.countP_nil]
  omega

/-- Marking one descriptor says nothing about another. -/
theorem Sets.isSet_mark {other : Nat} (h : other ≠ fd) :
    (sets.mark revents fd).isSet other w = sets.isSet other w := by
  unfold Sets.isSet Sets.mark
  cases sets w with
  | none => rfl
  | some s => cases told revents fd w <;> simp [h]

/-- Without a bad descriptor the loop visits them all. -/
theorem scan_sets (sets : Sets) (ready : Nat) (h : ∀ fd ∈ fds, revents fd &&& POLLNVAL = 0) (w : Which) :
    (scan revents fds sets ready).sets w =
      (sets w).map (fun s => s ∪ (fds.filter fun fd => told revents fd w).toFinset) := by
  induction fds generalizing sets ready with
  | nil => cases hs : sets w <;> simp [scan, hs]
  | cons fd rest ih =>
    rw [scan, if_neg (by simpa using h fd (by simp)), ih _ _ (fun x hx => h x (by simp [hx]))]
    cases hs : sets w with
    | none => simp [Sets.mark, hs]
    | some s => cases htold : told revents fd w <;> simp [Sets.mark, hs, htold]

theorem scan_count (h : ∀ fd ∈ fds, revents fd &&& POLLNVAL = 0) (hnodup : fds.Nodup)
    (hfresh : ∀ fd ∈ fds, ∀ w, sets.isSet fd w = false) (hready : ready = sets.size) :
    (scan revents fds sets ready).rc = (scan revents fds sets ready).sets.size := by
  induction fds generalizing sets ready with
  | nil => simp [scan, hready]
  | cons fd rest ih =>
    rw [scan, if_neg (by simpa using h fd (by simp))]
    obtain ⟨hfd, hrest⟩ := List.nodup_cons.mp hnodup
    refine ih (fun x hx => h x (by simp [hx])) hrest (fun x hx w => ?_) ?_
    · have hne : x ≠ fd := fun heq => hfd (heq ▸ hx)
      rw [Sets.isSet_mark hne]
      exact hfresh x (by simp [hx]) w
    · rw [Sets.size_mark (hfresh fd (by simp)), hready]

/-- A bad descriptor ends the loop, and is in no set then. -/
theorem scan_bad (ready : Nat) {bad : Nat} (hbad : bad ∈ fds) (hnval : revents bad &&& POLLNVAL ≠ 0)
    (hfresh : ∀ w, sets.isSet bad w = false) :
    (scan revents fds sets ready).rc = -1 ∧ ∀ w, (scan revents fds sets ready).sets.isSet bad w = false := by
  induction fds generalizing sets ready with
  | nil => cases hbad
  | cons fd rest ih =>
    rw [scan]
    split_ifs with hfd
    · exact ⟨rfl, hfresh⟩
    · have hne : bad ≠ fd := fun heq => hfd (heq ▸ hnval)
      refine ih _ ((List.mem_cons.mp hbad).resolve_left hne) (fun w => ?_)
      rw [Sets.isSet_mark hne]
      exact hfresh w

/-! ### The call -/

theorem Sets.events_ne_zero_iff : sets.events fd ≠ 0 ↔ ∃ w, sets.isSet fd w = true := by
  have hall : (∃ w, sets.isSet fd w = true) ↔ sets.isSet fd .readfds = true ∨
      sets.isSet fd .writefds = true ∨ sets.isSet fd .exceptfds = true := by
    constructor
    · rintro ⟨w, hw⟩
      cases w <;> simp [hw]
    · rintro (h | h | h) <;> exact ⟨_, h⟩
  rw [hall, Sets.events]
  cases sets.isSet fd .readfds <;> cases sets.isSet fd .writefds <;>
    cases sets.isSet fd .exceptfds <;> decide

theorem Sets.fds_pollfds (nfds : Nat) : (sets.pollfds nfds).map PollFd.fd =
    (List.range nfds).filter (fun fd => sets.events fd ≠ 0) := by
  unfold Sets.pollfds
  induction List.range nfds with
  | nil => rfl
  | cons fd rest ih => by_cases h : sets.events fd = 0 <;> simp [h, ih]

/-- The records are about the members below `nfds`. -/
theorem Sets.mem_fds_pollfds (sets : Sets) (nfds : Int) (fd : Nat) :
    fd ∈ (sets.pollfds nfds.toNat).map PollFd.fd ↔ (fd : Int) < nfds ∧ ∃ w, sets.isSet fd w = true := by
  rw [Sets.fds_pollfds, List.mem_filter, List.mem_range, decide_eq_true_iff, Sets.events_ne_zero_iff]
  refine and_congr_left fun _ => ?_
  omega

theorem Sets.nodup_fds_pollfds (sets : Sets) (nfds : Nat) : ((sets.pollfds nfds).map PollFd.fd).Nodup := by
  rw [Sets.fds_pollfds]
  exact List.nodup_range.filter _

theorem Sets.isSet_zero (sets : Sets) : sets.zero.isSet fd w = false := by
  unfold Sets.isSet Sets.zero
  cases sets w <;> simp

theorem Sets.size_of_empty (h : ∀ w, (sets w).getD ∅ = ∅) : sets.size = 0 := by
  refine List.sum_eq_zero fun n hn => ?_
  obtain ⟨w, -, rfl⟩ := List.mem_map.mp hn
  have hw := h w
  cases hs : sets w <;> simp_all

variable {nfds : Int} {answer : Answer}

/-- The scan of an answer, for every answer that is not an error. -/
theorem reports_scan_iff (hpos : 0 < nfds) : Reports nfds sets answer.revents
        (scan answer.revents ((sets.pollfds nfds.toNat).map PollFd.fd) sets.zero 0) ↔
      OnlyAsked nfds sets answer := by
  have hmem := sets.mem_fds_pollfds nfds
  have hnodup := sets.nodup_fds_pollfds nfds.toNat
  generalize (sets.pollfds nfds.toNat).map PollFd.fd = fds at hmem hnodup
  rw [OnlyAsked, if_neg hpos.ne']
  by_cases hgood : ∀ fd ∈ fds, answer.revents fd &&& POLLNVAL = 0
  · have hcount := scan_count hgood hnodup (fun _ _ _ => sets.isSet_zero)
      (Sets.size_of_empty fun w => by cases hs : sets w <;> simp [Sets.zero, hs]).symm
    have hsets := scan_sets sets.zero 0 hgood
    generalize scan answer.revents fds sets.zero 0 = o at hcount hsets
    have hrc : 0 ≤ o.rc := by omega
    -- what the loop leaves in a set that is there
    have hafter : ∀ w s, sets w = some s → ∃ s', o.sets w = some s' ∧
        ∀ fd, fd ∈ s' ↔ fd ∈ fds ∧ told answer.revents fd w = true := fun w s hs =>
      ⟨_, by rw [hsets, Sets.zero, hs]; rfl, fun fd => by simp⟩
    constructor
    · intro h fd hfd hset
      refine ⟨hgood fd ((hmem fd).mpr ⟨hfd, hset⟩), fun w hw htold => ?_⟩
      obtain ⟨s, hs⟩ := Option.isSome_iff_exists.mp hw
      obtain ⟨s', hs', hin⟩ := hafter w s hs
      obtain ⟨s₁, hs₁, hiff⟩ := h.exact hrc w s hs
      obtain rfl := Option.mem_unique hs' hs₁
      have := ((hiff fd).mp ((hin fd).mpr ⟨(hmem fd).mpr ⟨hfd, hset⟩, htold⟩)).1
      simpa [Sets.isSet, hs] using this
    · intro h
      have hexact : ∀ w s, sets w = some s → ∃ s', o.sets w = some s' ∧
          ∀ fd : Nat, fd ∈ s' ↔ fd ∈ s ∧ fd < nfds ∧ told answer.revents fd w = true := by
        intro w s hs
        obtain ⟨s', hs', hin⟩ := hafter w s hs
        refine ⟨s', hs', fun fd => ?_⟩
        rw [hin, hmem]
        constructor
        · rintro ⟨⟨hfd, hset⟩, htold⟩
          have := (h fd hfd hset).2 w (by simp [hs]) htold
          exact ⟨by simpa [Sets.isSet, hs] using this, hfd, htold⟩
        · rintro ⟨hin, hfd, htold⟩
          exact ⟨⟨hfd, w, by simpa [Sets.isSet, hs] using hin⟩, htold⟩
      refine ⟨fun _ w => ?_, fun _ => hexact, fun _ => hcount, fun hneg => absurd hneg (by omega)⟩
      cases hs : sets w with
      | none => simp [hsets, Sets.zero, hs]
      | some s =>
        obtain ⟨s', hs', hiff⟩ := hexact w s hs
        intro fd hfd
        have hin : fd ∈ s' := by simpa [hs'] using hfd
        have := (hiff fd).mp hin
        simp [this.1, this.2.1]
  · push Not at hgood
    obtain ⟨bad, hbad, hnval⟩ := hgood
    obtain ⟨hfd, w, hset⟩ := (hmem bad).mp hbad
    refine ⟨fun h => ?_, fun h => absurd (h bad hfd ⟨w, hset⟩).1 hnval⟩
    obtain ⟨hrc, hgone⟩ := scan_bad 0 hbad hnval (fun _ => sets.isSet_zero)
    have hsame := h.failed (by rw [hrc]; decide)
    rw [hsame] at hgone
    exact absurd hset (by simp [hgone w])

/-- Refused calls and failed polls touch no set. -/
theorem reports_failed {rc : Int} {errno : Option Int} (h : rc < 0) :
    Reports nfds sets revents ⟨rc, errno, sets⟩ :=
  ⟨fun h' => absurd h (not_lt.mpr h'), fun h' => absurd h (not_lt.mpr h'),
    fun h' => absurd h (not_lt.mpr h'), fun _ => rfl⟩

/-- `select` reports what `poll` reports, for what was asked: for every call that is not refused. -/
theorem select_reports_iff (host : List PollFd → Int → Answer) (nfds : Int) (sets : Sets)
    (timeout : Option Timeval) :
    Reports nfds sets (answerTo host nfds sets timeout).revents (selectImpl host nfds sets timeout) ↔
      (0 ≤ nfds → nfds ≤ FD_SETSIZE → (selectTimeoutMs timeout).isSome = true →
        0 ≤ (answerTo host nfds sets timeout).rc →
        OnlyAsked nfds sets (answerTo host nfds sets timeout)) := by
  unfold selectImpl answerTo
  split
  · refine iff_of_true (reports_failed (by decide)) fun h0 h1 => ?_
    omega
  cases ht : selectTimeoutMs timeout with
  | none => exact iff_of_true (reports_failed (by decide)) (by simp)
  | some ms =>
    simp only [Option.getD_some, Option.isSome_some, forall_const]
    generalize hans : host (sets.pollfds nfds.toNat) ms = answer
    have hasked : (0 ≤ nfds → nfds ≤ FD_SETSIZE → 0 ≤ answer.rc → OnlyAsked nfds sets answer) ↔
        (0 ≤ answer.rc → OnlyAsked nfds sets answer) :=
      ⟨fun h => h (by omega) (by omega), fun h _ _ => h⟩
    rw [hasked]
    by_cases hrc : answer.rc < 0
    · simp only [if_pos hrc, ite_self]
      exact iff_of_true (reports_failed (by decide)) fun h => absurd hrc (not_lt.mpr h)
    rw [forall_prop_of_true (not_lt.mp hrc), if_neg hrc, if_neg hrc]
    split_ifs with hzero
    · -- nothing was looked at, and the sets are left as they are
      rw [OnlyAsked, if_pos hzero]
      refine ⟨fun h w => ?_, fun h => ⟨fun _ w => by simp [h w], fun _ w s hs => ?_, fun _ => ?_, ?_⟩⟩
      · have hsub := h.subset le_rfl w
        rw [hzero, Finset.filter_false_of_mem (fun fd _ => by omega)] at hsub
        exact Finset.subset_empty.mp hsub
      · have hempty : s = ∅ := by simpa [hs] using h w
        exact ⟨s, hs, fun fd => by simp [hempty]⟩
      · exact congrArg Nat.cast (Sets.size_of_empty h).symm
      · exact fun hneg => absurd hneg (lt_irrefl _)
    · exact reports_scan_iff (by omega)

/-- Poll reports a hang-up on a descriptor that was only asked about for writing, and `select` puts it
    into the read set. -/
theorem select_reports_unasked :
    let host : List PollFd → Int → Answer := fun _ _ => ⟨1, fun _ => POLLHUP⟩
    let sets : Sets := fun | .readfds => some ∅ | .writefds => some {0} | .exceptfds => none
    let o := selectImpl host 1 sets none
    o.rc = 1 ∧ o.sets .readfds = some {0} ∧ sets .readfds = some ∅ ∧
      ¬ Reports 1 sets (answerTo host 1 sets none).revents o := by
  refine ⟨by decide, by decide, by decide, fun h => ?_⟩
  have hsub := h.subset (by decide) .readfds
  revert hsub
  decide

end Yurt.Select
