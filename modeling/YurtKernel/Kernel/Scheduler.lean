import YurtKernel.Kernel.ThreadJoin

/-! The round-robin scheduler.

    `schedule_next` rotates over the runnable threads in (pid, tid) order. As long as the thread it
    remembers is still runnable, or nothing runnable stands after it, each pick is the cyclic
    successor of the one before (`scheduleNext_isNext`), and a thread that stays runnable is never
    overtaken twice by the same thread (`bounded_overtaking`). When the remembered thread leaves the
    runnable set the source starts over at the front instead, and the front can be served for ever. -/

namespace Yurt
open Kernel
variable {σ : Type} (k : Kernel σ) (pid : Pid)
variable {t a : Pid × Tid}

/-! ### Order of the runnable list -/

/-- Thread `t` is runnable, in whatever process record. -/
def Kernel.Runnable (t : Pid × Tid) : Prop := ∃ r, k.thread t.1 t.2 = some r ∧ r.state = .runnable

/-- Keys of the runnable threads, in the order the scheduler walks them. -/
def Kernel.ready : List (Pid ×ₗ Tid) := k.schedulable.map ScheduleDecision.key

theorem Kernel.mem_ready {k : Kernel σ} : toLex t ∈ k.ready ↔ k.Runnable t := by
  unfold ready Runnable
  rw [List.mem_map]
  constructor
  · rintro ⟨d, hd, hkey⟩
    obtain ⟨p, r, hp, hr, hs, -⟩ := mem_schedulable.mp hd
    obtain rfl : (d.pid, d.tid) = t := hkey
    exact ⟨r, thread_eq_some.mpr ⟨p, hp, hr⟩, hs⟩
  · rintro ⟨r, hr, hs⟩
    obtain ⟨p, hp, hr⟩ := thread_eq_some.mp hr
    exact ⟨⟨t.1, t.2, r.hostThreadHandle, schedulerBudgetNs p.nice⟩,
      mem_schedulable.mpr ⟨p, r, hp, hr, hs, rfl⟩, rfl⟩

theorem Process.runnable_sorted (p : Process) : (p.runnable pid).Pairwise (fun a b => a.key < b.key) := by
  unfold Process.runnable
  refine List.Pairwise.filterMap _ ?_ p.threads.sorted
  rintro ⟨a, ra⟩ ⟨b, rb⟩ hab d hd e he
  simp only [Option.ite_none_right_eq_some, Option.some.injEq] at hd he
  obtain ⟨-, rfl⟩ := hd
  obtain ⟨-, rfl⟩ := he
  exact Prod.Lex.toLex_lt_toLex.mpr (.inr ⟨rfl, hab⟩)

namespace Kernel

theorem ready_sorted : k.ready.Pairwise (· < ·) := by
  unfold ready schedulable
  rw [List.pairwise_map, List.pairwise_flatMap]
  refine ⟨fun e _ => Process.runnable_sorted e.1 e.2, ?_⟩
  refine k.processes.sorted.imp ?_
  intro a b hab d hd e he
  obtain ⟨rd, -, -, hd'⟩ := Process.mem_runnable.mp hd
  obtain ⟨re, -, -, he'⟩ := Process.mem_runnable.mp he
  rw [hd', he']
  exact Prod.Lex.toLex_lt_toLex.mpr (.inl hab)

/-! ### One pick -/

/-- The thread `schedule_next` hands out. -/
def pick : Option (Pid × Tid) := k.scheduleNext.1.map (fun d => (d.pid, d.tid))

theorem scheduleNext_lastScheduled : k.scheduleNext.2.lastScheduled = k.pick := by
  unfold pick
  simp only [scheduleNext]
  split <;> rfl

theorem pick_eq : k.pick.map toLex = Rotation.turn k.ready (k.lastScheduled.map toLex) := by
  unfold pick ready Rotation.turn
  simp only [scheduleNext, List.getElem?_map]
  split
  · next h => rw [h]; rfl
  · next d h => rw [h]; rfl

/-- Something is picked whenever some thread is runnable. -/
theorem pick_isSome {k : Kernel σ} (h : k.Runnable t) : ∃ u, k.pick = some u := by
  have hne : k.ready ≠ [] := List.ne_nil_of_mem (mem_ready.mpr h)
  have hlt := Rotation.nextIndex_lt hne (k.lastScheduled.map toLex)
  have heq := k.pick_eq
  rw [Rotation.turn, List.getElem?_eq_getElem hlt, Option.map_eq_some_iff] at heq
  obtain ⟨u, hu, -⟩ := heq
  exact ⟨u, hu⟩

/-- The rotation point is intact: the remembered thread is still runnable, or no runnable thread
    comes after it. -/
def RotationKept : Prop :=
  ∀ a, k.lastScheduled = some a → k.Runnable a ∨ ∀ u, k.Runnable u → toLex u < toLex a

end Kernel

theorem scheduleNext_isNext {k : Kernel σ} {b : Pid × Tid} (hkept : k.RotationKept)
    (ha : k.lastScheduled = some a) (hb : k.pick = some b) :
    Rotation.IsNext k.ready (toLex a) (toLex b) := by
  refine Rotation.isNext_of_nextIndex k.ready_sorted ?_ ?_
  · rcases hkept a ha with h | h
    · exact .inl (mem_ready.mpr h)
    · exact .inr (fun x hx => h (ofLex x) (mem_ready.mp hx))
  · have heq := k.pick_eq
    rw [ha, hb] at heq
    exact heq.symm

/-! ### Runs -/

/-- Thread handed out by a call, if it is a scheduling call. -/
def ThreadCall.picked : ThreadCall → Option (Pid × Tid)
  | .schedule => k.pick
  | _ => none

/-- The rotation point is intact whenever the call schedules. -/
def ThreadCall.KeepsRotation (c : ThreadCall) : Prop := c = .schedule → k.RotationKept

/-- No thread but `t` is handed out twice in the run without `t` being handed out in between. -/
def BoundedOvertaking (t : Pid × Tid) (k : Kernel σ) (cs : List ThreadCall) : Prop :=
  ∀ pre c mid c' suf, cs = pre ++ c :: (mid ++ c' :: suf) → ∀ u, u ≠ t →
    c.picked (Run.run ThreadCall.step k pre) = some u →
    c'.picked (Run.run ThreadCall.step k (pre ++ c :: mid)) = some u →
    ∃ m₁ d m₂, mid = m₁ ++ d :: m₂ ∧ d.picked (Run.run ThreadCall.step k (pre ++ c :: m₁)) = some t

@[simp] theorem Kernel.lastScheduled_setThread (tid : Tid)
    (r : ThreadRecord) : (k.setThread pid tid r).lastScheduled = k.lastScheduled := rfl

@[simp] theorem Kernel.lastScheduled_pushRelease (handle : Option Int) :
    (k.pushRelease handle).lastScheduled = k.lastScheduled := by cases handle <;> rfl

@[simp] theorem Kernel.lastScheduled_wakeWaiter (w : Option Tid) :
    (k.wakeWaiter pid w).lastScheduled = k.lastScheduled := by
  unfold wakeWaiter
  cases w with
  | none => rfl
  | some w =>
    simp only
    cases k.thread pid w <;> rfl

theorem Kernel.lastScheduled_exitThreadAuthenticated (tid : Tid)
    (u : Nat) : (k.exitThreadAuthenticated pid tid u).2.lastScheduled = k.lastScheduled := by
  unfold exitThreadAuthenticated
  cases k.thread pid tid with
  | none => rfl
  | some r => simp

/-- Only scheduling moves the rotation point. -/
theorem lastScheduled_step {c : ThreadCall} (hc : c ≠ .schedule) :
    (c.step k).lastScheduled = k.lastScheduled := by
  cases c with
  | schedule => exact absurd rfl hc
  | reserve p | bind p x handle =>
    simp only [ThreadCall.step, reserveThreadId, bindThreadHandle]
    cases k.processes.get? p with
    | none => rfl
    | some q =>
      simp only
      split_ifs <;> rfl
  | join p w x cap =>
    obtain ⟨r, -, -, -, -, -, heq⟩ | ⟨r, wr, -, -, -, heq⟩ | ⟨⟨e, -, heq⟩, -, -⟩ :=
      beginThreadJoin_cases k p w x cap
    · simp only [ThreadCall.step, heq]
      exact lastScheduled_pushRelease k r.hostThreadHandle
    · simp only [ThreadCall.step, heq, lastScheduled_setThread]
    · simp only [ThreadCall.step, heq]
  | exit p x u => exact lastScheduled_exitThreadAuthenticated k p x u
  | recordExit p x handle u =>
    simp only [ThreadCall.step, recordThreadExitAuthenticated]
    cases k.thread p x with
    | none => rfl
    | some r =>
      simp only
      split_ifs
      · rfl
      · exact lastScheduled_exitThreadAuthenticated k p x u
  | detach p x | cancel p x | block p x | unblock p x =>
    simp only [ThreadCall.step, detachThread, requestThreadCancel, blockThread, unblockThread]
    cases k.thread p x with
    | none => rfl
    | some r =>
      simp only
      split_ifs <;> simp

/-- While `t` waits runnable and unpicked, the rotation point only climbs in the order in which the
    rotation approaches `t`. -/
theorem rank_climbs {u : Pid × Tid} {cs : List ThreadCall} {k : Kernel σ}
    (hwin : Run.Along ThreadCall.step (fun k _ => k.Runnable t) k cs)
    (hkept : Run.Along ThreadCall.step ThreadCall.KeepsRotation k cs)
    (hnot : ∀ m₁ d m₂, cs = m₁ ++ d :: m₂ → d.picked (Run.run ThreadCall.step k m₁) ≠ some t)
    (ha : k.lastScheduled = some a) (hat : a ≠ t)
    (hle : Rotation.rank (toLex t) (toLex u) ≤ Rotation.rank (toLex t) (toLex a)) :
    ∃ b, (Run.run ThreadCall.step k cs).lastScheduled = some b ∧ b ≠ t ∧
      Rotation.rank (toLex t) (toLex u) ≤ Rotation.rank (toLex t) (toLex b) := by
  induction cs generalizing k a with
  | nil => exact ⟨a, ha, hat, hle⟩
  | cons c cs ih =>
    obtain ⟨hrun, hruns⟩ := hwin
    obtain ⟨hkept, hkepts⟩ := hkept
    have hnot' : ∀ m₁ d m₂, cs = m₁ ++ d :: m₂ →
        d.picked (Run.run ThreadCall.step (c.step k) m₁) ≠ some t := by
      rintro m₁ d m₂ rfl
      exact hnot (c :: m₁) d m₂ rfl
    by_cases hc : c = .schedule
    · subst hc
      obtain ⟨b, hb⟩ := pick_isSome hrun
      have hnext := scheduleNext_isNext (hkept rfl) ha hb
      have hclimb := Rotation.rank_lt_of_isNext (mem_ready.mpr hrun)
        (fun h => hat (toLex.injective h)) hnext
      have hbt : b ≠ t := fun h => hnot [] .schedule cs rfl (h ▸ hb)
      have hlast : (ThreadCall.step k .schedule).lastScheduled = some b :=
        k.scheduleNext_lastScheduled.trans hb
      exact ih hruns hkepts hnot' hlast hbt (le_trans hle (le_of_lt hclimb))
    · have hlast : (c.step k).lastScheduled = some a := (lastScheduled_step k hc).trans ha
      exact ih hruns hkepts hnot' hlast hat hle

/-- Along every run in which the rotation point is intact at each scheduling call, a thread that
    stays runnable is overtaken at most once by every other thread between two of its turns. -/
theorem bounded_overtaking (t : Pid × Tid) (cs : List ThreadCall)
    (hwin : Run.Along ThreadCall.step (fun k _ => k.Runnable t) k cs)
    (hkept : Run.Along ThreadCall.step ThreadCall.KeepsRotation k cs) :
    BoundedOvertaking t k cs := by
  rintro pre c mid c' suf rfl u hut hc hc'
  by_contra hnone
  push Not at hnone
  have hsched : ∀ {k : Kernel σ} {c : ThreadCall} {u}, c.picked k = some u → c = .schedule := by
    intro k c u h
    cases c <;> simp_all [ThreadCall.picked]
  obtain rfl := hsched hc
  obtain rfl := hsched hc'
  set k₀ := Run.run ThreadCall.step k pre with hk₀
  -- the state right after `u` was handed out
  have hsplit : ∀ m, Run.run ThreadCall.step k (pre ++ .schedule :: m) =
      Run.run ThreadCall.step (ThreadCall.step k₀ .schedule) m := by
    intro m
    rw [Run.run_append, Run.run_cons]
  have hwin₁ := ((Run.along_append _).mp ((Run.along_append _).mp hwin).2.2)
  have hkept₁ := ((Run.along_append _).mp ((Run.along_append _).mp hkept).2.2)
  have hlast : (ThreadCall.step k₀ .schedule).lastScheduled = some u :=
    k₀.scheduleNext_lastScheduled.trans hc
  obtain ⟨b, hb, hbt, hle⟩ := rank_climbs (u := u) hwin₁.1 hkept₁.1
    (fun m₁ d m₂ hm h => hnone m₁ d m₂ hm (by rw [hsplit]; exact h)) hlast hut (le_refl _)
  -- the second hand-out climbs strictly above the first, yet is the same thread
  rw [hsplit] at hc'
  have hnext := scheduleNext_isNext (hkept₁.2.1 rfl) hb hc'
  have hclimb := Rotation.rank_lt_of_isNext (mem_ready.mpr hwin₁.2.1)
    (fun h => hbt (toLex.injective h)) hnext
  exact absurd (lt_of_le_of_lt hle hclimb) (lt_irrefl _)

/-- Thread 2 blocks and comes back while 1 and 3 take turns: thread 3 is handed out between the two
    turns of thread 1. -/
theorem bounded_overtaking_two_workers :
    let cs : List ThreadCall := [.schedule, .block 1 2, .schedule, .unblock 1 2, .schedule, .schedule]
    Run.Along ThreadCall.step (fun k _ => k.Runnable (1, 3)) Kernel.twoWorkers cs ∧
    BoundedOvertaking (1, 3) Kernel.twoWorkers cs := by
  intro cs
  have hwin : Run.Along ThreadCall.step (fun k _ => k.Runnable (1, 3)) Kernel.twoWorkers cs :=
    ⟨⟨.fresh 3 (some 8), by decide, rfl⟩, ⟨.fresh 3 (some 8), by decide, rfl⟩,
      ⟨.fresh 3 (some 8), by decide, rfl⟩, ⟨.fresh 3 (some 8), by decide, rfl⟩,
      ⟨.fresh 3 (some 8), by decide, rfl⟩, ⟨.fresh 3 (some 8), by decide, rfl⟩, trivial⟩
  refine ⟨hwin, bounded_overtaking _ _ _ hwin ⟨?_, ?_, ?_, ?_, ?_, ?_, trivial⟩⟩
  · intro _ a ha
    exact absurd ha (by decide +revert)
  · intro hblock
    cases hblock
  · intro _ a ha
    obtain rfl : (1, 1) = a := Option.some.inj ha
    exact .inl ⟨.main none, by decide, rfl⟩
  · intro hunblock
    cases hunblock
  · intro _ a ha
    obtain rfl : (1, 3) = a := Option.some.inj ha
    exact .inl ⟨.fresh 3 (some 8), by decide, rfl⟩
  · intro _ a ha
    obtain rfl : (1, 1) = a := Option.some.inj ha
    exact .inl ⟨.main none, by decide, rfl⟩

/-- Threads 1 and 2 block in turn right after being picked: the rotation restarts at the front each
    time and thread 1 is handed out twice while thread 3 waits runnable. -/
theorem front_overtakes_twice : Run.Along ThreadCall.step (fun k _ => k.Runnable (1, 3)) Kernel.twoWorkers
      [.schedule, .block 1 1, .schedule, .unblock 1 1, .block 1 2, .schedule] ∧
    ¬ BoundedOvertaking (1, 3) Kernel.twoWorkers
      [.schedule, .block 1 1, .schedule, .unblock 1 1, .block 1 2, .schedule] := by
  constructor
  · exact ⟨⟨.fresh 3 (some 8), by decide, rfl⟩, ⟨.fresh 3 (some 8), by decide, rfl⟩,
      ⟨.fresh 3 (some 8), by decide, rfl⟩, ⟨.fresh 3 (some 8), by decide, rfl⟩,
      ⟨.fresh 3 (some 8), by decide, rfl⟩, ⟨.fresh 3 (some 8), by decide, rfl⟩, trivial⟩
  · intro h
    obtain ⟨m₁, d, m₂, hmid, hd⟩ := h [] .schedule [.block 1 1, .schedule, .unblock 1 1, .block 1 2]
      .schedule [] rfl (1, 1) (by decide) (by decide) (by decide)
    -- the one pick in between goes to thread 2
    rcases m₁ with _ | ⟨c₁, _ | ⟨c₂, _ | ⟨c₃, _ | ⟨c₄, m⟩⟩⟩⟩
    all_goals
      simp only [List.nil_append, List.cons_append, List.cons.injEq] at hmid
      obtain ⟨rfl, hmid⟩ := hmid
    · exact absurd hd (by decide)
    · obtain ⟨rfl, -⟩ := hmid
      exact absurd hd (by decide)
    · obtain ⟨rfl, rfl, -⟩ := hmid
      exact absurd hd (by decide)
    · obtain ⟨rfl, rfl, rfl, -⟩ := hmid
      exact absurd hd (by decide)
    · obtain ⟨rfl, rfl, rfl, hmid⟩ := hmid
      simp at hmid

end Yurt
