import YurtKernel.Kernel.Lifecycle
import YurtKernel.Kernel.Scheduler

/-! What the scheduler may hand out.

    A thread is worth running when its process is neither a fork child still being prepared nor a
    process whose exit was recorded. `list_runnable_threads` looks at the fork state, `schedule_next`
    at neither, and `record_exit` leaves the threads as they are: repeated scheduling hands out live
    threads only if no other record has a runnable thread (`schedule_picks_live_iff`). -/

namespace Yurt
open Kernel
variable {σ : Type}
variable {k : Kernel σ} {t : Pid × Tid}

/-- Committed, and not recorded as exited. -/
def Process.Live (p : Process) : Prop := p.forkState = .running ∧ p.exitStatus = none

instance (p : Process) : Decidable p.Live := inferInstanceAs (Decidable (_ ∧ _))

namespace Kernel

def LiveProcess (k : Kernel σ) (pid : Pid) : Prop := ∃ p, k.processes.get? pid = some p ∧ p.Live

/-- What `schedule_next` hands out is a listed thread of a live process, and nothing is handed out
    only when there is no such thread. -/
def PicksLive (k : Kernel σ) : Prop :=
  (∀ t, k.pick = some t → t ∈ k.listRunnableThreads ∧ k.LiveProcess t.1) ∧
  (k.pick = none → ∀ t ∈ k.listRunnableThreads, ¬ k.LiveProcess t.1)

/-- State after one scheduling call. -/
def scheduled (k : Kernel σ) : Kernel σ := k.scheduleNext.2

theorem mem_listRunnableThreads : t ∈ k.listRunnableThreads ↔
      ∃ p, k.processes.get? t.1 = some p ∧ p.forkState = .running ∧ k.Runnable t := by
  unfold listRunnableThreads
  simp only [List.mem_flatMap, List.mem_filter, List.mem_map, decide_eq_true_eq]
  constructor
  · rintro ⟨⟨pid, p⟩, ⟨he, hrun⟩, d, hd, rfl⟩
    obtain ⟨r, hr, hs, hdeq⟩ := Process.mem_runnable.mp hd
    have hpid : d.pid = pid := by rw [hdeq]
    have hp : k.processes.get? d.pid = some p := hpid ▸ SortedMap.mem_toList.mp he
    exact ⟨p, hp, hrun, r, thread_eq_some.mpr ⟨p, hp, hr⟩, hs⟩
  · rintro ⟨p, hp, hrun, r, hr, hs⟩
    obtain ⟨p', hp', hr⟩ := thread_eq_some.mp hr
    obtain rfl : p = p' := Option.mem_unique hp hp'
    exact ⟨(t.1, p), ⟨SortedMap.mem_toList.mpr hp, hrun⟩,
      ⟨t.1, t.2, r.hostThreadHandle, schedulerBudgetNs p.nice⟩,
      Process.mem_runnable.mpr ⟨r, hr, hs, rfl⟩, rfl⟩

/-! ### Repeated scheduling -/

theorem processes_scheduled_iterate (k : Kernel σ) (n : Nat) :
    (scheduled^[n] k).processes = k.processes := by
  induction n with
  | zero => rfl
  | succ n ih =>
    rw [Function.iterate_succ_apply', scheduled, scheduleNext_processes, ih]

theorem ready_congr {k' : Kernel σ} (h : k.processes = k'.processes) : k.ready = k'.ready := by
  unfold ready schedulable
  rw [h]

/-- Scheduling calls in a row take turns over the runnable threads. -/
theorem pick_iterate (k : Kernel σ) (n : Nat) : (scheduled^[n] k).pick.map toLex =
      (Rotation.turn k.ready)^[n + 1] (k.lastScheduled.map toLex) := by
  induction n with
  | zero => exact k.pick_eq
  | succ n ih =>
    have hlast : (scheduled^[n + 1] k).lastScheduled = (scheduled^[n] k).pick := by
      rw [Function.iterate_succ_apply']
      exact scheduleNext_lastScheduled _
    have hready := ready_congr (k.processes_scheduled_iterate (n + 1))
    rw [pick_eq, hready, hlast, ih, Function.iterate_succ_apply' _ (n + 1)]

/-- Every runnable thread is handed out sooner or later. -/
theorem pick_reaches (ht : k.Runnable t) : ∃ n, (scheduled^[n] k).pick = some t := by
  have hnodup : k.ready.Nodup := k.ready_sorted.imp (fun h => ne_of_lt h)
  obtain ⟨n, hn⟩ := Rotation.turn_reaches hnodup (mem_ready.mpr ht)
    (k.lastScheduled.map toLex)
  refine ⟨n, ?_⟩
  rw [← pick_iterate, Option.map_eq_some_iff] at hn
  obtain ⟨u, hu, hut⟩ := hn
  rw [hu, toLex.injective hut]

end Kernel

theorem Kernel.runnable_of_pick (h : k.pick = some t) : k.Runnable t := by
  rw [← mem_ready]
  have heq := k.pick_eq
  rw [h] at heq
  exact List.mem_of_getElem? heq.symm

/-- One call is right when no process but the live ones has a runnable thread. -/
theorem Kernel.picksLive_of_live (h : ∀ t, k.Runnable t → k.LiveProcess t.1) : k.PicksLive := by
  constructor
  · intro t ht
    have hrun := runnable_of_pick ht
    obtain ⟨p, hp, hlive⟩ := h t hrun
    exact ⟨mem_listRunnableThreads.mpr ⟨p, hp, hlive.1, hrun⟩, p, hp, hlive⟩
  · intro hnone t ht
    obtain ⟨-, -, -, hrun⟩ := mem_listRunnableThreads.mp ht
    obtain ⟨u, hu⟩ := pick_isSome hrun
    rw [hnone] at hu
    cases hu

/-- Scheduling from `k` on hands out live threads only, call after call, exactly when no fork child
    being prepared and no exited process has a runnable thread. -/
theorem schedule_picks_live_iff (k : Kernel σ) :
    (∀ n, (scheduled^[n] k).PicksLive) ↔ ∀ t, k.Runnable t → k.LiveProcess t.1 := by
  constructor
  · intro h t ht
    obtain ⟨n, hn⟩ := pick_reaches ht
    obtain ⟨-, p, hp, hlive⟩ := (h n).1 t hn
    exact ⟨p, by rwa [k.processes_scheduled_iterate] at hp, hlive⟩
  · intro h n
    have hproc := k.processes_scheduled_iterate n
    refine picksLive_of_live ?_
    intro t ht
    unfold Runnable thread at ht
    rw [hproc] at ht
    obtain ⟨p, hp, hlive⟩ := h t ht
    exact ⟨p, by rwa [hproc], hlive⟩

/-- One process started by the host and forked once; the fork is not committed yet. -/
def Kernel.forking : Kernel Unit := (((Kernel.new ()).insertHostProcess 1 0 [] none).prepareFork 1).2

/-- The second scheduling call hands out the fork child that is still being prepared; and when the
    exit of process 1 is recorded first, the first call hands out the exited process. -/
theorem schedule_picks_unborn_and_dead :
    forking.scheduled.pick = some (2, 1) ∧ ¬ forking.scheduled.PicksLive ∧
    (forking.recordExitOf 1 0).2.pick = some (1, 1) ∧
    ¬ (forking.recordExitOf 1 0).2.PicksLive := by
  refine ⟨by decide, ?_, by decide, ?_⟩
  · intro h
    exact absurd (h.1 (2, 1) (by decide)).1 (by decide)
  · intro h
    obtain ⟨-, p, hp, -, hexit⟩ := h.1 (1, 1) (by decide)
    have hstatus : ((forking.recordExitOf 1 0).2.processes.get? 1).map Process.exitStatus =
        some (some 0) := by decide
    rw [hp, Option.map_some, hexit] at hstatus
    cases hstatus

end Yurt
