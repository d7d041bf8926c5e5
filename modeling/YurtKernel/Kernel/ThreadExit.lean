import YurtKernel.Kernel.Thread

/-! Exited threads.

    A thread's record should stay exited, with the value it exited with, until a join takes it away.
    Three kinds of call break that: a second exit report with another value, the exit of a thread
    whose registered waiter has itself exited (the waiter is made runnable again), and a registering
    join made in the name of an exited thread (it is marked blocked). `keeps_exited_iff` shows for
    one call that nothing else does; `exited_terminal_iff` lifts it to runs. -/

namespace Yurt
open Kernel
variable {σ : Type} (k : Kernel σ) (pid : Pid) (t : Tid) (v : Nat)
variable {r : ThreadRecord}
open ThreadCall

/-! ### Vocabulary -/

/-- Thread `t` of `pid` has exited and its record holds the value `v`. -/
def Kernel.ExitedWith : Prop := ∃ r, k.thread pid t = some r ∧ r.state = .exited ∧ r.exitValue = some v

/-- The call is a join of `t` by `w` that completes and delivers `v`. -/
def ThreadCall.Completes (w t : Tid) (v : Nat) (c : ThreadCall) : Prop :=
  ∃ cap, c = .join pid w t cap ∧ (k.beginThreadJoin pid w t cap).1 = .ok v

/-- The call is a completed join of `t`, which takes its record away. -/
def ThreadCall.Removes (c : ThreadCall) : Prop := ∃ w v, c.Completes k pid w t v

/-- A join by `w` that would record `w` as the waiter of `x`. -/
def Kernel.Registers (w x : Tid) (cap : Nat) : Prop := 4 ≤ cap ∧ w ≠ x ∧
    ∃ r, k.thread pid x = some r ∧ r.detached = false ∧ r.state ≠ .exited ∧ r.waiterTid = none

/-- Exit of `x` with value `u` while `t` stands exited with `v`: it overwrites `v`, or `x` has `t`
    for its waiter. -/
def Kernel.ExitDisturbs (x : Tid) (u : Nat) : Prop :=
  (x = t ∧ u ≠ v) ∨ ∃ r, k.thread pid x = some r ∧ r.waiterTid = some t

/-- The calls that write to the record of a thread `t` that stands exited with `v`. -/
def ThreadCall.Disturbs : ThreadCall → Prop
  | .exit pid' x u => pid' = pid ∧ k.ExitDisturbs pid t v x u
  | .recordExit pid' x handle u =>
    pid' = pid ∧ (∃ r, k.thread pid x = some r ∧ r.hostThreadHandle = some handle) ∧
      k.ExitDisturbs pid t v x u
  | .join pid' w x cap => pid' = pid ∧ w = t ∧ k.Registers pid w x cap
  | _ => False

/-- No thread that has exited is disturbed by the call. -/
def ThreadCall.Clean (c : ThreadCall) : Prop := ∀ pid t v, k.ExitedWith pid t v → ¬ c.Disturbs k pid t v

/-! ### What each call does to a record -/

theorem thread_reserveThreadId {k : Kernel σ} {pid : Pid} {t : Tid} (h : k.thread pid t = some r)
    (p : Pid) : (k.reserveThreadId p).2.thread pid t = some r := by
  obtain ⟨q, hq, hr⟩ := thread_eq_some.mp h
  -- both exits store the record with its main thread ensured, which keeps every thread there is
  have hkeep : ∀ q₁ q₂ : Process, k.processes.get? p = some q₁ →
      q₂.threads = (q₁.ensureMainThread none).threads →
      (k.setProcess p q₂).thread pid t = some r := by
    intro q₁ q₂ hp hq₂
    rw [thread_setProcess]
    split_ifs with hpp
    · subst hpp
      obtain rfl : q₁ = q := Option.mem_unique hp hq
      rw [hq₂]; exact Process.get?_ensureMainThread hr none
    · exact h
  unfold reserveThreadId
  cases hp : k.processes.get? p with
  | none => exact h
  | some q₁ =>
    simp only
    split_ifs
    · exact hkeep q₁ _ hp rfl
    · exact hkeep q₁ _ hp rfl

theorem thread_bindThreadHandle {k : Kernel σ} {pid : Pid} {t : Tid} (h : k.thread pid t = some r)
    (p : Pid) (x : Tid) (handle : Option Int) :
    (k.bindThreadHandle p x handle).2.thread pid t = some r := by
  obtain ⟨q, hq, hr⟩ := thread_eq_some.mp h
  unfold bindThreadHandle
  cases hp : k.processes.get? p with
  | none => exact h
  | some q₁ =>
    simp only
    split_ifs with hc
    · exact h
    · have hne : ¬ (pid = p ∧ t = x) := by
        rintro ⟨rfl, rfl⟩
        obtain rfl : q₁ = q := Option.mem_unique hp hq
        exact hc (SortedMap.contains_iff.mpr ⟨r, hr⟩)
      by_cases h1 : pid = p
      · subst h1
        rw [thread_setThread h, if_neg hne]; exact h
      · simpa [thread, setThread, modifyProcess, h1] using h

/-- A join either completes and erases its target, or registers its waiter, or changes nothing. -/
theorem beginThreadJoin_cases (w x : Tid) (cap : Nat) :
    (∃ r, k.thread pid x = some r ∧ r.detached = false ∧ r.state = .exited ∧ 4 ≤ cap ∧ w ≠ x ∧
      k.beginThreadJoin pid w x cap =
        (.ok (r.exitValue.getD 0), (k.pushRelease r.hostThreadHandle).eraseThread pid x)) ∨
    (∃ r wr, k.thread pid x = some r ∧ k.thread pid w = some wr ∧ k.Registers pid w x cap ∧
      k.beginThreadJoin pid w x cap =
        (.error EAGAIN, (k.setThread pid x { r with waiterTid := some w }).setThread pid w
          { wr with state := .blocked, waitReason := some (.threadJoin x) })) ∨
    ((∃ e, e ≠ EAGAIN ∧ k.beginThreadJoin pid w x cap = (.error e, k)) ∧
      ¬ (k.Registers pid w x cap ∧ ∃ wr, k.thread pid w = some wr) ∧
      ¬ ∃ r, k.thread pid x = some r ∧ r.detached = false ∧ r.state = .exited ∧ 4 ≤ cap ∧ w ≠ x) := by
  unfold beginThreadJoin
  by_cases hcap : cap < 4
  · exact .inr (.inr ⟨⟨EINVAL, by decide, by rw [if_pos hcap]⟩,
      fun h => by have := h.1.1; omega, fun ⟨_, _, _, _, h, _⟩ => by omega⟩)
  rw [if_neg hcap]
  by_cases hwx : w = x
  · exact .inr (.inr ⟨⟨EDEADLK, by decide, by rw [if_pos hwx]⟩,
      fun h => h.1.2.1 hwx, fun ⟨_, _, _, _, _, h⟩ => h hwx⟩)
  rw [if_neg hwx]
  have hcap' : 4 ≤ cap := by omega
  cases hx : k.thread pid x with
  | none =>
    exact .inr (.inr ⟨⟨ESRCH, by decide, rfl⟩,
      fun ⟨⟨_, _, _, h, _⟩, _⟩ => by simp [hx] at h, fun ⟨_, h, _⟩ => by simp at h⟩)
  | some r =>
    simp only
    by_cases hd : r.detached = true
    · refine .inr (.inr ⟨⟨EINVAL, by decide, by rw [if_pos hd]⟩, ?_, ?_⟩)
      · rintro ⟨⟨_, _, r', h, h', _⟩, _⟩
        obtain rfl := Option.mem_unique hx h
        simp [hd] at h'
      · rintro ⟨r', h, h', _⟩
        cases h
        simp [hd] at h'
    rw [if_neg hd]
    have hd' : r.detached = false := by simpa using hd
    by_cases he : r.state = .exited
    · exact .inl ⟨r, rfl, hd', he, hcap', hwx, by rw [if_pos he]⟩
    rw [if_neg he]
    have hnot : ¬ ∃ r', some r = some r' ∧ r'.detached = false ∧ r'.state = .exited ∧ 4 ≤ cap ∧ w ≠ x := by
      rintro ⟨r', h, _, h', _⟩
      cases h
      exact he h'
    cases hw : r.waiterTid with
    | some y =>
      refine .inr (.inr ⟨⟨EBUSY, by decide, by simp⟩, ?_, hnot⟩)
      rintro ⟨⟨_, _, r', h, _, _, h'⟩, _⟩
      obtain rfl := Option.mem_unique hx h
      simp [hw] at h'
    | none =>
      cases hwr : k.thread pid w with
      | none =>
        refine .inr (.inr ⟨⟨ESRCH, by decide, by simp⟩, ?_, hnot⟩)
        rintro ⟨_, _, h⟩
        simp at h
      | some wr =>
        exact .inr (.inl ⟨r, wr, rfl, rfl, ⟨hcap', hwx, r, hx, hd', he, hw⟩, by simp⟩)

/-! ### One call -/

section
variable {k : Kernel σ} {pid : Pid} {t : Tid} {v : Nat}

theorem Kernel.ExitedWith.unique
    (h : k.ExitedWith pid t v) (hr : k.thread pid t = some r) :
    r.state = .exited ∧ r.exitValue = some v := by
  obtain ⟨r', hr', hs, hv⟩ := h
  obtain rfl := Option.mem_unique hr hr'
  exact ⟨hs, hv⟩

/-- Rewriting a record keeps exited threads if it keeps an exited record exited with its value. -/
theorem Kernel.ExitedWith.setThread {k : Kernel σ} {pid p : Pid} {t x : Tid} {v : Nat}
    {r₀ : ThreadRecord} (h : k.ExitedWith pid t v) (hx : k.thread p x = some r₀)
    (hr : r₀.state = .exited → r.state = .exited ∧ r.exitValue = r₀.exitValue) :
    (k.setThread p x r).ExitedWith pid t v := by
  unfold ExitedWith
  rw [thread_setThread hx]
  by_cases hpt : pid = p ∧ t = x
  · obtain ⟨rfl, rfl⟩ := hpt
    obtain ⟨hs, hv⟩ := h.unique hx
    obtain ⟨hs', hv'⟩ := hr hs
    exact ⟨r, by simp, hs', hv'.trans hv⟩
  · rw [if_neg hpt]; exact h

theorem Kernel.ExitedWith.pushRelease {k : Kernel σ} {pid : Pid} {t : Tid} {v : Nat}
    (handle : Option Int) : (k.pushRelease handle).ExitedWith pid t v ↔ k.ExitedWith pid t v := by
  simp only [ExitedWith, thread_pushRelease]

/-- An exit report leaves `t` exited with `v` unless it overwrites `v` or wakes `t`. -/
theorem exitedWith_exitThreadAuthenticated
    (h : k.ExitedWith pid t v) (p : Pid) (x : Tid) (u : Nat) :
    (k.exitThreadAuthenticated p x u).2.ExitedWith pid t v ↔ ¬ (p = pid ∧ k.ExitDisturbs pid t v x u) := by
  cases hx : k.thread p x with
  | none =>
    have hsame : (k.exitThreadAuthenticated p x u).2 = k := by
      simp [exitThreadAuthenticated, hx]
    rw [hsame]
    refine iff_of_true h ?_
    rintro ⟨rfl, ⟨rfl, -⟩ | ⟨r, hr, -⟩⟩
    · obtain ⟨r, hr, -⟩ := h
      simp [hx] at hr
    · simp [hx] at hr
  | some r =>
    have hdist : p = pid → (k.ExitDisturbs pid t v x u ↔ (x = t ∧ u ≠ v) ∨ r.waiterTid = some t) := by
      rintro rfl
      simp [ExitDisturbs, hx]
    unfold ExitedWith
    rw [thread_exitThreadAuthenticated hx]
    by_cases hp : pid = p
    · rw [hdist hp.symm]
      by_cases hw : r.waiterTid = some t
      · -- woken: whatever the record was, it is runnable now
        refine iff_of_false ?_ (by simp [hp, hw])
        rintro ⟨r', hr', hs, -⟩
        rw [if_pos ⟨hp, hw⟩] at hr'
        obtain ⟨r'', -, rfl⟩ := Option.map_eq_some_iff.mp hr'
        cases hs
      · rw [if_neg (fun hh => hw hh.2)]
        by_cases hxt : t = x
        · rw [if_pos ⟨hp, hxt⟩]
          by_cases huv : u = v
          · exact iff_of_true ⟨_, rfl, rfl, by rw [huv]; rfl⟩ (by simp [huv, hw])
          · refine iff_of_false ?_ (by simp [hp, hxt, huv])
            rintro ⟨r', hr', -, hv⟩
            cases hr'
            exact huv (Option.some.inj hv)
        · rw [if_neg (fun hh => hxt hh.2)]
          refine iff_of_true h ?_
          rintro ⟨-, ⟨rfl, -⟩ | hh⟩
          · exact hxt rfl
          · exact hw hh
    · rw [if_neg (fun hh => hp hh.1), if_neg (fun hh => hp hh.1)]
      exact iff_of_true h (fun hh => hp hh.1.symm)

/-- A join takes the exited `t` away by completing, or registers on `t`'s behalf, or keeps it. -/
theorem exitedWith_beginThreadJoin
    (h : k.ExitedWith pid t v) (p : Pid) (w x : Tid) (cap : Nat) :
    ((ThreadCall.join p w x cap).Removes k pid t ∨ (k.beginThreadJoin p w x cap).2.ExitedWith pid t v) ↔
      ¬ (p = pid ∧ w = t ∧ k.Registers pid w x cap) := by
  obtain ⟨r, hr, hd, hs, hcap, hwx, heq⟩ | ⟨r, wr, hr, hwr, hreg, heq⟩ | ⟨⟨e, -, heq⟩, hnreg, -⟩ :=
    beginThreadJoin_cases k p w x cap
  · -- completed: the target was exited, so the call does not register
    refine iff_of_true ?_ ?_
    · by_cases hpt : pid = p ∧ t = x
      · obtain ⟨rfl, rfl⟩ := hpt
        exact .inl ⟨w, _, cap, rfl, by rw [heq]⟩
      · right
        unfold ExitedWith
        rw [heq, thread_eraseThread, if_neg hpt, thread_pushRelease]
        exact h
    · rintro ⟨rfl, -, -, -, r', hr', -, hs', -⟩
      obtain rfl := Option.mem_unique hr hr'
      exact hs' hs
  · have hnot : ¬ (ThreadCall.join p w x cap).Removes k pid t := by
      rintro ⟨w', v', cap', hc, hok⟩
      obtain ⟨rfl, rfl, rfl, rfl⟩ := ThreadCall.join.inj hc
      rw [heq] at hok
      cases hok
    have hx : (k.setThread p x { r with waiterTid := some w }).ExitedWith pid t v :=
      h.setThread hr (fun hs => ⟨hs, rfl⟩)
    rw [heq]
    simp only [hnot, false_or]
    -- the waiter's record is written last: it survives exactly when it is not `t`'s
    have hw' : (k.setThread p x { r with waiterTid := some w }).thread p w =
        some (if w = x then { r with waiterTid := some w } else wr) := by
      rw [thread_setThread hr]
      by_cases hwx : w = x <;> simp [hwx, hwr]
    unfold ExitedWith
    rw [thread_setThread hw']
    by_cases hpt : pid = p ∧ t = w
    · obtain ⟨rfl, rfl⟩ := hpt
      refine iff_of_false ?_ (by simp [hreg])
      rintro ⟨r', hr', hs, -⟩
      rw [if_pos ⟨rfl, rfl⟩] at hr'
      cases hr'
      cases hs
    · rw [if_neg hpt]
      exact iff_of_true hx (fun hh => hpt ⟨hh.1.symm, hh.2.1.symm⟩)
  · rw [heq]
    refine iff_of_true (.inr h) ?_
    rintro ⟨rfl, rfl, hreg⟩
    obtain ⟨r, hr, -⟩ := h
    exact hnreg ⟨hreg, r, hr⟩

/-- One call on one exited thread: its record is removed by a join or kept as it is, unless the call
    is one of the three kinds that disturb it. -/
theorem keeps_exited_iff (h : k.ExitedWith pid t v)
    (c : ThreadCall) :
    (c.Removes k pid t ∨ (c.step k).ExitedWith pid t v) ↔ ¬ c.Disturbs k pid t v := by
  have hkeep : (c.step k).ExitedWith pid t v → ¬ c.Disturbs k pid t v →
      ((c.Removes k pid t ∨ (c.step k).ExitedWith pid t v) ↔ ¬ c.Disturbs k pid t v) :=
    fun h1 h2 => iff_of_true (.inr h1) h2
  have hone : ∀ {p x} {r₀ r : ThreadRecord}, k.thread p x = some r₀ →
      (r₀.state = .exited → r.state = .exited ∧ r.exitValue = r₀.exitValue) →
      (k.setThread p x r).ExitedWith pid t v := fun hx hr => h.setThread hx hr
  cases c with
  | reserve p =>
    obtain ⟨r, hr, hs⟩ := h
    exact hkeep ⟨r, thread_reserveThreadId hr p, hs⟩ not_false
  | bind p x handle =>
    obtain ⟨r, hr, hs⟩ := h
    exact hkeep ⟨r, thread_bindThreadHandle hr p x handle, hs⟩ not_false
  | join p w x cap => exact exitedWith_beginThreadJoin h p w x cap
  | exit p x u =>
    have hnot : ¬ (ThreadCall.exit p x u).Removes k pid t := by
      rintro ⟨w, v', cap, hc, -⟩
      cases hc
    simp only [hnot, false_or]
    exact exitedWith_exitThreadAuthenticated h p x u
  | recordExit p x handle u =>
    have hnot : ¬ (ThreadCall.recordExit p x handle u).Removes k pid t := by
      rintro ⟨w, v', cap, hc, -⟩
      cases hc
    simp only [hnot, false_or, ThreadCall.step, ThreadCall.Disturbs, recordThreadExitAuthenticated]
    cases hx : k.thread p x with
    | none =>
      refine iff_of_true h ?_
      rintro ⟨rfl, ⟨r, hr, -⟩, -⟩
      simp [hx] at hr
    | some r =>
      simp only
      by_cases hh : r.hostThreadHandle = some handle
      · rw [if_neg (not_not.mpr hh), exitedWith_exitThreadAuthenticated h p x u]
        refine not_congr (and_congr_right ?_)
        rintro rfl
        exact ⟨fun hd => ⟨⟨r, hx, hh⟩, hd⟩, fun hd => hd.2⟩
      · rw [if_pos hh]
        refine iff_of_true h ?_
        rintro ⟨rfl, ⟨r', hr', hh'⟩, -⟩
        obtain rfl := Option.mem_unique hx hr'
        exact hh hh'
  | detach p x =>
    refine hkeep ?_ not_false
    simp only [ThreadCall.step, detachThread]
    cases hx : k.thread p x with
    | none => exact h
    | some r =>
      simp only
      split_ifs
      · exact h
      · exact h
      · exact (ExitedWith.pushRelease _).mpr (hone hx (fun hs => ⟨hs, rfl⟩))
      · exact hone hx (fun hs => ⟨hs, rfl⟩)
  | cancel p x =>
    refine hkeep ?_ not_false
    simp only [ThreadCall.step, requestThreadCancel]
    cases hx : k.thread p x with
    | none => exact h
    | some r =>
      simp only
      split_ifs
      · exact h
      · exact hone hx (fun hs => ⟨hs, rfl⟩)
  | block p x =>
    refine hkeep ?_ not_false
    simp only [ThreadCall.step, blockThread]
    cases hx : k.thread p x with
    | none => exact h
    | some r =>
      simp only
      split_ifs with hs
      · exact hone hx (fun hs' => absurd hs' hs)
      · exact h
  | unblock p x =>
    refine hkeep ?_ not_false
    simp only [ThreadCall.step, unblockThread]
    cases hx : k.thread p x with
    | none => exact h
    | some r =>
      simp only
      split_ifs with hs
      · exact hone hx (fun hs' => by rw [hs] at hs'; cases hs')
      · exact h
  | schedule =>
    refine hkeep ?_ not_false
    simpa [ThreadCall.step, ExitedWith] using h

end

/-! ### Runs -/

/-- What a standing exited record means: the scheduler passes it over, a join delivers `v`. -/
def Kernel.StandsExited : Prop := k.ExitedWith pid t v ∧
    (∀ d, k.scheduleNext.1 = some d → (d.pid, d.tid) ≠ (pid, t)) ∧
    ∀ w cap u, (k.beginThreadJoin pid w t cap).1 = .ok u → u = v

/-- From here on `t` stands exited with `v` until a join takes its record away. -/
def StaysExited (pid : Pid) (t : Tid) (v : Nat) : Kernel σ → List ThreadCall → Prop
  | k, [] => k.StandsExited pid t v
  | k, c :: cs =>
    k.StandsExited pid t v ∧ (c.Removes k pid t ∨ StaysExited pid t v (c.step k) cs)

/-- Exited is terminal along the run: whichever thread has exited at whichever point, stays so. -/
def ExitedTerminal (cs : List ThreadCall) : Prop :=
  ∀ pre suf, cs = pre ++ suf → ∀ pid t v, (Run.run ThreadCall.step k pre).ExitedWith pid t v →
    StaysExited pid t v (Run.run ThreadCall.step k pre) suf

theorem Kernel.ExitedWith.stands {k : Kernel σ} {pid : Pid} {t : Tid} {v : Nat}
    (h : k.ExitedWith pid t v) : k.StandsExited pid t v := by
  refine ⟨h, ?_, ?_⟩
  · intro d hd heq
    obtain ⟨p, r, hp, hr, hs, -⟩ := mem_schedulable.mp (scheduleNext_mem hd)
    cases heq
    have := (h.unique (thread_eq_some.mpr ⟨p, hp, hr⟩)).1
    rw [hs] at this
    cases this
  · intro w cap u hu
    obtain ⟨r, hr, -, -, -, -, heq⟩ | ⟨r, wr, -, -, -, heq⟩ | ⟨⟨e, -, heq⟩, -, -⟩ :=
      beginThreadJoin_cases k pid w t cap
    · rw [heq, (h.unique hr).2] at hu
      exact (Except.ok.inj hu).symm
    · rw [heq] at hu; cases hu
    · rw [heq] at hu; cases hu

theorem staysExited_of_clean {pid : Pid} {t : Tid} {v : Nat} : ∀ {cs : List ThreadCall}
    {k : Kernel σ}, Run.Along ThreadCall.step ThreadCall.Clean k cs → k.ExitedWith pid t v →
    StaysExited pid t v k cs
  | [], _, _, h => h.stands
  | c :: cs, k, ⟨hc, hcs⟩, h => by
    refine ⟨h.stands, ?_⟩
    rcases (keeps_exited_iff h c).mpr (hc pid t v h) with hrem | hkeep
    · exact .inl hrem
    · exact .inr (staysExited_of_clean hcs hkeep)

/-- Exited is terminal along exactly the runs that never report the exit of an exited thread with a
    new value, never report the exit of a thread whose registered waiter has exited, and never
    register a join in the name of an exited thread. -/
theorem exited_terminal_iff (cs : List ThreadCall) :
    ExitedTerminal k cs ↔ Run.Along ThreadCall.step ThreadCall.Clean k cs := by
  constructor
  · intro h
    refine (Run.along_iff_split _).mpr ?_
    rintro pre c suf rfl pid t v hex
    refine (keeps_exited_iff hex c).mp ?_
    obtain ⟨-, hrem | hstay⟩ := h pre (c :: suf) rfl pid t v hex
    · exact .inl hrem
    · right
      cases suf with
      | nil => exact hstay.1
      | cons c' suf => exact hstay.1.1
  · rintro h pre suf rfl pid t v hex
    exact staysExited_of_clean ((Run.along_append _).mp h).2 hex

/-! ### The value is overwritten by a second report -/

/-- A kernel with the record of process 1 and its main thread. -/
def Kernel.oneProcess : Kernel Unit := (Kernel.new ()).updProcess 1 id

/-- A guest thread exits with 5; its host thread then reports completion with `u32::MAX`. -/
def doubleExit : List ThreadCall := [.reserve 1, .bind 1 2 (some 7), .exit 1 2 5, .recordExit 1 2 7 u32Max]

theorem exit_value_overwritten : ¬ ExitedTerminal oneProcess doubleExit := by
  intro h
  have hex : (Run.run ThreadCall.step oneProcess (doubleExit.take 3)).ExitedWith 1 2 5 :=
    ⟨((ThreadRecord.fresh 2 (some 7)).exit 5), by decide, rfl, rfl⟩
  obtain ⟨-, ⟨w, v, cap, hc, -⟩ | hstay⟩ := h (doubleExit.take 3) (doubleExit.drop 3) rfl 1 2 5 hex
  · cases hc
  · have hlast := hstay.1.unique (r := (ThreadRecord.fresh 2 (some 7)).exit u32Max) (by decide)
    exact absurd hlast.2 (by decide)

end Yurt
