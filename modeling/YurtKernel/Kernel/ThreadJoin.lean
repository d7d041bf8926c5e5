import YurtKernel.Kernel.ThreadExit

/-! The join handshake.

    A join that cannot complete yet records its caller as the target's waiter and returns `EAGAIN`.
    From then on the record cannot be detached and takes no second waiter (`waitedBy_step`), so the
    only ways to lose the value are those of `ThreadExit` and one more: the exited branch of a join
    does not look at the registered waiter, so any other thread that joins first takes the record. -/

namespace Yurt
open Kernel
variable {σ : Type} (k : Kernel σ) (pid : Pid) (w t : Tid)
variable {r : ThreadRecord} {c : ThreadCall} {v cap : Nat} {x : Tid}
open ThreadCall

/-! ### Completed joins -/

/-- A join completes exactly on an exited, joinable target, and delivers its value. -/
theorem beginThreadJoin_ok_iff {k : Kernel σ} {pid : Pid} {w t : Tid} :
    (k.beginThreadJoin pid w t cap).1 = .ok v ↔ 4 ≤ cap ∧ w ≠ t ∧
      ∃ r, k.thread pid t = some r ∧ r.detached = false ∧ r.state = .exited ∧ r.exitValue.getD 0 = v := by
  obtain ⟨r, hr, hd, hs, hcap, hwt, heq⟩ | ⟨r, wr, hr, -, hreg, heq⟩ | ⟨⟨e, -, heq⟩, -, hnot⟩ :=
    beginThreadJoin_cases k pid w t cap
  · rw [heq, Except.ok.injEq]
    constructor
    · exact fun hv => ⟨hcap, hwt, r, hr, hd, hs, hv⟩
    · rintro ⟨-, -, r', hr', -, -, hv⟩
      obtain rfl := Option.mem_unique hr hr'
      exact hv
  · rw [heq]
    refine iff_of_false (by simp) ?_
    rintro ⟨-, -, r', hr', -, hs', -⟩
    obtain ⟨-, -, r'', hr'', -, hs'', -⟩ := hreg
    obtain rfl := Option.mem_unique hr' hr''
    exact hs'' hs'
  · rw [heq]
    refine iff_of_false (by simp) ?_
    rintro ⟨hcap, hwt, r', hr', hd', hs', -⟩
    exact hnot ⟨r', hr', hd', hs', hcap, hwt⟩

/-! ### A registered waiter stays registered -/

/-- `w` is recorded as the waiter of the joinable thread `t`. -/
def Kernel.WaitedBy : Prop := ∃ r, k.thread pid t = some r ∧ r.detached = false ∧ r.waiterTid = some w

section
variable {k : Kernel σ} {pid : Pid} {w t : Tid}

theorem Kernel.WaitedBy.unique (h : k.WaitedBy pid w t)
    (hr : k.thread pid t = some r) :
    r.detached = false ∧ r.waiterTid = some w := by
  obtain ⟨r', hr', hd⟩ := h
  obtain rfl := Option.mem_unique hr hr'
  exact hd

theorem Kernel.WaitedBy.setThread {k : Kernel σ} {pid p : Pid} {w t : Tid} {r₀ : ThreadRecord}
    (h : k.WaitedBy pid w t) (hx : k.thread p x = some r₀)
    (hr : r₀.waiterTid = some w → r.detached = r₀.detached ∧ r.waiterTid = r₀.waiterTid) :
    (k.setThread p x r).WaitedBy pid w t := by
  unfold WaitedBy
  rw [thread_setThread hx]
  by_cases hpt : pid = p ∧ t = x
  · obtain ⟨rfl, rfl⟩ := hpt
    obtain ⟨hd, hw⟩ := h.unique hx
    obtain ⟨hd', hw'⟩ := hr hw
    exact ⟨r, by simp, hd'.trans hd, hw'.trans hw⟩
  · rw [if_neg hpt]; exact h

theorem Kernel.WaitedBy.pushRelease {k : Kernel σ} {pid : Pid} {w t : Tid} (handle : Option Int) :
    (k.pushRelease handle).WaitedBy pid w t ↔ k.WaitedBy pid w t := by
  simp only [WaitedBy, thread_pushRelease]

theorem waitedBy_exitThreadAuthenticated
    (h : k.WaitedBy pid w t) (p : Pid) (x : Tid) (u : Nat) :
    (k.exitThreadAuthenticated p x u).2.WaitedBy pid w t := by
  cases hx : k.thread p x with
  | none => simpa [exitThreadAuthenticated, hx] using h
  | some r =>
    obtain ⟨r₀, hr₀, hd, hw⟩ := h
    -- neither exiting nor waking writes the two fields
    have hbase : ∃ r₁, (if pid = p ∧ t = x then some (r.exit u) else k.thread pid t) = some r₁ ∧
        r₁.detached = false ∧ r₁.waiterTid = some w := by
      split_ifs with hpt
      · obtain ⟨rfl, rfl⟩ := hpt
        obtain rfl := Option.mem_unique hx hr₀
        exact ⟨_, rfl, hd, hw⟩
      · exact ⟨r₀, hr₀, hd, hw⟩
    obtain ⟨r₁, hr₁, hd₁, hw₁⟩ := hbase
    unfold WaitedBy
    rw [thread_exitThreadAuthenticated hx]
    by_cases hwake : pid = p ∧ r.waiterTid = some t
    · have hr₁' : (if t = x then some (r.exit u) else k.thread pid t) = some r₁ := by
        simpa [hwake.1] using hr₁
      rw [if_pos hwake, hr₁']
      exact ⟨r₁.wake, rfl, hd₁, hw₁⟩
    · rw [if_neg hwake]
      exact ⟨r₁, hr₁, hd₁, hw₁⟩

/-- Whatever call is made, `w` stays the waiter of `t` unless a join of `t` completes. -/
theorem waitedBy_step (h : k.WaitedBy pid w t)
    (c : ThreadCall) : c.Removes k pid t ∨ (c.step k).WaitedBy pid w t := by
  cases c with
  | reserve p =>
    obtain ⟨r, hr, hd⟩ := h
    exact .inr ⟨r, thread_reserveThreadId hr p, hd⟩
  | bind p x handle =>
    obtain ⟨r, hr, hd⟩ := h
    exact .inr ⟨r, thread_bindThreadHandle hr p x handle, hd⟩
  | join p y x cap =>
    obtain ⟨r, hr, hd, hs, hcap, hyx, heq⟩ | ⟨r, yr, hr, hyr, hreg, heq⟩ | ⟨⟨e, -, heq⟩, -, -⟩ :=
      beginThreadJoin_cases k p y x cap
    · by_cases hpt : pid = p ∧ t = x
      · obtain ⟨rfl, rfl⟩ := hpt
        exact .inl ⟨y, _, cap, rfl, by rw [heq]⟩
      · right
        unfold WaitedBy
        simp only [ThreadCall.step, heq]
        rw [thread_eraseThread, if_neg hpt, thread_pushRelease]
        exact h
    · right
      obtain ⟨-, hyx, r', hr', -, -, hnone⟩ := hreg
      obtain rfl := Option.mem_unique hr hr'
      have h₁ : (k.setThread p x { r with waiterTid := some y }).WaitedBy pid w t :=
        h.setThread hr (fun hw => by rw [hnone] at hw; cases hw)
      have hy : (k.setThread p x { r with waiterTid := some y }).thread p y = some yr := by
        rw [thread_setThread hr, if_neg (fun hh => hyx hh.2)]; exact hyr
      simp only [ThreadCall.step, heq]
      exact h₁.setThread hy (fun _ => ⟨rfl, rfl⟩)
    · right
      simpa [ThreadCall.step, heq] using h
  | exit p x u => exact .inr (waitedBy_exitThreadAuthenticated h p x u)
  | recordExit p x handle u =>
    right
    simp only [ThreadCall.step, recordThreadExitAuthenticated]
    cases hx : k.thread p x with
    | none => exact h
    | some r =>
      simp only
      split_ifs
      · exact h
      · exact waitedBy_exitThreadAuthenticated h p x u
  | detach p x =>
    right
    simp only [ThreadCall.step, detachThread]
    cases hx : k.thread p x with
    | none => exact h
    | some r =>
      simp only
      -- a record with a waiter is refused, so only other records are written
      have hnone : r.waiterTid.isSome = false → r.waiterTid ≠ some w := by
        intro h1 h2
        simp [h2] at h1
      split_ifs with h1 h2
      · exact h
      · exact h
      · exact (WaitedBy.pushRelease _).mpr
          (h.setThread hx (fun hw => absurd hw (hnone (by simpa using h2))))
      · exact h.setThread hx (fun hw => absurd hw (hnone (by simpa using h2)))
  | cancel p x | block p x | unblock p x =>
    right
    simp only [ThreadCall.step, requestThreadCancel, blockThread, unblockThread]
    cases hx : k.thread p x with
    | none => exact h
    | some r =>
      simp only
      split_ifs <;> first | exact h | exact h.setThread hx (fun _ => ⟨rfl, rfl⟩)
  | schedule => exact .inr (by simpa [ThreadCall.step, WaitedBy] using h)

end

/-! ### Runs -/

/-- Value `t` has exited with, if it has. -/
def Kernel.exitOf (t : Tid) : Option Nat :=
  (k.thread pid t).bind (fun r => if r.state = .exited then r.exitValue else none)

/-- A join of `t` by `w` made now completes with `v`. -/
def Kernel.Delivers (v : Nat) : Prop := ∀ cap, 4 ≤ cap → (k.beginThreadJoin pid w t cap).1 = .ok v

/-- The promise made to a registered joiner, until its join completes: no other join of `t`
    completes, and from the first point where `t` has exited (with `ex`) its own join would. -/
def JoinerServed (pid : Pid) (w t : Tid) : Option Nat → Kernel σ → List ThreadCall → Prop
  | ex, k, [] => ∀ v, ex = some v → k.Delivers pid w t v
  | ex, k, c :: cs =>
    (∀ v, ex = some v → k.Delivers pid w t v) ∧
    (∀ x u, c.Completes k pid x t u → x = w) ∧
    ((∃ u, c.Completes k pid w t u) ∨ JoinerServed pid w t (ex <|> (c.step k).exitOf pid t) (c.step k) cs)

/-- The call does not disturb `t` once it has exited, and is no join of the exited `t` by a thread
    other than `w`. -/
def ThreadCall.JoinSafe (k : Kernel σ) (c : ThreadCall) : Prop :=
  (∀ v, k.ExitedWith pid t v → ¬ c.Disturbs k pid t v) ∧
  ∀ x cap, c = .join pid x t cap → x ≠ w → ∀ r, k.thread pid t = some r → r.state ≠ .exited

section
variable {k : Kernel σ} {pid : Pid}

theorem exitOf_eq_some {t : Tid} :
    k.exitOf pid t = some v ↔ k.ExitedWith pid t v := by
  simp [exitOf, ExitedWith, Option.bind_eq_some_iff]

theorem Kernel.WaitedBy.delivers {w t : Tid} (h : k.WaitedBy pid w t)
    (hwt : w ≠ t) (hv : k.exitOf pid t = some v) :
    k.Delivers pid w t v := by
  intro cap hcap
  obtain ⟨r, hr, hs, hex⟩ := exitOf_eq_some.mp hv
  exact beginThreadJoin_ok_iff.mpr ⟨hcap, hwt, r, hr, (h.unique hr).1, hs, by rw [hex]; rfl⟩

/-- A safe call lets no other thread's join of `t` complete. -/
theorem completes_eq_waiter {w t : Tid} {u : Nat}
    (hsafe : c.JoinSafe pid w t k) (hc : c.Completes k pid x t u) : x = w := by
  obtain ⟨cap, rfl, hok⟩ := hc
  obtain ⟨-, -, r, hr, -, hs, -⟩ := beginThreadJoin_ok_iff.mp hok
  by_contra hxw
  exact hsafe.2 x cap rfl hxw r hr hs

/-- A safe call that does not remove `t` keeps the value it has exited with. -/
theorem exitOf_step {w t : Tid} (hsafe : c.JoinSafe pid w t k)
    (hrem : ¬ c.Removes k pid t) (hv : k.exitOf pid t = some v) :
    (c.step k).exitOf pid t = some v := by
  have hex := exitOf_eq_some.mp hv
  exact exitOf_eq_some.mpr (((keeps_exited_iff hex c).mpr (hsafe.1 v hex)).resolve_left hrem)

end

theorem joinerServed_of_safe {pid : Pid} {w t : Tid} (hwt : w ≠ t) : ∀ {cs : List ThreadCall}
    {k : Kernel σ}, k.WaitedBy pid w t →
    Run.Along ThreadCall.step (ThreadCall.JoinSafe pid w t) k cs →
    JoinerServed pid w t (k.exitOf pid t) k cs
  | [], _, h, _ => fun _ hv => h.delivers hwt hv
  | c :: cs, k, h, ⟨hsafe, hrun⟩ => by
    refine ⟨fun v hv => h.delivers hwt hv, fun x u hc => completes_eq_waiter hsafe hc, ?_⟩
    by_cases hrem : c.Removes k pid t
    · obtain ⟨x, u, hc⟩ := hrem
      obtain rfl := completes_eq_waiter hsafe hc
      exact .inl ⟨u, hc⟩
    · right
      have hnext : (k.exitOf pid t <|> (c.step k).exitOf pid t) = (c.step k).exitOf pid t := by
        cases hv : k.exitOf pid t with
        | none => rfl
        | some v => rw [exitOf_step hsafe hrem hv]; rfl
      rw [hnext]
      exact joinerServed_of_safe hwt ((waitedBy_step h c).resolve_left hrem) hrun

/-- A join that returned `EAGAIN` left its caller registered on a live target. -/
theorem beginThreadJoin_eagain {k : Kernel σ} {pid : Pid} {w t : Tid}
    (h : (k.beginThreadJoin pid w t cap).1 = .error EAGAIN) :
    w ≠ t ∧ (k.beginThreadJoin pid w t cap).2.WaitedBy pid w t ∧
      (k.beginThreadJoin pid w t cap).2.exitOf pid t = none := by
  obtain ⟨r, -, -, -, -, -, heq⟩ | ⟨r, wr, hr, hwr, hreg, heq⟩ | ⟨⟨e, he, heq⟩, -, -⟩ :=
    beginThreadJoin_cases k pid w t cap
  · rw [heq] at h; cases h
  · obtain ⟨-, hwt, r', hr', hd, hs, -⟩ := hreg
    obtain rfl := Option.mem_unique hr hr'
    have hw : (k.setThread pid t { r with waiterTid := some w }).thread pid w = some wr := by
      rw [thread_setThread hr, if_neg (fun hh => hwt hh.2)]; exact hwr
    have ht : (k.beginThreadJoin pid w t cap).2.thread pid t = some { r with waiterTid := some w } := by
      rw [heq, thread_setThread hw, if_neg (fun hh => hwt hh.2.symm),
        thread_setThread hr, if_pos ⟨rfl, rfl⟩]
    exact ⟨hwt, ⟨_, ht, hd, rfl⟩, by simp [exitOf, ht, hs]⟩
  · rw [heq] at h
    exact absurd (Except.error.inj h) he

/-- A joiner that was told to wait is served, along every run in which no other thread joins the
    target after it has exited and nothing disturbs the exited target. -/
theorem registered_joiner_served (cap : Nat)
    (cs : List ThreadCall) (hwait : (k.beginThreadJoin pid w t cap).1 = .error EAGAIN)
    (hrun : Run.Along ThreadCall.step (ThreadCall.JoinSafe pid w t) (k.beginThreadJoin pid w t cap).2 cs) :
    JoinerServed pid w t none (k.beginThreadJoin pid w t cap).2 cs := by
  obtain ⟨hwt, hreg, hnone⟩ := beginThreadJoin_eagain hwait
  have hserved := joinerServed_of_safe hwt hreg hrun
  rwa [hnone] at hserved

/-- Process 1 with worker threads 2 and 3. -/
def Kernel.twoWorkers : Kernel Unit := Run.run ThreadCall.step .oneProcess
    [.reserve 1, .bind 1 2 (some 7), .reserve 1, .bind 1 3 (some 8)]

/-- The main thread waits for thread 2, which exits with 9; the main thread then joins. -/
theorem registered_joiner_served_main : (Kernel.twoWorkers.beginThreadJoin 1 1 2 4).1 = .error EAGAIN ∧
      JoinerServed 1 1 2 none (Kernel.twoWorkers.beginThreadJoin 1 1 2 4).2
        [.exit 1 2 9, .join 1 1 2 4] := by
  refine ⟨by decide, registered_joiner_served twoWorkers 1 1 2 4 _ (by decide) ?_⟩
  refine ⟨⟨?_, ?_⟩, ⟨?_, ?_⟩, trivial⟩
  · intro v hv
    exact absurd (exitOf_eq_some.mpr hv) (by
      rw [show (twoWorkers.beginThreadJoin 1 1 2 4).2.exitOf 1 2 = none by decide]; simp)
  · intro x cap hc
    cases hc
  · rintro v - ⟨-, h12, -⟩
    exact absurd h12 (by decide)
  · intro x cap hc hx
    exact absurd (ThreadCall.join.inj hc).2.1.symm hx

/-- The main thread waits for thread 2; thread 3 joins it first and takes the record. -/
theorem third_thread_takes_join : (Kernel.twoWorkers.beginThreadJoin 1 1 2 4).1 = .error EAGAIN ∧
      ¬ JoinerServed 1 1 2 none (Kernel.twoWorkers.beginThreadJoin 1 1 2 4).2
        [.exit 1 2 9, .join 1 3 2 4] := by
  refine ⟨by decide, ?_⟩
  rintro ⟨-, -, ⟨u, cap, hc, -⟩ | ⟨-, hother, -⟩⟩
  · cases hc
  · exact absurd (hother 3 9 ⟨4, rfl, by decide⟩) (by decide)

end Yurt
