import YurtKernel.Dispatch.ThreadTable

/-! Host handles of worker threads are released once, when the thread is finished with.

    The record of a thread holds its handle until a completed join, an exit after a detach or a
    detach after an exit gives it up. `Account` says of one thread what its record and the notes
    about it have to do with each other. It hangs on the record saying truly whether the thread has
    exited, so no event may write to an exited thread as a waiter. -/

namespace Yurt
open Kernel
variable {σ : Type}
variable {more notes : List ThreadNote} {o o' : Option ThreadRecord} {note : ThreadNote}
  {past' : ThreadPast}

/-- The handle a note says was released. -/
def ThreadNote.handleReleased : ThreadNote → Option Int
  | .released _ handle => some handle
  | _ => none

/-- How often `kh_thread_release` was called with `handle`. -/
def releaseCount (notes : List ThreadNote) (handle : Int) : Nat :=
  (notes.filterMap ThreadNote.handleReleased).count handle

@[simp] theorem releaseCount_append (notes more : List ThreadNote) (handle : Int) :
    releaseCount (notes ++ more) handle = releaseCount notes handle + releaseCount more handle := by
  simp [releaseCount]

/-- A note that is not about a release does not count. -/
theorem releaseCount_cons_none (h : note.handleReleased = none) (notes : List ThreadNote)
    (handle : Int) :
    releaseCount (note :: notes) handle = releaseCount notes handle := by
  simp [releaseCount, h]

theorem releaseCount_releaseNotes (pid : Pid) (given : Option Int) (handle : Int) :
    releaseCount (releaseNotes pid given) handle = if given = some handle then 1 else 0 := by
  cases given with
  | none => rfl
  | some g =>
    by_cases h : g = handle <;>
      simp [releaseCount, releaseNotes, ThreadNote.handleReleased, h]

/-! ### The account of one thread -/

/-- What the notes say about a thread, and how often its handle was released. -/
structure ThreadPast where
  exited : Prop
  joined : Prop
  detached : Prop
  releases : Nat

/-- The past of thread `tid` of `pid`, which was spawned with `handle`. -/
def ThreadPast.of (notes : List ThreadNote) (pid : Pid) (tid : Tid) (handle : Int) : ThreadPast where
  exited := .exited pid tid ∈ notes
  joined := .joined pid tid ∈ notes
  detached := .detached pid tid ∈ notes
  releases := releaseCount notes handle

/-- The handle is in the record until the thread has exited and is detached. -/
structure ThreadRecord.Accounts (r : ThreadRecord) (tid : Tid) (handle : Int) (past : ThreadPast) :
    Prop where
  unjoined : ¬ past.joined
  exited : r.state = .exited ↔ past.exited
  detached : r.detached = true ↔ past.detached
  alone : r.detached = true → r.waiterTid = none
  noSelf : r.waiterTid ≠ some tid
  held : ¬ (past.exited ∧ past.detached) → r.hostThreadHandle = some handle ∧ past.releases = 0
  given : past.exited ∧ past.detached → r.hostThreadHandle = none ∧ past.releases = 1

/-- A thread without a record has been joined. -/
def Account (tid : Tid) (handle : Int) (past : ThreadPast) : Option ThreadRecord → Prop
  | some r => r.Accounts tid handle past
  | none => past.joined ∧ past.exited ∧ past.releases = 1

variable {tid : Tid} {handle : Int} {past : ThreadPast} {r r' : ThreadRecord}

theorem ThreadRecord.Accounts.like {clean : Prop} (h : r.Accounts tid handle past)
    (hlike : r.Like clean tid r') (hclean : clean) : r'.Accounts tid handle past where
  unjoined := h.unjoined
  exited := (hlike.state hclean).trans h.exited
  detached := by rw [hlike.detached]; exact h.detached
  alone hdetached := by
    rw [hlike.detached] at hdetached
    rcases hlike.waiter with hsame | ⟨hnot, -⟩
    · rw [hsame]
      exact h.alone hdetached
    · rw [hdetached] at hnot
      cases hnot
  noSelf := by
    rcases hlike.waiter with hsame | ⟨-, hne⟩
    · rw [hsame]
      exact h.noSelf
    · exact hne
  held hnot := by
    rw [hlike.handle]
    exact h.held hnot
  given hboth := by
    rw [hlike.handle]
    exact h.given hboth

/-- A call about another thread. -/
theorem Account.like {clean : Prop} (h : Account tid handle past o) (hlike : LikeAt clean tid o o')
    (hclean : clean) (hworker : tid ≠ mainThreadTid) :
    Account tid handle past o' := by
  cases o with
  | some r =>
    obtain ⟨r', rfl, hr'⟩ := hlike.keeps rfl
    exact ThreadRecord.Accounts.like h hr' hclean
  | none =>
    cases o' with
    | none => exact h
    | some r' => exact absurd hlike.1 hworker

theorem ThreadRecord.accounts_fresh (tid : Tid) (handle : Int) {past : ThreadPast}
    (hexited : ¬ past.exited) (hjoined : ¬ past.joined) (hdetached : ¬ past.detached)
    (hnone : past.releases = 0) :
    (ThreadRecord.fresh tid (some handle)).Accounts tid handle past where
  unjoined := hjoined
  exited := iff_of_false (by simp [ThreadRecord.fresh]) hexited
  detached := iff_of_false (by simp [ThreadRecord.fresh]) hdetached
  alone := fun h => by cases h
  noSelf := by simp [ThreadRecord.fresh]
  held := fun _ => ⟨rfl, hnone⟩
  given := fun h => absurd h.1 hexited

/-- What an exit of the thread itself gives up. -/
theorem ThreadRecord.Accounts.exit (h : r.Accounts tid handle past)
    (hdetached : r'.detached = r.detached) (hwaiter : r'.waiterTid = r.waiterTid)
    (hhandle : r'.hostThreadHandle = if r.releasesOnExit then none else r.hostThreadHandle)
    (hstate : r'.state = .exited) (hexited : past'.exited)
    (hjoined : past'.joined ↔ past.joined) (hdet : past'.detached ↔ past.detached)
    (hreleases : past'.releases = past.releases +
      if (if r.releasesOnExit then r.hostThreadHandle else none) = some handle then 1 else 0) :
    r'.Accounts tid handle past' := by
  have hrelease : r.releasesOnExit = true ↔ past.detached := by
    rw [← h.detached, ThreadRecord.releasesOnExit, Bool.and_eq_true, Option.isNone_iff_eq_none]
    exact ⟨fun hboth => hboth.1, fun hd => ⟨hd, h.alone hd⟩⟩
  refine ⟨fun hj => h.unjoined (hjoined.mp hj), iff_of_true hstate hexited, ?_, ?_, ?_, ?_, ?_⟩
  · rw [hdetached, hdet]
    exact h.detached
  · rw [hdetached, hwaiter]
    exact h.alone
  · rw [hwaiter]
    exact h.noSelf
  · intro hnot
    have hfree : ¬ past.detached := fun hd => hnot ⟨hexited, hdet.mpr hd⟩
    have hoff : ¬ r.releasesOnExit = true := fun hr => hfree (hrelease.mp hr)
    obtain ⟨hheld, hzero⟩ := h.held (fun hboth => hfree hboth.2)
    rw [hhandle, hreleases, if_neg hoff, if_neg hoff]
    exact ⟨hheld, hzero⟩
  · rintro ⟨-, hd⟩
    have hon := hrelease.mpr (hdet.mp hd)
    rw [hhandle, hreleases, if_pos hon, if_pos hon]
    by_cases hbefore : past.exited
    · -- a second report finds the handle gone
      obtain ⟨hnone, hone⟩ := h.given ⟨hbefore, hdet.mp hd⟩
      rw [hnone, hone]
      exact ⟨rfl, by simp⟩
    · obtain ⟨hheld, hzero⟩ := h.held (fun hboth => hbefore hboth.1)
      rw [hheld, hzero, if_pos rfl]
      exact ⟨rfl, rfl⟩

/-- What a detach of the thread gives up. -/
theorem ThreadRecord.Accounts.detach (h : r.Accounts tid handle past)
    (hnot : r.detached = false) (hdetached : r'.detached = true) (hwaiter : r'.waiterTid = none)
    (hhandle : r'.hostThreadHandle = if r.state = .exited then none else r.hostThreadHandle)
    (hstate : r'.state = r.state) (hexited : past'.exited ↔ past.exited)
    (hjoined : past'.joined ↔ past.joined) (hdet : past'.detached)
    (hreleases : past'.releases = past.releases +
      if (if r.state = .exited then r.hostThreadHandle else none) = some handle then 1 else 0) :
    r'.Accounts tid handle past' := by
  have hfree : ¬ past.detached := fun hd => by
    rw [h.detached.mpr hd] at hnot
    cases hnot
  obtain ⟨hheld, hzero⟩ := h.held (fun hboth => hfree hboth.2)
  refine ⟨fun hj => h.unjoined (hjoined.mp hj), ?_, iff_of_true hdetached hdet, fun _ => hwaiter, ?_,
    ?_, ?_⟩
  · rw [hstate, hexited]
    exact h.exited
  · rw [hwaiter]
    simp
  · intro hopen
    have hruns : ¬ r.state = .exited := fun hs => hopen ⟨hexited.mpr (h.exited.mp hs), hdet⟩
    rw [hhandle, hreleases, if_neg hruns, if_neg hruns]
    exact ⟨hheld, hzero⟩
  · rintro ⟨he, -⟩
    have hs := h.exited.mpr (hexited.mp he)
    rw [hhandle, hreleases, if_pos hs, if_pos hs, hheld, hzero, if_pos rfl]
    exact ⟨rfl, rfl⟩

/-! ### The accounts of a world -/

/-- Every thread that was spawned is accounted for, under a handle of its own. -/
structure ThreadWorld.Accounted (w : ThreadWorld σ) : Prop where
  bound : ∀ pid tid handle, .spawned pid tid handle ∈ w.notes → .bound pid tid ∈ w.notes
  known : ∀ pid tid, tid ≠ mainThreadTid →
    .exited pid tid ∈ w.notes ∨ .detached pid tid ∈ w.notes → .bound pid tid ∈ w.notes
  distinct : ∀ pid tid pid' tid' handle, .spawned pid tid handle ∈ w.notes →
    .spawned pid' tid' handle ∈ w.notes → pid = pid' ∧ tid = tid'
  owned : ∀ handle, releaseCount w.notes handle ≠ 0 → ∃ pid tid, .spawned pid tid handle ∈ w.notes
  owner : ∀ pid tid r handle, w.kernel.thread pid tid = some r → tid ≠ mainThreadTid →
    r.hostThreadHandle = some handle → .spawned pid tid handle ∈ w.notes
  account : ∀ pid tid handle, .spawned pid tid handle ∈ w.notes →
    Account tid handle (.of w.notes pid tid handle) (w.kernel.thread pid tid)

variable {w w' : ThreadWorld σ} {clean : Prop} {aim : Option ThreadNote} {pid : Pid}

/-- Notes about other threads do not change the past of this one. -/
theorem ThreadPast.of_append (hexited : .exited pid tid ∉ more) (hjoined : .joined pid tid ∉ more)
    (hdetached : .detached pid tid ∉ more) (hreleases : releaseCount more handle = 0) :
    ThreadPast.of (notes ++ more) pid tid handle = .of notes pid tid handle := by
  simp [ThreadPast.of, hexited, hjoined, hdetached, hreleases]

/-- An event that spawns nothing keeps the accounts if each of them still balances. -/
theorem ThreadWorld.Accounted.extend (h : w.Accounted)
    (hnotes : w'.notes = w.notes ++ more) (hspawned : ∀ p t x, .spawned p t x ∉ more)
    (hknown : ∀ p t, t ≠ mainThreadTid → .exited p t ∈ more ∨ .detached p t ∈ more → .bound p t ∈ w.notes)
    (howned : ∀ x, releaseCount more x ≠ 0 → ∃ p t, .spawned p t x ∈ w.notes)
    (howner : ∀ p t r' x, w'.kernel.thread p t = some r' → t ≠ mainThreadTid →
      r'.hostThreadHandle = some x →
      ∃ r, w.kernel.thread p t = some r ∧ r.hostThreadHandle = some x)
    (haccount : ∀ p t x, .spawned p t x ∈ w.notes →
      Account t x (.of (w.notes ++ more) p t x) (w'.kernel.thread p t)) : w'.Accounted := by
  have hmem : ∀ p t x, ThreadNote.spawned p t x ∈ w'.notes ↔ .spawned p t x ∈ w.notes := by
    simp [hnotes, hspawned]
  refine ⟨fun p t x hx => ?_, fun p t hworker hx => ?_, fun p t p' t' x hx hx' => ?_, fun x hx => ?_,
    fun p t r' x hr' hworker hx => ?_, fun p t x hx => ?_⟩
  · rw [hnotes]
    exact List.mem_append_left _ (h.bound p t x ((hmem p t x).mp hx))
  · rw [hnotes] at hx ⊢
    refine List.mem_append_left _ ?_
    rcases hx with hx | hx
    · rcases List.mem_append.mp hx with hold | hnew
      · exact h.known p t hworker (.inl hold)
      · exact hknown p t hworker (.inl hnew)
    · rcases List.mem_append.mp hx with hold | hnew
      · exact h.known p t hworker (.inr hold)
      · exact hknown p t hworker (.inr hnew)
  · exact h.distinct p t p' t' x ((hmem p t x).mp hx) ((hmem p' t' x).mp hx')
  · have howns : ∃ p t, ThreadNote.spawned p t x ∈ w.notes := by
      rw [hnotes, releaseCount_append] at hx
      by_cases hold : releaseCount w.notes x = 0
      · exact howned x (fun hnew => hx (by rw [hold, hnew]))
      · exact h.owned x hold
    obtain ⟨p, t, howns⟩ := howns
    exact ⟨p, t, (hmem p t x).mpr howns⟩
  · obtain ⟨r, hr, hrx⟩ := howner p t r' x hr' hworker hx
    exact (hmem p t x).mpr (h.owner p t r x hr hworker hrx)
  · rw [hnotes]
    exact haccount p t x ((hmem p t x).mp hx)

theorem LikeAt.held {r' : ThreadRecord} {x : Int} (hlike : LikeAt clean tid o o')
    (hr' : o' = some r') (hworker : tid ≠ mainThreadTid) (hx : r'.hostThreadHandle = some x) :
    ∃ r, o = some r ∧ r.hostThreadHandle = some x := by
  rcases hlike.back hr' with ⟨r, hr, hrr'⟩ | ⟨-, hmain, -⟩
  · exact ⟨r, hr, by rw [← hrr'.handle, hx]⟩
  · exact absurd hmain hworker

/-- An event that does nothing to threads but hand out an id or take one back. -/
theorem ThreadWorld.Accounted.quiet (h : w.Accounted) (htracked : w.Tracked)
    (hnotes : w'.notes = w.notes ++ more)
    (hquiet : ∀ note ∈ more, ∃ p t, note = .reserved p t ∨ note = .rolledBack p t)
    (hlike : w.kernel.AllLike clean w'.kernel) (hclean : clean) : w'.Accounted := by
  have habsent : ∀ note, (∀ p t, note ≠ .reserved p t ∧ note ≠ .rolledBack p t) → note ∉ more := by
    intro note hne hmem
    obtain ⟨p, t, heq | heq⟩ := hquiet note hmem
    · exact (hne p t).1 heq
    · exact (hne p t).2 heq
  have hcount : ∀ x, releaseCount more x = 0 := by
    intro x
    rw [releaseCount, List.count_eq_zero, List.mem_filterMap]
    rintro ⟨note, hmem, hreleased⟩
    obtain ⟨p, t, rfl | rfl⟩ := hquiet note hmem <;> cases hreleased
  refine h.extend hnotes (fun p t x => habsent _ (by simp)) ?_ (fun x hx => absurd (hcount x) hx)
    (fun p t r' x hr' hworker hx => (hlike p t).held hr' hworker hx) (fun p t x hx => ?_)
  · rintro p t - (hmem | hmem)
    · exact absurd hmem (habsent _ (by simp))
    · exact absurd hmem (habsent _ (by simp))
  · rw [ThreadPast.of_append (habsent _ (by simp)) (habsent _ (by simp)) (habsent _ (by simp))
      (hcount x)]
    exact (h.account p t x hx).like (hlike p t) hclean (htracked.worker p t (h.bound p t x hx))

/-- An event about thread `tid` of `pid`, a worker, that gives up `given` at most. -/
theorem ThreadWorld.Accounted.about (h : w.Accounted) (htracked : w.Tracked)
    {given : Option Int} (hnotes : w'.notes = w.notes ++ note :: releaseNotes pid given)
    (hnote : note = .exited pid tid ∨ note = .joined pid tid ∨ note = .detached pid tid)
    (hworker : tid ≠ mainThreadTid) {r : ThreadRecord} (hr : w.kernel.thread pid tid = some r)
    (hgiven : ∀ x, given = some x → r.hostThreadHandle = some x)
    (hhandle : ∀ r' x, w'.kernel.thread pid tid = some r' → r'.hostThreadHandle = some x →
      r.hostThreadHandle = some x)
    (hlike : w.kernel.LikeExcept clean w'.kernel pid tid) (hclean : clean)
    (haccount : ∀ x, r.Accounts tid x (.of w.notes pid tid x) →
      Account tid x (.of (w.notes ++ note :: releaseNotes pid given) pid tid x)
        (w'.kernel.thread pid tid)) : w'.Accounted := by
  have hsilent : note.handleReleased = none := by
    rcases hnote with rfl | rfl | rfl <;> rfl
  have hcount : ∀ x, releaseCount (note :: releaseNotes pid given) x ≠ 0 →
      .spawned pid tid x ∈ w.notes := by
    intro x hx
    rw [releaseCount_cons_none hsilent, releaseCount_releaseNotes] at hx
    have hgives : given = some x := by
      by_contra hne
      exact hx (if_neg hne)
    exact h.owner pid tid r x hr hworker (hgiven x hgives)
  refine h.extend hnotes ?_ ?_ (fun x hx => ⟨pid, tid, hcount x hx⟩) ?_ (fun p t x hx => ?_)
  · intro p t x hmem
    rcases hnote with rfl | rfl | rfl <;> cases given <;> simp [releaseNotes] at hmem
  · intro p t _ hmem
    have hsame : p = pid ∧ t = tid := by
      rcases hnote with rfl | rfl | rfl <;> cases given <;> simp_all [releaseNotes]
    rw [hsame.1, hsame.2]
    exact (htracked.present pid tid r hr hworker).1
  · intro p t r' x hr' hworker' hx
    by_cases hsame : p = pid ∧ t = tid
    · obtain ⟨rfl, rfl⟩ := hsame
      exact ⟨r, hr, hhandle r' x hr' hx⟩
    · exact (hlike p t hsame).held hr' hworker' hx
  · by_cases hsame : p = pid ∧ t = tid
    · obtain ⟨rfl, rfl⟩ := hsame
      have hold := h.account p t x hx
      rw [hr] at hold
      exact haccount x hold
    · -- the handle given up is another thread's
      have hzero : releaseCount (note :: releaseNotes pid given) x = 0 := by
        by_contra hne
        obtain ⟨hp, ht⟩ := h.distinct p t pid tid x hx (hcount x hne)
        exact hsame ⟨hp, ht⟩
      have hother : ∀ mark : Pid → Tid → ThreadNote, (∀ a b, mark a b ∉ releaseNotes pid given) →
          (∀ a b c d, mark a b = ThreadNote.exited c d ∨ mark a b = .joined c d ∨
            mark a b = .detached c d → a = c ∧ b = d) →
          mark p t ∉ note :: releaseNotes pid given := by
        intro mark hnever hmark hmem
        rcases List.mem_cons.mp hmem with heq | hmem
        · exact hsame (hmark p t pid tid (heq ▸ hnote))
        · exact hnever p t hmem
      rw [ThreadPast.of_append (hother .exited (fun _ _ => exited_mem_releaseNotes) (by simp))
        (hother .joined (fun _ _ => joined_mem_releaseNotes) (by simp))
        (hother .detached (fun _ _ => detached_mem_releaseNotes) (by simp)) hzero]
      exact (h.account p t x hx).like (hlike p t hsame) hclean
        (htracked.worker p t (h.bound p t x hx))

/-- A new thread, with a handle that no other thread was spawned with. -/
theorem ThreadWorld.Accounted.bind (h : w.Accounted) (htracked : w.Tracked)
    (hnotes : w'.notes = w.notes ++ [.spawned pid tid handle, .bound pid tid])
    (hfresh : ∀ p t, .spawned p t handle ∉ w.notes) (hworker : tid ≠ mainThreadTid)
    (hunbound : .bound pid tid ∉ w.notes)
    (hthread : w'.kernel.thread pid tid = some (.fresh tid (some handle)))
    (hlike : w.kernel.LikeExcept clean w'.kernel pid tid) (hclean : clean) : w'.Accounted := by
  have hunspawned : ∀ x, .spawned pid tid x ∉ w.notes := fun x hx => hunbound (h.bound pid tid x hx)
  have hspawned : ∀ p t x, ThreadNote.spawned p t x ∈ w'.notes ↔
      .spawned p t x ∈ w.notes ∨ p = pid ∧ t = tid ∧ x = handle := by
    simp [hnotes]
  have hpast : ∀ p t x, ThreadPast.of w'.notes p t x = .of w.notes p t x := by
    intro p t x
    rw [hnotes]
    exact ThreadPast.of_append (by simp) (by simp) (by simp) rfl
  refine ⟨fun p t x hx => ?_, fun p t hworker' hx => ?_, fun p t p' t' x hx hx' => ?_, fun x hx => ?_,
    fun p t r' x hr' hworker' hx => ?_, fun p t x hx => ?_⟩
  · rcases (hspawned p t x).mp hx with hold | ⟨rfl, rfl, -⟩
    · simp [hnotes, h.bound p t x hold]
    · simp [hnotes]
  · have hold : ThreadNote.exited p t ∈ w.notes ∨ .detached p t ∈ w.notes := by
      simpa [hnotes] using hx
    simp [hnotes, h.known p t hworker' hold]
  · rcases (hspawned p t x).mp hx with hold | ⟨rfl, rfl, rfl⟩
    · rcases (hspawned p' t' x).mp hx' with hold' | ⟨rfl, rfl, rfl⟩
      · exact h.distinct p t p' t' x hold hold'
      · exact absurd hold (hfresh p t)
    · rcases (hspawned p' t' x).mp hx' with hold' | ⟨rfl, rfl, -⟩
      · exact absurd hold' (hfresh p' t')
      · exact ⟨rfl, rfl⟩
  · have hold : releaseCount w.notes x ≠ 0 := by
      have hsame : releaseCount w'.notes x = releaseCount w.notes x :=
        congrArg ThreadPast.releases (hpast pid tid x)
      rwa [hsame] at hx
    obtain ⟨p, t, howns⟩ := h.owned x hold
    exact ⟨p, t, (hspawned p t x).mpr (.inl howns)⟩
  · rw [hspawned]
    by_cases hsame : p = pid ∧ t = tid
    · obtain ⟨rfl, rfl⟩ := hsame
      obtain rfl := Option.mem_unique hthread hr'
      exact .inr ⟨rfl, rfl, (Option.some.inj hx).symm⟩
    · obtain ⟨r, hr, hrx⟩ := (hlike p t hsame).held hr' hworker' hx
      exact .inl (h.owner p t r x hr hworker' hrx)
  · rw [hpast]
    rcases (hspawned p t x).mp hx with hold | ⟨rfl, rfl, rfl⟩
    · have hsame : ¬ (p = pid ∧ t = tid) := by
        rintro ⟨rfl, rfl⟩
        exact hunspawned x hold
      exact (h.account p t x hold).like (hlike p t hsame) hclean
        (htracked.worker p t (h.bound p t x hold))
    · -- a thread that was never bound has no past
      rw [hthread]
      refine ThreadRecord.accounts_fresh t x ?_ ?_ ?_ ?_
      · exact fun hexited => hunbound (h.known p t hworker (.inl hexited))
      · exact fun hjoined => hunbound (htracked.joined p t hjoined hworker)
      · exact fun hdetached => hunbound (h.known p t hworker (.inr hdetached))
      · by_contra hreleased
        obtain ⟨p', t', howns⟩ := h.owned x hreleased
        exact hfresh p' t' howns

/-! ### Runs -/

/-- The handle a note says `kh_thread_spawn` returned. -/
def ThreadNote.handleSpawned : ThreadNote → Option Int
  | .spawned _ _ handle => some handle
  | _ => none

/-- `kh_thread_spawn` returned no handle twice. -/
def HandlesDistinct (notes : List ThreadNote) : Prop := (notes.filterMap ThreadNote.handleSpawned).Nodup

instance (notes : List ThreadNote) : Decidable (HandlesDistinct notes) :=
  inferInstanceAs (Decidable (List.Nodup _))

theorem HandlesDistinct.left (h : HandlesDistinct (notes ++ more)) : HandlesDistinct notes := by
  rw [HandlesDistinct, List.filterMap_append] at h
  exact h.of_append_left

theorem HandlesDistinct.fresh (h : HandlesDistinct (notes ++ .spawned pid tid handle :: more))
    (p : Pid) (t : Tid) :
    .spawned p t handle ∉ notes := by
  intro hmem
  rw [HandlesDistinct, List.filterMap_append] at h
  refine List.disjoint_of_nodup_append h (a := handle) ?_ ?_
  · exact List.mem_filterMap.mpr ⟨_, hmem, rfl⟩
  · exact List.mem_filterMap.mpr ⟨_, List.mem_cons_self, rfl⟩

theorem ThreadWorld.Move.notes_append (hmove : w.Move clean aim w') :
    ∃ more, w'.notes = w.notes ++ more := by
  cases hmove with
  | still _ hnotes => exact ⟨[], by rw [hnotes, List.append_nil]⟩
  | rolledBack _ _ _ _ _ hnotes => exact ⟨_, by rw [hnotes, List.append_assoc]⟩
  | reserved _ _ _ _ _ hnotes => exact ⟨_, hnotes⟩
  | bound _ _ _ _ _ _ hnotes => exact ⟨_, hnotes⟩
  | exited _ _ _ _ _ _ _ _ hnotes => exact ⟨_, hnotes⟩
  | detached _ _ _ _ _ _ _ _ _ _ hnotes => exact ⟨_, hnotes⟩
  | joined _ _ _ _ _ _ _ _ _ hnotes => exact ⟨_, hnotes⟩

theorem ThreadWorld.Accounted.move (h : w.Accounted) (hids : w.IdsFit) (htracked : w.Tracked)
    {e : ThreadEvent} (hworker : e.AtWorker) (hmove : w.Move clean e.aim w') (hclean : clean)
    (hdistinct : HandlesDistinct w'.notes) : w'.Accounted := by
  cases hmove with
  | still hspawn hnotes hcount hlike =>
    exact h.quiet htracked (by rw [hnotes, List.append_nil]) (by simp) hlike hclean
  | reserved pid tid hid hmax hspawn hnotes hcount hlike =>
    exact h.quiet htracked hnotes (by simp) hlike hclean
  | rolledBack pid tid failed hout hspawn hnotes hfailed hcount hlike =>
    rcases hfailed with rfl | ⟨handle, -, hfails⟩
    · rw [List.append_nil] at hnotes
      exact h.quiet htracked hnotes (by simp) hlike hclean
    · -- an id under way can always be bound
      exact absurd (hids.bind_ok hout (some handle)) hfails
  | bound pid tid handle hout hnew hspawn hnotes hcount hthread hlike =>
    rw [hnotes] at hdistinct
    have hfresh := hdistinct.fresh
    obtain ⟨next, hnext⟩ := hids.alive pid tid hout
    obtain ⟨hfirst, -, hunused⟩ := (hids.fits pid next hnext).outstanding tid hout
    have hne : tid ≠ mainThreadTid := ne_of_gt (lt_of_lt_of_le (by decide) hfirst)
    exact h.bind htracked hnotes hfresh hne (fun hbound => hunused (.inl hbound)) hthread hlike hclean
  | exited pid tid haim r r' hr hr' hspawn hnotes hcount hdetached hwaiter hhandle hstate hlike =>
    rw [ThreadEvent.AtWorker, haim] at hworker
    refine h.about htracked hnotes (.inl rfl) hworker hr
      (fun x hx => (Option.ite_none_right_eq_some.mp hx).2) (fun r₁ x hr₁ hx => ?_) hlike hclean ?_
    · obtain rfl := Option.mem_unique hr' hr₁
      rw [hhandle] at hx
      exact (Option.ite_none_left_eq_some.mp hx).2
    · intro x hold
      rw [hr']
      refine hold.exit hdetached hwaiter hhandle (hstate hold.noSelf) ?_ ?_ ?_ ?_
      · simp [ThreadPast.of]
      · simp [ThreadPast.of]
      · simp [ThreadPast.of]
      · simp only [ThreadPast.of, releaseCount_append, releaseCount_releaseNotes,
          releaseCount_cons_none (show (ThreadNote.exited pid tid).handleReleased = none from rfl)]
  | detached pid tid haim r r' hr hr' hspawn hnot hfree hnotes hcount hdetached hwaiter hhandle hstate
      hlike =>
    rw [ThreadEvent.AtWorker, haim] at hworker
    refine h.about htracked hnotes (.inr (.inr rfl)) hworker hr
      (fun x hx => (Option.ite_none_right_eq_some.mp hx).2) (fun r₁ x hr₁ hx => ?_) hlike hclean ?_
    · obtain rfl := Option.mem_unique hr' hr₁
      rw [hhandle] at hx
      exact (Option.ite_none_left_eq_some.mp hx).2
    · intro x hold
      rw [hr']
      refine hold.detach hnot hdetached hwaiter hhandle hstate ?_ ?_ ?_ ?_
      · simp [ThreadPast.of]
      · simp [ThreadPast.of]
      · simp [ThreadPast.of]
      · simp only [ThreadPast.of, releaseCount_append, releaseCount_releaseNotes,
          releaseCount_cons_none (show (ThreadNote.detached pid tid).handleReleased = none from rfl)]
  | joined pid tid haim r hr hnot hexited hgone hspawn hnotes hcount hlike =>
    rw [ThreadEvent.AtWorker, haim] at hworker
    refine h.about htracked hnotes (.inr (.inl rfl)) hworker hr (fun _ hx => hx) (fun r₁ x hr₁ => ?_)
      hlike hclean ?_
    · cases hgone.symm.trans hr₁
    · intro x hold
      have hfree : ¬ (ThreadPast.of w.notes pid tid x).detached := fun hd => by
        rw [hold.detached.mpr hd] at hnot
        cases hnot
      obtain ⟨hheld, hzero⟩ := hold.held (fun hboth => hfree hboth.2)
      rw [hgone]
      refine ⟨by simp [ThreadPast.of], ?_, ?_⟩
      · have hdone := hold.exited.mp hexited
        simp only [ThreadPast.of] at hdone ⊢
        exact List.mem_append_left _ hdone
      · simp only [ThreadPast.of] at hzero ⊢
        rw [releaseCount_append,
          releaseCount_cons_none (show (ThreadNote.joined pid tid).handleReleased = none from rfl),
          releaseCount_releaseNotes, hheld, hzero, if_pos rfl]

/-- Each handle that was returned for a thread is released at most once, not before the thread has
    exited, and once if it has exited and been joined or detached. -/
def ThreadWorld.ReleasedOnce (w : ThreadWorld σ) : Prop :=
  ∀ pid tid handle, .spawned pid tid handle ∈ w.notes → releaseCount w.notes handle ≤ 1 ∧
    (releaseCount w.notes handle ≠ 0 → .exited pid tid ∈ w.notes) ∧
    (.exited pid tid ∈ w.notes → .joined pid tid ∈ w.notes ∨ .detached pid tid ∈ w.notes →
      releaseCount w.notes handle = 1)

theorem ThreadWorld.Accounted.releasedOnce (h : w.Accounted) : w.ReleasedOnce := by
  intro pid tid handle hspawned
  have haccount := h.account pid tid handle hspawned
  cases hr : w.kernel.thread pid tid with
  | none =>
    rw [hr] at haccount
    obtain ⟨-, hexited, hone⟩ := haccount
    exact ⟨le_of_eq hone, fun _ => hexited, fun _ _ => hone⟩
  | some r =>
    rw [hr] at haccount
    by_cases hboth : (ThreadPast.of w.notes pid tid handle).exited ∧
        (ThreadPast.of w.notes pid tid handle).detached
    · obtain ⟨-, hone⟩ := haccount.given hboth
      exact ⟨le_of_eq hone, fun _ => hboth.1, fun _ _ => hone⟩
    · obtain ⟨-, hzero⟩ := haccount.held hboth
      refine ⟨le_of_eq_of_le hzero (Nat.zero_le 1), fun hne => absurd hzero hne, ?_⟩
      rintro hexited (hjoined | hdetached)
      · exact absurd hjoined haccount.unjoined
      · exact absurd ⟨hexited, hdetached⟩ hboth

theorem Kernel.WorkerFree.accounted {k : Kernel σ} (h : k.WorkerFree) :
    (ThreadWorld.start k).Accounted where
  bound _ _ _ hnote := by cases hnote
  known _ _ _ hnote := by rcases hnote with hnote | hnote <;> cases hnote
  distinct _ _ _ _ _ hnote := by cases hnote
  owned _ hcount := absurd rfl hcount
  owner pid tid r _ hr hworker := absurd (h.main pid tid r hr) hworker
  account _ _ _ hnote := by cases hnote

/-- What a run about worker threads keeps: the accounts balance if no handle came twice. -/
theorem ThreadWorld.accounted_run (es : List ThreadEvent) (hdrained : w.Drained) (hids : w.IdsFit)
    (htracked : w.Tracked) (haccounted : HandlesDistinct w.notes → w.Accounted)
    (hworker : ∀ e ∈ es, e.AtWorker)
    (hclean : Run.Along ThreadEvent.step (fun w e => e.Clean w) w es)
    (hdistinct : HandlesDistinct (Run.run ThreadEvent.step w es).notes) :
    (Run.run ThreadEvent.step w es).Accounted := by
  induction es generalizing w with
  | nil => exact haccounted hdistinct
  | cons e es ih =>
    have hmove := ThreadWorld.step_move hdrained e
    refine ih (hdrained.step e) (hids.move hmove) (htracked.move hids hmove) (fun hd => ?_)
      (fun e' he' => hworker e' (List.mem_cons_of_mem e he')) hclean.2 hdistinct
    have hbefore : HandlesDistinct w.notes := by
      obtain ⟨more, hmore⟩ := hmove.notes_append
      rw [hmore] at hd
      exact hd.left
    exact (haccounted hbefore).move hids htracked (hworker e List.mem_cons_self) hmove hclean.1 hd

/-- Along every run of calls about worker threads, with distinct handles, that never writes to an
    exited thread as a waiter, every handle is released once and in time. -/
theorem worker_handles_released_once (k : Kernel σ) (hk : k.WorkerFree) (es : List ThreadEvent)
    (hworker : ∀ e ∈ es, e.AtWorker)
    (hdistinct : HandlesDistinct (Run.run ThreadEvent.step (ThreadWorld.start k) es).notes)
    (hclean : Run.Along ThreadEvent.step (fun w e => e.Clean w) (ThreadWorld.start k) es) :
    (Run.run ThreadEvent.step (ThreadWorld.start k) es).ReleasedOnce :=
  (ThreadWorld.accounted_run (w := ThreadWorld.start k) es hk.drained hk.atRest.idsFit hk.tracked
    (fun _ => hk.accounted) hworker
    hclean hdistinct).releasedOnce

/-- Two workers: one is detached and then exits, as its guest and its host report; the other is
    waited for, exits and is joined. -/
def twoWorkers : List ThreadEvent :=
  let main : DispatchContext := ⟨1, mainThreadTid⟩
  [.spawn main (leBytes 8 0), .spawnReturns 1 2 7, .spawn main (leBytes 8 0), .spawnReturns 1 3 8,
    .detach main (leBytes 4 2), .exit ⟨1, 2⟩ (leBytes 4 0), .hostExitAuthenticated 1 2 7 0,
    .join main (leBytes 4 3) 4, .exit ⟨1, 3⟩ (leBytes 4 5), .join main (leBytes 4 3) 4]

instance (k : Kernel σ) (pid : Pid) (tid : Tid) : Decidable (k.ExitIsClean pid tid) :=
  decidable_of_iff (∀ r ∈ k.thread pid tid, ∀ waiter ∈ r.waiterTid, ∀ r' ∈ k.thread pid waiter,
    r'.state ≠ .exited)
    ⟨fun h r waiter r' hr hwaiter hr' => h r hr waiter hwaiter r' hr',
      fun h r hr waiter hwaiter r' hr' => h r waiter r' hr hwaiter hr'⟩

instance (w : ThreadWorld σ) (e : ThreadEvent) : Decidable (e.Clean w) :=
  match e with
  | .join ctx _ _ => inferInstanceAs
      (Decidable (∀ r ∈ w.kernel.thread ctx.callerPid ctx.callerTid, r.state ≠ .exited))
  | .exit ctx _ => inferInstanceAs (Decidable (w.kernel.ExitIsClean ctx.callerPid ctx.callerTid))
  | .hostExit pid tid _ => inferInstanceAs (Decidable (w.kernel.ExitIsClean pid tid))
  | .hostExitAuthenticated pid tid _ _ => inferInstanceAs (Decidable (w.kernel.ExitIsClean pid tid))
  | .spawn _ _ => isTrue trivial
  | .spawnReturns _ _ _ => isTrue trivial
  | .detach _ _ => isTrue trivial
  | .cancel _ _ => isTrue trivial
  | .hostDetach _ _ => isTrue trivial

theorem worker_handles_released_once_twoWorkers :
    let w := Run.run ThreadEvent.step (ThreadWorld.start oneProcess) twoWorkers
    w.ReleasedOnce ∧ releaseCount w.notes 7 = 1 ∧ releaseCount w.notes 8 = 1 := by
  exact ⟨worker_handles_released_once oneProcess oneProcess_workerFree twoWorkers
    (by decide) (by decide) (by decide), by decide, by decide⟩

/-- Thread 2 waits for thread 3 when the host reports its exit; the exit of thread 3 then wakes it. -/
def wokenAfterExit : List ThreadEvent :=
  let main : DispatchContext := ⟨1, mainThreadTid⟩
  [.spawn main (leBytes 8 0), .spawnReturns 1 2 7, .spawn main (leBytes 8 0), .spawnReturns 1 3 8,
    .join ⟨1, 2⟩ (leBytes 4 3) 4, .hostExit 1 2 0, .exit ⟨1, 3⟩ (leBytes 4 0),
    .detach main (leBytes 4 2)]

/-- Thread 2 has exited and is detached, and its handle is kept for ever. -/
theorem handle_of_woken_thread_kept :
    let w := Run.run ThreadEvent.step (ThreadWorld.start oneProcess) wokenAfterExit
    (∀ e ∈ wokenAfterExit, e.AtWorker) ∧ HandlesDistinct w.notes ∧
      .exited 1 2 ∈ w.notes ∧ .detached 1 2 ∈ w.notes ∧ releaseCount w.notes 7 = 0 ∧
      ¬ w.ReleasedOnce := by
  have hkept : releaseCount
      (Run.run ThreadEvent.step (ThreadWorld.start oneProcess) wokenAfterExit).notes 7 = 0 := by
    decide
  refine ⟨by decide, by decide, by decide, by decide, hkept, fun h => ?_⟩
  obtain ⟨-, -, honce⟩ := h 1 2 7 (by decide)
  have hone := honce (by decide) (.inr (by decide))
  rw [hkept] at hone
  cases hone

end Yurt
