import YurtKernel.Lib.Run
import YurtKernel.Kernel.State

/-! Thread-specific data (`abi/rust/yurt-libc/src/pthread.rs`).

    A key has one slot for each thread id below `TLS_THREADS_MAX`. The calls hold a lock, so they run
    one after the other. Beside the keys the world has the ids the kernel gives to threads, and what
    each live key should hold for each thread. -/

namespace Yurt.ThreadData

def TLS_KEYS_MAX : Nat := 64
def TLS_THREADS_MAX : Nat := 128

def EAGAIN : Int := 6
def EINVAL : Int := 28

/-- The arrays are read below `TLS_THREADS_MAX`; zero is NULL. -/
structure TlsKey where
  inUse : Bool
  generation : Nat
  destructor : Nat
  values : Nat → Nat
  valueGenerations : Nat → Nat

def TlsKey.empty : TlsKey := ⟨false, 0, 0, fun _ => 0, fun _ => 0⟩

/-- `wrapping_add(1).max(1)`. -/
def nextGeneration (generation : Nat) : Nat := max ((generation + 1) % 2 ^ 32) 1

def TlsKey.activate (slot : TlsKey) (destructor : Nat) : TlsKey where
  inUse := true
  generation := nextGeneration slot.generation
  destructor := destructor
  values _ := 0
  valueGenerations _ := nextGeneration slot.generation

def TlsKey.deactivate (slot : TlsKey) : TlsKey :=
  { TlsKey.empty with generation := nextGeneration slot.generation }

/-- The table, read below `TLS_KEYS_MAX`. -/
abbrev Keys := Nat → TlsKey

section
variable (keys : Keys) (key : Nat)

/-- The slot of a key in use. -/
def Keys.active : Bool := key < TLS_KEYS_MAX && (keys key).inUse

/-- Answer, the number written to `key` and the table. -/
def keyCreate (keyIsNull : Bool) (destructor : Nat) : Int × Option Nat × Keys :=
  if keyIsNull then (EINVAL, none, keys) else
  match (List.range TLS_KEYS_MAX).find? (fun index => !(keys index).inUse) with
  | some index => (0, some index, Function.update keys index ((keys index).activate destructor))
  | none => (EAGAIN, none, keys)

def keyDelete : Int × Keys :=
  if keys.active key then (0, Function.update keys key (keys key).deactivate) else (EINVAL, keys)

/-- `tid` is what `host_thread_self` answers. -/
def setspecific (tid : Int) (key value : Nat) : Int × Keys :=
  if tid < 0 ∨ TLS_THREADS_MAX ≤ tid.toNat then (EINVAL, keys)
  else if keys.active key then
    let slot := keys key
    (0, Function.update keys key { slot with
      values := Function.update slot.values tid.toNat value
      valueGenerations := Function.update slot.valueGenerations tid.toNat slot.generation })
  else (EINVAL, keys)

def getspecific (tid : Int) (key : Nat) : Nat :=
  if tid < 0 ∨ TLS_THREADS_MAX ≤ tid.toNat then 0
  else if keys.active key then
    if (keys key).valueGenerations tid.toNat ≠ (keys key).generation then 0
    else (keys key).values tid.toNat
  else 0

end

/-! ### A process and its threads -/

inductive Event where
  | spawn
  | exit (tid : Nat)
  | keyCreate (tid : Nat) (keyIsNull : Bool) (destructor : Nat)
  | keyDelete (tid key : Nat)
  | setspecific (tid key value : Nat)
  | getspecific (tid key : Nat)

/-- The thread that makes the call. -/
def Event.caller : Event → Option Nat
  | .spawn | .exit _ => none
  | .keyCreate tid _ _ | .keyDelete tid _ | .setspecific tid _ _ | .getspecific tid _ => some tid

/-- The ids of the kernel, the table, and what each live key should hold for each thread. -/
structure World where
  nextTid : Nat
  alive : Finset Nat
  keys : Keys
  data : Nat → Option (Nat → Nat)

def World.start : World := ⟨firstWorkerTid, {1}, fun _ => .empty, fun _ => none⟩

section
variable (w : World)

/-- What a live key should hold after a thread sets it. -/
def World.put (tid key value : Nat) : Nat → Option (Nat → Nat) :=
  Function.update w.data key ((w.data key).map (fun held => Function.update held tid value))

/-- The call of a thread that is alive. -/
def World.call : Event → World
  | .spawn | .exit _ | .getspecific _ _ => w
  | .keyCreate _ keyIsNull destructor =>
    let r := ThreadData.keyCreate w.keys keyIsNull destructor
    { w with keys := r.2.2, data := match r.2.1 with
        | some key => Function.update w.data key (some (fun _ => 0))
        | none => w.data }
  | .keyDelete _ key =>
    { w with keys := (ThreadData.keyDelete w.keys key).2, data := Function.update w.data key none }
  | .setspecific tid key value =>
    { w with keys := (ThreadData.setspecific w.keys tid key value).2, data := w.put tid key value }

/-- Threads get their ids as in `reserve_thread_id`; a thread that is not alive makes no call. -/
def World.step (e : Event) : World :=
  match e with
  | .spawn =>
    let tid := max w.nextTid firstWorkerTid
    if maxGuestThreadId < tid then w else { w with nextTid := tid + 1, alive := insert tid w.alive }
  | .exit tid => { w with alive := w.alive.erase tid }
  | e => if ∃ tid ∈ w.alive, e.caller = some tid then w.call e else w

/-- Setting a live key works, getting it gives what the thread set last, and a new key is none that is
    live, made whenever there is one. -/
def World.Right : Event → Prop
  | .spawn | .exit _ | .keyDelete _ _ => True
  | .keyCreate _ keyIsNull destructor =>
    let r := ThreadData.keyCreate w.keys keyIsNull destructor
    (∀ key, r.2.1 = some key → w.data key = none) ∧ (r.1 = EAGAIN → ∀ key < TLS_KEYS_MAX, w.data key ≠ none)
  | .setspecific tid key value => tid ∈ w.alive → w.data key ≠ none →
    (ThreadData.setspecific w.keys tid key value).1 = 0
  | .getspecific tid key => tid ∈ w.alive → ∀ held, w.data key = some held →
    ThreadData.getspecific w.keys tid key = held tid

/-- No thread sets a live key whose id has no slot. -/
def World.Slotted : Event → Prop
  | .setspecific tid key _ => tid ∈ w.alive → w.data key ≠ none → tid < TLS_THREADS_MAX
  | _ => True

end

/-- The table has a slot in use for each live key, with what it should hold. -/
structure Keys.Hold (keys : Keys) (data : Nat → Option (Nat → Nat)) : Prop where
  live : ∀ key, data key = none ↔ keys.active key = false
  value : ∀ key held, data key = some held → ∀ tid : Nat, getspecific keys tid key = held tid

/-- The table holds what it should. -/
def World.Held (w : World) : Prop := w.keys.Hold w.data

variable {w : World} {keys : Keys} {data : Nat → Option (Nat → Nat)} {tid key value : Nat}

theorem World.held_start : World.start.Held where
  live key := by simp [start, Keys.active, TlsKey.empty]
  value key held hheld := nomatch hheld

/-- A key of another number is the same slot as before. -/
theorem active_update_ne {key' : Nat} (hne : key' ≠ key) (slot : TlsKey) :
    Keys.active (Function.update keys key slot) key' = keys.active key' := by
  rw [Keys.active, Keys.active, Function.update_of_ne hne]

theorem getspecific_update_ne {key' : Nat} (hne : key' ≠ key) (slot : TlsKey) (tid : Int) :
    getspecific (Function.update keys key slot) tid key' = getspecific keys tid key' := by
  simp only [getspecific, active_update_ne hne, Function.update_of_ne hne]

/-- One slot is written and the same key of the data. -/
theorem Keys.Hold.write (h : keys.Hold data) {slot : TlsKey} {held? : Option (Nat → Nat)}
    (hlive : held? = none ↔ Keys.active (Function.update keys key slot) key = false)
    (hvalue : ∀ held, held? = some held → ∀ tid : Nat,
      getspecific (Function.update keys key slot) tid key = held tid) :
    Keys.Hold (Function.update keys key slot) (Function.update data key held?) where
  live key' := by
    by_cases hkey : key' = key
    · rw [hkey, Function.update_self]
      exact hlive
    · rw [Function.update_of_ne hkey, active_update_ne hkey]
      exact h.live key'
  value key' held hheld tid := by
    by_cases hkey : key' = key
    · subst hkey
      exact hvalue held (by rwa [Function.update_self] at hheld) tid
    · rw [Function.update_of_ne hkey] at hheld
      exact (getspecific_update_ne hkey slot tid).trans (h.value key' held hheld tid)

/-! ### One call -/

theorem World.Held.keyCreate_right (h : w.Held) (keyIsNull : Bool) (destructor : Nat) :
    w.Right (.keyCreate tid keyIsNull destructor) := by
  unfold World.Right ThreadData.keyCreate
  cases keyIsNull
  · simp only [Bool.false_eq_true, if_false]
    cases hfind : (List.range TLS_KEYS_MAX).find? (fun index => !(w.keys index).inUse) with
    | some index =>
      have hzero : (0 : Int) ≠ EAGAIN := by decide
      refine ⟨fun key hkey => (h.live key).mpr ?_, fun heq => absurd heq hzero⟩
      cases hkey
      have hfree := List.find?_some hfind
      simp_all [Keys.active]
    | none =>
      refine ⟨nofun, fun _ key hkey hnone => ?_⟩
      have hused := List.find?_eq_none.mp hfind key (List.mem_range.mpr hkey)
      have hdead := (h.live key).mp hnone
      simp_all [Keys.active]
  · exact ⟨nofun, fun heq => absurd heq (show EINVAL ≠ EAGAIN by decide)⟩

theorem World.Held.keyCreate (h : w.Held) (keyIsNull : Bool) (destructor : Nat) :
    (w.call (.keyCreate tid keyIsNull destructor)).Held := by
  unfold World.call ThreadData.keyCreate
  cases keyIsNull
  · simp only [Bool.false_eq_true, if_false]
    cases hfind : (List.range TLS_KEYS_MAX).find? (fun index => !(w.keys index).inUse) with
    | some index =>
      have hindex : index < TLS_KEYS_MAX := List.mem_range.mp (List.mem_of_find?_eq_some hfind)
      refine Keys.Hold.write h ?_ (fun held hheld tid => ?_)
      · simp [Keys.active, TlsKey.activate, hindex]
      · -- a fresh key holds null for every thread
        cases hheld
        simp [getspecific, TlsKey.activate]
    | none => exact h
  · exact h

theorem World.Held.keyDelete (h : w.Held) : (w.call (.keyDelete tid key)).Held := by
  unfold World.call ThreadData.keyDelete
  dsimp only
  split
  · refine Keys.Hold.write h ?_ (fun held hheld => nomatch hheld)
    simp [Keys.active, TlsKey.deactivate, TlsKey.empty]
  · next hdead =>
    have hnone := (h.live key).mpr (by simpa using hdead)
    rwa [← hnone, Function.update_eq_self]

/-- Whether a thread has no slot. -/
theorem no_slot_iff :
    ((tid : Int) < 0 ∨ TLS_THREADS_MAX ≤ (tid : Int).toNat) ↔ ¬ tid < TLS_THREADS_MAX := by
  rw [Int.toNat_natCast, or_iff_right (Int.natCast_nonneg tid).not_gt, not_lt]

theorem getspecific_eq : getspecific keys tid key =
    if tid < TLS_THREADS_MAX ∧ keys.active key = true ∧
      (keys key).valueGenerations tid = (keys key).generation then (keys key).values tid else 0 := by
  unfold getspecific
  rw [if_congr no_slot_iff rfl rfl, Int.toNat_natCast]
  split_ifs <;> simp_all

/-- The slot of a key in which a thread has set a value. -/
def TlsKey.put (slot : TlsKey) (tid value : Nat) : TlsKey :=
  { slot with
    values := Function.update slot.values tid value
    valueGenerations := Function.update slot.valueGenerations tid slot.generation }

theorem setspecific_eq : setspecific keys tid key value =
    if tid < TLS_THREADS_MAX ∧ keys.active key = true then
      (0, Function.update keys key ((keys key).put tid value)) else (EINVAL, keys) := by
  unfold setspecific
  rw [if_congr no_slot_iff rfl rfl, Int.toNat_natCast, ite_not, ite_and]
  rfl

/-- A set works exactly if the key is in use and the thread has a slot. -/
theorem setspecific_eq_zero : (setspecific keys tid key value).1 = 0 ↔
    tid < TLS_THREADS_MAX ∧ keys.active key = true := by
  rw [setspecific_eq]
  split_ifs with hslot
  · exact iff_of_true rfl hslot
  · exact iff_of_false (show EINVAL ≠ 0 by decide) hslot

theorem Keys.Hold.setspecific (h : keys.Hold data) (hslot : data key ≠ none → tid < TLS_THREADS_MAX) :
    Keys.Hold (setspecific keys tid key value).2
      (Function.update data key ((data key).map (fun held => Function.update held tid value))) := by
  rw [setspecific_eq]
  cases hheld : data key with
  | none =>
    have hdead := (h.live key).mp hheld
    rw [if_neg (by simp [hdead]), Option.map_none, ← hheld, Function.update_eq_self]
    exact h
  | some held =>
    have htid := hslot (by simp [hheld])
    have hactive : keys.active key = true := by
      rw [← Bool.not_eq_false, ← h.live, hheld]
      simp
    have hput : Keys.active (Function.update keys key ((keys key).put tid value)) key = true := by
      rw [← hactive, Keys.active, Keys.active, Function.update_self]
      rfl
    rw [if_pos ⟨htid, hactive⟩]
    refine h.write (by simp [hput]) (fun held' hheld' t => ?_)
    cases hheld'
    have hvalue := h.value key held hheld t
    rw [getspecific_eq] at hvalue ⊢
    rw [hput, Function.update_self]
    by_cases ht : t = tid
    · subst ht
      simp [TlsKey.put, htid]
    · simpa [TlsKey.put, hactive, Function.update_of_ne ht] using hvalue

/-! ### Runs -/

theorem World.Held.right_iff (h : w.Held) (e : Event) : w.Right e ↔ w.Slotted e := by
  cases e with
  | spawn | exit | keyDelete => exact Iff.rfl
  | keyCreate tid keyIsNull destructor => exact iff_of_true (h.keyCreate_right keyIsNull destructor) trivial
  | getspecific tid key => exact iff_of_true (fun _ held hheld => h.value key held hheld tid) trivial
  | setspecific tid key value =>
    refine forall_congr' (fun _ => forall_congr' (fun hlive => ?_))
    rw [setspecific_eq_zero]
    refine and_iff_left ?_
    rwa [← Bool.not_eq_false, ← h.live]

theorem World.Held.step (h : w.Held) {e : Event} (hslot : w.Slotted e) : (w.step e).Held := by
  have hcall : (∀ tid ∈ w.alive, e.caller = some tid → (w.call e).Held) →
      (if ∃ tid ∈ w.alive, e.caller = some tid then w.call e else w).Held := by
    intro hheld
    split
    · next hcaller =>
      obtain ⟨tid, halive, htid⟩ := hcaller
      exact hheld tid halive htid
    · exact h
  cases e with
  | spawn =>
    unfold World.step
    dsimp only
    split
    · exact h
    · exact ⟨h.live, h.value⟩
  | exit tid => exact ⟨h.live, h.value⟩
  | keyCreate tid keyIsNull destructor => exact hcall (fun _ _ _ => h.keyCreate keyIsNull destructor)
  | keyDelete tid key => exact hcall (fun _ _ _ => h.keyDelete)
  | getspecific tid key => exact hcall (fun _ _ _ => h)
  | setspecific tid key value =>
    refine hcall (fun t halive ht => Keys.Hold.setspecific h ?_)
    cases ht
    exact hslot halive

/-- Thread-specific data is private and available in a run exactly if no thread that sets a live key
    has an id without a slot. -/
theorem thread_data_iff (events : List Event) : Run.Along World.step World.Right .start events ↔
      Run.Along World.step World.Slotted .start events :=
  Run.along_iff World.step (C := fun _ => True) (fun _ e h _ => h.right_iff e)
    (fun _ _ h _ hslot => h.step hslot) World.held_start (fun _ _ => trivial)

/-- One thread after the other, up to the one whose id has no slot. -/
def oneAfterTheOther : List Event :=
  .keyCreate 1 false 0 :: (List.range 126).flatMap (fun i => [.spawn, .exit (i + 2)]) ++ [.spawn]

set_option linter.constructorNameAsVariable false in
/-- With two threads alive at a time, the last of them cannot set the one key. -/
theorem late_thread_refused : Run.Along World.step (fun w _ => w.alive.card ≤ 127) .start
        (oneAfterTheOther ++ [.setspecific 128 0 7]) ∧
      ¬ Run.Along World.step World.Right .start (oneAfterTheOther ++ [.setspecific 128 0 7]) := by
  refine ⟨by decide +kernel, fun hright => ?_⟩
  have hlast := ((Run.along_append World.step).mp hright).2.1
  have halive : 128 ∈ (Run.run World.step .start oneAfterTheOther).alive := by decide +kernel
  have hlive : ((Run.run World.step .start oneAfterTheOther).data 0).isSome = true := by decide +kernel
  have hrefused :
      (setspecific (Run.run World.step .start oneAfterTheOther).keys (128 : Nat) 0 7).1 ≠ 0 := by
    decide +kernel
  generalize Run.run World.step .start oneAfterTheOther = w at hlast halive hlive hrefused
  exact hrefused (hlast halive (Option.isSome_iff_ne_none.mp hlive))

end Yurt.ThreadData
