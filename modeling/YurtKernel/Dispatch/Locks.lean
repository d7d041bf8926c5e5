import YurtKernel.Kernel.Records
import YurtKernel.Dispatch.Messages
import YurtKernel.Dispatch.Stock

/-! Advisory locks (`kernel.rs`, `dispatch/fs.rs`).

    A lock belongs to an open file description. `flock` is the only call that takes or changes one;
    every other call leaves to each description what it holds for as long as the description is there.
    With exact counts a description is there exactly as long as something refers to it. -/

namespace Yurt
open Kernel SortedMap
variable {σ : Type} {k k' : Kernel σ} {pid : Pid} {request : Bytes}
variable {locks : SortedMap (MountId ×ₗ Inode) FlockState} {key : MountId ×ₗ Inode} {s : FlockState}
  {call : KernelCall} {id j fd fd' : Nat} {mode : Option Bool} {exclusive : Bool} {kh : Kh σ}
  {pid' : Pid}

/-! ### Who holds what -/

/-- Descriptions that hold a lock. -/
def FlockState.holders : FlockState → List Nat
  | .shared holders => holders
  | .exclusive owner => [owner]

def FlockState.isExclusive : FlockState → Bool
  | .shared _ => false
  | .exclusive _ => true

/-- Description `id` holds the lock of `key`. -/
def Held (locks : SortedMap (MountId ×ₗ Inode) FlockState) (key : MountId ×ₗ Inode) (id : Nat)
    (exclusive : Bool) : Prop :=
  ∃ s, locks.get? key = some s ∧ id ∈ s.holders ∧ s.isExclusive = exclusive

/-- What the lock table of every reachable kernel is like. -/
structure Objects.Locked (o : Objects) : Prop where
  formed : ∀ key s, o.locks.get? key = some s → s.holders ≠ [] ∧ s.holders.Nodup
  live : ∀ key id exclusive, Held o.locks key id exclusive →
    ∃ f, o.ofds.get? id = some f ∧ key = toLex (f.mountId, f.inode)
  fresh : ∀ id, o.nextOfd ≤ id → o.ofds.get? id = none

/-- From `o` to `o'` no lock was taken: what a description held it holds, if it is still there. -/
structure Objects.Follows (o o' : Objects) : Prop where
  locked : o'.Locked
  counter : o.nextOfd ≤ o'.nextOfd
  places : ∀ id f', o'.ofds.get? id = some f' → id < o.nextOfd →
    ∃ f, o.ofds.get? id = some f ∧ f'.mountId = f.mountId ∧ f'.inode = f.inode
  held : ∀ key id exclusive, Held o'.locks key id exclusive ↔
    Held o.locks key id exclusive ∧ o'.ofds.contains id = true

theorem Objects.Locked.id_lt {o : Objects} (h : o.Locked) (hheld : Held o.locks key id exclusive) :
    id < o.nextOfd := by
  obtain ⟨f, hf, -⟩ := h.live key id exclusive hheld
  by_contra hle
  rw [h.fresh id (by omega)] at hf
  cases hf

theorem Objects.Locked.follows {o : Objects} (h : o.Locked) : o.Follows o where
  locked := h
  counter := Nat.le_refl _
  places _ f hf _ := ⟨f, hf, rfl, rfl⟩
  held key id exclusive := by
    refine ⟨fun hheld => ⟨hheld, ?_⟩, fun hheld => hheld.1⟩
    obtain ⟨f, hf, -⟩ := h.live key id exclusive hheld
    exact contains_iff.mpr ⟨f, hf⟩

/-! ### Elementary changes -/

section Changes
variable {o u : Objects}

/-- Descriptions change under their ids and stay where they are. -/
theorem Objects.Follows.modify (h : o.Follows u) {ofds : SortedMap Nat OpenFileDescription}
    (hofds : ∀ id, (ofds.get? id).map (fun f => (f.mountId, f.inode)) =
      (u.ofds.get? id).map (fun f => (f.mountId, f.inode))) :
    o.Follows { u with ofds := ofds } := by
  have hback : ∀ id f', ofds.get? id = some f' →
      ∃ f, u.ofds.get? id = some f ∧ f'.mountId = f.mountId ∧ f'.inode = f.inode := by
    intro id f' hf'
    have hsame := hofds id
    rw [hf', Option.map_some] at hsame
    obtain ⟨f, hf, hplace⟩ := Option.map_eq_some_iff.mp hsame.symm
    obtain ⟨hmount, hinode⟩ := Prod.mk.inj hplace
    exact ⟨f, hf, hmount.symm, hinode.symm⟩
  have hforth : ∀ id f, u.ofds.get? id = some f →
      ∃ f', ofds.get? id = some f' ∧ f'.mountId = f.mountId ∧ f'.inode = f.inode := by
    intro id f hf
    have hsame := hofds id
    rw [hf, Option.map_some] at hsame
    obtain ⟨f', hf', hplace⟩ := Option.map_eq_some_iff.mp hsame
    obtain ⟨hmount, hinode⟩ := Prod.mk.inj hplace
    exact ⟨f', hf', hmount, hinode⟩
  have hcontains : ∀ id, ofds.contains id = true ↔ u.ofds.contains id = true := by
    intro id
    rw [contains_iff, contains_iff]
    exact ⟨fun ⟨f', hf'⟩ => (hback id f' hf').imp fun _ hf => hf.1,
      fun ⟨f, hf⟩ => (hforth id f hf).imp fun _ hf' => hf'.1⟩
  refine ⟨⟨h.locked.formed, fun key id exclusive hheld => ?_, fun id hid => ?_⟩, h.counter,
    fun id f' hf' hid => ?_, fun key id exclusive => ?_⟩
  · obtain ⟨f, hf, hkey⟩ := h.locked.live key id exclusive hheld
    obtain ⟨f', hf', hmount, hinode⟩ := hforth id f hf
    exact ⟨f', hf', by rw [hmount, hinode]; exact hkey⟩
  · have hnone := hofds id
    rw [h.locked.fresh id hid] at hnone
    exact Option.map_eq_none_iff.mp hnone
  · obtain ⟨g, hg, hmount, hinode⟩ := hback id f' hf'
    obtain ⟨f, hf, hmount', hinode'⟩ := h.places id g hg hid
    exact ⟨f, hf, hmount.trans hmount', hinode.trans hinode'⟩
  · rw [hcontains]
    exact h.held key id exclusive

/-- A new description holds nothing. -/
theorem Objects.Follows.create (hlocked : o.Locked) (h : o.Follows u) (f : OpenFileDescription) :
    o.Follows { u with nextOfd := u.nextOfd + 1, ofds := u.ofds.insert u.nextOfd f } := by
  have hold : ∀ id, id ≠ u.nextOfd → (u.ofds.insert u.nextOfd f).get? id = u.ofds.get? id := fun id hid => by
    rw [get?_insert, if_neg hid]
  have hheld : ∀ key id exclusive, Held u.locks key id exclusive → id ≠ u.nextOfd :=
    fun key id exclusive hheld => Nat.ne_of_lt (h.locked.id_lt hheld)
  refine ⟨⟨h.locked.formed, fun key id exclusive hh => ?_, fun id hid => ?_⟩, Nat.le_succ_of_le h.counter,
    fun id f' hf' hid => ?_, fun key id exclusive => ?_⟩
  · rw [hold id (hheld key id exclusive hh)]
    exact h.locked.live key id exclusive hh
  · have hid' : u.nextOfd + 1 ≤ id := hid
    rw [hold id (by omega)]
    exact h.locked.fresh id (by omega)
  · have hcounter := h.counter
    rw [hold id (by omega)] at hf'
    exact h.places id f' hf' hid
  · have hsame : Held o.locks key id exclusive →
        (u.ofds.insert u.nextOfd f).contains id = u.ofds.contains id := fun hh => by
      have hlt := hlocked.id_lt hh
      have hcounter := h.counter
      rw [SortedMap.contains, hold id (by omega), SortedMap.contains]
    rw [h.held key id exclusive]
    constructor
    · rintro ⟨hh, hc⟩
      exact ⟨hh, (hsame hh).trans hc⟩
    · rintro ⟨hh, hc⟩
      exact ⟨hh, (hsame hh).symm.trans hc⟩

/-- The locks left when `id` lets go of all of them. -/
def releaseAll (locks : SortedMap (MountId ×ₗ Inode) FlockState) (id : Nat) :
    SortedMap (MountId ×ₗ Inode) FlockState :=
  (locks.filter (fun _ s => s.heldWithout id)).mapValues (fun _ s => s.release id)

theorem FlockState.mem_release (h : s.heldWithout id = true) :
    j ∈ (s.release id).holders ↔ j ∈ s.holders ∧ j ≠ id := by
  cases s with
  | shared holders => simp [FlockState.release, FlockState.holders]
  | exclusive owner =>
    have howner : owner ≠ id := by simpa [FlockState.heldWithout] using h
    simp only [FlockState.release, FlockState.holders, List.mem_singleton]
    constructor
    · rintro rfl
      exact ⟨rfl, howner⟩
    · exact And.left

theorem FlockState.heldWithout_of_mem (hj : j ∈ s.holders) (hne : j ≠ id) : s.heldWithout id = true := by
  cases s with
  | shared holders =>
    simp only [FlockState.heldWithout, Bool.not_eq_true', List.isEmpty_eq_false_iff_exists_mem]
    exact ⟨j, List.mem_filter.mpr ⟨hj, by simpa using hne⟩⟩
  | exclusive owner =>
    obtain rfl := List.mem_singleton.mp hj
    simpa [FlockState.heldWithout] using hne

theorem FlockState.isExclusive_release (s : FlockState) (id : Nat) :
    (s.release id).isExclusive = s.isExclusive := by
  cases s <;> rfl

/-- A lock somebody else still holds stays well formed. -/
theorem FlockState.formed_release (h : s.heldWithout id = true) (hs : s.holders.Nodup) :
    (s.release id).holders ≠ [] ∧ (s.release id).holders.Nodup := by
  cases s with
  | shared holders =>
    refine ⟨fun hnil => ?_, hs.filter _⟩
    simp only [FlockState.heldWithout, Bool.not_eq_true', List.isEmpty_eq_false_iff] at h
    exact h hnil
  | exclusive owner => exact ⟨List.cons_ne_nil _ _, List.nodup_singleton _⟩

theorem get?_releaseAll {s' : FlockState} : (releaseAll locks id).get? key = some s' ↔
      ∃ s, locks.get? key = some s ∧ s.heldWithout id = true ∧ s' = s.release id := by
  rw [releaseAll, get?_mapValues, get?_filter, Option.map_eq_some_iff]
  simp only [Option.filter_eq_some_iff]
  constructor
  · rintro ⟨s, ⟨hs, hwithout⟩, rfl⟩
    exact ⟨s, hs, hwithout, rfl⟩
  · rintro ⟨s, hs, hwithout, rfl⟩
    exact ⟨s, ⟨hs, hwithout⟩, rfl⟩

theorem held_releaseAll :
    Held (releaseAll locks id) key j exclusive ↔ Held locks key j exclusive ∧ j ≠ id := by
  constructor
  · rintro ⟨s', hs', hj, hex⟩
    obtain ⟨s, hs, hwithout, rfl⟩ := get?_releaseAll.mp hs'
    obtain ⟨hmem, hne⟩ := (FlockState.mem_release hwithout).mp hj
    exact ⟨⟨s, hs, hmem, (s.isExclusive_release id).symm.trans hex⟩, hne⟩
  · rintro ⟨⟨s, hs, hj, hex⟩, hne⟩
    have hwithout := FlockState.heldWithout_of_mem hj hne
    exact ⟨s.release id, get?_releaseAll.mpr ⟨s, hs, hwithout, rfl⟩,
      (FlockState.mem_release hwithout).mpr ⟨hj, hne⟩, (s.isExclusive_release id).trans hex⟩

/-- A description goes, and its locks with it. -/
theorem Objects.Follows.drop (h : o.Follows u) (id : Nat) :
    o.Follows { u with ofds := u.ofds.erase id, locks := releaseAll u.locks id } := by
  refine ⟨⟨fun key s' hs' => ?_, fun key j exclusive hj => ?_, fun j hj => ?_⟩, h.counter,
    fun j f' hf' hj => ?_, fun key j exclusive => ?_⟩
  · obtain ⟨s, hs, hwithout, rfl⟩ := get?_releaseAll.mp hs'
    exact FlockState.formed_release hwithout (h.locked.formed key s hs).2
  · obtain ⟨hold, hne⟩ := held_releaseAll.mp hj
    obtain ⟨f, hf, hkey⟩ := h.locked.live key j exclusive hold
    exact ⟨f, by rw [get?_erase, if_neg hne]; exact hf, hkey⟩
  · have hnone : u.ofds.get? j = none := h.locked.fresh j hj
    rw [get?_erase, hnone, ite_self]
  · rw [get?_erase] at hf'
    split_ifs at hf'
    exact h.places j f' hf' hj
  · rw [held_releaseAll, h.held key j exclusive, SortedMap.contains, SortedMap.contains, get?_erase]
    by_cases hne : j = id
    · simp [hne]
    · simp [hne]

end Changes

/-! ### Calls that are not `flock` -/

/-- Open files and their locks. -/
def Kernel.files (k : Kernel σ) :
    SortedMap Nat OpenFileDescription × Nat × SortedMap (MountId ×ₗ Inode) FlockState :=
  (k.ofds, k.nextOfdId, k.flockLocks)

/-- Only descriptions and locks matter. -/
theorem Objects.Follows.elsewhere {o u u' : Objects} (h : o.Follows u) (hofds : u'.ofds = u.ofds)
    (hnext : u'.nextOfd = u.nextOfd) (hlocks : u'.locks = u.locks) : o.Follows u' := by
  cases u
  cases u'
  obtain ⟨rfl, rfl, rfl⟩ : _ ∧ _ ∧ _ := ⟨hofds, hnext, hlocks⟩
  exact ⟨⟨h.locked.formed, h.locked.live, h.locked.fresh⟩, h.counter, h.places, h.held⟩

theorem Objects.Follows.congr {o : Objects} (h : o.Follows k.objects) (hfiles : k'.files = k.files) :
    o.Follows k'.objects := by
  obtain ⟨hofds, hrest⟩ := Prod.mk.inj hfiles
  obtain ⟨hnext, hlocks⟩ := Prod.mk.inj hrest
  exact h.elsewhere hofds hnext hlocks

/-- Descriptions where they were. -/
theorem places_modify (m : SortedMap Nat OpenFileDescription) (id : Nat)
    {f : OpenFileDescription → OpenFileDescription}
    (hf : ∀ o, (f o).mountId = o.mountId ∧ (f o).inode = o.inode) (j : Nat) :
    ((m.modify id f).get? j).map (fun o => (o.mountId, o.inode)) =
      (m.get? j).map (fun o => (o.mountId, o.inode)) := by
  rw [get?_modify]
  split_ifs with hj
  · subst hj
    rw [Option.map_map]
    refine congrFun (congrArg Option.map (funext fun o => ?_)) _
    exact Prod.ext (hf o).1 (hf o).2
  · rfl

theorem Kernel.follows_ofdDecRef {o : Objects} (h : o.Follows k.objects) (id : Nat) :
    o.Follows (k.ofdDecRef id).objects := by
  unfold ofdDecRef
  cases ho : k.ofds.get? id with
  | none => exact h
  | some f =>
    dsimp only
    split_ifs
    · exact h.drop id
    · refine h.modify (fun j => ?_)
      rw [get?_insert]
      split_ifs with hj
      · subst hj
        exact (congrArg (Option.map fun f : OpenFileDescription => (f.mountId, f.inode)) ho).symm
      · rfl

/-- What a description held it holds as long as it is there, whatever is raised, dropped or made. -/
def lockRule (σ : Type) {o : Objects} (hlocked : o.Locked) : Rule σ where
  holds := o.Follows
  knows _ _ _ := True
  locks := False
  binds := True
  incFdEntryRef k e h := by
    cases e with
    | file id => exact h.modify (places_modify k.ofds id (fun _ => ⟨rfl, rfl⟩))
    | _ => exact h.congr rfl
  closeEntry k e h := by
    cases e with
    | file id => exact follows_ofdDecRef h id
    | pipe id side =>
      obtain ⟨_, heq⟩ := k.pipeDecRef_only id side
      rw [closeEntry, heq]
      exact h.elsewhere rfl rfl rfl
    | socket id =>
      obtain ⟨_, _, _, _, heq⟩ := socketDecRefAux_only (k.sockets.size + 1) k id
      rw [closeEntry, socketDecRef, heq]
      exact h.elsewhere rfl rfl rfl
    | _ => exact h
  createPipe _ h := h.congr rfl
  createOfd k mountId inode writable _ h := h.create hlocked _
  addSocket _ _ _ _ h := h.congr rfl
  setKind _ _ _ h := h.congr rfl
  setBytes _ _ _ _ _ h := h.congr rfl
  modifyOfd k id _ hf h := h.modify (places_modify k.ofds id (fun o => (hf o).2))
  storage _ _ _ _ h := h.elsewhere rfl rfl rfl
  opened _ _ _ _ _ _ _ _ _ := ⟨trivial, trivial⟩
  setLocks hlocks := hlocks.elim
  dropName _ _ h := h.elsewhere rfl rfl rfl
  addName _ _ _ h := h.elsewhere rfl rfl rfl

/-! ### `flock` -/

/-- Description `id` now holds the lock of `key` as `mode` says, and nothing else has changed. -/
def Regranted (locks locks' : SortedMap (MountId ×ₗ Inode) FlockState) (key : MountId ×ₗ Inode)
    (id : Nat) (mode : Option Bool) : Prop :=
  ∀ key' j exclusive, Held locks' key' j exclusive ↔ key' = key ∧ j = id ∧ mode = some exclusive ∨
    ¬(key' = key ∧ j = id) ∧ Held locks key' j exclusive

/-- Every lock has holders, and none of them twice. -/
def WellHeld (locks : SortedMap (MountId ×ₗ Inode) FlockState) : Prop :=
  ∀ key s, locks.get? key = some s → s.holders ≠ [] ∧ s.holders.Nodup

/-- The lock of `key` becomes `l`: right if that differs from what was held in `id` only. -/
theorem WellHeld.regranted (h : WellHeld locks) {l : Option FlockState}
    (hget : ∀ key', locks'.get? key' = if key' = key then l else locks.get? key')
    (hlock : ∀ s, l = some s → s.holders ≠ [] ∧ s.holders.Nodup)
    (hheld : ∀ j e, (∃ s, l = some s ∧ j ∈ s.holders ∧ s.isExclusive = e) ↔
      j = id ∧ mode = some e ∨ j ≠ id ∧ Held locks key j e) :
    Regranted locks locks' key id mode ∧ WellHeld locks' := by
  constructor
  · intro key' j e
    rw [Held, hget]
    by_cases hkey : key' = key
    · subst hkey
      rw [if_pos rfl, hheld]
      simp
    · simp [hkey, Held]
  · intro key' s hs
    rw [hget] at hs
    split_ifs at hs
    · exact hlock s hs
    · exact h key' s hs

/-- A lock table changed by one grant is still well formed. -/
theorem Objects.Locked.regranted {o : Objects} (h : o.Locked) {f : OpenFileDescription}
    (hf : o.ofds.get? id = some f) (hkey : key = toLex (f.mountId, f.inode))
    (hgrant : Regranted o.locks locks key id mode) (hformed : WellHeld locks) :
    Objects.Locked { o with locks := locks } where
  formed := hformed
  live key' j exclusive hheld := by
    obtain ⟨rfl, rfl, -⟩ | ⟨-, hold⟩ := (hgrant key' j exclusive).mp hheld
    · exact ⟨f, hf, hkey⟩
    · exact h.live key' j exclusive hold
  fresh := h.fresh

/-- What a successful acquisition does. -/
theorem Kernel.flockTryAcquire_some (hlocked : k.objects.Locked) {mountId : MountId} {inode : Inode}
    (h : k.flockTryAcquire id mountId inode exclusive = some k') :
    ∃ locks, k' = { k with flockLocks := locks } ∧
      Regranted k.flockLocks locks (toLex (mountId, inode)) id (some exclusive) ∧ WellHeld locks := by
  have hformed : WellHeld k.flockLocks := hlocked.formed
  unfold flockTryAcquire at h
  dsimp only at h
  cases hkey : k.flockLocks.get? (toLex (mountId, inode)) with
  | none =>
    rw [hkey] at h
    cases h
    refine ⟨_, rfl, hformed.regranted (get?_insert _ _ _) (fun s hs => ?_) (fun j e => ?_)⟩
    · cases hs
      cases exclusive <;> simp [FlockState.holders]
    · cases exclusive <;> simp [FlockState.holders, FlockState.isExclusive, Held, hkey]
  | some s =>
    have hs := hformed _ s hkey
    have hsame : ∀ key', k.flockLocks.get? key' =
        if key' = toLex (mountId, inode) then some s else k.flockLocks.get? key' := by
      intro key'
      split_ifs with heq
      · rw [heq, hkey]
      · rfl
    rw [hkey] at h
    cases s with
    | shared holders =>
      dsimp only at h
      split_ifs at h with hex hsole hmem
      · -- the only reader becomes the writer
        cases h
        subst hsole
        refine ⟨_, rfl, hformed.regranted (get?_insert _ _ _) (fun s hs => ?_) (fun j e => ?_)⟩
        · cases hs
          simp [FlockState.holders]
        · grind [FlockState.holders, FlockState.isExclusive, Held]
      · -- a reader again
        cases h
        refine ⟨k.flockLocks, rfl, hformed.regranted hsame (fun s hs' => ?_) (fun j e => ?_)⟩
        · cases hs'
          exact hs
        · grind [FlockState.holders, FlockState.isExclusive, Held]
      · -- one more reader
        cases h
        refine ⟨_, rfl, hformed.regranted (get?_insert _ _ _) (fun s hs' => ?_) (fun j e => ?_)⟩
        · cases hs'
          refine ⟨by simp [FlockState.holders], List.nodup_append.mpr ⟨hs.2, List.nodup_singleton id, ?_⟩⟩
          rintro a ha b hb rfl
          simp_all [FlockState.holders]
        · grind [FlockState.holders, FlockState.isExclusive, Held]
    | exclusive owner =>
      dsimp only at h
      split_ifs at h with howner hex
      · -- the writer again
        cases h
        refine ⟨k.flockLocks, rfl, hformed.regranted hsame (fun s hs' => ?_) (fun j e => ?_)⟩
        · cases hs'
          exact hs
        · simp [FlockState.holders, FlockState.isExclusive, Held, hkey, hex, howner]
      · -- the writer becomes the only reader
        cases h
        refine ⟨_, rfl, hformed.regranted (get?_insert _ _ _) (fun s hs => ?_) (fun j e => ?_)⟩
        · cases hs
          simp [FlockState.holders]
        · grind [FlockState.holders, FlockState.isExclusive, Held]

/-- What a release does. -/
theorem Kernel.flockRelease_eq (hlocked : k.objects.Locked) (id : Nat) (mountId : MountId)
    (inode : Inode) : ∃ locks, k.flockRelease id mountId inode = { k with flockLocks := locks } ∧
      Regranted k.flockLocks locks (toLex (mountId, inode)) id none ∧ WellHeld locks := by
  have hformed : WellHeld k.flockLocks := hlocked.formed
  unfold flockRelease
  dsimp only
  cases hkey : k.flockLocks.get? (toLex (mountId, inode)) with
  | none =>
    refine ⟨k.flockLocks, rfl, hformed.regranted (l := none) (fun key' => ?_) nofun (by simp [Held, hkey])⟩
    split_ifs with heq
    · rw [heq, hkey]
    · rfl
  | some s =>
    dsimp only
    split
    · rename_i hwithout
      refine ⟨_, rfl, hformed.regranted (get?_insert _ _ _) (fun s' hs' => ?_) (fun j e => ?_)⟩
      · cases hs'
        exact FlockState.formed_release hwithout (hformed _ s hkey).2
      · simp [FlockState.mem_release hwithout, s.isExclusive_release, Held, hkey, and_comm, and_assoc]
    · rename_i hwithout
      refine ⟨_, rfl, hformed.regranted (get?_erase _ _) nofun (fun j e => ?_)⟩
      have hothers : j ∈ s.holders → j = id := fun hj => by
        by_contra hne
        exact hwithout (FlockState.heldWithout_of_mem hj hne)
      simp only [Held, hkey]
      grind

/-- What the operation bits ask for. -/
def flockMode (op : Nat) : Option Bool := if op.testBit 3 then none else some (op.testBit 1)

/-- A refused `flock` changes nothing, a granted one the lock of its own description. -/
theorem Kernel.sysFlock_cases (hlocked : k.objects.Locked) (pid : Pid) (request : Bytes) :
    ((k.sysFlock pid request).1 ≠ 0 ∧
      ((k.sysFlock pid request).2 = k ∨ (k.sysFlock pid request).2 = k.touch pid)) ∨
    ∃ id f locks, k.fdEntry pid (u32At request 0) = some (.file id) ∧ k.ofds.get? id = some f ∧
      k.sysFlock pid request = (0, { k.touch pid with flockLocks := locks }) ∧
      Regranted k.flockLocks locks (toLex (f.mountId, f.inode)) id (flockMode (u32At request 4)) ∧
      WellHeld locks := by
  have hinval : -EINVAL ≠ 0 := by decide
  have hbadf : -EBADF ≠ 0 := by decide
  have hagain : -EAGAIN ≠ 0 := by decide
  have htouch : (k.touch pid).objects.Locked := hlocked
  unfold sysFlock
  split
  · exact .inl ⟨hinval, .inl rfl⟩
  dsimp only
  split
  · exact .inl ⟨hinval, .inl rfl⟩
  split
  · exact .inl ⟨hinval, .inl rfl⟩
  split
  · rename_i id hentry
    cases hf : k.ofds.get? id with
    | none => exact .inl ⟨hbadf, .inr rfl⟩
    | some f =>
      dsimp only
      split
      · rename_i hun
        obtain ⟨locks, heq, hgrant, hformed⟩ := flockRelease_eq htouch id f.mountId f.inode
        refine .inr ⟨id, f, locks, hentry, hf, by rw [heq], ?_, hformed⟩
        rw [flockMode, if_pos hun]
        exact hgrant
      · rename_i hun
        cases hacquire : (k.touch pid).flockTryAcquire id f.mountId f.inode
            ((u32At request 4).testBit 1) with
        | none => exact .inl ⟨hagain, .inr rfl⟩
        | some k' =>
          obtain ⟨locks, heq, hgrant, hformed⟩ := flockTryAcquire_some htouch hacquire
          refine .inr ⟨id, f, locks, hentry, hf, by rw [heq], ?_, hformed⟩
          rw [flockMode, if_neg hun]
          exact hgrant
  · exact .inl ⟨hbadf, .inr rfl⟩

/-! ### Aliases -/

/-- The call makes descriptor `fd'` of `pid'` an alias of descriptor `fd` of `pid`. -/
def KernelCall.Duplicates (kh : Kh σ) (k : Kernel σ) (call : KernelCall) (pid : Pid) (fd : Nat)
    (pid' : Pid) (fd' : Nat) : Prop :=
  match call with
  | .sys p (.dup request) =>
    p = pid ∧ pid' = pid ∧ fd = u32At request 0 ∧ (k.dupFd kh p request).1 = fd'
  | .sys p (.dup2 request) =>
    p = pid ∧ pid' = pid ∧ fd = u32At request 0 ∧ (k.dup2Fd kh p request).1 = fd'
  | .prepareFork parent => parent = pid ∧ fd' = fd ∧ (k.prepareFork parent).1 = .ok pid'
  | _ => False

theorem Kernel.fdEntry_of_record {p : Process} (h : k.processes.get? pid = some p) (fd : Nat) :
    k.fdEntry pid fd = p.fdTable.entry fd := by
  rw [fdEntry, process, h]
  rfl

theorem Kernel.fdEntry_closeHandle (k : Kernel σ) (kh : Kh σ) (handle : Option Int) (pid : Pid)
    (fd : Nat) : (k.closeHandle kh handle).fdEntry pid fd = k.fdEntry pid fd := by
  cases handle <;> rfl

theorem Kernel.fdEntry_incFdEntryRef (k : Kernel σ) (e : FdEntry) (pid : Pid) (fd : Nat) :
    (k.incFdEntryRef e).fdEntry pid fd = k.fdEntry pid fd := by
  rw [fdEntry, process, processes_incFdEntryRef]
  rfl

theorem Kernel.fdEntry_aliasFd (k : Kernel σ) (pid : Pid) (newfd : Nat) (e : FdEntry) (fd : Nat) :
    (k.aliasFd pid newfd e).2.fdEntry pid fd = if fd = newfd then some e else k.fdEntry pid fd := by
  unfold aliasFd
  dsimp only
  by_cases hfd : fd = newfd
  · rw [if_pos hfd, hfd, fdEntry_installFd_self]
  · rw [if_neg hfd, fdEntry_installFd_ne _ _ _ hfd, fdEntry_incFdEntryRef]
    cases k.fdEntry pid newfd with
    | none => rfl
    | some prev => exact k.fdEntry_closeEntries [prev] pid fd

theorem neg_code_ne_fd (n : Nat) : -EBADF ≠ n ∧ -EMFILE ≠ n ∧ -EINVAL ≠ n := by
  have hneg : -EBADF < 0 ∧ -EMFILE < 0 ∧ -EINVAL < 0 := by decide
  omega

theorem Kernel.dupFd_entries (hrc : (k.dupFd kh pid request).1 = fd') :
    (k.dupFd kh pid request).2.fdEntry pid fd' = k.fdEntry pid (u32At request 0) ∧
      (k.dupFd kh pid request).2.fdEntry pid (u32At request 0) = k.fdEntry pid (u32At request 0) := by
  have hneg := neg_code_ne_fd fd'
  unfold dupFd at hrc ⊢
  rw [readU32Args_one] at hrc ⊢
  by_cases hlen : request.length < 4
  · rw [if_pos hlen] at hrc
    exact absurd hrc hneg.2.2
  rw [if_neg hlen] at hrc ⊢
  dsimp only at hrc ⊢
  cases hold : k.fdEntry pid (u32At request 0) with
  | none =>
    rw [hold] at hrc
    exact absurd hrc hneg.1
  | some e =>
    rw [hold] at hrc
    dsimp only at hrc ⊢
    cases hfree : ((k.touch pid).incFdEntryRef e).freeFd pid with
    | none =>
      rw [hfree] at hrc
      exact absurd hrc hneg.2.1
    | some newfd =>
      rw [hfree] at hrc
      have hnew : newfd = fd' := Int.natCast_inj.mp hrc
      subst hnew
      have hne : u32At request 0 ≠ newfd := by
        rintro heq
        have hnone := freeFd_free hfree
        rw [← heq, fdEntry_incFdEntryRef, k.fdEntry_touch, hold] at hnone
        cases hnone
      refine ⟨fdEntry_installFd_self _ _ _ _, ?_⟩
      rw [fdEntry_installFd_ne _ _ _ hne, fdEntry_incFdEntryRef, k.fdEntry_touch, hold]

theorem Kernel.dup2Fd_entries (hrc : (k.dup2Fd kh pid request).1 = fd') :
    (k.dup2Fd kh pid request).2.fdEntry pid fd' = k.fdEntry pid (u32At request 0) ∧
      (k.dup2Fd kh pid request).2.fdEntry pid (u32At request 0) = k.fdEntry pid (u32At request 0) := by
  have hneg := neg_code_ne_fd fd'
  unfold dup2Fd at hrc ⊢
  rw [readU32Args_two] at hrc ⊢
  by_cases hlen : request.length < 8
  · rw [if_pos hlen] at hrc
    exact absurd hrc hneg.2.2
  rw [if_neg hlen] at hrc ⊢
  dsimp only at hrc ⊢
  cases hold : k.fdEntry pid (u32At request 0) with
  | none =>
    rw [hold] at hrc
    exact absurd hrc hneg.1
  | some e =>
    rw [hold] at hrc
    dsimp only at hrc ⊢
    by_cases hlimit : (k.process pid).nofileSoft ≤ u32At request 4
    · rw [if_pos hlimit] at hrc
      exact absurd hrc hneg.1
    rw [if_neg hlimit] at hrc ⊢
    by_cases hsame : u32At request 0 = u32At request 4
    · rw [if_pos hsame] at hrc ⊢
      have hnew : u32At request 4 = fd' := Int.natCast_inj.mp hrc
      rw [← hnew, ← hsame, k.fdEntry_touch, hold]
      exact ⟨rfl, rfl⟩
    · rw [if_neg hsame] at hrc ⊢
      have hnew : u32At request 4 = fd' := Int.natCast_inj.mp hrc
      subst hnew
      constructor
      · rw [fdEntry_closeHandle, fdEntry_aliasFd, if_pos rfl]
      · rw [fdEntry_closeHandle, fdEntry_aliasFd, if_neg hsame, k.fdEntry_touch, hold]

/-- Both descriptors refer to what the original referred to. -/
theorem KernelCall.Duplicates.entries (h : call.Duplicates kh k pid fd pid' fd') :
    (call.step kh k).fdEntry pid' fd' = k.fdEntry pid fd ∧
      (call.step kh k).fdEntry pid fd = k.fdEntry pid fd := by
  unfold KernelCall.Duplicates at h
  split at h
  · obtain ⟨rfl, hpid, rfl, hrc⟩ := h
    rw [hpid]
    exact dupFd_entries hrc
  · obtain ⟨rfl, hpid, rfl, hrc⟩ := h
    rw [hpid]
    exact dup2Fd_entries hrc
  · rename_i parent
    obtain ⟨rfl, rfl, hchild⟩ := h
    dsimp only [KernelCall.step]
    obtain ⟨p, child, k', hp, -, hfree, heq, hrecords⟩ | ⟨errno, k', heq, -⟩ := k.prepareFork_records parent
    · rw [heq] at hchild ⊢
      cases hchild
      have hparent : k'.processes.get? parent = some p := by
        rw [hrecords, if_neg (by rintro rfl; rw [hfree] at hp; cases hp), hp]
      have hforked : k'.processes.get? pid' = some (p.forkChild parent) := by
        rw [hrecords, if_pos rfl]
      dsimp only
      rw [fdEntry_of_record hforked, fdEntry_of_record hparent, fdEntry_of_record hp]
      exact ⟨rfl, rfl⟩
    · rw [heq] at hchild
      cases hchild
  · exact h.elim

/-- A descriptor's file is referred to. -/
theorem Kernel.references_pos (h : k.fdEntry pid fd = some (.file id)) : 0 < k.references (.file id) := by
  cases hp : k.processes.get? pid with
  | none =>
    -- an unknown process has the standard streams only
    rw [fdEntry, process, hp] at h
    have hmem : FdEntry.file id ∈ FdTable.new.entries.values := mem_values.mpr ⟨fd, h⟩
    have hstreams : FdTable.new.entries.values = [.stdin, .stdout, .stderr] := by decide
    rw [hstreams] at hmem
    simp at hmem
  | some p =>
    rw [fdEntry_of_record hp] at h
    have hmem : FdEntry.file id ∈ p.fdTable.entries.values := mem_values.mpr ⟨fd, h⟩
    have htable : k.tableCount (.file id) ≠ 0 := by
      intro hzero
      have hcount := sum_eq_zero_iff.mp hzero pid p hp
      exact absurd hmem (List.count_eq_zero.mp hcount)
    unfold references
    omega

/-! ### The law -/

/-- Descriptor `fd` of `pid` holds the lock of `key`. -/
def Kernel.FdHolds (k : Kernel σ) (pid : Pid) (fd : Nat) (key : MountId ×ₗ Inode)
    (exclusive : Bool) : Prop :=
  ∃ id, k.fdEntry pid fd = some (.file id) ∧ Held k.flockLocks key id exclusive

/-- Every lock has one exclusive holder, or some shared ones; and each holder is an open file on that
    inode that something refers to. -/
structure Kernel.LocksSound (k : Kernel σ) : Prop where
  formed : ∀ key s, k.flockLocks.get? key = some s → s.holders ≠ [] ∧ s.holders.Nodup
  live : ∀ key id exclusive, Held k.flockLocks key id exclusive →
    0 < k.references (.file id) ∧ ∃ f, k.ofds.get? id = some f ∧ key = toLex (f.mountId, f.inode)

/-- What one call does to the locks. -/
structure KernelCall.LockLaw (kh : Kh σ) (k : Kernel σ) (call : KernelCall) : Prop where
  sound : (call.step kh k).LocksSound
  refused : ∀ pid request, call = .sys pid (.flock request) → (k.sysFlock pid request).1 ≠ 0 →
    call.step kh k = k ∨ call.step kh k = k.touch pid
  granted : ∀ pid request, call = .sys pid (.flock request) → (k.sysFlock pid request).1 = 0 →
    ∃ id f, k.fdEntry pid (u32At request 0) = some (.file id) ∧ k.ofds.get? id = some f ∧
      Regranted k.flockLocks (call.step kh k).flockLocks (toLex (f.mountId, f.inode)) id
        (flockMode (u32At request 4))
  kept : (∀ pid request, call ≠ .sys pid (.flock request)) → ∀ key id exclusive,
    Held (call.step kh k).flockLocks key id exclusive ↔
      Held k.flockLocks key id exclusive ∧ 0 < (call.step kh k).references (.file id)
  aliased : ∀ pid fd pid' fd', call.Duplicates kh k pid fd pid' fd' → ∀ key exclusive,
    ((call.step kh k).FdHolds pid' fd' key exclusive ↔ k.FdHolds pid fd key exclusive) ∧
      ((call.step kh k).FdHolds pid fd key exclusive ↔ k.FdHolds pid fd key exclusive)

theorem Objects.Locked.sound (h : k.objects.Locked) (hledger : k.Ledger []) : k.LocksSound where
  formed := h.formed
  live key id exclusive hheld := by
    obtain ⟨f, hf, hkey⟩ := h.live key id exclusive hheld
    exact ⟨(hledger.countsExact.ofd_present id).mp (contains_iff.mpr ⟨f, hf⟩), f, hf, hkey⟩

theorem Kernel.flock_step (kh : Kh σ) (pid : Pid) (request : Bytes) :
    KernelCall.step kh k (.sys pid (.flock request)) = (k.sysFlock pid request).2 := rfl

theorem KernelCall.follows (kh : Kh σ) (h : k.objects.Locked)
    (hflock : ∀ pid request, call ≠ .sys pid (.flock request)) :
    k.objects.Follows (call.step kh k).objects := by
  refine call.under (K := lockRule σ h) kh h.follows ?_
  cases call with
  | sys pid sys =>
    cases sys with
    | flock request => exact absurd rfl (hflock pid request)
    | _ => trivial
  | _ => trivial

/-- The lock table stays in order. -/
theorem KernelCall.locked (kh : Kh σ) (h : k.objects.Locked) (call : KernelCall) :
    (call.step kh k).objects.Locked := by
  by_cases hflock : ∃ pid request, call = .sys pid (.flock request)
  · obtain ⟨pid, request, rfl⟩ := hflock
    rw [flock_step]
    obtain ⟨-, heq | heq⟩ | ⟨id, f, locks, -, hf, heq, hgrant, hformed⟩ := k.sysFlock_cases h pid request
    · rw [heq]
      exact h
    · rw [heq]
      exact h
    · rw [heq]
      exact Objects.Locked.regranted h hf rfl hgrant hformed
  · push Not at hflock
    have hfollows := call.follows kh h hflock
    exact hfollows.locked

theorem KernelCall.Duplicates.not_flock (h : call.Duplicates kh k pid fd pid' fd') (p : Pid)
    (request : Bytes) :
    call ≠ .sys p (.flock request) := by
  rintro rfl
  exact h

/-- One call, from a state with exact counts. -/
theorem KernelCall.lockLaw (kh : Kh σ) (h : k.objects.Locked) (hledger : (call.step kh k).Ledger []) :
    call.LockLaw kh k := by
  have hpresent := hledger.countsExact.ofd_present
  have hkept : (∀ pid request, call ≠ .sys pid (.flock request)) → ∀ key id exclusive,
      Held (call.step kh k).flockLocks key id exclusive ↔
        Held k.flockLocks key id exclusive ∧ 0 < (call.step kh k).references (.file id) := by
    intro hflock key id exclusive
    have hfollows := call.follows kh h hflock
    rw [← hpresent id]
    exact hfollows.held key id exclusive
  refine ⟨(call.locked kh h).sound hledger, ?_, ?_, hkept, ?_⟩
  · rintro pid request rfl hrc
    rw [flock_step]
    obtain ⟨-, heq⟩ | ⟨id, f, locks, -, -, heq, -⟩ := k.sysFlock_cases h pid request
    · exact heq
    · exact absurd (by rw [heq]) hrc
  · rintro pid request rfl hrc
    rw [flock_step]
    obtain ⟨hne, -⟩ | ⟨id, f, locks, hentry, hf, heq, hgrant, -⟩ := k.sysFlock_cases h pid request
    · exact absurd hrc hne
    · refine ⟨id, f, hentry, hf, ?_⟩
      rw [heq]
      exact hgrant
  · intro pid fd pid' fd' hdup key exclusive
    obtain ⟨halias, hself⟩ := hdup.entries
    have hheld : ∀ q n, (call.step kh k).fdEntry q n = k.fdEntry pid fd →
        ((call.step kh k).FdHolds q n key exclusive ↔ k.FdHolds pid fd key exclusive) := by
      intro q n hentry
      constructor
      · rintro ⟨id, hid, hh⟩
        exact ⟨id, hentry ▸ hid, ((hkept hdup.not_flock key id exclusive).mp hh).1⟩
      · rintro ⟨id, hid, hh⟩
        have hid' := hentry.trans hid
        exact ⟨id, hid', (hkept hdup.not_flock key id exclusive).mpr ⟨hh, references_pos hid'⟩⟩
    exact ⟨hheld pid' fd' halias, hheld pid fd hself⟩

theorem Objects.locked_new (host : σ) : (Kernel.new host).objects.Locked where
  formed key s hs := by cases hs
  live key id exclusive hheld := by
    obtain ⟨s, hs, -⟩ := hheld
    cases hs
  fresh id _ := rfl

/-- In every run in which no counter overflows and no queued right is lost, locks follow the open file
    descriptions: a lock is had by `flock` only, shared by every alias and gone with the last one. -/
theorem flock_law (kh : Kh σ) (host : σ) (calls : List KernelCall)
    (hrun : Run.Along (KernelCall.step kh) (fun k call => call.Room k ∧ call.Tidy k) (Kernel.new host) calls) :
    Run.Along (KernelCall.step kh) (fun k call => call.LockLaw kh k) (Kernel.new host) calls := by
  refine Run.Along.promise (KernelCall.step kh) (I := fun k => k.Ledger [] ∧ k.objects.Locked)
    (C := fun _ => True) ?_ ?_ ⟨ledger_new host, Objects.locked_new host⟩ (fun _ _ => trivial) hrun
  · rintro k call ⟨hledger, hlocked⟩ - ⟨hroom, htidy⟩
    exact call.lockLaw kh hlocked (call.ledger kh hledger hroom htidy)
  · rintro k call ⟨hledger, hlocked⟩ - ⟨hroom, htidy⟩
    exact ⟨call.ledger kh hledger hroom htidy, call.locked kh hlocked⟩

/-- `open("/f")` for writing, made if it is not there. -/
def openLockFile : KernelCall := .sys 1 (.path (.openPath (leBytes 4 3 ++ ascii ['/', 'f'])))

/-- A locked file, duplicated, forked and sent to a socket; its aliases are closed one by one. -/
def lockAndShare : List KernelCall :=
  [.insertHostProcess 1 0 [] none, openLockFile, .sys 1 (.flock (leBytes 4 3 ++ leBytes 4 2)),
    .sys 1 (.dup (leBytes 4 3)), .prepareFork 1, .sys 1 (.socketpair ([1, 1, 0, 0] ++ leBytes 4 0) 8),
    .sys 1 (.sendmsg (leBytes 4 5 ++ leBytes 4 1 ++ leBytes 4 1 ++ [65] ++ leBytes 4 3)),
    .sys 1 (.close (leBytes 4 3)), .sys 1 (.close (leBytes 4 4)), .rollbackFork 1 2,
    .sys 1 (.recvmsg (leBytes 4 6 ++ leBytes 4 0 ++ leBytes 4 4) 16), .sys 1 (.close (leBytes 4 3))]

theorem flock_law_lockAndShare :
    Run.Along (KernelCall.step Kh.absent) (fun k call => call.LockLaw Kh.absent k) (Kernel.new ())
      lockAndShare :=
  flock_law Kh.absent () lockAndShare (by decide)

/-- A locked file is sent to a socket, and both sockets and the descriptor are closed. -/
def lockAndLose : List KernelCall :=
  [openLockFile, .sys 1 (.flock (leBytes 4 3 ++ leBytes 4 2)),
    .sys 1 (.socketpair ([1, 1, 0, 0] ++ leBytes 4 0) 8),
    .sys 1 (.sendmsg (leBytes 4 4 ++ leBytes 4 1 ++ leBytes 4 1 ++ [65] ++ leBytes 4 3)),
    .sys 1 (.close (leBytes 4 5)), .sys 1 (.close (leBytes 4 4)), .sys 1 (.close (leBytes 4 3))]

/-- Nothing refers to the file any more, its lock is still held, and nobody can have it again. -/
theorem lock_outlives_file :
    let k := Run.run (KernelCall.step Kh.absent) (new ()) lockAndLose
    k.references (.file 1) = 0 ∧ Held k.flockLocks (toLex (0, 1)) 1 true ∧ ¬k.LocksSound ∧
      ((openLockFile.step Kh.absent k).sysFlock 1 (leBytes 4 3 ++ leBytes 4 6)).1 = -EAGAIN := by
  have hzero : (Run.run (KernelCall.step Kh.absent) (new ()) lockAndLose).references (.file 1) = 0 := by
    decide
  have hheld : Held (Run.run (KernelCall.step Kh.absent) (new ()) lockAndLose).flockLocks
      (toLex (0, 1)) 1 true := ⟨.exclusive 1, by decide, by decide, rfl⟩
  refine ⟨hzero, hheld, fun hsound => ?_, by decide⟩
  have hpos := (hsound.live _ _ _ hheld).1
  rw [hzero] at hpos
  exact absurd hpos (Nat.lt_irrefl 0)

end Yurt
