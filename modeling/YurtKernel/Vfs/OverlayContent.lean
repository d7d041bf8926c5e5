import YurtKernel.Lib.Run
import YurtKernel.Vfs.Overlay

/-! What an overlay shows, and what opening does to it.

    An overlay keeps three tables beside its layers: external ids, a cache from paths to ids, and
    whiteouts. `Sound` says how the tables agree with the layers; every operation keeps it. From it
    follows what `open` hands out for a path that is visible as a regular file. -/

namespace Yurt
open SortedMap
variable {σ : Type}
variable {id : Inode} {lower : Leaf}

/-! ### Layers -/

/-- The index of an archive: its two tables have the same paths, and every file lies inside. -/
structure TarLayerBackend.Indexed (b : TarLayerBackend) : Prop where
  same_paths : ∀ path, b.inodes.contains path = b.files.contains path
  in_range : ∀ path off len, b.files.get? path = some (off, len) → off + len ≤ b.archive.length

/-- Layers an overlay is mounted over. -/
inductive Leaf.Image : Leaf → Prop
  | ramfs (b : RamfsBackend) : Image (.ramfs b)
  | tar (b : TarLayerBackend) (indexed : b.Indexed) : Image (.tar b)

/-- Inode of the file at a path. -/
def Leaf.file? : Leaf → Bytes → Option Inode
  | .ramfs b, path => b.paths.get? path
  | .tar b, path => b.inodes.get? path
  | _, _ => none

/-- Bytes behind an inode. -/
def Leaf.content : Leaf → Inode → Option Bytes
  | .ramfs b, inode => b.inodes.get? inode
  | .tar b, inode => (b.range? inode).map (fun r => (b.archive.drop r.1).take r.2)
  | _, _ => none

/-- The path is a regular file with the given bytes. -/
def Leaf.Holds (l : Leaf) (path bytes : Bytes) : Prop :=
  l.entryType path = regularType ∧ ∃ inode, l.file? path = some inode ∧ l.content inode = some bytes

namespace Leaf
variable {l : Leaf} {path bytes : Bytes} {inode : Inode}

theorem openPath_ramfs (kh : Kh σ) (h : σ) (u : RamfsBackend) (path : Bytes) (flags : Nat) :
    (Leaf.ramfs u).openPath kh h path flags =
      ((u.openPath path flags).1, .ramfs (u.openPath path flags).2, h) := rfl

theorem Image.openPath_zero (hl : l.Image) (kh : Kh σ) (h : σ) (path : Bytes) :
    l.openPath kh h path 0 = (l.file? path, l, h) := by
  cases hl with
  | ramfs b =>
    simp only [Leaf.openPath, RamfsBackend.openPath, file?]
    cases b.paths.get? path <;> simp
  | tar b => rfl

theorem Image.entryType_ne (hl : l.Image) (hfile : l.file? path = some inode) :
    l.entryType path ≠ unknownType := by
  cases hl with
  | ramfs b =>
    have hcontains : b.paths.contains path = true := contains_iff.mpr ⟨_, hfile⟩
    simp only [Leaf.entryType, RamfsBackend.entryType, hcontains]
    split_ifs <;> decide
  | tar b indexed =>
    have hcontains : b.files.contains path = true := by
      rw [← indexed.same_paths]
      exact contains_iff.mpr ⟨_, hfile⟩
    simp only [Leaf.entryType, TarLayerBackend.entryType, hcontains, if_true]
    decide

theorem Image.size_eq (hl : l.Image) (hbytes : l.content inode = some bytes) :
    l.size inode = some bytes.length := by
  cases hl with
  | ramfs b =>
    simp only [content] at hbytes
    simp only [Leaf.size, RamfsBackend.size, hbytes, Option.map_some]
  | tar b indexed =>
    simp only [content, Option.map_eq_some_iff] at hbytes
    obtain ⟨⟨off, len⟩, hrange, rfl⟩ := hbytes
    have hin : off + len ≤ b.archive.length := by
      rw [TarLayerBackend.range?, Option.bind_eq_some_iff] at hrange
      obtain ⟨e, -, he⟩ := hrange
      exact indexed.in_range e.1 off len he
    simp only [Leaf.size, TarLayerBackend.size, hrange, Option.map_some, List.length_take,
      List.length_drop, Option.some.injEq]
    omega

theorem Image.read_host (hl : l.Image) (kh : Kh σ) (h : σ) (inode : Inode) (offset cap : Nat) :
    (l.read kh h inode offset cap).2 = h := by
  cases hl <;> rfl

/-- Reading from the start. -/
theorem Image.read_zero (hl : l.Image) (kh : Kh σ) (h : σ) (hbytes : l.content inode = some bytes)
    (cap : Nat) : l.read kh h inode 0 cap = ((((bytes.take cap).length : Int), bytes.take cap), h) := by
  have hsize := hl.size_eq hbytes
  cases hl with
  | ramfs b =>
    simp only [content] at hbytes
    simp [Leaf.read, RamfsBackend.read, hbytes, RamfsBackend.slice, toUsize]
  | tar b indexed =>
    simp only [content, Option.map_eq_some_iff] at hbytes
    obtain ⟨⟨off, len⟩, hrange, rfl⟩ := hbytes
    simp only [Leaf.size, TarLayerBackend.size, hrange, Option.map_some, Option.some.injEq] at hsize
    rw [List.length_take] at hsize
    simp only [Leaf.read, TarLayerBackend.read, hrange, Nat.zero_min, Nat.sub_zero, Nat.add_zero,
      List.take_take, List.length_take]
    rw [Nat.min_comm len cap]
    congr 3
    omega

end Leaf

/-! ### The names of a ramfs -/

namespace RamfsBackend
variable {u : RamfsBackend} {path : Bytes}

/-- After an open the path names the inode that was returned; other names stay. -/
theorem openPath_paths (u : RamfsBackend) (path : Bytes) (flags : Nat) :
    (u.openPath path flags).2.paths.get? path = (u.openPath path flags).1 ∧
      ∀ q, q ≠ path → (u.openPath path flags).2.paths.get? q = u.paths.get? q := by
  unfold RamfsBackend.openPath
  cases hp : u.paths.get? path with
  | some id => exact ⟨hp, fun _ _ => rfl⟩
  | none =>
    split_ifs
    · simp only [install, hp, get?_insert]
      exact ⟨if_pos trivial, fun q hq => if_neg hq⟩
    · exact ⟨hp, fun _ _ => rfl⟩

theorem openPath_of_some (hp : u.paths.get? path = some id) (flags : Nat) :
    u.openPath path flags = (some id, u) := by
  simp only [RamfsBackend.openPath, hp]

/-- A creating open of a new path makes an empty file. -/
theorem openPath_create (hp : u.paths.get? path = none) {flags : Nat} (hc : flags.testBit 1 = true) :
    (u.openPath path flags).1 = some u.nextId ∧
      (u.openPath path flags).2.inodes.get? u.nextId = some [] := by
  simp [RamfsBackend.openPath, hp, hc, install]

/-- Opening makes files only. -/
theorem openPath_tree (u : RamfsBackend) (path : Bytes) (flags : Nat) :
    (u.openPath path flags).2.dirInodes = u.dirInodes ∧
      (u.openPath path flags).2.symlinks = u.symlinks := by
  unfold RamfsBackend.openPath
  cases hp : u.paths.get? path with
  | some id => exact ⟨rfl, rfl⟩
  | none =>
    simp only [install, hp]
    split_ifs <;> exact ⟨rfl, rfl⟩

theorem write_tree (u : RamfsBackend) (inode : Inode) (offset : Nat) (payload : Bytes) :
    (u.write inode offset payload).2.dirInodes = u.dirInodes ∧
      (u.write inode offset payload).2.symlinks = u.symlinks := by
  unfold RamfsBackend.write
  cases u.inodes.get? inode <;> exact ⟨rfl, rfl⟩

theorem openPath_miss (hp : u.paths.get? path = none) {flags : Nat} (hc : flags.testBit 1 = false) :
    u.openPath path flags = (none, u) := by
  simp [RamfsBackend.openPath, hp, hc]

section
variable (u : RamfsBackend) (inode : Inode)

@[simp] theorem paths_write (offset : Nat) (payload : Bytes) :
    (u.write inode offset payload).2.paths = u.paths := by
  unfold RamfsBackend.write
  cases u.inodes.get? inode <;> rfl

@[simp] theorem paths_setLen (length : Nat) :
    (u.setLen inode length).2.paths = u.paths := by
  unfold RamfsBackend.setLen
  cases u.inodes.get? inode with
  | none => rfl
  | some content =>
    split_ifs <;> rfl

theorem unlink_paths (path q : Bytes) (hq : q ≠ path) :
    (u.unlink path).2.paths.get? q = u.paths.get? q := by
  unfold RamfsBackend.unlink
  split_ifs
  · rfl
  · cases u.paths.get? path with
    | none => rfl
    | some id =>
      simp only
      split_ifs <;> simp [hq]

theorem link_paths (target path q : Bytes) (hq : q ≠ path) :
    (u.link target path).2.paths.get? q = u.paths.get? q := by
  unfold RamfsBackend.link
  cases u.paths.get? target with
  | none => rfl
  | some id =>
    split_ifs
    · rfl
    · simp [hq]

end

/-- Truncating a file and writing at its start leaves it with the written bytes. -/
theorem rewrite_content {content : Bytes} {inode : Inode} (hc : u.inodes.get? inode = some content)
    (payload : Bytes) : (((u.truncate inode).write inode 0 payload).1 = payload.length) ∧
      ((u.truncate inode).write inode 0 payload).2.inodes.get? inode = some payload := by
  have hempty : (u.truncate inode).inodes.get? inode = some [] := by
    simp [truncate, hc]
  simp only [RamfsBackend.write, hempty, get?_insert_self, toUsize, overwrite]
  refine ⟨trivial, congrArg some ?_⟩
  cases payload <;> simp [resize]

end RamfsBackend

/-! ### Agreement of the tables with the layers -/

namespace OverlayBackend
variable {b : OverlayBackend} {path bytes : Bytes} {u u' : RamfsBackend}

/-- A cached id stands for the file its path names. -/
def CacheOk (b : OverlayBackend) (path : Bytes) (id : Inode) : Prop := b.whitedOut path = false ∧
    ((∃ inode, b.state.layered.get? id = some (.upper, inode) ∧ b.upper.file? path = some inode) ∨
      (∃ inode, b.state.layered.get? id = some (.lower, inode) ∧ b.upper.file? path = none ∧
        b.lower.file? path = some inode))

structure Sound (b : OverlayBackend) : Prop where
  upper : ∃ u, b.upper = .ramfs u
  lower : b.lower.Image
  fresh : ∀ id x, b.state.layered.get? id = some x → id < b.state.nextId
  cached : ∀ path id, b.state.paths.get? path = some id → b.CacheOk path id

/-- The path is visible as a regular file with the given bytes. -/
def Shows (b : OverlayBackend) (path bytes : Bytes) : Prop :=
  b.whitedOut path = false ∧ (b.upper.Holds path bytes ∨
    b.upper.entryType path = unknownType ∧ b.lower.Holds path bytes)

theorem sound_new (hlower : lower.Image) (u : RamfsBackend) : (new lower (.ramfs u)).Sound where
  upper := ⟨u, rfl⟩
  lower := hlower
  fresh := fun _ _ h => by cases h
  cached := fun _ _ h => by cases h

/-- An upper layer that differs in the file at one path, which is not cached. -/
theorem Sound.setUpper (h : b.Sound) (hu : b.upper = .ramfs u) (hnone : b.state.paths.get? path = none)
    (hrest : ∀ q, q ≠ path → u'.paths.get? q = u.paths.get? q) :
    ({ b with upper := .ramfs u' } : OverlayBackend).Sound where
  upper := ⟨u', rfl⟩
  lower := h.lower
  fresh := h.fresh
  cached := fun q id hq => by
    have hne : q ≠ path := by
      rintro rfl
      rw [hnone] at hq
      cases hq
    have hfile : (Leaf.ramfs u').file? q = b.upper.file? q := by
      rw [hu]
      exact hrest q hne
    have hok := h.cached q id hq
    unfold CacheOk at hok ⊢
    rwa [← hfile] at hok

theorem Sound.forget (h : b.Sound) (path : Bytes) : (b.forget path).Sound where
  upper := h.upper
  lower := h.lower
  fresh := h.fresh
  cached := fun q id hq => by
    simp only [OverlayBackend.forget, get?_erase] at hq
    split_ifs at hq
    exact h.cached q id hq

theorem Sound.liftWhiteout (h : b.Sound) (path : Bytes) : (b.liftWhiteout path).Sound := by
  unfold OverlayBackend.liftWhiteout
  split_ifs with hw
  · refine ⟨h.upper, h.lower, h.fresh, fun q id hq => ?_⟩
    simp only [get?_erase] at hq
    split_ifs at hq with hne
    obtain ⟨hvisible, hfile⟩ := h.cached q id hq
    refine ⟨?_, hfile⟩
    rw [whitedOut, contains_eq_false] at hvisible ⊢
    simp only [get?_erase, hvisible, ite_self]
  · exact h

/-- Registering the inode a visible path has in its layer. -/
theorem Sound.register (h : b.Sound) {layer : Layer} {inode : Inode} (hw : b.whitedOut path = false)
    (hfile : (layer = .upper ∧ b.upper.file? path = some inode) ∨
      (layer = .lower ∧ b.upper.file? path = none ∧ b.lower.file? path = some inode)) :
    (b.register path layer inode).2.Sound := by
  refine ⟨h.upper, h.lower, fun id x hx => ?_, fun q id hq => ?_⟩
  · simp only [OverlayBackend.register, get?_insert] at hx
    change id < b.state.nextId + 1
    split_ifs at hx with hid
    · exact hid ▸ Nat.lt_succ_self _
    · exact Nat.lt_succ_of_lt (h.fresh id x hx)
  · simp only [OverlayBackend.register, get?_insert] at hq
    simp only [OverlayBackend.register, CacheOk]
    by_cases hqp : q = path
    · subst hqp
      rw [if_pos rfl] at hq
      cases hq
      refine ⟨hw, ?_⟩
      rcases hfile with ⟨rfl, hu⟩ | ⟨rfl, hu, hl⟩
      · exact .inl ⟨inode, get?_insert_self _ _ _, hu⟩
      · exact .inr ⟨inode, get?_insert_self _ _ _, hu, hl⟩
    · rw [if_neg hqp] at hq
      obtain ⟨hvisible, hok⟩ := h.cached q id hq
      -- an id in use is not the next one
      have hne : id ≠ b.state.nextId := by
        rcases hok with ⟨i, hi, -⟩ | ⟨i, hi, -⟩
        · exact Nat.ne_of_lt (h.fresh id _ hi)
        · exact Nat.ne_of_lt (h.fresh id _ hi)
      refine ⟨hvisible, ?_⟩
      rwa [get?_insert_ne _ _ hne]

/-! ### Copying up -/

/-- Copying a lower file up changes the upper layer at its path only. -/
theorem copyUp_spec (h : b.Sound) (hu : b.upper = .ramfs u) (kh : Kh σ) (host : σ) (path : Bytes) :
    ∃ u', b.copyUp kh host path = ((b.copyUp kh host path).1, { b with upper := .ramfs u' }, host) ∧
      (∀ q, q ≠ path → u'.paths.get? q = u.paths.get? q) ∧
      (∀ inode, (b.copyUp kh host path).1 = some inode → u'.paths.get? path = some inode) ∧
      ((b.copyUp kh host path).1 = none → u'.paths = u.paths) := by
  have hsame : b = { b with upper := .ramfs u } := by rw [← hu]
  unfold copyUp
  rw [h.lower.openPath_zero kh host path]
  cases b.lower.file? path with
  | none => exact ⟨u, by rw [← hsame], fun _ _ => rfl, fun _ hnone => (by cases hnone), fun _ => rfl⟩
  | some inner =>
    have hslurp : ∃ n content, slurp host (b.lower.size inner)
        (fun host len => b.lower.read kh host inner 0 len) = ((n, content), host) := by
      unfold slurp
      simp only
      split_ifs
      · exact ⟨_, _, Prod.ext rfl (h.lower.read_host kh host inner 0 _)⟩
      · exact ⟨0, [], rfl⟩
    obtain ⟨n, content, hslurp⟩ := hslurp
    simp only [hslurp]
    split_ifs with hn
    · exact ⟨u, by rw [← hsame], fun _ _ => rfl, fun _ hnone => (by cases hnone), fun _ => rfl⟩
    · obtain ⟨hpath, hrest⟩ := u.openPath_paths path 0b011
      simp only [hu, Leaf.openPath_ramfs]
      have hopened : ∃ inode u₁, u.openPath path 0b011 = (some inode, u₁) ∧
          (u₁.inodes.get? inode = none → u₁.paths = u.paths) := by
        cases hp : u.paths.get? path with
        | some id => exact ⟨id, u, RamfsBackend.openPath_of_some hp _, fun _ => rfl⟩
        | none =>
          obtain ⟨hid, hempty⟩ := RamfsBackend.openPath_create hp (by decide : (0b011).testBit 1 = true)
          refine ⟨u.nextId, _, Prod.ext hid rfl, fun hmissing => ?_⟩
          rw [hmissing] at hempty
          cases hempty
      obtain ⟨inode, u₁, hopen, hnames⟩ := hopened
      rw [hopen] at hpath hrest
      simp only [hopen]
      refine ⟨((u₁.truncate inode).write inode 0 content).2, rfl, fun q hq => ?_, fun i hi => ?_,
        fun hfail => ?_⟩
      · rw [RamfsBackend.paths_write]
        exact hrest q hq
      · split_ifs at hi
        rw [RamfsBackend.paths_write, ← hi]
        exact hpath
      · -- only a name without content cannot be written
        rw [RamfsBackend.paths_write]
        refine hnames ?_
        cases hc : u₁.inodes.get? inode with
        | none => rfl
        | some old =>
          have hrc : ((Leaf.ramfs u₁).truncate inode |>.write kh host inode 0 content).1 =
              content.length := (RamfsBackend.rewrite_content hc content).1
          rw [hrc, if_neg (by omega)] at hfail
          cases hfail

/-- The copy has the bytes of the lower file. -/
theorem copyUp_content (h : b.Sound) (hu : b.upper = .ramfs u) (kh : Kh σ) (host : σ)
    {inner : Inode} (hfile : b.lower.file? path = some inner)
    (hbytes : b.lower.content inner = some bytes) (hnone : u.paths.get? path = none) :
    ∃ u' inode, b.copyUp kh host path = (some inode, { b with upper := .ramfs u' }, host) ∧
      u'.paths.get? path = some inode ∧ u'.inodes.get? inode = some bytes ∧
      u'.dirInodes = u.dirInodes ∧ u'.symlinks = u.symlinks := by
  have hslurp : slurp host (b.lower.size inner)
      (fun host len => b.lower.read kh host inner 0 len) = (((bytes.length : Int), bytes), host) := by
    rw [slurp, h.lower.size_eq hbytes]
    simp only [Option.getD_some, h.lower.read_zero kh host hbytes]
    split_ifs with hlen
    · simp
    · have : bytes = [] := List.eq_nil_of_length_eq_zero (by omega)
      subst this
      rfl
  obtain ⟨hcreated, hempty⟩ := RamfsBackend.openPath_create hnone (by decide : (0b011).testBit 1 = true)
  obtain ⟨hpath, -⟩ := u.openPath_paths path 0b011
  obtain ⟨hdirs, hlinks⟩ := u.openPath_tree path 0b011
  unfold copyUp
  rw [h.lower.openPath_zero kh host path, hfile]
  simp only [hslurp, hu, Leaf.openPath]
  rw [if_neg (by omega)]
  rw [hcreated] at hpath
  generalize u.openPath path 0b011 = r at hcreated hempty hpath hdirs hlinks ⊢
  obtain ⟨o, u₁⟩ := r
  obtain rfl : o = some u.nextId := hcreated
  obtain ⟨hrc, hcontent⟩ := RamfsBackend.rewrite_content hempty bytes
  obtain ⟨hdirs₂, hlinks₂⟩ := (u₁.truncate u.nextId).write_tree u.nextId 0 bytes
  refine ⟨((u₁.truncate u.nextId).write u.nextId 0 bytes).2, u.nextId, ?_, ?_, hcontent,
    hdirs₂.trans hdirs, hlinks₂.trans hlinks⟩
  · simp only [Leaf.truncate, Leaf.write, hrc]
    rw [if_neg (by omega)]
  · rw [RamfsBackend.paths_write]
    exact hpath

/-! ### Opening keeps the tables in agreement -/

/-- An upper layer that an open changed, and the id for what it found. -/
theorem Sound.registerUpper (h : b.Sound) (hu : b.upper = .ramfs u)
    (hnone : b.state.paths.get? path = none) (hw : b.whitedOut path = false) {inode : Inode}
    (hpath : u'.paths.get? path = some inode) (hrest : ∀ q, q ≠ path → u'.paths.get? q = u.paths.get? q) :
    (({ b with upper := .ramfs u' } : OverlayBackend).register path .upper inode).2.Sound :=
  (h.setUpper hu hnone hrest).register hw (.inl ⟨rfl, hpath⟩)

theorem Sound.openLayers (h : b.Sound) (hnone : b.state.paths.get? path = none)
    (hw : b.whitedOut path = false) (kh : Kh σ) (host : σ) (flags : Nat) :
    (b.openLayers kh host path flags).2.1.Sound := by
  obtain ⟨u, hu⟩ := h.upper
  obtain ⟨hpath, hrest⟩ := u.openPath_paths path flags
  unfold OverlayBackend.openLayers
  simp only [hu, Leaf.openPath_ramfs]
  generalize u.openPath path flags = r at hpath hrest ⊢
  obtain ⟨_ | inode, u₁⟩ := r
  · -- not in the upper layer
    have h₁ : ({ b with upper := .ramfs u₁ } : OverlayBackend).Sound := h.setUpper hu hnone hrest
    simp only at hpath ⊢
    rw [h.lower.openPath_zero kh host path]
    cases hfile : b.lower.file? path with
    | none =>
      simp only
      split_ifs
      · obtain ⟨hpath₂, hrest₂⟩ := u₁.openPath_paths path flags
        simp only [Leaf.openPath_ramfs]
        generalize u₁.openPath path flags = r at hpath₂ hrest₂ ⊢
        obtain ⟨_ | inode, u₂⟩ := r
        · exact h₁.setUpper rfl hnone hrest₂
        · exact h₁.registerUpper rfl hnone hw hpath₂ hrest₂
      · exact h₁
    | some inner =>
      simp only
      split_ifs
      · obtain ⟨u₂, hcopy, hrest₂, hpath₂, -⟩ := copyUp_spec h₁ rfl kh host path
        generalize hres : ({ b with upper := .ramfs u₁ } : OverlayBackend).copyUp kh host path = r
          at hcopy hpath₂ ⊢
        obtain ⟨o, b', host'⟩ := r
        obtain ⟨rfl, rfl⟩ := Prod.mk.inj (Prod.mk.inj hcopy).2
        cases o with
        | none => exact h₁.setUpper rfl hnone hrest₂
        | some inode => exact h₁.registerUpper rfl hnone hw (hpath₂ inode rfl) hrest₂
      · exact h₁.register hw (.inr ⟨rfl, hpath, hfile⟩)
  · exact h.registerUpper hu hnone hw hpath hrest

theorem whitedOut_liftWhiteout (b : OverlayBackend) (path : Bytes) :
    (b.liftWhiteout path).whitedOut path = false := by
  unfold OverlayBackend.liftWhiteout
  split_ifs with hw
  · rw [whitedOut, contains_eq_false]
    simp
  · simpa using hw

namespace Sound

theorem openPath (h : b.Sound) (kh : Kh σ) (host : σ) (path : Bytes) (flags : Nat) :
    (b.openPath kh host path flags).2.1.Sound := by
  unfold OverlayBackend.openPath
  split_ifs
  · exact h
  · have hlift := h.liftWhiteout path
    simp only
    cases (b.liftWhiteout path).cached path (flags.testBit 0) with
    | some id => exact hlift
    | none =>
      refine (hlift.forget path).openLayers ?_ (b.whitedOut_liftWhiteout path) kh host flags
      simp [OverlayBackend.forget]

/-! ### The other operations -/

/-- An upper layer with the same names. -/
theorem sameNames (h : b.Sound) (hu : b.upper = .ramfs u) (hpaths : u'.paths = u.paths) :
    ({ b with upper := .ramfs u' } : OverlayBackend).Sound where
  upper := ⟨u', rfl⟩
  lower := h.lower
  fresh := h.fresh
  cached := fun q id hq => by
    have hok := h.cached q id hq
    simp only [CacheOk, hu, Leaf.file?] at hok ⊢
    rw [hpaths]
    exact hok

theorem write (h : b.Sound) (kh : Kh σ) (host : σ) (inode : Inode) (offset : Nat)
    (payload : Bytes) : (b.write kh host inode offset payload).2.1.Sound := by
  obtain ⟨u, hu⟩ := h.upper
  unfold OverlayBackend.write
  split
  · next inner _ =>
    rw [hu]
    exact h.sameNames hu (u.paths_write inner offset payload)
  · exact h

theorem truncate (h : b.Sound) (inode : Inode) : (b.truncate inode).Sound := by
  obtain ⟨u, hu⟩ := h.upper
  unfold OverlayBackend.truncate
  split
  · rw [hu]
    exact h.sameNames hu rfl
  · exact h

theorem setLen (h : b.Sound) (inode : Inode) (length : Nat) : (b.setLen inode length).2.Sound := by
  obtain ⟨u, hu⟩ := h.upper
  unfold OverlayBackend.setLen
  split
  · next inner _ =>
    rw [hu]
    exact h.sameNames hu (u.paths_setLen inner length)
  · exact h
  · exact h

theorem unlink (h : b.Sound) (kh : Kh σ) (host : σ) (path : Bytes) :
    (b.unlink kh host path).2.1.Sound := by
  obtain ⟨u, hu⟩ := h.upper
  have hforget := h.forget path
  have hnone : (b.forget path).state.paths.get? path = none := by simp [OverlayBackend.forget]
  have hgone : ({ b.forget path with upper := .ramfs (u.unlink path).2 } : OverlayBackend).Sound :=
    hforget.setUpper hu hnone (u.unlink_paths path)
  unfold OverlayBackend.unlink
  have hu' : (b.forget path).upper = .ramfs u := hu
  have hlower : (b.forget path).lower = b.lower := rfl
  simp only [hu', hlower, h.lower.openPath_zero kh]
  split_ifs
  · refine ⟨hgone.upper, hgone.lower, hgone.fresh, fun q id hq => ?_⟩
    obtain ⟨hvisible, hok⟩ := hgone.cached q id hq
    refine ⟨?_, hok⟩
    have hne : q ≠ path := by
      rintro rfl
      rw [show _ = (none : Option Inode) from hnone] at hq
      cases hq
    rw [whitedOut, contains_eq_false] at hvisible ⊢
    simpa [hne] using hvisible
  · exact hgone

theorem raiseTarget (h : b.Sound) (kh : Kh σ) (host : σ) (target : Bytes) :
    (b.raiseTarget kh host target).2.1.Sound ∧ ∀ path, b.state.paths.get? path = none →
      (b.raiseTarget kh host target).2.1.state.paths.get? path = none := by
  obtain ⟨u, hu⟩ := h.upper
  unfold OverlayBackend.raiseTarget
  split_ifs
  · exact ⟨h, fun _ hnone => hnone⟩
  · exact ⟨h, fun _ hnone => hnone⟩
  · obtain ⟨u', hcopy, hrest, -, hfail⟩ := copyUp_spec h hu kh host target
    generalize b.copyUp kh host target = r at hcopy hfail ⊢
    obtain ⟨o, b', host'⟩ := r
    obtain ⟨rfl, rfl⟩ := Prod.mk.inj (Prod.mk.inj hcopy).2
    cases o with
    | none => exact ⟨h.sameNames hu (hfail rfl), fun _ hnone => hnone⟩
    | some inode =>
      have hnone : (b.forget target).state.paths.get? target = none := by
        simp [OverlayBackend.forget]
      refine ⟨(h.forget target).setUpper hu hnone hrest, fun path hpath => ?_⟩
      simp [OverlayBackend.forget, hpath]

/-- What is cached is visible. -/
theorem entryType_ne (h : b.Sound) (hid : b.state.paths.get? path = some id) :
    b.entryType path ≠ unknownType := by
  obtain ⟨u, hu⟩ := h.upper
  have hupper : b.upper.Image := hu ▸ .ramfs u
  obtain ⟨hw, hfile⟩ := h.cached path id hid
  simp only [OverlayBackend.entryType, hw]
  rcases hfile with ⟨inode, -, hfile⟩ | ⟨inode, -, -, hfile⟩
  · simp [hupper.entryType_ne hfile]
  · by_cases hup : b.upper.entryType path = unknownType
    · simp [hup, h.lower.entryType_ne hfile]
    · simp [hup]

theorem liftLinkWhiteout (h : b.Sound) (path : Bytes) :
    ({ b with state := { b.state with whiteouts := b.state.whiteouts.erase path } } :
      OverlayBackend).Sound := by
  refine ⟨h.upper, h.lower, h.fresh, fun q id hq => ?_⟩
  obtain ⟨hvisible, hok⟩ := h.cached q id hq
  refine ⟨?_, hok⟩
  rw [whitedOut, contains_eq_false] at hvisible ⊢
  simp only [get?_erase, hvisible, ite_self]

theorem link (h : b.Sound) (kh : Kh σ) (host : σ) (target path : Bytes) :
    (b.link kh host target path).2.1.Sound := by
  unfold OverlayBackend.link
  by_cases hw : b.whitedOut target = true
  · rw [if_pos hw]
    exact h
  by_cases ht : b.entryType target = unknownType
  · rw [if_neg hw, if_pos ht]
    exact h
  by_cases hpath : b.entryType path ≠ unknownType
  · rw [if_neg hw, if_neg ht, if_pos hpath]
    exact h
  rw [if_neg hw, if_neg ht, if_neg hpath]
  have hnone : b.state.paths.get? path = none := by
    cases hid : b.state.paths.get? path with
    | none => rfl
    | some id => exact absurd (h.entryType_ne hid) hpath
  obtain ⟨hraise, hkept⟩ := h.raiseTarget kh host target
  specialize hkept path hnone
  generalize b.raiseTarget kh host target = r at hraise hkept ⊢
  obtain ⟨rc, b', host'⟩ := r
  simp only at hraise hkept ⊢
  split
  · exact hraise
  obtain ⟨u, hu⟩ := hraise.upper
  have hlinked : ({ b' with upper := (b'.upper.link target path).2 } : OverlayBackend).Sound := by
    rw [hu]
    exact hraise.setUpper hu hkept (u.link_paths target path)
  split_ifs
  · exact hlinked.liftLinkWhiteout path
  · exact hlinked

theorem clearDestination (h : b.Sound) (kh : Kh σ) (host : σ) (path : Bytes) :
    (b.clearDestination kh host path).1.Sound := by
  unfold OverlayBackend.clearDestination
  split_ifs
  · exact h.unlink kh host path
  · exact h

theorem renameFile (h : b.Sound) (kh : Kh σ) (host : σ) (old new : Bytes) :
    (b.renameFile kh host old new).2.1.Sound := by
  have hsource := h.openPath kh host old 0
  unfold OverlayBackend.renameFile
  generalize b.openPath kh host old 0 = r at hsource ⊢
  obtain ⟨_ | source, b₁, host₁⟩ := r
  · exact hsource
  simp only at hsource ⊢
  generalize slurp host₁ (b₁.size source) (fun h len => b₁.read kh h source 0 len) = r
  obtain ⟨⟨n, content⟩, host₂⟩ := r
  split
  · exact hsource
  have hclear := hsource.clearDestination kh host₂ new
  generalize b₁.clearDestination kh host₂ new = r at hclear ⊢
  obtain ⟨b₂, host₃⟩ := r
  have hdest := Sound.openPath hclear kh host₃ new 0b011
  generalize b₂.openPath kh host₃ new 0b011 = r at hdest ⊢
  obtain ⟨_ | dest, b₃, host₄⟩ := r
  · exact hdest
  have hwritten := (Sound.truncate hdest dest).write kh host₄ dest 0 content
  simp only
  generalize (b₃.truncate dest).write kh host₄ dest 0 content = r at hwritten ⊢
  obtain ⟨w, b₄, host₅⟩ := r
  split_ifs
  · exact hwritten
  · exact Sound.unlink hwritten kh host₅ old

theorem rename (h : b.Sound) (kh : Kh σ) (host : σ) (old new : Bytes) :
    (b.rename kh host old new).2.1.Sound := by
  unfold OverlayBackend.rename
  split_ifs
  · exact h
  · exact h
  · exact h
  · exact h
  · exact h.renameFile kh host old new
  · exact h
  · exact h

end Sound

end OverlayBackend

/-! ### What an open hands out -/

namespace OverlayBackend
variable {b : OverlayBackend} {path bytes bytes' : Bytes} {u : RamfsBackend} {flags : Nat}

section
variable (kh : Kh σ) (host : σ) (b : OverlayBackend) (path : Bytes) (flags : Nat)

/-- The open succeeds, what it returns reads as the given bytes, and the path still shows them. -/
def Opens (bytes : Bytes) : Prop :=
  ∃ id b' host', b.openPath kh host path flags = (some id, b', host') ∧ b'.size id = some bytes.length ∧
    (∀ cap, b'.read kh host' id 0 cap = ((((bytes.take cap).length : Int), bytes.take cap), host')) ∧
    b'.Shows path bytes

/-- A creating open that looks for the file in the upper layer only, while it is in the lower one. -/
def CreatesOver : Prop :=
  flags.testBit 1 = true ∧ b.upper.file? path = none ∧
    (flags.testBit 0 = true ∨ b.state.paths.get? path = none)

end

/-- A path shows one content. -/
theorem Shows.unique (h : b.Shows path bytes) (h' : b.Shows path bytes') : bytes = bytes' := by
  have hholds : ∀ {l : Leaf}, l.Holds path bytes → l.Holds path bytes' → bytes = bytes' := by
    rintro l ⟨-, inode, hfile, hbytes⟩ ⟨-, inode', hfile', hbytes'⟩
    obtain rfl := Option.mem_unique hfile hfile'
    exact Option.mem_unique hbytes hbytes'
  obtain ⟨-, hupper | ⟨hmissing, hlower⟩⟩ := h
  · obtain ⟨-, hupper' | ⟨hmissing', -⟩⟩ := h'
    · exact hholds hupper hupper'
    · exact absurd (hupper.1.symm.trans hmissing') (by decide)
  · obtain ⟨-, hupper' | ⟨-, hlower'⟩⟩ := h'
    · exact absurd (hupper'.1.symm.trans hmissing) (by decide)
    · exact hholds hlower hlower'

/-- A file below a path the upper layer does not have. -/
theorem Sound.file_none (h : b.Sound) (hmissing : b.upper.entryType path = unknownType) :
    b.upper.file? path = none := by
  obtain ⟨u, hu⟩ := h.upper
  have hupper : b.upper.Image := hu ▸ .ramfs u
  cases hfile : b.upper.file? path with
  | none => rfl
  | some inode => exact absurd hmissing (hupper.entryType_ne hfile)

/-- What is behind the cached id of a path. -/
theorem Sound.cached_content (h : b.Sound) (hid : b.state.paths.get? path = some id)
    (hshows : b.Shows path bytes) :
    ∃ l : Leaf, ∃ inode, l.Image ∧ l.content inode = some bytes ∧ b.size id = l.size inode ∧
      ∀ (kh : Kh σ) host cap, b.read kh host id 0 cap = l.read kh host inode 0 cap := by
  obtain ⟨u, hu⟩ := h.upper
  have hupper : b.upper.Image := hu ▸ .ramfs u
  obtain ⟨-, hshows⟩ := hshows
  obtain ⟨-, ⟨inode, hlayer, hfile⟩ | ⟨inode, hlayer, hnone, hfile⟩⟩ := h.cached path id hid
  · rcases hshows with ⟨-, inode', hfile', hbytes⟩ | ⟨hmissing, -⟩
    · obtain rfl := Option.mem_unique hfile hfile'
      refine ⟨b.upper, inode, hupper, hbytes, ?_, fun kh host cap => ?_⟩
      · simp only [size, hlayer]
      · simp only [OverlayBackend.read, hlayer]
    · exact absurd hmissing (hupper.entryType_ne hfile)
  · rcases hshows with ⟨-, inode', hfile', -⟩ | ⟨-, -, inode', hfile', hbytes⟩
    · rw [hnone] at hfile'
      cases hfile'
    · obtain rfl := Option.mem_unique hfile hfile'
      refine ⟨b.lower, inode, h.lower, hbytes, ?_, fun kh host cap => ?_⟩
      · simp only [size, hlayer]
      · simp only [OverlayBackend.read, hlayer]

/-- An id that was handed out is cached. -/
theorem openLayers_caches (kh : Kh σ) (host : σ)
    (hid : (b.openLayers kh host path flags).1 = some id) :
    (b.openLayers kh host path flags).2.1.state.paths.get? path = some id := by
  unfold OverlayBackend.openLayers at hid ⊢
  have hregister : ∀ {b : OverlayBackend} {layer inner}, (b.register path layer inner).1 = some id →
      (b.register path layer inner).2.state.paths.get? path = some id := fun hid => by
    simpa [register] using hid
  generalize b.upper.openPath kh host path flags = r at hid ⊢
  obtain ⟨_ | inner, upper, host⟩ := r
  · simp only at hid ⊢
    generalize b.lower.openPath kh host path 0 = r at hid ⊢
    obtain ⟨_ | inner, lower, host⟩ := r
    · simp only at hid ⊢
      by_cases hc : flags.testBit 1 = true
      · rw [if_pos hc] at hid ⊢
        generalize Leaf.openPath kh host upper path flags = r at hid ⊢
        obtain ⟨_ | inner, upper, host⟩ := r
        · cases hid
        · exact hregister hid
      · rw [if_neg hc] at hid
        cases hid
    · simp only at hid ⊢
      by_cases hw : flags.testBit 0 = true
      · rw [if_pos hw] at hid ⊢
        generalize OverlayBackend.copyUp kh host _ path = r at hid ⊢
        obtain ⟨_ | inner, b', host⟩ := r
        · cases hid
        · exact hregister hid
      · rw [if_neg hw] at hid ⊢
        exact hregister hid
  · exact hregister hid

theorem cached_eq_some {writable : Bool} (hid : b.cached path writable = some id) :
    b.state.paths.get? path = some id := by
  unfold cached at hid
  cases hp : b.state.paths.get? path with
  | none => simp [hp] at hid
  | some id' =>
    simp only [hp] at hid
    split at hid
    · exact hid
    · split_ifs at hid
      exact hid

/-- A visible path is opened by the cache, or by the layers. -/
theorem openPath_visible (hw : b.whitedOut path = false) (kh : Kh σ) (host : σ) (flags : Nat) :
    b.openPath kh host path flags = match b.cached path (flags.testBit 0) with
      | some id => (some id, b, host)
      | none => (b.forget path).openLayers kh host path flags := by
  unfold OverlayBackend.openPath liftWhiteout
  rw [hw]
  rfl

/-- A successful open hands out the bytes the path shows after it. -/
theorem Sound.opens_iff (h : b.Sound) (hw : b.whitedOut path = false) (kh : Kh σ) (host : σ)
    (hid : (b.openPath kh host path flags).1 = some id) :
    Opens kh host b path flags bytes ↔ (b.openPath kh host path flags).2.1.Shows path bytes := by
  have hsound := h.openPath kh host path flags
  have hcached : (b.openPath kh host path flags).2.1.state.paths.get? path = some id := by
    rw [b.openPath_visible hw] at hid ⊢
    cases hc : b.cached path (flags.testBit 0) with
    | some id' =>
      simp only [hc] at hid ⊢
      rw [← hid]
      exact cached_eq_some hc
    | none =>
      simp only [hc] at hid ⊢
      exact openLayers_caches kh host hid
  unfold Opens
  generalize b.openPath kh host path flags = r at hid hsound hcached ⊢
  obtain ⟨o, b', host'⟩ := r
  obtain rfl : o = some id := hid
  constructor
  · rintro ⟨id', b'', host'', hres, -, -, hshows⟩
    obtain ⟨rfl, rfl⟩ := Prod.mk.inj (Prod.mk.inj hres).2
    exact hshows
  · intro hshows
    obtain ⟨l, inode, hl, hbytes, hsize, hread⟩ := hsound.cached_content hcached hshows
    refine ⟨id, b', host', rfl, hsize.trans (hl.size_eq hbytes), fun cap => ?_, hshows⟩
    rw [hread, hl.read_zero kh host' hbytes]

/-- A file of the upper layer keeps its content. -/
theorem Sound.openLayers_upper (h : b.Sound) (hshows : b.Shows path bytes)
    (hupper : b.upper.Holds path bytes) (kh : Kh σ) (host : σ) (flags : Nat) :
    ∃ id, (b.openLayers kh host path flags).1 = some id ∧
      (b.openLayers kh host path flags).2.1.Shows path bytes := by
  obtain ⟨u, hu⟩ := h.upper
  obtain ⟨-, inode, hfile, -⟩ := hupper
  rw [hu] at hfile
  have hopen := RamfsBackend.openPath_of_some (u := u) hfile flags
  unfold OverlayBackend.openLayers
  simp only [hu, Leaf.openPath_ramfs, hopen]
  rw [← hu]
  exact ⟨_, rfl, hshows⟩

/-- The upper layer with a file that was just made. -/
theorem holds_new {u' : RamfsBackend} {inode : Inode} (hmissing : u.entryType path = unknownType)
    (hdirs : u'.dirInodes = u.dirInodes) (hlinks : u'.symlinks = u.symlinks)
    (hpath : u'.paths.get? path = some inode) (hbytes : u'.inodes.get? inode = some bytes) :
    (Leaf.ramfs u').Holds path bytes := by
  refine ⟨?_, inode, hpath, hbytes⟩
  have hcontains : u'.paths.contains path = true := contains_iff.mpr ⟨_, hpath⟩
  simp only [RamfsBackend.entryType] at hmissing
  simp only [Leaf.entryType, RamfsBackend.entryType, hdirs, hlinks, hcontains, if_true]
  split_ifs at hmissing with hdir hlink hfile
  · cases hmissing
  · cases hmissing
  · cases hmissing
  · rw [if_neg hdir, if_neg hlink]

/-- A file of the lower layer is lost to an empty one by a creating open, and kept by any other. -/
theorem Sound.openLayers_lower (h : b.Sound) (hw : b.whitedOut path = false)
    (hmissing : b.upper.entryType path = unknownType) (hlower : b.lower.Holds path bytes)
    (kh : Kh σ) (host : σ) (flags : Nat) :
    ∃ id, (b.openLayers kh host path flags).1 = some id ∧
      (b.openLayers kh host path flags).2.1.Shows path (if flags.testBit 1 then [] else bytes) := by
  obtain ⟨u, hu⟩ := h.upper
  have hnone := h.file_none hmissing
  obtain ⟨hregular, inner, hfile, hbytes⟩ := hlower
  rw [hu] at hmissing hnone
  unfold OverlayBackend.openLayers
  by_cases hcreate : flags.testBit 1 = true
  · -- the probe of the upper layer already makes the file
    obtain ⟨hid, hempty⟩ := RamfsBackend.openPath_create hnone hcreate
    obtain ⟨hpath, -⟩ := u.openPath_paths path flags
    obtain ⟨hdirs, hlinks⟩ := u.openPath_tree path flags
    rw [hid] at hpath
    have hholds := holds_new hmissing hdirs hlinks hpath hempty
    simp only [hu, Leaf.openPath_ramfs]
    generalize u.openPath path flags = r at hid hholds ⊢
    obtain ⟨o, u'⟩ := r
    obtain rfl : o = some u.nextId := hid
    rw [if_pos hcreate]
    exact ⟨_, rfl, hw, .inl hholds⟩
  · rw [if_neg hcreate]
    have hmiss := RamfsBackend.openPath_miss (u := u) hnone (by simpa using hcreate)
    simp only [hu, Leaf.openPath_ramfs, hmiss]
    rw [← hu, h.lower.openPath_zero kh host path, hfile]
    by_cases hwritable : flags.testBit 0 = true
    · obtain ⟨u', inode, hcopy, hpath, hcontent, hdirs, hlinks⟩ :=
        copyUp_content h hu kh host hfile hbytes hnone
      simp only [if_pos hwritable, hcopy]
      exact ⟨_, rfl, hw, .inl (holds_new hmissing hdirs hlinks hpath hcontent)⟩
    · simp only [if_neg hwritable]
      refine ⟨_, rfl, hw, .inr ⟨?_, hregular, inner, hfile, hbytes⟩⟩
      change b.upper.entryType path = unknownType
      rw [hu]
      exact hmissing

/-- The cache serves a lower file unless the open is to write. -/
theorem Sound.cached_lower (h : b.Sound) (hnone : b.upper.file? path = none) (writable : Bool) :
    b.cached path writable = if writable then none else b.state.paths.get? path := by
  unfold OverlayBackend.cached
  cases hid : b.state.paths.get? path with
  | none => simp
  | some id =>
    obtain ⟨-, ⟨inode, -, hfile⟩ | ⟨inode, hlayer, -⟩⟩ := h.cached path id hid
    · rw [hnone] at hfile
      cases hfile
    · simp only [hlayer]

/-- What an open keeps. -/
theorem Sound.opens_iff_not_createsOver (h : b.Sound) (hshows : b.Shows path bytes) (kh : Kh σ)
    (host : σ) (flags : Nat) :
    Opens kh host b path flags bytes ↔ ¬ (b.CreatesOver path flags ∧ bytes ≠ []) := by
  obtain ⟨hw, hlayers⟩ := id hshows
  have hforget : (b.forget path).Shows path bytes := hshows
  have hopen := b.openPath_visible hw kh host flags
  rcases hlayers with hupper | ⟨hmissing, hlower⟩
  · -- in the upper layer: every open keeps it
    have hfile : b.upper.file? path ≠ none := by
      obtain ⟨-, inode, hfile, -⟩ := hupper
      simp [hfile]
    have hkept : ∃ id, (b.openPath kh host path flags).1 = some id ∧
        (b.openPath kh host path flags).2.1.Shows path bytes := by
      rw [hopen]
      cases b.cached path (flags.testBit 0) with
      | some id => exact ⟨id, rfl, hshows⟩
      | none => exact (h.forget path).openLayers_upper hforget hupper kh host flags
    obtain ⟨id, hid, hkept⟩ := hkept
    exact iff_of_true ((h.opens_iff hw kh host hid).mpr hkept) (fun hbad => hfile hbad.1.2.1)
  · have hnone := h.file_none hmissing
    have hcached := h.cached_lower hnone (flags.testBit 0)
    cases hc : b.cached path (flags.testBit 0) with
    | some id =>
      -- the cache knows the lower file
      simp only [hc] at hopen
      have hid : (b.openPath kh host path flags).1 = some id := by rw [hopen]
      refine iff_of_true ((h.opens_iff hw kh host hid).mpr ?_) ?_
      · rw [hopen]
        exact hshows
      · rw [hcached] at hc
        rintro ⟨⟨-, -, hwritable | hmiss⟩, -⟩
        · rw [if_pos hwritable] at hc
          cases hc
        · rw [hmiss, ite_self] at hc
          cases hc
    | none =>
      simp only [hc] at hopen
      obtain ⟨id, hid, hkept⟩ := (h.forget path).openLayers_lower hw hmissing hlower kh host flags
      rw [← hopen] at hid hkept
      rw [h.opens_iff hw kh host hid]
      have hover : b.CreatesOver path flags ↔ flags.testBit 1 = true := by
        refine ⟨fun hc => hc.1, fun hcreate => ⟨hcreate, hnone, ?_⟩⟩
        rw [hcached] at hc
        split_ifs at hc with hwritable
        · exact .inl hwritable
        · exact .inr hc
      rw [hover]
      by_cases hcreate : flags.testBit 1 = true
      · rw [if_pos hcreate] at hkept
        constructor
        · rintro hthere ⟨-, hne⟩
          exact hne (hthere.unique hkept)
        · intro hgood
          have hempty : bytes = [] := by
            by_contra hne
            exact hgood ⟨hcreate, hne⟩
          rw [hempty]
          exact hkept
      · rw [if_neg hcreate] at hkept
        exact iff_of_true hkept (fun hbad => hcreate hbad.1)

end OverlayBackend

/-! ### Runs -/

/-- The operations of an overlay that change it. -/
inductive OverlayCall where
  | openPath (path : Bytes) (flags : Nat)
  | write (inode : Inode) (offset : Nat) (payload : Bytes)
  | truncate (inode : Inode)
  | setLen (inode : Inode) (length : Nat)
  | unlink (path : Bytes)
  | link (target path : Bytes)
  | rename (old new : Bytes)
  deriving DecidableEq

/-- One operation on an overlay and the host behind it. -/
def OverlayCall.step (kh : Kh σ) (s : OverlayBackend × σ) : OverlayCall → OverlayBackend × σ
  | .openPath path flags => (s.1.openPath kh s.2 path flags).2
  | .write inode offset payload => (s.1.write kh s.2 inode offset payload).2
  | .truncate inode => (s.1.truncate inode, s.2)
  | .setLen inode length => ((s.1.setLen inode length).2, s.2)
  | .unlink path => (s.1.unlink kh s.2 path).2
  | .link target path => (s.1.link kh s.2 target path).2
  | .rename old new => (s.1.rename kh s.2 old new).2

theorem OverlayCall.sound (kh : Kh σ) (s : OverlayBackend × σ) (call : OverlayCall)
    (h : s.1.Sound) : (call.step kh s).1.Sound := by
  cases call with
  | openPath path flags => exact h.openPath kh s.2 path flags
  | write inode offset payload => exact h.write kh s.2 inode offset payload
  | truncate inode => exact h.truncate inode
  | setLen inode length => exact h.setLen inode length
  | unlink path => exact h.unlink kh s.2 path
  | link target path => exact h.link kh s.2 target path
  | rename old new => exact h.rename kh s.2 old new

/-- The tables agree with the layers in every state a run reaches. -/
theorem OverlayBackend.sound_run (hlower : lower.Image) (u : RamfsBackend) (kh : Kh σ) (host : σ)
    (calls : List OverlayCall) :
    (Run.run (OverlayCall.step kh) (new lower (.ramfs u), host) calls).1.Sound := by
  induction calls using List.reverseRecOn with
  | nil => exact sound_new hlower u
  | append_singleton calls call ih =>
    rw [Run.run_append]
    exact OverlayCall.sound kh _ call ih

/-- In every reachable overlay an open hands out the content of a visible file and keeps it, but for
    a creating open of a non-empty file that only the lower layer has and the cache does not serve. -/
theorem overlay_open_keeps_content_iff {lower : Leaf} (hlower : lower.Image) (u : RamfsBackend)
    (kh : Kh σ) (host : σ) (calls : List OverlayCall) (path bytes : Bytes) (flags : Nat)
    (hshows : (Run.run (OverlayCall.step kh) (OverlayBackend.new lower (.ramfs u), host) calls).1.Shows
      path bytes) :
    let s := Run.run (OverlayCall.step kh) (OverlayBackend.new lower (.ramfs u), host) calls
    s.1.Opens kh s.2 path flags bytes ↔ ¬ (s.1.CreatesOver path flags ∧ bytes ≠ []) :=
  (OverlayBackend.sound_run hlower u kh host calls).opens_iff_not_createsOver hshows kh _ flags

/-- An overlay over an image with the file `/f` of three bytes. -/
def OverlayBackend.overImage : OverlayBackend :=
  .new (.ramfs (RamfsBackend.new.install (ascii ['/', 'f']) (ascii ['a', 'b', 'c'])).2) (.ramfs .new)

theorem OverlayBackend.overImage_shows : overImage.Shows (ascii ['/', 'f']) (ascii ['a', 'b', 'c']) := by
  refine ⟨by decide, .inr ⟨by decide, by decide, 1, ?_, ?_⟩⟩ <;> decide

theorem overlay_open_keeps_content_iff_readOnly :
    OverlayBackend.overImage.Shows (ascii ['/', 'f']) (ascii ['a', 'b', 'c']) ∧
      OverlayBackend.overImage.Opens Kh.absent () (ascii ['/', 'f']) 0 (ascii ['a', 'b', 'c']) := by
  refine ⟨OverlayBackend.overImage_shows, ?_⟩
  refine (overlay_open_keeps_content_iff (.ramfs _) .new Kh.absent () [] _ _ 0
    OverlayBackend.overImage_shows).mpr ?_
  rintro ⟨⟨hcreate, -⟩, -⟩
  cases hcreate

/-- Opening `/f` to read and write, creating it if it is missing, finds an empty file. -/
theorem creating_open_empties_lower_file :
    OverlayBackend.overImage.Shows (ascii ['/', 'f']) (ascii ['a', 'b', 'c']) ∧
      (OverlayBackend.overImage.openPath Kh.absent () (ascii ['/', 'f']) 0b011).1 = some 1 ∧
      (OverlayBackend.overImage.openPath Kh.absent () (ascii ['/', 'f']) 0b011).2.1.size 1 = some 0 ∧
      ¬ OverlayBackend.overImage.Opens Kh.absent () (ascii ['/', 'f']) 0b011
        (ascii ['a', 'b', 'c']) := by
  refine ⟨OverlayBackend.overImage_shows, by decide, by decide, ?_⟩
  rintro ⟨id, b', host', hopen, hsize, -⟩
  have hid : id = 1 := by
    have hfst := congrArg Prod.fst hopen
    exact (Option.some.inj hfst).symm.trans (by decide)
  have hb : b' = (OverlayBackend.overImage.openPath Kh.absent () (ascii ['/', 'f']) 0b011).2.1 :=
    (congrArg (fun r => r.2.1) hopen).symm
  rw [hid, hb] at hsize
  revert hsize
  decide

end Yurt
