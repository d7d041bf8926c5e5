import YurtKernel.Dispatch.FileData

/-! Cursor I/O against positional I/O.

    `read` and `write` use the cursor of the description and move it, `pread` and `pwrite` take an
    offset. `pwrite` returns before it reaches the file when there is nothing to write; `write` goes
    on, which grows a ramfs file up to a cursor beyond its end and reports the error of a backend
    that takes no writes. -/

namespace Yurt
open Kernel SortedMap
variable {σ : Type}

/-! ### Writes of nothing -/

/-- A write of no bytes at `offset` has nothing to do: a device, or a ramfs file that reaches so far. -/
def Leaf.IdleAt : Leaf → Inode → Nat → Prop
  | .ramfs u, inode, offset =>
    ∃ content, u.inodes.get? inode = some content ∧ toUsize offset ≤ content.length
  | .dev, inode, _ => Dev.isDevice inode = true
  | _, _, _ => False

def Backend.IdleAt (b : Backend) (inode : Inode) (offset : Nat) : Prop :=
  ∃ l inner, b.writesTo inode = some (l, inner) ∧ l.IdleAt inner offset

namespace RamfsBackend
variable {u : RamfsBackend} {inode : Inode} {content : Bytes}

theorem overwrite_nil (content : Bytes) (start : Nat) :
    overwrite content start [] = content ↔ start ≤ content.length := by
  unfold overwrite
  by_cases hlen : start ≤ content.length
  · simp [hlen, Nat.not_lt.mpr hlen]
  · have hgrown : (resize content start).length = start := RamfsBackend.resize_length content start
    refine iff_of_false (fun h => hlen ?_) hlen
    have hlength := congrArg List.length h
    simp only [List.length_nil, Nat.add_zero, gt_iff_lt, Nat.lt_of_not_le hlen, if_true, List.append_nil,
      List.take_append_drop, hgrown] at hlength
    omega

/-- A write of no bytes leaves the ramfs if and only if it does not lie beyond the end. -/
theorem write_nil (u : RamfsBackend) (inode : Inode) (offset : Nat) : u.write inode offset [] = (0, u) ↔
      ∃ content, u.inodes.get? inode = some content ∧ toUsize offset ≤ content.length := by
  unfold write
  cases hc : u.inodes.get? inode with
  | none =>
    refine iff_of_false (fun h => ?_) (fun ⟨_, h, _⟩ => by cases h)
    exact absurd (Prod.mk.inj h).1 (by decide)
  | some content =>
    have hgrows := overwrite_nil content (toUsize offset)
    simp only [List.length_nil, Nat.cast_zero, Prod.mk.injEq, true_and, Option.some.injEq,
      exists_eq_left', ← hgrows]
    constructor
    · intro h
      have hinodes := congrArg (fun u => RamfsBackend.inodes u |>.get? inode) h
      simp only [get?_insert_self, hc, Option.some.injEq] at hinodes
      exact hinodes
    · intro h
      rw [h, insert_eq_self hc]

end RamfsBackend

theorem Leaf.write_nil (l : Leaf) (hhost : ∀ f, l ≠ .hostFs f) (kh : Kh σ) (host : σ) (inode : Inode)
    (offset : Nat) : l.write kh host inode offset [] = (0, l, host) ↔ l.IdleAt inode offset := by
  cases l with
  | ramfs u =>
    simp only [Leaf.write, Leaf.IdleAt, ← RamfsBackend.write_nil, Prod.ext_iff, Leaf.ramfs.injEq, and_true]
  | dev =>
    simp only [Leaf.IdleAt, Leaf.write, Dev.write, List.length_nil, Prod.mk.injEq, and_true]
    split_ifs with hdev
    · simp [hdev]
    · simp only [hdev]
      decide
  | hostFs f => exact absurd rfl (hhost f)
  | proc | tar => exact iff_of_false (fun h => absurd (Prod.mk.inj h).1 (by decide)) id

theorem Backend.idleAt_iff {b : Backend} {inode inner : Inode} {l : Leaf}
    (h : b.writesTo inode = some (l, inner)) (offset : Nat) :
    b.IdleAt inode offset ↔ l.IdleAt inner offset := by
  constructor
  · rintro ⟨l', inner', h', hidle⟩
    obtain ⟨rfl, rfl⟩ := Prod.mk.inj (Option.mem_unique h h')
    exact hidle
  · exact fun hidle => ⟨l, inner, h, hidle⟩

theorem Backend.write_nil (b : Backend) {inode : Inode}
    (hhost : ∀ f i, b.writesTo inode ≠ some (.hostFs f, i)) (kh : Kh σ) (host : σ) (offset : Nat) :
    b.write kh host inode offset [] = (0, b, host) ↔ b.IdleAt inode offset := by
  cases b with
  | leaf l =>
    have hleaf := Leaf.write_nil l (fun f h => hhost f inode (by rw [h]; rfl)) kh host inode offset
    rw [idleAt_iff rfl, ← hleaf]
    simp only [Backend.write, Backend.onLeaf, Prod.ext_iff, Backend.leaf.injEq]
  | overlay o =>
    have hnone : writesTo (.overlay o) inode = none → o.write kh host inode offset [] = (-EBADF, o, host) →
        (Backend.write kh host (.overlay o) inode offset [] = (0, .overlay o, host) ↔
          IdleAt (.overlay o) inode offset) := by
      intro hto hwrite
      refine iff_of_false (fun h => ?_) ?_
      · rw [Backend.write, hwrite] at h
        exact absurd (Prod.mk.inj h).1 (by decide : -EBADF ≠ 0)
      · rintro ⟨l, inner, hsome, -⟩
        rw [hto] at hsome
        cases hsome
    cases hlayer : o.state.layered.get? inode with
    | none =>
      refine hnone ?_ ?_
      · simp only [writesTo, hlayer]
      · simp only [OverlayBackend.write, hlayer]
    | some x =>
      obtain ⟨_ | _, inner⟩ := x
      · have hto : writesTo (.overlay o) inode = some (o.upper, inner) := by simp only [writesTo, hlayer]
        have hleaf := Leaf.write_nil o.upper (fun f h => hhost f inner (by rw [hto, h])) kh host inner offset
        have hback : ∀ l : Leaf, ({ o with upper := l } : OverlayBackend) = o ↔ l = o.upper :=
          fun l => ⟨fun h => congrArg OverlayBackend.upper h, fun h => by rw [h]⟩
        rw [idleAt_iff hto, ← hleaf]
        simp only [Backend.write, OverlayBackend.write, onOverlay, hlayer, Prod.ext_iff,
          Backend.overlay.injEq, hback]
      · refine hnone ?_ ?_
        · simp only [writesTo, hlayer]
        · simp only [OverlayBackend.write, hlayer]

/-! ### The mount table -/

namespace MountTable
variable {t : MountTable} {id : MountId} {b : Backend}

theorem setBackend_self (h : t.backend? id = some b) : t.setBackend id b = t := by
  unfold setBackend
  unfold backend? at h
  congr 1
  refine List.ext_getElem? (fun i => ?_)
  rw [List.getElem?_modify]
  split_ifs with hi
  · subst hi
    obtain ⟨m, hm, rfl⟩ := Option.map_eq_some_iff.mp h
    rw [hm]
    rfl
  · cases t.mounts[i]? <;> rfl

theorem setBackend_eq_iff (h : t.backend? id = some b) (b' : Backend) : t.setBackend id b' = t ↔ b' = b := by
  constructor
  · intro heq
    have hget := backend?_setBackend t id b' id
    rw [heq, if_pos rfl, h] at hget
    exact (Option.some.inj hget).symm
  · rintro rfl
    exact setBackend_self h

end MountTable

/-- The file takes a write of no bytes at the cursor as nothing to do. -/
def Kernel.IdleAtCursor (k : Kernel σ) (o : OpenFileDescription) : Prop :=
  ∃ b, k.vfs.backend? o.mountId = some b ∧ b.IdleAt o.inode o.offset

/-- No host file is behind the description. -/
def Kernel.OffHost (k : Kernel σ) (o : OpenFileDescription) : Prop :=
  ∀ b f i, k.vfs.backend? o.mountId = some b → b.writesTo o.inode ≠ some (.hostFs f, i)

theorem Kernel.write_nil {k : Kernel σ} {o : OpenFileDescription} (hhost : k.OffHost o) (kh : Kh σ) :
    k.vfs.write kh k.host o.mountId o.inode o.offset [] = (0, k.vfs, k.host) ↔ k.IdleAtCursor o := by
  unfold MountTable.write IdleAtCursor
  cases hb : k.vfs.backend? o.mountId with
  | none =>
    refine iff_of_false (fun h => ?_) (fun ⟨_, h, _⟩ => by cases h)
    exact absurd (Prod.mk.inj h).1 (by decide : -EBADF ≠ 0)
  | some b =>
    have hwrite := Backend.write_nil b (fun f i => hhost b f i hb) kh k.host o.offset
    simp only [Option.some.injEq, exists_eq_left', ← hwrite, Prod.ext_iff, MountTable.setBackend_eq_iff hb]

/-! ### The calls -/

section Calls
variable {k : Kernel σ} {pid : Pid} {fd id : Nat} {o : OpenFileDescription}

/-- The words of a positional request. -/
theorem positional_request {offset : Nat} (hfd : fd < 2 ^ 32) (hoffset : offset < 2 ^ 64) (payload : Bytes) :
    ¬(leBytes 4 fd ++ leBytes 8 offset ++ payload).length < 12 ∧
      u32At (leBytes 4 fd ++ leBytes 8 offset ++ payload) 0 = fd ∧
      u64At (leBytes 4 fd ++ leBytes 8 offset ++ payload) 4 = offset ∧
      (leBytes 4 fd ++ leBytes 8 offset ++ payload).drop 12 = payload := by
  have hlen4 := leBytes_length 4 fd
  have hlen8 := leBytes_length 8 offset
  refine ⟨?_, ?_, ?_, ?_⟩
  · simp only [List.length_append, hlen4, hlen8]
    omega
  · rw [List.append_assoc, u32At_leBytes_append hfd]
  · rw [List.append_assoc, u64At, List.drop_left' hlen4, List.take_left' hlen8, leNat_leBytes,
      Nat.mod_eq_of_lt (by simpa using hoffset)]
  · exact List.drop_left' (by rw [List.length_append, hlen4, hlen8])

/-- A read is a positional read at the cursor, and then the cursor moves. -/
theorem Kernel.readFd_eq_preadFd (kh : Kh σ) (hfd : fd < 2 ^ 32) (hentry : k.fdEntry pid fd = some (.file id))
    (ho : k.ofds.get? id = some o) (hoffset : o.offset < 2 ^ 64) (cap : Nat) :
    k.readFd kh pid (leBytes 4 fd) cap =
      ((k.preadFd kh pid (leBytes 4 fd ++ leBytes 8 o.offset) cap).1,
        (k.preadFd kh pid (leBytes 4 fd ++ leBytes 8 o.offset) cap).2.advance id
          (k.preadFd kh pid (leBytes 4 fd ++ leBytes 8 o.offset) cap).1.rc) := by
  obtain ⟨hlen, hword, hat, -⟩ := positional_request hfd hoffset []
  rw [List.append_nil] at hlen hword hat
  have hargs : readU32Args 1 (leBytes 4 fd) = some [fd] := by
    have hfirst := u32At_leBytes_append hfd []
    rw [List.append_nil] at hfirst
    rw [readU32Args_one, if_neg (by rw [leBytes_length]; decide), hfirst]
  simp only [readFd, hargs, hentry, ho, preadFd, hlen, if_false, hword, hat]

/-- What `write` does with a writable description. -/
theorem Kernel.writeFd_file (kh : Kh σ) (hfd : fd < 2 ^ 32) (hentry : k.fdEntry pid fd = some (.file id))
    (ho : k.ofds.get? id = some o) (payload : Bytes) :
    k.writeFd kh pid (leBytes 4 fd ++ payload) =
      if o.writable = false then (-EBADF, k.touch pid)
      else
        let r := k.vfs.write kh k.host o.mountId o.inode o.offset payload
        (r.1, { k.touch pid with vfs := r.2.1, host := r.2.2 }.advance id r.1) := by
  have hlen : ¬(leBytes 4 fd ++ payload).length < 4 := by
    rw [List.length_append, leBytes_length]
    omega
  have hdrop : (leBytes 4 fd ++ payload).drop 4 = payload := List.drop_left' (leBytes_length 4 fd)
  simp only [writeFd, hlen, if_false, u32At_leBytes_append hfd, hentry, ho, hdrop, Bool.not_eq_true']
  rfl

/-- What `pwrite` does with a writable description. -/
theorem Kernel.pwriteFd_file (kh : Kh σ) (hfd : fd < 2 ^ 32) (hentry : k.fdEntry pid fd = some (.file id))
    (ho : k.ofds.get? id = some o) (hoffset : o.offset < 2 ^ 64) (payload : Bytes) :
    k.pwriteFd kh pid (leBytes 4 fd ++ leBytes 8 o.offset ++ payload) =
      if o.writable = false then (-EBADF, k.touch pid)
      else if payload = [] then (0, k.touch pid)
      else
        let r := k.vfs.write kh k.host o.mountId o.inode o.offset payload
        (r.1, { k.touch pid with vfs := r.2.1, host := r.2.2 }) := by
  obtain ⟨hlen, hword, hat, hdrop⟩ := positional_request hfd hoffset payload
  simp only [pwriteFd, hlen, if_false, hword, hentry, ho, hdrop, hat, Bool.not_eq_true', List.isEmpty_iff]
  rfl

/-- A write is a positional write at the cursor and a move of the cursor, unless there is nothing to
    write and the backend does not take that as nothing to do. -/
theorem Kernel.writeFd_eq_pwriteFd_iff (kh : Kh σ) (hfd : fd < 2 ^ 32)
    (hentry : k.fdEntry pid fd = some (.file id)) (ho : k.ofds.get? id = some o)
    (hoffset : o.offset < 2 ^ 64) (hhost : k.OffHost o) (payload : Bytes) :
    k.writeFd kh pid (leBytes 4 fd ++ payload) =
        ((k.pwriteFd kh pid (leBytes 4 fd ++ leBytes 8 o.offset ++ payload)).1,
          (k.pwriteFd kh pid (leBytes 4 fd ++ leBytes 8 o.offset ++ payload)).2.advance id
            (k.pwriteFd kh pid (leBytes 4 fd ++ leBytes 8 o.offset ++ payload)).1) ↔
      (payload = [] → o.writable = true → k.IdleAtCursor o) := by
  rw [writeFd_file kh hfd hentry ho, pwriteFd_file kh hfd hentry ho hoffset]
  have hstay : ∀ (k : Kernel σ) (n : Int), ¬ 0 < n → k.advance id n = k := fun k n hn => if_neg hn
  split
  · rename_i hw
    refine iff_of_true ?_ (fun _ hwritable => by rw [hw] at hwritable; cases hwritable)
    rw [hstay _ _ (by decide : ¬ 0 < -EBADF)]
  rename_i hw
  by_cases hempty : payload = []
  · subst hempty
    rw [if_pos rfl]
    simp only [true_imp_iff, Bool.not_eq_false] at hw ⊢
    simp only [hw, true_imp_iff, ← Kernel.write_nil hhost kh, hstay _ 0 (by decide), Prod.mk.injEq]
    generalize k.vfs.write kh k.host o.mountId o.inode o.offset [] = r
    obtain ⟨n, vfs, host⟩ := r
    constructor
    · rintro ⟨rfl, hstate⟩
      rw [hstay _ 0 (by decide)] at hstate
      have hvfs : vfs = k.vfs := congrArg Kernel.vfs hstate
      have hh : host = k.host := congrArg Kernel.host hstate
      rw [hvfs, hh]
    · rintro ⟨rfl, rfl, rfl⟩
      exact ⟨rfl, hstay _ 0 (by decide)⟩
  · rw [if_neg hempty]
    exact iff_of_true rfl (fun h => absurd h hempty)

/-- Cursor I/O is positional I/O at the cursor and a move of the cursor, exactly as far as writes of
    no bytes have nothing to do; positional I/O moves no cursor. -/
theorem cursor_io_iff (kh : Kh σ) (k : Kernel σ) (pid : Pid) (fd id : Nat) (o : OpenFileDescription)
    (hfd : fd < 2 ^ 32) (hentry : k.fdEntry pid fd = some (.file id)) (ho : k.ofds.get? id = some o)
    (hoffset : o.offset < 2 ^ 64) (hhost : k.OffHost o) :
    (∀ payload, k.writeFd kh pid (leBytes 4 fd ++ payload) =
        ((k.pwriteFd kh pid (leBytes 4 fd ++ leBytes 8 o.offset ++ payload)).1,
          (k.pwriteFd kh pid (leBytes 4 fd ++ leBytes 8 o.offset ++ payload)).2.advance id
            (k.pwriteFd kh pid (leBytes 4 fd ++ leBytes 8 o.offset ++ payload)).1) ↔
      (payload = [] → o.writable = true → k.IdleAtCursor o)) ∧
    (∀ cap, k.readFd kh pid (leBytes 4 fd) cap =
      ((k.preadFd kh pid (leBytes 4 fd ++ leBytes 8 o.offset) cap).1,
        (k.preadFd kh pid (leBytes 4 fd ++ leBytes 8 o.offset) cap).2.advance id
          (k.preadFd kh pid (leBytes 4 fd ++ leBytes 8 o.offset) cap).1.rc)) ∧
    (∀ pid request cap, (k.preadFd kh pid request cap).2.ofds = k.ofds) ∧
    (∀ pid request, (k.pwriteFd kh pid request).2.ofds = k.ofds) :=
  ⟨writeFd_eq_pwriteFd_iff kh hfd hentry ho hoffset hhost, readFd_eq_preadFd kh hfd hentry ho hoffset,
    fun pid request cap => FileEvent.ofds_positional kh (c := ⟨pid, .pread request cap, true⟩) rfl,
    fun pid request => FileEvent.ofds_positional kh (c := ⟨pid, .pwrite request, true⟩) rfl⟩

theorem Kernel.oneFile_offHost : oneFile.OffHost ⟨0, 1, 0, 1, true, 0⟩ := by
  intro b f i hb
  have hmount : oneFile.vfs.backend? 0 = some (.leaf (.ramfs .oneByte)) := by decide
  obtain rfl := Option.mem_unique hmount hb
  simp [Backend.writesTo]

/-- A byte written at the cursor of `/f`. -/
theorem cursor_io_iff_oneFile : Kernel.oneFile.writeFd Kh.absent 1 (leBytes 4 3 ++ ascii ['x']) =
      ((Kernel.oneFile.pwriteFd Kh.absent 1 (leBytes 4 3 ++ leBytes 8 0 ++ ascii ['x'])).1,
        (Kernel.oneFile.pwriteFd Kh.absent 1 (leBytes 4 3 ++ leBytes 8 0 ++ ascii ['x'])).2.advance 1
          (Kernel.oneFile.pwriteFd Kh.absent 1 (leBytes 4 3 ++ leBytes 8 0 ++ ascii ['x'])).1) :=
  ((cursor_io_iff Kh.absent oneFile 1 3 1 ⟨0, 1, 0, 1, true, 0⟩ (by decide) (by decide) (by decide)
    (by decide) oneFile_offHost).1 (ascii ['x'])).mpr (fun h => by cases h)

/-- The file `/f` of one byte with the cursor at 5: a write of nothing makes it five bytes long, a
    positional one leaves it. -/
theorem empty_write_grows_file :
    let k := oneFile.modifyOfd 1 (fun o => { o with offset := 5 })
    (k.writeFd Kh.absent 1 (leBytes 4 3)).1 = 0 ∧
      (k.writeFd Kh.absent 1 (leBytes 4 3)).2.vfs.size 0 1 = some 5 ∧
      (k.pwriteFd Kh.absent 1 (leBytes 4 3 ++ leBytes 8 5)).1 = 0 ∧
      (k.pwriteFd Kh.absent 1 (leBytes 4 3 ++ leBytes 8 5)).2.vfs.size 0 1 = some 1 := by
  refine ⟨by decide, by decide, by decide, by decide⟩

end Calls
end Yurt
