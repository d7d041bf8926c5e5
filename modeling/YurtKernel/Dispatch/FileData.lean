import YurtKernel.Dispatch.Call
import YurtKernel.Dispatch.IoCases
import YurtKernel.Vfs.RamfsContent
import YurtKernel.Vfs.Ops

/-! File data through descriptors: `lseek`, `read`, `write`, `pread`, `pwrite` and `ftruncate`.

    What a call reads or edits is a description with an offset, found in the state it is made in; what
    the calls do to the cursors is part of what is shown. The files meant are those a ramfs holds,
    whether it is mounted or a layer of an overlay. -/

namespace Yurt
open Kernel SortedMap
open RamfsBackend (Edit)
variable {σ : Type} (kh : Kh σ)

/-! ### Ramfs files behind a mount -/

/-- Layer and inode that a read reaches. -/
def Backend.readsFrom : Backend → Inode → Option (Leaf × Inode)
  | .leaf l, inode => some (l, inode)
  | .overlay b, inode =>
    match b.state.layered.get? inode with
    | some (.upper, inner) => some (b.upper, inner)
    | some (.lower, inner) => some (b.lower, inner)
    | none => none

/-- Layer and inode that a write reaches. -/
def Backend.writesTo : Backend → Inode → Option (Leaf × Inode)
  | .leaf l, inode => some (l, inode)
  | .overlay b, inode =>
    match b.state.layered.get? inode with
    | some (.upper, inner) => some (b.upper, inner)
    | _ => none

/-- Content of a file that a ramfs holds. -/
def Leaf.ramfsContent : Leaf → Inode → Option Bytes
  | .ramfs b, inode => b.inodes.get? inode
  | _, _ => none

def Backend.ramfsContent (b : Backend) (inode : Inode) : Option Bytes :=
  (b.readsFrom inode).bind (fun r => r.1.ramfsContent r.2)

/-- Every file of a ramfs is a vector of the machine. -/
def Leaf.Fits : Leaf → Prop
  | .ramfs b => b.Fits
  | _ => True

def Backend.Fits : Backend → Prop
  | .leaf l => l.Fits
  | .overlay b => b.lower.Fits ∧ b.upper.Fits

def Leaf.edit (host : σ) (l : Leaf) (inode : Inode) : Edit → Int × Leaf × σ
  | .write offset payload => l.write kh host inode offset payload
  | .setLen length => ((l.setLen inode length).1, (l.setLen inode length).2, host)

def Backend.edit (host : σ) (b : Backend) (inode : Inode) : Edit → Int × Backend × σ
  | .write offset payload => b.write kh host inode offset payload
  | .setLen length => ((b.setLen inode length).1, (b.setLen inode length).2, host)

def MountTable.edit (host : σ) (t : MountTable) (id : MountId) (inode : Inode) : Edit → Int × MountTable × σ
  | .write offset payload => t.write kh host id inode offset payload
  | .setLen length => ((t.setLen id inode length).1, (t.setLen id inode length).2, host)

/-- The edit ends in a panic. -/
def Backend.Panics (b : Backend) (inode : Inode) (room : Bool) (e : Edit) : Prop :=
  ∃ r i, b.writesTo inode = some (.ramfs r, i) ∧ r.tryEdit i room e = none

section Leaf
variable {l : Leaf} {inode : Inode} {content : Bytes}

theorem Leaf.exists_ramfs (hc : l.ramfsContent inode = some content) :
    ∃ b, l = .ramfs b ∧ b.inodes.get? inode = some content := by
  cases l with
  | ramfs b => exact ⟨b, rfl, hc⟩
  | dev | proc | hostFs | tar => cases hc

theorem Leaf.edit_ramfs (r : RamfsBackend) (host : σ) (inode : Inode) (e : Edit) :
    Leaf.edit kh host (.ramfs r) inode e = ((r.edit inode e).1, .ramfs (r.edit inode e).2, host) := by
  cases e <;> rfl

theorem Leaf.Fits.edit (h : l.Fits) (kh : Kh σ) (host : σ) (inode : Inode) (room : Bool) {e : Edit}
    (hreturns : ∀ content, l.ramfsContent inode = some content → e.Returns content room) :
    (l.edit kh host inode e).2.1.Fits := by
  cases l with
  | ramfs b =>
    rw [Leaf.edit_ramfs]
    exact RamfsBackend.Fits.edit h inode hreturns
  | dev | proc | hostFs | tar => cases e <;> trivial

end Leaf

namespace Backend
variable {b : Backend} {l : Leaf} {inode i : Inode} {content : Bytes} {room : Bool} {e : Edit}

/-- What a read reaches, it reads. -/
theorem reads_eq (h : b.readsFrom inode = some (l, i)) (kh : Kh σ) (host : σ) (offset cap : Nat) :
    b.read kh host inode offset cap = l.read kh host i offset cap ∧ b.size inode = l.size i ∧
      (b.Fits → l.Fits) := by
  cases b with
  | leaf l' =>
    obtain ⟨rfl, rfl⟩ := Prod.mk.inj (Option.some.inj h)
    exact ⟨rfl, rfl, id⟩
  | overlay b =>
    rcases hlayer : b.state.layered.get? inode with _ | ⟨_ | _, inner⟩ <;> simp only [readsFrom, hlayer] at h
    · cases h
    all_goals
      obtain ⟨rfl, rfl⟩ := Prod.mk.inj (Option.some.inj h)
      simp only [Backend.read, OverlayBackend.read, Backend.size, OverlayBackend.size, hlayer,
        true_and]
    · exact And.right
    · exact And.left

theorem exists_ramfs (hc : b.ramfsContent inode = some content) :
    ∃ r i, b.readsFrom inode = some (.ramfs r, i) ∧ r.inodes.get? i = some content := by
  obtain ⟨⟨l, i⟩, hfrom, hl⟩ := Option.bind_eq_some_iff.mp hc
  obtain ⟨r, rfl, hr⟩ := Leaf.exists_ramfs hl
  exact ⟨r, i, hfrom, hr⟩

theorem readAt_iff (hfits : b.Fits) (hc : b.ramfsContent inode = some content) (kh : Kh σ) (host : σ)
    (offset cap : Nat) : ReadAt content offset cap (b.read kh host inode offset cap).1 ↔
      RamfsBackend.ReadInRange content offset cap := by
  obtain ⟨r, i, hfrom, hr⟩ := exists_ramfs hc
  obtain ⟨hread, -, hfit⟩ := reads_eq hfrom kh host offset cap
  rw [hread]
  exact RamfsBackend.readAt_iff hr (hfit hfits i content hr) offset cap

/-- Put another layer in the place of the one that takes the writes. -/
def withLayer : Backend → Leaf → Backend
  | .leaf _, l => .leaf l
  | .overlay b, l => .overlay { b with upper := l }

/-- An edit is refused, or done in the layer it reaches. -/
theorem edit_cases (b : Backend) (kh : Kh σ) (host : σ) (inode : Inode) (e : Edit) :
    (b.writesTo inode = none ∧ ∃ rc, rc < 0 ∧ b.edit kh host inode e = (rc, b, host)) ∨
      ∃ l i, b.writesTo inode = some (l, i) ∧ b.readsFrom inode = some (l, i) ∧
        (∀ l', (b.withLayer l').readsFrom inode = some (l', i)) ∧
        b.edit kh host inode e = ((l.edit kh host i e).1, b.withLayer (l.edit kh host i e).2.1,
          (l.edit kh host i e).2.2) := by
  cases b with
  | leaf l => exact .inr ⟨l, inode, rfl, rfl, fun _ => rfl, by cases e <;> rfl⟩
  | overlay b =>
    rcases hlayer : b.state.layered.get? inode with _ | ⟨_ | _, i⟩
    case overlay.some.upper =>
      refine .inr ⟨b.upper, i, by simp only [writesTo, hlayer], by simp only [readsFrom, hlayer],
        fun l' => by simp only [withLayer, readsFrom, hlayer], ?_⟩
      cases e <;> simp only [Backend.edit, Backend.write, OverlayBackend.write, onOverlay, Backend.setLen,
        OverlayBackend.setLen, hlayer] <;> rfl
    all_goals
      refine .inl ⟨by simp only [writesTo, hlayer], (Backend.edit kh host (.overlay b) inode e).1, ?_, ?_⟩ <;>
        cases e <;> simp only [Backend.edit, Backend.write, OverlayBackend.write, onOverlay,
          Backend.setLen, OverlayBackend.setLen, hlayer] <;> decide

theorem Fits.edit (h : b.Fits) (kh : Kh σ) (host : σ) (inode : Inode)
    (hreturns : ∀ content, b.ramfsContent inode = some content → b.writesTo inode ≠ none →
      e.Returns content room) : (b.edit kh host inode e).2.1.Fits := by
  rcases b.edit_cases kh host inode e with ⟨-, rc, -, hedit⟩ | ⟨l, i, hto, hfrom, -, hedit⟩
  · rwa [hedit]
  · have hl : (l.edit kh host i e).2.1.Fits := by
      refine Leaf.Fits.edit ((reads_eq hfrom kh host 0 0).2.2 h) kh host i room (fun content hc => ?_)
      refine hreturns content ?_ (by simp [hto])
      rw [ramfsContent, hfrom, Option.bind_some, hc]
    rw [hedit]
    cases b with
    | leaf => exact hl
    | overlay b => exact ⟨h.1, hl⟩

theorem edit_iff (hfits : b.Fits) (hc : b.ramfsContent inode = some content) (kh : Kh σ) (host : σ)
    (room : Bool) (e : Edit) : ¬ b.Panics inode room e ∧ e.Done content (b.edit kh host inode e).1
        ((b.edit kh host inode e).2.1.ramfsContent inode) ↔
      (b.writesTo inode ≠ none → e.InRange content room) := by
  rcases b.edit_cases kh host inode e with ⟨hnone, rc, hneg, hedit⟩ | ⟨l, i, hto, hfrom, hafter, hedit⟩
  · rw [hedit, hnone]
    refine iff_of_true ⟨?_, .inl ⟨hneg, hc⟩⟩ (fun h => absurd rfl h)
    rintro ⟨r, i, hsome, -⟩
    rw [hnone] at hsome
    cases hsome
  · obtain ⟨r, i', hfrom', hr⟩ := exists_ramfs hc
    obtain ⟨rfl, rfl⟩ := Prod.mk.inj (Option.mem_unique hfrom hfrom')
    have hfit := (reads_eq hfrom kh host 0 0).2.2 hfits i content hr
    have hpanics : b.Panics inode room e ↔ r.tryEdit i room e = none := by
      simp [Panics, hto]
    have hcontent : (b.edit kh host inode e).2.1.ramfsContent inode = (r.edit i e).2.inodes.get? i := by
      rw [hedit, ramfsContent, hafter, Option.bind_some, Leaf.edit_ramfs]
      rfl
    rw [hcontent, hedit, hto, hpanics, Leaf.edit_ramfs]
    simp only [ne_eq, reduceCtorEq, not_false_eq_true, true_imp_iff]
    rcases RamfsBackend.tryEdit_eq hr hfit room e with ⟨htry, hreturns⟩ | ⟨htry, hpanic⟩
    · rw [htry, ← RamfsBackend.edit_done_iff hr hfit hreturns]
      simp
    · rw [htry]
      exact iff_of_false (fun h => h.1 rfl) (fun h => hpanic h.returns)

end Backend

/-! ### The mount table -/

namespace MountTable
variable {t : MountTable} {id : MountId} {b : Backend}

def Fits (t : MountTable) : Prop := ∀ id b, t.backend? id = some b → b.Fits

theorem edit_eq (h : t.backend? id = some b) (kh : Kh σ) (host : σ) (inode : Inode) (e : Edit) :
    t.edit kh host id inode e = ((b.edit kh host inode e).1, t.setBackend id (b.edit kh host inode e).2.1,
      (b.edit kh host inode e).2.2) := by
  cases e <;> simp only [edit, write, setLen, h] <;> rfl

theorem Fits.edit (h : t.Fits) (kh : Kh σ) (host : σ) (id : MountId) (inode : Inode) (room : Bool)
    {e : Edit} (hreturns : ∀ b content, t.backend? id = some b → b.ramfsContent inode = some content →
      b.writesTo inode ≠ none → e.Returns content room) : (t.edit kh host id inode e).2.1.Fits := by
  cases hid : t.backend? id with
  | none =>
    have hsame : (t.edit kh host id inode e).2.1 = t := by
      cases e <;> simp only [MountTable.edit, write, setLen, hid]
    rwa [hsame]
  | some b =>
    rw [edit_eq hid]
    intro id' b' hb'
    rw [backend?_setBackend] at hb'
    split_ifs at hb'
    · obtain ⟨_, _, rfl⟩ := Option.map_eq_some_iff.mp hb'
      exact (h id b hid).edit kh host inode (fun content hc hto => hreturns b content hid hc hto)
    · exact h id' b' hb'

end MountTable

/-! ### Calls on open files -/

inductive FileCall where
  | lseek (request : Bytes) (cap : Nat)
  | read (request : Bytes) (cap : Nat)
  | write (request : Bytes)
  | pread (request : Bytes) (cap : Nat)
  | pwrite (request : Bytes)
  | ftruncate (request : Bytes)
  deriving DecidableEq

/-- What a call does with an open file. -/
inductive Access where
  | refuse
  | seek (delta : Int) (whence : Nat)
  | read (offset cap : Nat)
  | edit (e : Edit)

namespace FileCall

def toSys : FileCall → SysCall
  | .lseek request cap => .lseek request cap
  | .read request cap => .read request cap
  | .write request => .write request
  | .pread request cap => .pread request cap
  | .pwrite request => .pwrite request
  | .ftruncate request => .ftruncate request

/-- The request, which begins with the descriptor. -/
def request : FileCall → Bytes
  | .lseek request _ | .read request _ | .write request | .pread request _ | .pwrite request
  | .ftruncate request => request

/-- Calls that use the cursor. -/
def atCursor : FileCall → Bool
  | .lseek _ _ | .read _ _ | .write _ => true
  | _ => false

def access (o : OpenFileDescription) : FileCall → Access
  | .lseek request cap =>
    if request.length < 16 ∨ cap < 8 then .refuse
    else .seek (toI64 (u64At request 4)) (u32At request 12)
  | .read request cap => if request.length < 4 then .refuse else .read o.offset cap
  | .write request =>
    if request.length < 4 ∨ o.writable = false then .refuse
    else .edit (.write o.offset (request.drop 4))
  | .pread request cap => if request.length < 12 then .refuse else .read (u64At request 4) cap
  | .pwrite request =>
    if request.length < 12 ∨ o.writable = false ∨ (request.drop 12).isEmpty then .refuse
    else .edit (.write (u64At request 4) (request.drop 12))
  | .ftruncate request =>
    if request.length ≠ 12 ∨ i64Max < u64At request 4 ∨ o.writable = false then .refuse
    else .edit (.setLen (u64At request 4))

theorem eq_lseek {call : FileCall} {o : OpenFileDescription} {delta : Int} {whence : Nat}
    (h : call.access o = .seek delta whence) : ∃ request cap, call = .lseek request cap := by
  cases call with
  | lseek request cap => exact ⟨request, cap, rfl⟩
  | _ =>
    rw [access] at h
    split_ifs at h

end FileCall

/-- A call of a process, with whether a file that has to grow for it can: that depends on the allocator
    and on how much `Vec` asks it for. -/
structure FileEvent where
  pid : Pid
  call : FileCall
  room : Bool

section
variable (k : Kernel σ)

/-- File system and open file descriptions. -/
def Kernel.fileState : MountTable × SortedMap Nat OpenFileDescription := (k.vfs, k.ofds)

/-- Content of an open file that a ramfs holds. -/
def Kernel.ramfsContent (o : OpenFileDescription) : Option Bytes :=
  (k.vfs.backend? o.mountId).bind (fun b => b.ramfsContent o.inode)

/-- The edit of an open file ends in a panic. -/
def Kernel.Panics (o : OpenFileDescription) (room : Bool) (e : Edit) : Prop :=
  ∃ b, k.vfs.backend? o.mountId = some b ∧ b.Panics o.inode room e

namespace FileEvent

/-- Reply and state after a call of a process. -/
def run (c : FileEvent) : Reply × Kernel σ := c.call.toSys.run kh k c.pid

def step (c : FileEvent) : Kernel σ := (c.run kh k).2

/-- Description behind the descriptor of a call. -/
def file (c : FileEvent) : Option Nat :=
  match k.fdEntry c.pid (u32At c.call.request 0) with
  | some (.file id) => some id
  | _ => none

/-- Description whose cursor a call reads or sets. -/
def cursor (c : FileEvent) : Option Nat := if c.call.atCursor then c.file k else none

/-- Open file of a call, and what the call does with it. -/
def access (c : FileEvent) : Option (OpenFileDescription × Access) :=
  ((c.file k).bind k.ofds.get?).map (fun o => (o, c.call.access o))

end FileEvent

/-! ### What the calls do -/

/-- Descriptions after `n` bytes were read or written at a cursor. -/
def advanceOfds (ofds : SortedMap Nat OpenFileDescription) (cursor : Option Nat) (n : Int) :
    SortedMap Nat OpenFileDescription :=
  match cursor with
  | some id => if 0 < n then ofds.modify id (fun o => { o with offset := o.offset + n.toNat }) else ofds
  | none => ofds

theorem get?_advanceOfds (ofds : SortedMap Nat OpenFileDescription) (cursor : Option Nat) (n : Int)
    (id : Nat) : (advanceOfds ofds cursor n).get? id =
      if cursor = some id then (ofds.get? id).map (fun o => { o with offset := o.offset + n.toNat })
      else ofds.get? id := by
  cases cursor with
  | none => rfl
  | some id' =>
    simp only [advanceOfds, Option.some.injEq]
    by_cases hpos : 0 < n
    · rw [if_pos hpos, get?_modify]
      by_cases hid : id = id'
      · rw [if_pos hid, if_pos hid.symm, hid]
      · rw [if_neg hid, if_neg (Ne.symm hid)]
    · have hzero : n.toNat = 0 := by omega
      rw [if_neg hpos, hzero]
      cases ofds.get? id <;> simp

/-- Where `lseek` puts the cursor. -/
def Kernel.seekOffset (o : OpenFileDescription) (delta : Int) (whence : Nat) : Option Nat :=
  let base : Option Int := match whence with
    | 0 => some 0
    | 1 => some (toI64 o.offset)
    | 2 => some (toI64 ((k.vfs.size o.mountId o.inode).getD 0))
    | _ => none
  base.bind (fun base => if satAddI64 base delta < 0 then none else some (satAddI64 base delta).toNat)

def Kernel.seekTo (pid : Pid) (id : Nat) : Option Nat → Reply × Kernel σ
  | none => (.code (-EINVAL), k.touch pid)
  | some t => (.data (leBytes 8 t), (k.touch pid).modifyOfd id (fun o => { o with offset := t }))

/-- The call does this with the open file. -/
def FileEvent.Does (c : FileEvent) (id : Nat) (o : OpenFileDescription) : Access → Prop
  | .refuse => (c.run kh k).1.rc ≤ 0 ∧ (c.step kh k).fileState = k.fileState
  | .seek delta whence => c.run kh k = k.seekTo c.pid id (k.seekOffset o delta whence)
  | .read offset cap =>
    (c.run kh k).1 = ⟨(k.vfs.read kh k.host o.mountId o.inode offset cap).1.1,
      [(0, (k.vfs.read kh k.host o.mountId o.inode offset cap).1.2)]⟩ ∧
    (c.step kh k).fileState = (k.vfs, advanceOfds k.ofds (c.cursor k) (c.run kh k).1.rc)
  | .edit e => (c.run kh k).1.rc = (k.vfs.edit kh k.host o.mountId o.inode e).1 ∧
    (c.step kh k).fileState = ((k.vfs.edit kh k.host o.mountId o.inode e).2.1,
      advanceOfds k.ofds (c.cursor k) (c.run kh k).1.rc)

theorem Kernel.fileState_advance (id : Nat) (n : Int) :
    (k.advance id n).fileState = (k.vfs, advanceOfds k.ofds (some id) n) := by
  unfold advance advanceOfds
  dsimp only
  split_ifs <;> rfl

theorem Kernel.fileState_socketRecvId (id cap flags : Nat) :
    (k.socketRecvId kh id cap flags).2.fileState = k.fileState := by
  obtain ⟨reply, host, hr, -⟩ | ⟨s, box, -, -, hr⟩ := k.recv_cases kh id cap flags <;> rw [hr]
  · rfl
  · cases s.kind.takeFront cap with
    | none => split_ifs <;> rfl
    | some taken =>
      dsimp only
      split_ifs <;> rfl

theorem Kernel.fileState_socketSendId (id : Nat) (data : Bytes) :
    (k.socketSendId kh id data).2.fileState = k.fileState := by
  have hstream : ∀ peer, (k.deliverStream peer data []).2.fileState = k.fileState := fun peer => by
    unfold deliverStream
    split
    · split_ifs <;> rfl
    · rfl
  have hpacket : ∀ peer packet, (k.deliverPacket EPIPE peer packet []).2.fileState = k.fileState :=
    fun peer packet => by
      unfold deliverPacket
      split
      · split_ifs <;> rfl
      · rfl
  unfold socketSendId
  split_ifs
  · rfl
  · split
    · rfl
    · rfl
    · rfl
    · rfl
    · split_ifs
      · exact hstream _
      · rfl
    · rfl
    · split_ifs
      · exact hpacket _ _
      · rfl

variable {k} {c : FileEvent} {id : Nat} {o : OpenFileDescription}

namespace FileEvent

theorem file_eq_some : c.file k = some id ↔ k.fdEntry c.pid (u32At c.call.request 0) = some (.file id) := by
  unfold file
  split
  · next heq => simp [heq]
  · next hne =>
    refine iff_of_false (fun h => by cases h) (hne id)

end FileEvent
end

namespace FileEvent
section
variable {k : Kernel σ} {c : FileEvent} {id : Nat} {o : OpenFileDescription}

/-- A call that finds no open file leaves files and descriptions. -/
theorem run_none (h : c.access k = none) : (c.step kh k).fileState = k.fileState := by
  have hnone : ∀ id, k.fdEntry c.pid (u32At c.call.request 0) = some (.file id) → k.ofds.get? id = none := by
    intro id hfd
    rw [access, file_eq_some.mpr hfd] at h
    exact Option.map_eq_none_iff.mp h
  have hidle : ∀ k', k.Idle c.pid k' → k'.fileState = k.fileState := fun k' hk' =>
    hk'.keeps (P := fun k' => k'.fileState = k.fileState) rfl rfl
  obtain ⟨pid, call, room⟩ := c
  cases call with
  | lseek request cap =>
    simp only [step, run, FileCall.toSys, SysCall.run, Kernel.lseek]
    split_ifs
    · rfl
    · split
      · rfl
      · next id hfd => rw [hnone id hfd]; rfl
      · rfl
  | read request cap =>
    simp only [step, run, FileCall.toSys, SysCall.run, readFd, readU32Args_one]
    by_cases hlen : request.length < 4
    · rw [if_pos hlen]
    rw [if_neg hlen]
    dsimp only
    cases hfd : k.fdEntry pid (u32At request 0) with
    | none => rfl
    | some e =>
      cases e with
      | stdin =>
        dsimp only
        split_ifs <;> rfl
      | pipe id side =>
        cases side with
        | read =>
          dsimp only
          cases k.pipes.get? id with
          | none => rfl
          | some b =>
            dsimp only
            split_ifs <;> rfl
        | write => rfl
      | file id =>
        dsimp only
        rw [hnone id hfd]
        rfl
      | socket id => exact (k.touch pid).fileState_socketRecvId kh id cap 0
      | _ => rfl
  | write request =>
    simp only [step, run, FileCall.toSys, SysCall.run, onlyCode]
    rcases k.writeFd_cases kh pid request with ⟨-, hk⟩ | ⟨-, ⟨f, buffer, -, hr⟩ | ⟨id, b, -, -, -, hr⟩ |
      ⟨id, o, hfd, ho, -⟩ | ⟨id, -, hr⟩⟩
    · exact hidle _ hk
    · rw [hr]
      rfl
    · rw [hr]
      rfl
    · rw [hnone id hfd] at ho
      cases ho
    · rw [hr]
      exact (k.touch pid).fileState_socketSendId kh id _
  | pread request cap =>
    simp only [step, run, FileCall.toSys, SysCall.run, preadFd]
    split_ifs
    · rfl
    · split
      · rfl
      · next id hfd => rw [hnone id hfd]; rfl
      · rfl
      · rfl
  | pwrite request =>
    simp only [step, run, FileCall.toSys, SysCall.run, onlyCode, pwriteFd]
    split
    · rfl
    · split
      · rfl
      · next id hfd => rw [hnone id hfd]; rfl
      · rfl
      · rfl
  | ftruncate request =>
    simp only [step, run, FileCall.toSys, SysCall.run, onlyCode, sysFtruncate]
    split_ifs
    · rfl
    · rfl
    · split
      · rfl
      · next id hfd => rw [hnone id hfd]; rfl
      · rfl
      · rfl

/-- What a call does with the open file it finds. -/
theorem does_access (hfile : c.file k = some id) (ho : k.ofds.get? id = some o) :
    c.Does kh k id o (c.call.access o) := by
  unfold Does
  have hcursor : c.cursor k = if c.call.atCursor then some id else none := by rw [cursor, hfile]
  have hfd := file_eq_some.mp hfile
  rw [hcursor]
  obtain ⟨pid, call, room⟩ := c
  cases call with
  | lseek request cap =>
    simp only [FileCall.access, step, run, FileCall.toSys, SysCall.run, Kernel.lseek]
    dsimp only [FileCall.request] at hfd
    by_cases hbad : request.length < 16 ∨ cap < 8
    · simp only [if_pos hbad]
      exact ⟨(by decide : -EINVAL ≤ 0), trivial⟩
    · simp only [if_neg hbad, hfd, ho, seekOffset]
      rcases u32At request 12 with _ | _ | _ | whence
      on_goal 4 => rfl
      all_goals
        simp only [Option.bind_some]
        split_ifs <;> rfl
  | read request cap =>
    simp only [FileCall.access, step, run, FileCall.toSys, SysCall.run, readFd, readU32Args_one]
    dsimp only [FileCall.request] at hfd
    by_cases hlen : request.length < 4
    · simp only [if_pos hlen]
      exact ⟨(by decide : -EINVAL ≤ 0), trivial⟩
    · simp only [if_neg hlen, hfd, ho]
      exact ⟨rfl, fileState_advance _ id _⟩
  | write request =>
    simp only [FileCall.access, step, run, FileCall.toSys, SysCall.run, onlyCode, writeFd]
    dsimp only [FileCall.request] at hfd
    by_cases hlen : request.length < 4
    · simp only [hlen, true_or, if_true]
      exact ⟨(by decide : -EINVAL ≤ 0), trivial⟩
    cases hw : o.writable with
    | false =>
      simp only [hlen, hw, hfd, ho, or_true, if_true, if_false, Bool.not_false]
      exact ⟨(by decide : -EBADF ≤ 0), rfl⟩
    | true =>
      simp only [hlen, hw, hfd, ho, Bool.true_eq_false, or_self, if_false, Bool.not_true, Bool.false_eq_true]
      exact ⟨rfl, fileState_advance _ id _⟩
  | pread request cap =>
    simp only [FileCall.access, step, run, FileCall.toSys, SysCall.run, preadFd]
    dsimp only [FileCall.request] at hfd
    by_cases hlen : request.length < 12
    · simp only [if_pos hlen]
      exact ⟨(by decide : -EINVAL ≤ 0), trivial⟩
    · simp only [if_neg hlen, hfd, ho]
      exact ⟨rfl, rfl⟩
  | pwrite request =>
    simp only [FileCall.access, step, run, FileCall.toSys, SysCall.run, onlyCode, pwriteFd]
    dsimp only [FileCall.request] at hfd
    by_cases hlen : request.length < 12
    · simp only [hlen, true_or, if_true]
      exact ⟨(by decide : -EINVAL ≤ 0), trivial⟩
    cases hw : o.writable with
    | false =>
      simp only [hlen, hw, hfd, ho, true_or, or_true, if_true, if_false, Bool.not_false]
      exact ⟨(by decide : -EBADF ≤ 0), rfl⟩
    | true =>
      cases hempty : (request.drop 12).isEmpty with
      | true =>
        simp only [hlen, hw, hfd, ho, or_true, if_true, if_false, Bool.not_true, Bool.false_eq_true]
        exact ⟨le_rfl, rfl⟩
      | false =>
        simp only [hlen, hw, hfd, ho, or_self, if_false, Bool.not_true, Bool.false_eq_true,
          Bool.true_eq_false]
        exact ⟨rfl, rfl⟩
  | ftruncate request =>
    simp only [FileCall.access, step, run, FileCall.toSys, SysCall.run, onlyCode, sysFtruncate, ne_eq]
    dsimp only [FileCall.request] at hfd
    by_cases hlen : request.length = 12
    swap
    · simp only [hlen, not_false_eq_true, true_or, if_true]
      exact ⟨(by decide : -EINVAL ≤ 0), trivial⟩
    by_cases hbig : i64Max < u64At request 4
    · simp only [hlen, hbig, not_true_eq_false, true_or, or_true, if_true, if_false]
      exact ⟨(by decide : -EINVAL ≤ 0), trivial⟩
    cases hw : o.writable with
    | false =>
      simp only [hlen, hbig, hw, hfd, ho, not_true_eq_false, or_true, if_true, if_false, Bool.not_false]
      exact ⟨(by decide : -EBADF ≤ 0), rfl⟩
    | true =>
      simp only [hlen, hbig, hw, hfd, ho, not_true_eq_false, or_self, if_false, Bool.not_true,
        Bool.false_eq_true, Bool.true_eq_false]
      exact ⟨rfl, rfl⟩

theorem exists_does {a : Access} (h : c.access k = some (o, a)) :
    ∃ id, c.file k = some id ∧ c.call.access o = a ∧ c.Does kh k id o a := by
  obtain ⟨o', ho', heq⟩ := Option.map_eq_some_iff.mp h
  obtain ⟨rfl, rfl⟩ := Prod.mk.inj heq
  obtain ⟨id, hid, ho⟩ := Option.bind_eq_some_iff.mp ho'
  exact ⟨id, hid, rfl, does_access kh hid ho⟩

theorem ofds_positional (hcall : c.call.atCursor = false) : (c.step kh k).ofds = k.ofds := by
  have hcursor : c.cursor k = none := by rw [cursor, hcall]; rfl
  cases haccess : c.access k with
  | none => exact congrArg Prod.snd (run_none kh haccess)
  | some x =>
    obtain ⟨o, a⟩ := x
    obtain ⟨id, -, ha, hdoes⟩ := exists_does kh haccess
    cases a with
    | seek delta whence =>
      obtain ⟨request, cap, hlseek⟩ := FileCall.eq_lseek ha
      rw [hlseek] at hcall
      cases hcall
    | refuse => exact congrArg Prod.snd hdoes.2
    | read | edit =>
      have hofds := congrArg Prod.snd hdoes.2
      rwa [hcursor] at hofds

end

/-- Offset an `lseek` asks for: from the start, from the cursor or from the end, and no more than
    `i64::MAX`. -/
def seekTarget (o : OpenFileDescription) (content : Bytes) (delta : Int) (whence : Nat) : Option Nat :=
  let target : Option Int := match whence with
    | 0 => some delta
    | 1 => some (o.offset + delta)
    | 2 => some (content.length + delta)
    | _ => none
  (target.filter (fun t => 0 ≤ t)).map (fun t => min t.toNat i64Max)

section
variable (k : Kernel σ)

/-- What the call reads is what the file has at the offset, what it writes lands there, and the cursors
    are left where the calls put them. -/
structure Exact (c : FileEvent) : Prop where
  read : ∀ o offset cap content, c.access k = some (o, .read offset cap) →
    k.ramfsContent o = some content → (c.run kh k).1 = .data ((content.drop offset).take cap)
  edit : ∀ o e content, c.access k = some (o, .edit e) → k.ramfsContent o = some content →
    ¬ k.Panics o c.room e ∧ e.Done content (c.run kh k).1.rc ((c.step kh k).ramfsContent o)
  seek : ∀ id o delta whence content, c.file k = some id → k.ofds.get? id = some o →
    c.call.access o = .seek delta whence → o.offset < 2 ^ 63 → k.ramfsContent o = some content →
    match seekTarget o content delta whence with
    | none => (c.run kh k).1.rc < 0 ∧ (c.step kh k).ofds = k.ofds
    | some t => (c.run kh k).1 = .data (leBytes 8 t) ∧
      (c.step kh k).ofds.get? id = some { o with offset := t }
  advance : (∀ request cap, c.call ≠ .lseek request cap) → ∀ id o, c.cursor k = some id →
    k.ofds.get? id = some o →
    (c.step kh k).ofds.get? id = some { o with offset := o.offset + (c.run kh k).1.rc.toNat }
  others : ∀ id, c.cursor k ≠ some id → (c.step kh k).ofds.get? id = k.ofds.get? id

/-- No offset of the call is cut to 32 bits, or only where a read finds nothing, and no file has to grow
    beyond what a vector can. -/
structure InRange (c : FileEvent) : Prop where
  read : ∀ o offset cap content, c.access k = some (o, .read offset cap) →
    k.ramfsContent o = some content → RamfsBackend.ReadInRange content offset cap
  edit : ∀ o e content, c.access k = some (o, .edit e) → k.ramfsContent o = some content →
    (k.vfs.backend? o.mountId).bind (fun b => b.writesTo o.inode) ≠ none → e.InRange content c.room

end

section
variable {k : Kernel σ} {c : FileEvent} {id : Nat} {o : OpenFileDescription} {content : Bytes}

theorem satAddI64_cases (a b : Int) : (satAddI64 a b < 0 ∧ a + b < 0) ∨
    (¬ satAddI64 a b < 0 ∧ 0 ≤ a + b ∧ (satAddI64 a b).toNat = min (a + b).toNat i64Max) := by
  unfold satAddI64 i64Max
  omega

/-- The saturating sum is the target. -/
theorem seekOffset_eq (hoffset : o.offset < 2 ^ 63) (hfits : k.vfs.Fits)
    (hc : k.ramfsContent o = some content) (delta : Int) (whence : Nat) :
    k.seekOffset o delta whence = seekTarget o content delta whence := by
  obtain ⟨b, hb, hbc⟩ := Option.bind_eq_some_iff.mp hc
  obtain ⟨r, i, hfrom, hr⟩ := Backend.exists_ramfs hbc
  obtain ⟨-, hsize, hfit⟩ := Backend.reads_eq hfrom Kh.absent () 0 0
  have hlength : k.vfs.size o.mountId o.inode = some content.length := by
    rw [MountTable.size, hb, Option.bind_some, hsize, Leaf.size, RamfsBackend.size, hr]
    rfl
  have hshort := hfit (hfits _ b hb) i content hr
  have hword : ∀ n, n < 2 ^ 63 → toI64 n = n := fun n hn => by
    unfold toI64
    omega
  have hend : toI64 content.length = content.length := hword _ (hshort.trans_lt (by decide))
  have hto : ∀ base : Int,
      (if satAddI64 base delta < 0 then none else some (satAddI64 base delta).toNat) =
        ((some (base + delta)).filter (fun t => 0 ≤ t)).map (fun t => min t.toNat i64Max) := by
    intro base
    rcases satAddI64_cases base delta with ⟨hsat, hneg⟩ | ⟨hsat, hpos, htarget⟩
    · rw [if_pos hsat, Option.filter_some_neg (by simpa using hneg)]
      rfl
    · rw [if_neg hsat, htarget, Option.filter_some_pos (by simpa using hpos)]
      rfl
  simp only [seekOffset, seekTarget, hlength, Option.getD_some, hword _ hoffset, hend]
  match whence with
  | 0 =>
    have h := hto 0
    rwa [Int.zero_add] at h
  | 1 => exact hto o.offset
  | 2 => exact hto content.length
  | n + 3 => rfl

theorem read_iff (hfits : k.vfs.Fits) {offset cap : Nat} (haccess : c.access k = some (o, .read offset cap))
    (hc : k.ramfsContent o = some content) :
    (c.run kh k).1 = .data ((content.drop offset).take cap) ↔
      RamfsBackend.ReadInRange content offset cap := by
  obtain ⟨b, hb, hbc⟩ := Option.bind_eq_some_iff.mp hc
  obtain ⟨id, -, -, hdoes⟩ := exists_does kh haccess
  rw [hdoes.1, MountTable.read, hb, ← Backend.readAt_iff (hfits _ b hb) hbc kh k.host offset cap]
  simp only [ReadAt, Reply.data, Reply.mk.injEq, List.cons.injEq, Prod.mk.injEq, true_and,
    and_true, List.length_take, List.length_drop]

theorem edit_iff (hfits : k.vfs.Fits) {e : Edit} (haccess : c.access k = some (o, .edit e))
    (hc : k.ramfsContent o = some content) :
    ¬ k.Panics o c.room e ∧ e.Done content (c.run kh k).1.rc ((c.step kh k).ramfsContent o) ↔
      ((k.vfs.backend? o.mountId).bind (fun b => b.writesTo o.inode) ≠ none → e.InRange content c.room) := by
  obtain ⟨b, hb, hbc⟩ := Option.bind_eq_some_iff.mp hc
  obtain ⟨id, -, -, hdoes⟩ := exists_does kh haccess
  have hvfs : (c.step kh k).vfs = (k.vfs.edit kh k.host o.mountId o.inode e).2.1 := congrArg Prod.fst hdoes.2
  have hpanics : k.Panics o c.room e ↔ b.Panics o.inode c.room e := by
    unfold Panics
    rw [hb]
    simp only [Option.some.injEq, exists_eq_left']
  rw [hdoes.1, hpanics, ramfsContent, hvfs, MountTable.edit_eq hb, MountTable.backend?_setBackend, if_pos rfl,
    hb, Option.bind_some]
  exact Backend.edit_iff (hfits _ b hb) hbc kh k.host c.room e

theorem advance_eq (hcall : ∀ request cap, c.call ≠ .lseek request cap) (hcursor : c.cursor k = some id)
    (ho : k.ofds.get? id = some o) :
    (c.step kh k).ofds.get? id = some { o with offset := o.offset + (c.run kh k).1.rc.toNat } := by
  have hfile : c.file k = some id := (Option.ite_none_right_eq_some.mp hcursor).2
  have hmoved : (advanceOfds k.ofds (c.cursor k) (c.run kh k).1.rc).get? id =
      some { o with offset := o.offset + (c.run kh k).1.rc.toNat } := by
    rw [get?_advanceOfds, if_pos hcursor, ho]
    rfl
  have hdoes := does_access kh hfile ho
  cases ha : c.call.access o with
  | refuse =>
    rw [ha] at hdoes
    have hofds : (c.step kh k).ofds = k.ofds := congrArg Prod.snd hdoes.2
    rw [hofds, ho, Int.toNat_of_nonpos hdoes.1, Nat.add_zero]
  | seek delta whence =>
    obtain ⟨request, cap, hlseek⟩ := FileCall.eq_lseek ha
    exact absurd hlseek (hcall request cap)
  | read | edit =>
    rw [ha] at hdoes
    have hofds : (c.step kh k).ofds = _ := congrArg Prod.snd hdoes.2
    rw [hofds, hmoved]

theorem others_eq (hcursor : c.cursor k ≠ some id) : (c.step kh k).ofds.get? id = k.ofds.get? id := by
  have hmoved : ∀ n, (advanceOfds k.ofds (c.cursor k) n).get? id = k.ofds.get? id := fun n => by
    rw [get?_advanceOfds, if_neg hcursor]
  cases haccess : c.access k with
  | none => exact congrArg (fun r => r.2.get? id) (run_none kh haccess)
  | some x =>
    obtain ⟨o, a⟩ := x
    obtain ⟨id', hfile, ha, hdoes⟩ := exists_does kh haccess
    cases a with
    | refuse => exact congrArg (fun r => r.2.get? id) hdoes.2
    | seek delta whence =>
      obtain ⟨request, cap, hlseek⟩ := FileCall.eq_lseek ha
      rw [cursor, hfile, hlseek] at hcursor
      rw [step, hdoes]
      cases k.seekOffset o delta whence with
      | none => rfl
      | some t =>
        change (k.ofds.modify id' _).get? id = _
        rw [get?_modify, if_neg (fun h => hcursor (congrArg some h.symm))]
    | read | edit => exact (congrArg (fun r => r.2.get? id) hdoes.2).trans (hmoved _)

theorem exact_iff (hfits : k.vfs.Fits) : Exact kh k c ↔ InRange k c := by
  constructor
  · intro h
    exact ⟨fun o offset cap content haccess hc =>
        (read_iff kh hfits haccess hc).mp (h.read _ _ _ _ haccess hc),
      fun o e content haccess hc => (edit_iff kh hfits haccess hc).mp (h.edit _ _ _ haccess hc)⟩
  · intro h
    refine ⟨fun o offset cap content haccess hc =>
        (read_iff kh hfits haccess hc).mpr (h.read _ _ _ _ haccess hc),
      fun o e content haccess hc => (edit_iff kh hfits haccess hc).mpr (h.edit _ _ _ haccess hc), ?_,
      fun hcall id o => advance_eq kh hcall, fun id => others_eq kh⟩
    intro id o delta whence content hfile ho ha hoffset hc
    have hdoes := does_access kh hfile ho
    rw [ha] at hdoes
    rw [step, hdoes, seekOffset_eq hoffset hfits hc]
    cases seekTarget o content delta whence with
    | none => exact ⟨(by decide : -EINVAL < 0), rfl⟩
    | some t =>
      refine ⟨rfl, ?_⟩
      change (k.ofds.modify id _).get? id = _
      rw [get?_modify, if_pos rfl, ho]
      rfl

theorem fits_step (hrange : InRange k c) (hfits : k.vfs.Fits) : (c.step kh k).vfs.Fits := by
  cases haccess : c.access k with
  | none =>
    have hvfs : (c.step kh k).vfs = k.vfs := congrArg Prod.fst (run_none kh haccess)
    rwa [hvfs]
  | some x =>
    obtain ⟨o, a⟩ := x
    obtain ⟨id, -, -, hdoes⟩ := exists_does kh haccess
    cases a with
    | refuse | read =>
      have hvfs : (c.step kh k).vfs = k.vfs := congrArg Prod.fst hdoes.2
      rwa [hvfs]
    | seek delta whence =>
      rw [step, hdoes]
      cases k.seekOffset o delta whence <;> exact hfits
    | edit e =>
      have hvfs : (c.step kh k).vfs = _ := congrArg Prod.fst hdoes.2
      rw [hvfs]
      refine hfits.edit kh k.host o.mountId o.inode c.room (fun b content hb hbc hto => ?_)
      refine (hrange.edit o e content haccess ?_ ?_).returns
      · rw [ramfsContent, hb, Option.bind_some, hbc]
      · rwa [hb, Option.bind_some]

end

/-- A run is exact at every step, exactly when every step is in range. -/
theorem along_exact_iff (calls : List FileEvent) (k : Kernel σ) (hfits : k.vfs.Fits) :
    Run.Along (step kh) (Exact kh) k calls ↔ Run.Along (step kh) InRange k calls :=
  Run.along_iff (step kh) (I := fun k => k.vfs.Fits) (C := fun _ => True)
    (fun _ _ hfits _ => exact_iff kh hfits)
    (fun _ _ hfits _ hrange => fits_step kh hrange hfits) hfits (fun _ _ => trivial)

end FileEvent

/-- Files of a ramfs are sparse byte arrays, and the calls on them exact, just as far as offsets fit
    32 bits and files fit a vector. -/
theorem file_data_sparse_iff :
    (∀ (b : RamfsBackend) (inode : Inode) (content : Bytes), b.inodes.get? inode = some content →
      content.length ≤ isizeMax → ∀ (room : Bool) (offset cap : Nat) (e : Edit),
      (ReadAt content offset cap (b.read inode offset cap) ↔ RamfsBackend.ReadInRange content offset cap) ∧
      (b.EditsAt inode room content e ↔ e.InRange content room)) ∧
    (∀ (kh : Kh σ) (k : Kernel σ), k.vfs.Fits → ∀ calls : List FileEvent,
      (Run.Along (FileEvent.step kh) (FileEvent.Exact kh) k calls ↔
        Run.Along (FileEvent.step kh) FileEvent.InRange k calls)) :=
  ⟨fun _ _ _ hc hfit room offset cap e =>
    ⟨RamfsBackend.readAt_iff hc hfit offset cap, RamfsBackend.editsAt_iff hc hfit room e⟩,
    fun kh k hfits calls => FileEvent.along_exact_iff kh calls k hfits⟩

/-- A ramfs with the file `/f` of one byte. -/
def RamfsBackend.oneByte : RamfsBackend := (RamfsBackend.new.install (ascii ['/', 'f']) (ascii ['a'])).2

/-- Process 1 with the file open for writing as descriptor 3. -/
def Kernel.oneFile : Kernel Unit :=
  { Kernel.new () with
    vfs := .new (.leaf (.ramfs .oneByte))
    ofds := SortedMap.empty.insert 1 ⟨0, 1, 0, 1, true, 0⟩ }.installFd 1 3 (.file 1)

theorem Kernel.oneFile_fits : oneFile.vfs.Fits := by
  intro id b hb
  have hmounts : oneFile.vfs.mounts = [⟨ascii ['/'], .leaf (.ramfs .oneByte)⟩] := by decide
  rw [MountTable.backend?, hmounts] at hb
  cases id with
  | zero =>
    cases hb
    intro inode content hc
    change (SortedMap.empty.insert 1 (ascii ['a'])).get? inode = some content at hc
    rw [get?_insert] at hc
    split_ifs at hc
    · rw [← Option.some.inj hc]
      decide
    · cases hc
  | succ n => cases hb

/-- Two bytes written at offset 5, found by `lseek` and read back. -/
theorem file_data_sparse_iff_oneFile :
    RamfsBackend.oneByte.EditsAt 1 true (ascii ['a']) (.write 5 (ascii ['x', 'y'])) ∧
      Run.Along (FileEvent.step Kh.absent) (FileEvent.Exact Kh.absent) Kernel.oneFile
        [⟨1, .pwrite (leBytes 4 3 ++ leBytes 8 5 ++ ascii ['x', 'y']), true⟩,
          ⟨1, .lseek (leBytes 4 3 ++ leBytes 8 5 ++ leBytes 4 0) 8, false⟩,
          ⟨1, .read (leBytes 4 3) 8, false⟩] := by
  refine ⟨(((file_data_sparse_iff (σ := Unit)).1 _ 1 (ascii ['a']) (by decide) (by decide) true 0 0
    (.write 5 (ascii ['x', 'y']))).2).mpr (.inr (by decide)), ((file_data_sparse_iff (σ := Unit)).2
    Kh.absent _ oneFile_fits _).mpr ⟨⟨?_, ?_⟩, ⟨?_, ?_⟩, ⟨?_, ?_⟩, trivial⟩⟩
  · intro o offset cap content h
    cases h
  · intro o e content h _ _
    have hedits : FileEvent.access oneFile
        ⟨1, .pwrite (leBytes 4 3 ++ leBytes 8 5 ++ ascii ['x', 'y']), true⟩ =
        some (⟨0, 1, 0, 1, true, 0⟩, .edit (.write 5 (ascii ['x', 'y']))) := by rfl
    cases Option.mem_unique hedits h
    exact .inr (by decide)
  · intro o offset cap content h
    cases h
  · intro o e content h
    cases h
  · intro o offset cap content h _
    have hreads : FileEvent.access (Run.run (FileEvent.step Kh.absent) oneFile
        [⟨1, .pwrite (leBytes 4 3 ++ leBytes 8 5 ++ ascii ['x', 'y']), true⟩,
          ⟨1, .lseek (leBytes 4 3 ++ leBytes 8 5 ++ leBytes 4 0) 8, false⟩])
        ⟨1, .read (leBytes 4 3) 8, false⟩ = some (⟨0, 1, 5, 1, true, 0⟩, .read 5 8) := by rfl
    cases Option.mem_unique hreads h
    exact .inl (by decide)
  · intro o e content h
    cases h

/-- A read at `2 ^ 32` returns the byte, a write there replaces it, a write of two bytes that ends just
    past `2 ^ 32` panics, and so do a write at `2 ^ 31` and a length of that many bytes, whatever the
    allocator has. -/
theorem offset_cut_to_32_bits : RamfsBackend.oneByte.read 1 (2 ^ 32) 8 = (1, ascii ['a']) ∧
      (RamfsBackend.oneByte.write 1 (2 ^ 32) (ascii ['z'])).2.inodes.get? 1 = some (ascii ['z']) ∧
      RamfsBackend.oneByte.tryWrite 1 true (2 ^ 32 - 1) (ascii ['x', 'y']) = none ∧
      RamfsBackend.oneByte.tryWrite 1 true (2 ^ 31) (ascii ['x']) = none ∧
      RamfsBackend.oneByte.trySetLen 1 true (2 ^ 31) = none := by
  have hfile : RamfsBackend.oneByte.inodes.get? 1 = some (ascii ['a']) := by rfl
  refine ⟨by decide, by decide, ?_, ?_, by decide⟩
  · rw [RamfsBackend.tryWrite_eq hfile (by decide)]
    exact if_neg (by decide)
  · rw [RamfsBackend.tryWrite_eq hfile (by decide)]
    exact if_neg (by decide)

end Yurt
