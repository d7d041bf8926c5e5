import YurtKernel.Vfs.Ops
import YurtKernel.Dispatch.Lookup
import YurtKernel.Dispatch.Call
import YurtKernel.Dispatch.MessageLedger

/-! The object tables under the calls.

    A call changes pipes, open file descriptions, sockets, locks and storage in a few ways only: it
    raises or drops the reference of a descriptor entry, makes an object, changes what an object holds
    and not how it is counted, or runs a method of the mount table. A property of the tables that
    these ways keep is a `Rule`. Here are the calls of the descriptor, socket and process families;
    the calls on paths follow in `PathObjects`. -/

namespace Yurt
open Kernel
variable {σ : Type}
variable {α ρ : Type} {c : Prop}

/-- Tables that descriptor entries refer to, with the counters of their ids, and the storage. -/
structure Objects where
  pipes : SortedMap Nat PipeBuf
  nextPipe : Nat
  ofds : SortedMap Nat OpenFileDescription
  nextOfd : Nat
  sockets : SortedMap Nat SocketEntry
  nextSocket : Nat
  locks : SortedMap (MountId ×ₗ Inode) FlockState
  names : SortedMap Bytes Unit
  vfs : MountTable

def Kernel.objects (k : Kernel σ) : Objects :=
  ⟨k.pipes, k.nextPipeId, k.ofds, k.nextOfdId, k.sockets, k.nextSocketId, k.flockLocks,
    k.unixSocketInodes, k.vfs⟩

/-- A property of the tables that taking and dropping references and making pipes keep. -/
structure FdRule (σ : Type) where
  holds : Objects → Ipc → Prop
  incFdEntryRef : ∀ (k : Kernel σ) (e : FdEntry),
    holds k.objects k.ipc → holds (k.incFdEntryRef e).objects (k.incFdEntryRef e).ipc
  closeEntry : ∀ (k : Kernel σ) (e : FdEntry),
    holds k.objects k.ipc → holds (k.closeEntry e).2.objects (k.closeEntry e).2.ipc
  createPipe : ∀ k : Kernel σ, holds k.objects k.ipc → holds k.createPipe.2.objects k.createPipe.2.ipc

/-- The tables of `k` satisfy the rule for descriptors. -/
def Kernel.On (F : FdRule σ) (k : Kernel σ) : Prop := F.holds k.objects k.ipc

/-- The same for making sockets and giving them addresses; `binds` if they may take names. -/
structure SocketRule (σ : Type) extends FdRule σ where
  binds : Prop
  addSocket : ∀ (k : Kernel σ) (domain sockType : Nat) (kind : SocketKind),
    (∀ box, kind.inbox = some box → box.Empty) → kind.peer? = none →
    k.On toFdRule → (k.addSocket domain sockType kind).2.On toFdRule
  setPlain : ∀ (k : Kernel σ) (id : Nat) (s : SocketEntry) (kind : SocketKind),
    k.sockets.get? id = some s → s.kind.inbox = none → kind.inbox = none →
    k.On toFdRule → (k.setKind id kind).On toFdRule
  becomeHost : ∀ (k : Kernel σ) (id : Nat) (s : SocketEntry) (handle : Int),
    k.sockets.get? id = some s → s.kind.inbox = none →
    k.On toFdRule → (k.becomeHost id handle).On toFdRule
  bindUnixDatagram : binds → ∀ (k : Kernel σ) (id : Nat) (path : Bytes),
    k.On toFdRule → (k.bindUnixDatagram id path).2.On toFdRule
  connectUnixDatagram : ∀ (k : Kernel σ) (id : Nat) (path : Bytes),
    k.On toFdRule → (k.connectUnixDatagram id path).2.On toFdRule
  createUnixListener : binds → ∀ (k : Kernel σ) (path : Bytes) (backlog : Nat),
    k.On toFdRule → (k.createUnixListener path backlog).2.On toFdRule
  acceptUnixStream : ∀ (k : Kernel σ) (listener : Nat),
    k.On toFdRule → (k.acceptUnixStream listener).2.On toFdRule
  connectUnixStream : ∀ (k : Kernel σ) (path : Bytes) (cred : PeerCred),
    k.On toFdRule → (k.connectUnixStream path cred).2.On toFdRule
  createUnixStreamPair : ∀ (k : Kernel σ) (cred : PeerCred),
    k.On toFdRule → (k.createUnixStreamPair cred).2.On toFdRule
  createUnixDatagramPair : ∀ k : Kernel σ, k.On toFdRule → k.createUnixDatagramPair.2.On toFdRule

/-- A property of the tables that every elementary change keeps. A file is known once it has been
    opened. Changes of locks and names of sockets are left out unless `locks` and `binds` hold. -/
structure Rule (σ : Type) where
  holds : Objects → Prop
  knows : MountTable → MountId → Inode → Prop
  locks : Prop
  binds : Prop
  incFdEntryRef : ∀ (k : Kernel σ) (e : FdEntry), holds k.objects → holds (k.incFdEntryRef e).objects
  closeEntry : ∀ (k : Kernel σ) (e : FdEntry), holds k.objects → holds (k.closeEntry e).2.objects
  createPipe : ∀ k : Kernel σ, holds k.objects → holds k.createPipe.2.objects
  createOfd : ∀ (k : Kernel σ) (mountId : MountId) (inode : Inode) (writable : Bool),
    knows k.vfs mountId inode → holds k.objects → holds (k.createOfd mountId inode writable).2.objects
  addSocket : ∀ (k : Kernel σ) (domain sockType : Nat) (kind : SocketKind),
    holds k.objects → holds (k.addSocket domain sockType kind).2.objects
  setKind : ∀ (k : Kernel σ) (id : Nat) (kind : SocketKind),
    holds k.objects → holds (k.setKind id kind).objects
  setBytes : ∀ (k : Kernel σ) (id : Nat) (b : PipeBuf) (bytes : Bytes), k.pipes.get? id = some b →
    holds k.objects →
    holds { k with pipes := k.pipes.insert id { b with bytes := bytes } }.objects
  modifyOfd : ∀ (k : Kernel σ) (id : Nat) (f : OpenFileDescription → OpenFileDescription),
    (∀ o, (f o).refs = o.refs ∧ (f o).mountId = o.mountId ∧ (f o).inode = o.inode) →
    holds k.objects → holds (k.modifyOfd id f).objects
  storage : ∀ (kh : Kh σ) (h : σ) (op : VfsOp) (o : Objects),
    holds o → holds { o with vfs := op.run kh h o.vfs }
  opened : ∀ (kh : Kh σ) (h : σ) (o : Objects) (path : Bytes) (flags : Nat) (id : MountId)
    (inode : Inode), holds o → (o.vfs.openResult kh h path flags).1 = .ok (id, inode) →
    knows (o.vfs.openResult kh h path flags).2.1 id inode ∧
      knows ((o.vfs.openResult kh h path flags).2.1.truncate id inode) id inode
  setLocks : locks → ∀ (o : Objects) (l : SortedMap (MountId ×ₗ Inode) FlockState),
    holds o → holds { o with locks := l }
  dropName : ∀ (o : Objects) (path : Bytes), holds o → holds { o with names := o.names.erase path }
  addName : binds → ∀ (o : Objects) (path : Bytes),
    holds o → holds { o with names := o.names.insert path () }

/-- The tables of `k` satisfy the rule. -/
def Kernel.Under (K : Rule σ) (k : Kernel σ) : Prop := K.holds k.objects

def Rule.fds (K : Rule σ) : FdRule σ where
  holds o _ := K.holds o
  incFdEntryRef := K.incFdEntryRef
  closeEntry := K.closeEntry
  createPipe := K.createPipe

variable {F : FdRule σ} {S : SocketRule σ} {K : Rule σ} {k k' : Kernel σ} {pid : Pid} {id : Nat} {request : Bytes}

/-! ### Calls that pass descriptors around -/

namespace Kernel.On
variable (kh : Kh σ) (h : k.On F)
include h

theorem incFdEntryRef (e : FdEntry) : (k.incFdEntryRef e).On F := F.incFdEntryRef k e h

theorem closeEntry (e : FdEntry) : (k.closeEntry e).2.On F := F.closeEntry k e h

theorem closeEntries (es : List FdEntry) : (k.closeEntries es).On F :=
  List.foldlRecOn es _ h (fun _ hk e _ => On.closeEntry hk e)

theorem pipeDecRef (id : Nat) (side : PipeEnd) : (k.pipeDecRef id side).On F := h.closeEntry (.pipe id side)

theorem decFdEntryRef (e : FdEntry) : (k.decFdEntryRef kh e).On F := by
  cases e with
  | pipe id side => exact h.pipeDecRef id side
  | file id => exact h.closeEntry (.file id)
  | socket id =>
    have hdrop := h.closeEntry (.socket id)
    rw [Kernel.closeEntry] at hdrop
    rw [Kernel.decFdEntryRef]
    generalize k.socketDecRef id = r at hdrop
    obtain ⟨_ | handle, k'⟩ := r
    · exact hdrop
    · exact hdrop
  | _ => exact h

theorem createPipe : k.createPipe.2.On F := F.createPipe k h

omit h in
theorem ite [Decidable c] {r r' : ρ × Kernel σ} (h : r.2.On F) (h' : r'.2.On F) :
    (if c then r else r').2.On F :=
  ite_keeps (P := On F) h h'

omit h in
theorem of_eq {r : α × Kernel σ} {a : α} (h : r.2.On F) (heq : r = (a, k')) : k'.On F := by
  rwa [heq] at h

theorem closeHandle (kh : Kh σ) (handle : Option Int) : (k.closeHandle kh handle).On F := by
  cases handle <;> exact h

theorem closeFdNumber (fd : Nat) : (k.closeFdNumber kh pid fd).2.On F := by
  unfold Kernel.closeFdNumber
  cases k.fdEntry pid fd with
  | none => exact h
  | some e =>
    have hclose := On.closeEntry (k := k.removeFd pid fd) h e
    simp only
    generalize (k.removeFd pid fd).closeEntry e = r at hclose
    obtain ⟨_ | handle, k'⟩ := r
    · exact hclose
    · exact hclose

theorem closeFd : (k.closeFd kh pid request).2.On F := by
  unfold Kernel.closeFd
  split
  · exact h.closeFdNumber kh _
  · exact h

theorem sysSocketClose : (k.sysSocketClose kh pid request).2.On F := by
  unfold Kernel.sysSocketClose
  refine .ite h ?_
  split
  · exact h.closeFdNumber kh _
  · exact h

theorem dupFd : (k.dupFd kh pid request).2.On F := by
  unfold Kernel.dupFd
  split
  · cases k.fdEntry pid _ with
    | none => exact h
    | some e =>
      have hinc := On.incFdEntryRef (k := k.touch pid) h e
      simp only
      cases ((k.touch pid).incFdEntryRef e).freeFd pid with
      | none => exact hinc.decFdEntryRef kh e
      | some fd => exact hinc
  · exact h

theorem aliasFd (newfd : Nat) (e : FdEntry) : (k.aliasFd pid newfd e).2.On F := by
  unfold Kernel.aliasFd
  cases k.fdEntry pid newfd with
  | none => exact h.incFdEntryRef e
  | some prev => exact (h.closeEntry prev).incFdEntryRef e

theorem dup2Fd : (k.dup2Fd kh pid request).2.On F := by
  unfold Kernel.dup2Fd
  split
  · cases k.fdEntry pid _ with
    | none => exact h
    | some e =>
      have halias : ∀ newfd, ((k.touch pid).aliasFd pid newfd e).2.On F := fun newfd =>
        On.aliasFd (k := k.touch pid) h newfd e
      exact .ite h (.ite h ((halias _).closeHandle kh _))
  · exact h

theorem dup3Fd : (k.dup3Fd kh pid request).2.On F := by
  unfold Kernel.dup3Fd
  split
  · refine .ite h (.ite h ?_)
    cases k.fdEntry pid _ with
    | none => exact h
    | some e =>
      have halias : ∀ newfd, ((k.touch pid).aliasFd pid newfd e).2.On F := fun newfd =>
        On.aliasFd (k := k.touch pid) h newfd e
      refine .ite h (On.closeHandle ?_ kh _)
      exact halias _
  · exact h

theorem dupMinFd : (k.dupMinFd pid request).2.On F := by
  unfold Kernel.dupMinFd
  split
  · cases k.fdEntry pid _ with
    | none => exact h
    | some e =>
      refine .ite h ?_
      split
      · exact h
      · exact On.incFdEntryRef (k := k.touch pid) h e
  · exact h

theorem pipe (cap : Nat) : (k.pipe pid cap).2.On F := by
  have hnew : (k.createPipe.2.touch pid).On F := h.createPipe
  unfold Kernel.pipe
  refine .ite h ?_
  simp only
  cases (k.createPipe.2.touch pid).freeFd pid with
  | none => exact (hnew.pipeDecRef _ _).pipeDecRef _ _
  | some readFd =>
    simp only
    cases ((k.createPipe.2.touch pid).installFd pid readFd _).freeFd pid with
    | none =>
      have hremoved : (((k.createPipe.2.touch pid).installFd pid readFd
        (.pipe k.createPipe.1 .read)).removeFd pid readFd).On F := hnew
      exact (hremoved.pipeDecRef _ _).pipeDecRef _ _
    | some writeFd => exact hnew

theorem installSocketIdFd (id : Nat) : (k.installSocketIdFd kh pid id).2.On F := by
  unfold Kernel.installSocketIdFd
  cases k.freeFd pid with
  | none => exact On.decFdEntryRef (k := k.touch pid) kh h _
  | some fd => exact h

theorem replaceSocketFd (fd oldId newId : Nat) : (k.replaceSocketFd kh pid fd oldId newId).On F :=
  On.decFdEntryRef (k := k.installFd pid fd (.socket newId)) kh h _

theorem installSocketPair (left right : Nat) : (k.installSocketPair kh pid left right).2.On F := by
  unfold Kernel.installSocketPair
  cases k.freeFd pid with
  | none => exact (h.decFdEntryRef kh _).decFdEntryRef kh _
  | some leftFd =>
    simp only
    cases (k.installFd pid leftFd (.socket left)).freeFd pid with
    | none =>
      have hremoved : ((k.installFd pid leftFd (.socket left)).removeFd pid leftFd).On F := h
      exact (hremoved.decFdEntryRef kh _).decFdEntryRef kh _
    | some rightFd => exact h

omit h in
theorem cloneFdRights (pid : Pid) : ∀ (fds : List Nat) (rights : List FdEntry)
    {k : Kernel σ}, k.On F → (Kernel.cloneFdRights pid fds rights k).2.On F
  | [], _, _, h => h
  | fd :: fds, rights, k, h => by
    have htouch : (k.touch pid).On F := h
    unfold Kernel.cloneFdRights
    split
    · exact htouch.closeEntries rights
    · next e _ => exact cloneFdRights pid fds (rights ++ [e]) (htouch.incFdEntryRef e)

omit h in
theorem deliverRights (pid : Pid) : ∀ (rights : List FdEntry) (fit : Nat)
    (hit : Bool) {k : Kernel σ}, k.On F →
    (Kernel.deliverRights pid fit hit rights k).2.On F
  | [], fit, hit, k, h => by
    unfold Kernel.deliverRights
    exact h
  | e :: es, 0, hit, k, h => by
    unfold Kernel.deliverRights
    exact deliverRights pid es 0 hit (h.closeEntry e)
  | e :: es, fit + 1, true, k, h => by
    unfold Kernel.deliverRights
    exact deliverRights pid es (fit + 1) true (h.closeEntry e)
  | e :: es, fit + 1, false, k, h => by
    have htouch : (k.touch pid).On F := h
    unfold Kernel.deliverRights
    split
    · exact deliverRights pid es (fit + 1) true (htouch.closeEntry e)
    · next fd _ =>
      have hinstall : (k.installFd pid fd e).On F := h
      exact deliverRights pid es fit false hinstall

theorem installFdRightsTruncated (pid : Pid) (rights : List FdEntry)
    (start room : Nat) : (k.installFdRightsTruncated pid rights start room).2.On F := by
  unfold Kernel.installFdRightsTruncated
  exact .ite (h.closeEntries rights) (h.deliverRights pid rights _ false)

theorem prepareFork (parentPid : Pid) : (k.prepareFork parentPid).2.On F := by
  unfold Kernel.prepareFork
  split
  · exact h
  · next parent _ =>
    refine .ite h (.ite h ?_)
    have halloc : k.tryAllocHostPid.2.On F := h
    generalize k.tryAllocHostPid = r at halloc ⊢
    obtain ⟨_ | child, k'⟩ := r
    · exact halloc
    · exact List.foldlRecOn (motive := On F) parent.fdTable.entries.values _ halloc
        (fun _ hk e _ => hk.incFdEntryRef e)

theorem rollbackFork (parentPid childPid : Pid) : (k.rollbackFork kh parentPid childPid).2.On F := by
  unfold Kernel.rollbackFork
  split
  · exact h
  · next child _ =>
    refine .ite h ?_
    have herase : On F { k with processes := k.processes.erase childPid } := h
    have hdrop := List.foldlRecOn (motive := On F) child.fdTable.entries.values (Kernel.decFdEntryRef kh) herase
      (fun _ hk e _ => hk.decFdEntryRef kh e)
    unfold releaseHostPidReservation
    dsimp only
    split_ifs <;> exact hdrop

theorem commitFork (parentPid childPid : Pid) : (k.commitFork parentPid childPid).2.On F := by
  unfold Kernel.commitFork
  split
  · exact h
  · refine .ite h ?_
    dsimp only
    split <;> exact h

theorem insertHostProcess (parentPid : Pid) (argv : List Bytes)
    (handle : Option Int) : (k.insertHostProcess pid parentPid argv handle).On F := by
  unfold Kernel.insertHostProcess
  split_ifs <;> exact h

theorem spawnCachedProcess (parentPid : Pid) (moduleId argvRequest : Bytes) :
    (k.spawnCachedProcess kh parentPid moduleId argvRequest).2.On F := by
  unfold Kernel.spawnCachedProcess
  split
  · exact h
  · have halloc : k.tryAllocHostPid.2.On F := h
    split
    · next heq => exact .of_eq halloc heq
    · next heq =>
      have hk := On.of_eq halloc heq
      dsimp only
      split_ifs
      · unfold releaseHostPidReservation
        split_ifs <;> exact hk
      · refine On.insertHostProcess ?_ _ _ _
        exact hk

theorem recordExit : (k.recordExit request).2.On F := by
  unfold Kernel.recordExit recordExitOf
  refine .ite h (.ite h ?_)
  dsimp only
  split_ifs <;> exact h

end Kernel.On

/-! ### Calls that make sockets -/

namespace Kernel.On
variable (kh : Kh σ) (h : k.On S.toFdRule)
include h

theorem sysSocketOpen : (k.sysSocketOpen kh pid request).2.On S.toFdRule := by
  unfold Kernel.sysSocketOpen
  refine .ite h (.ite h (.ite h (.ite (.ite h ?_) ?_)))
  · refine On.installSocketIdFd kh (S.addSocket _ _ _ _ (fun box hbox => ?_) rfl h) _
    cases hbox
    exact ⟨rfl, rfl⟩
  · exact On.installSocketIdFd kh (S.addSocket _ _ _ _ (fun _ hnone => by cases hnone) rfl h) _

theorem sysSocketBind (hbinds : S.binds) : (k.sysSocketBind pid request).2.On S.toFdRule := by
  have htouch : (k.touch pid).On S.toFdRule := h
  unfold Kernel.sysSocketBind
  refine .ite h ?_
  simp only
  split
  · exact h
  · split
    · exact h
    · next hs =>
      split
      · exact S.bindUnixDatagram hbinds _ _ _ htouch
      · exact h
      · next hkind =>
        refine .ite htouch (.ite htouch ?_)
        exact S.setPlain _ _ _ _ hs (by rw [hkind]; rfl) rfl htouch
      · exact .ite htouch htouch

theorem listenAt (hbinds : S.binds) (fd backlog : Nat) (addr : Bytes) {s : SocketEntry}
    (hs : k.sockets.get? id = some s) (hplain : s.kind.inbox = none) :
    (k.listenAt kh pid fd id backlog addr).2.On S.toFdRule := by
  unfold Kernel.listenAt
  split
  · split
    · next heq =>
      exact On.replaceSocketFd kh (.of_eq (S.createUnixListener hbinds _ _ backlog h) heq) _ _ _
    · next heq => exact .of_eq (S.createUnixListener hbinds _ _ backlog h) heq
  · exact .ite h (S.becomeHost { k with host := _ } id s _ hs hplain h)

theorem sysSocketListen (hbinds : S.binds) : (k.sysSocketListen kh pid request).2.On S.toFdRule := by
  have htouch : (k.touch pid).On S.toFdRule := h
  unfold Kernel.sysSocketListen
  refine .ite h ?_
  simp only
  split
  · exact h
  · split
    · exact h
    · next s hs =>
      split
      · next hkind =>
        have hplain : s.kind.inbox = none := by
          rw [hkind]
          rfl
        refine .ite htouch ?_
        split
        · exact htouch.listenAt kh hbinds _ _ _ hs hplain
        · exact htouch.listenAt kh hbinds _ _ _ hs hplain
        · exact h
        · exact htouch.listenAt kh hbinds _ _ _ hs hplain
      · exact h

theorem sysSocketAccept : (k.sysSocketAccept kh pid request).2.On S.toFdRule := by
  have htouch : (k.touch pid).On S.toFdRule := h
  unfold Kernel.sysSocketAccept
  refine .ite h ?_
  split
  · exact h
  · split
    · exact h
    · split
      · refine .ite htouch ?_
        split
        · next heq =>
          exact On.installSocketIdFd kh (.of_eq (S.acceptUnixStream _ _ htouch) heq) _
        · next heq => exact .of_eq (S.acceptUnixStream _ _ htouch) heq
      · refine .ite htouch (.ite htouch ?_)
        exact On.installSocketIdFd kh (S.addSocket { k.touch pid with host := _ } _ _ _
          (fun _ hnone => by cases hnone) rfl h) _
      · exact h
  · exact h

theorem sysSocketConnect : (k.sysSocketConnect kh pid request).2.On S.toFdRule := by
  have htouch : (k.touch pid).On S.toFdRule := h
  unfold Kernel.sysSocketConnect
  refine .ite h (.ite h ?_)
  split
  · exact h
  · split
    · exact h
    · next s hs =>
      split
      · next hkind =>
        split
        · refine .ite ?_ htouch
          split
          · next heq =>
            exact On.replaceSocketFd kh (.of_eq (S.connectUnixStream _ _ _ htouch) heq) _ _ _
          · next heq => exact .of_eq (S.connectUnixStream _ _ _ htouch) heq
        · refine .ite htouch (.ite htouch ?_)
          exact S.becomeHost { k.touch pid with host := _ } _ s _ hs (by rw [hkind]; rfl) h
      · exact S.connectUnixDatagram _ _ _ htouch
      · exact h
      · exact h

theorem sysSocketpair (cap : Nat) : (k.sysSocketpair kh pid request cap).2.On S.toFdRule := by
  unfold Kernel.sysSocketpair
  refine .ite h (.ite h (.ite h ?_))
  split_ifs
  · exact On.installSocketPair (k := k.createUnixDatagramPair.2.touch pid) kh
      (S.createUnixDatagramPair k h) _ _
  · exact On.installSocketPair
      (k := ((k.touch pid).createUnixStreamPair (k.peerCredFor pid)).2.touch pid) kh
      (S.createUnixStreamPair (k.touch pid) _ h) _ _

end Kernel.On

/-- Calls that pass descriptors around or make sockets, and no more. -/
def SysCall.passes : SysCall → Bool
  | .close _ | .dup _ | .dup2 _ | .dup3 _ | .dupMin _ | .pipe _ | .socketOpen _ | .accept _ | .connect _
  | .socketpair _ _ | .socketClose _ => true
  | _ => false

theorem SysCall.on (kh : Kh σ) (h : k.On S.toFdRule) {call : SysCall} (hcall : call.passes = true) :
    (call.run kh k pid).2.On S.toFdRule := by
  cases call with
  | close request => exact h.closeFd kh
  | dup request => exact h.dupFd kh
  | dup2 request => exact h.dup2Fd kh
  | dup3 request => exact h.dup3Fd kh
  | dupMin request => exact h.dupMinFd
  | pipe cap => exact h.pipe cap
  | socketOpen request => exact h.sysSocketOpen kh
  | accept request => exact h.sysSocketAccept kh
  | connect request => exact h.sysSocketConnect kh
  | socketpair request cap => exact h.sysSocketpair kh cap
  | socketClose request => exact h.sysSocketClose kh
  | _ => cases hcall

theorem KernelCall.on (kh : Kh σ) (h : k.On F) {call : KernelCall} (hcall : ∀ pid sys, call ≠ .sys pid sys) :
    (call.step kh k).On F := by
  cases call with
  | sys pid sys => exact absurd rfl (hcall pid sys)
  | prepareFork parentPid => exact h.prepareFork parentPid
  | commitFork parentPid childPid => exact h.commitFork parentPid childPid
  | rollbackFork parentPid childPid => exact h.rollbackFork kh parentPid childPid
  | insertHostProcess pid parentPid argv handle => exact h.insertHostProcess parentPid argv handle
  | spawnCached parentPid moduleId argvRequest => exact h.spawnCachedProcess kh parentPid moduleId argvRequest
  | recordExit request => exact h.recordExit

/-! ### Elementary changes of objects -/

namespace Kernel.Under
variable (kh : Kh σ) (h : k.Under K)
include h

theorem fds : k.On K.fds := h

theorem frame (hobjects : k'.objects = k.objects) : k'.Under K := by
  rw [Under, hobjects]
  exact h

theorem ofdDecRef (id : Nat) : (k.ofdDecRef id).Under K := h.fds.closeEntry (.file id)

theorem createOfd {mountId : MountId} {inode : Inode}
    (hknown : K.knows k.vfs mountId inode) (writable : Bool) :
    (k.createOfd mountId inode writable).2.Under K := K.createOfd k mountId inode writable hknown h

omit h in
/-- A method of the mount table, whatever it does to the host. -/
theorem storage (kh : Kh σ) (h : k.Under K) (op : VfsOp) (host host' : σ) :
    Under K { k with vfs := op.run kh host k.vfs, host := host' } :=
  K.storage kh host op k.objects h

theorem addSocket (domain sockType : Nat) (kind : SocketKind) :
    (k.addSocket domain sockType kind).2.Under K := K.addSocket k domain sockType kind h

theorem setKind (id : Nat) (kind : SocketKind) : (k.setKind id kind).Under K := K.setKind k id kind h

theorem setBytes {b : PipeBuf} (hb : k.pipes.get? id = some b)
    (bytes : Bytes) : Under K { k with pipes := k.pipes.insert id { b with bytes := bytes } } :=
  K.setBytes k id b bytes hb h

theorem advance (id : Nat) (n : Int) : (k.advance id n).Under K := by
  unfold Kernel.advance
  split_ifs
  · exact K.modifyOfd k id _ (fun _ => ⟨rfl, rfl, rfl⟩) h
  · exact h

/-! ### Descriptor calls -/

omit h in
theorem ite [Decidable c] {r r' : ρ × Kernel σ} (h : r.2.Under K) (h' : r'.2.Under K) :
    (if c then r else r').2.Under K :=
  ite_keeps (P := Under K) h h'

omit h in
theorem of_eq {r : α × Kernel σ} {a : α} (h : r.2.Under K) (heq : r = (a, k')) : k'.Under K := by
  rwa [heq] at h

/-! ### Socket calls -/

theorem noteSocketInode (hbinds : K.binds) (path : Bytes) : (k.noteSocketInode path).Under K := by
  unfold Kernel.noteSocketInode
  split_ifs
  · exact h
  · exact K.addName hbinds k.objects path h

theorem bindUnixDatagram (hbinds : K.binds) (id : Nat) (path : Bytes) :
    (k.bindUnixDatagram id path).2.Under K := by
  unfold Kernel.bindUnixDatagram
  refine .ite h ?_
  split
  · exact h
  · refine Under.noteSocketInode ?_ hbinds path
    exact h.setKind _ _
  · exact h

theorem connectUnixDatagram (id : Nat) (path : Bytes) : (k.connectUnixDatagram id path).2.Under K := by
  unfold Kernel.connectUnixDatagram
  split
  · exact h
  · split
    · exact h
    · exact h.setKind _ _
    · exact h

theorem createUnixListener (hbinds : K.binds) (path : Bytes) (backlog : Nat) :
    (k.createUnixListener path backlog).2.Under K := by
  unfold Kernel.createUnixListener
  refine .ite h (Under.noteSocketInode ?_ hbinds path)
  exact h.addSocket _ _ _

theorem acceptUnixStream (listener : Nat) : (k.acceptUnixStream listener).2.Under K := by
  unfold Kernel.acceptUnixStream
  split
  · exact h
  · exact h
  · exact h.setKind _ _
  · exact h

theorem addPair (sockType : Nat) (kind : Nat → SocketKind) :
    (k.addPair sockType kind).2.Under K := (h.addSocket _ _ _).addSocket _ _ _

theorem connectUnixStream (path : Bytes) (cred : PeerCred) : (k.connectUnixStream path cred).2.Under K := by
  unfold Kernel.connectUnixStream
  split
  · exact h
  · split
    · exact .ite h ((((h.addPair _ _).setKind _ _).setKind _ _).setKind _ _)
    · exact h

end Kernel.Under

def Rule.sockets (K : Rule σ) : SocketRule σ where
  toFdRule := K.fds
  binds := K.binds
  addSocket k domain sockType kind _ _ h := K.addSocket k domain sockType kind h
  setPlain k id _ kind _ _ _ h := K.setKind k id kind h
  becomeHost k id _ handle _ _ h := K.setKind k id (.host handle) h
  bindUnixDatagram hbinds _ id path h := Under.bindUnixDatagram h hbinds id path
  connectUnixDatagram _ id path h := Under.connectUnixDatagram h id path
  createUnixListener hbinds _ path backlog h := Under.createUnixListener h hbinds path backlog
  acceptUnixStream _ listener h := Under.acceptUnixStream h listener
  connectUnixStream _ path cred h := Under.connectUnixStream h path cred
  createUnixStreamPair _ _ h := Under.addPair h _ _
  createUnixDatagramPair _ h := Under.addPair h _ _

namespace Kernel.Under
variable (kh : Kh σ) (h : k.Under K)
include h

theorem sockets : k.On K.sockets.toFdRule := h

/-! ### Messages -/

theorem deliverStream (peer : Nat) (data : Bytes)
    (rights : List FdEntry) : (k.deliverStream peer data rights).2.Under K := by
  unfold Kernel.deliverStream
  split
  · exact .ite h (h.setKind _ _)
  · exact h

theorem deliverPacket (gone : Int) (peer : Nat)
    (packet : UnixDatagramPacket) (rights : List FdEntry) :
    (k.deliverPacket gone peer packet rights).2.Under K := by
  unfold Kernel.deliverPacket
  split
  · exact .ite h (h.setKind _ _)
  · exact h

theorem socketSendId (id : Nat) (data : Bytes) : (k.socketSendId kh id data).2.Under K := by
  unfold Kernel.socketSendId
  refine .ite h ?_
  split
  · exact h
  · exact h
  · exact h
  · exact h
  · exact .ite (h.deliverStream _ _ _) h
  · exact h
  · exact .ite (h.deliverPacket _ _ _ _) h

theorem socketSendmsgId (id : Nat) (data : Bytes)
    (rights : List FdEntry) : (k.socketSendmsgId id data rights).2.Under K := by
  unfold Kernel.socketSendmsgId
  refine .ite h ?_
  have hsend : ∀ r : Int × Kernel σ, r.2.Under K →
      (if r.1 < 0 then (r.1, r.2.closeEntries rights) else (r.1, r.2)).2.Under K :=
    fun r hr => .ite (hr.fds.closeEntries rights) hr
  refine hsend _ ?_
  split
  · exact .ite (h.deliverStream _ _ _) h
  · exact .ite (h.deliverPacket _ _ _ _) h
  · exact h
  · exact h
  · exact h

theorem socketRecvId (id cap flags : Nat) : (k.socketRecvId kh id cap flags).2.Under K := by
  obtain ⟨host, hk⟩ | ⟨s, kind, -, hk, -⟩ := k.socketRecvId_cases kh id cap flags
  · rw [hk]
    exact h
  · rw [hk]
    exact h.setKind id kind

theorem popRights (id : Nat) : (k.popRights id).2.Under K := by
  unfold Kernel.popRights
  refine .ite h ?_
  split
  · exact h.setKind _ _
  · exact h.setKind _ _
  · exact h

theorem sysSocketSend : (k.sysSocketSend kh pid request).2.Under K := by
  have htouch : (k.touch pid).Under K := h
  unfold Kernel.sysSocketSend
  refine .ite h ?_
  split
  · exact h
  · exact htouch.socketSendId kh _ _

theorem sysSocketRecv (cap : Nat) : (k.sysSocketRecv kh pid request cap).2.Under K := by
  have htouch : (k.touch pid).Under K := h
  unfold Kernel.sysSocketRecv
  refine .ite h (.ite h ?_)
  split
  · exact h
  · exact htouch.socketRecvId kh _ _ _

theorem sysSocketSendto : (k.sysSocketSendto pid request).2.Under K := by
  have htouch : (k.touch pid).Under K := h
  rcases k.sendto_cases pid request with ⟨-, hidle⟩ |
    ⟨-, id, s, p, pp, bound, rx, q, isOpen, path, target, -, -, -, -, -, hr⟩
  · exact hidle.keeps (P := Under K) h htouch
  · rw [hr]
    exact htouch.deliverPacket _ _ _ _

theorem sysSocketRecvfrom (kh : Kh σ) (cap : Nat) : (k.sysSocketRecvfrom pid request cap).2.Under K := by
  have htouch : (k.touch pid).Under K := h
  rcases k.recvfrom_cases kh pid request cap with ⟨rc, k', hr, hidle, -⟩ |
    ⟨id, s, -, -, -, ⟨-, hr⟩ | ⟨-, reply, k', more, hrecv, hr, -⟩⟩ <;> rw [hr]
  · exact hidle.keeps (P := Under K) h htouch
  · exact htouch
  · exact .of_eq (htouch.socketRecvId kh id _ _) hrecv

theorem sysSocketSendmsg : (k.sysSocketSendmsg pid request).2.Under K := by
  unfold Kernel.sysSocketSendmsg
  refine .ite h (.ite h ?_)
  split
  · next heq => exact .of_eq (h.fds.cloneFdRights pid _ _) heq
  · next rights k' heq =>
    have hclone : k'.Under K := .of_eq (h.fds.cloneFdRights pid _ _) heq
    have htouch : (k'.touch pid).Under K := hclone
    split
    · exact htouch.fds.closeEntries rights
    · exact htouch.socketSendmsgId _ _ rights

theorem sysSocketRecvmsg (cap : Nat) : (k.sysSocketRecvmsg kh pid request cap).2.Under K := by
  have htouch : (k.touch pid).Under K := h
  unfold Kernel.sysSocketRecvmsg
  refine .ite h (.ite h ?_)
  split
  · exact h
  · next id _ =>
    have hrecv := htouch.socketRecvId kh id (u32At request 8) (u32At request 4)
    exact .ite hrecv (.ite hrecv ((hrecv.popRights id).fds.installFdRightsTruncated _ _ _ _))

/-! ### Bytes of pipes and files -/

theorem readFd (cap : Nat) : (k.readFd kh pid request cap).2.Under K := by
  have htouch : (k.touch pid).Under K := h
  unfold Kernel.readFd
  split
  · split
    · exact h
    · exact .ite htouch h
    · exact h
    · exact h
    · split
      · exact h
      · next hb => exact .ite htouch (htouch.setBytes hb _)
    · exact h
    · split
      · exact h
      · exact Under.advance (k := { k.touch pid with host := _ }) h _ _
    · exact h
    · exact htouch.socketRecvId kh _ _ _
  · exact h

theorem writeFd : (k.writeFd kh pid request).2.Under K := by
  have htouch : (k.touch pid).Under K := h
  unfold Kernel.writeFd
  refine .ite h ?_
  simp only
  split
  · exact h
  · exact h
  · split <;> exact h
  · split <;> exact h
  · split
    · exact h
    · next hb =>
      exact .ite htouch (.ite htouch (htouch.setBytes hb _))
  · exact h
  · split
    · exact h
    · refine .ite htouch ?_
      exact (htouch.storage kh (.write _ _ _ _) _ _).advance _ _
  · exact h
  · exact htouch.socketSendId kh _ _

/-! ### Calls that make and drop nothing -/

theorem setFdDescriptorFlags : (k.setFdDescriptorFlags pid request).2.Under K := by
  unfold Kernel.setFdDescriptorFlags
  split
  · split <;> exact h
  · exact h

end Kernel.Under

theorem Kernel.objects_socketShutdownApply (k : Kernel σ) (id how : Nat) :
    (k.socketShutdownApply id how).objects = k.objects := by
  unfold Kernel.socketShutdownApply
  dsimp only
  generalize (if how = 0 then 1 else if how = 1 then 2 else 3) = bits
  split
  · rfl
  · split
    · split_ifs <;> rfl
    · rfl

namespace Kernel.Under
variable (kh : Kh σ) (h : k.Under K)
include h

theorem sysSocketShutdown : (k.sysSocketShutdown pid request).2.Under K := by
  unfold Kernel.sysSocketShutdown
  refine .ite h (.ite h ?_)
  split
  · exact h
  · refine Under.frame ?_ (objects_socketShutdownApply _ _ _)
    exact h
  · exact h

omit h in
theorem findExited : ∀ (candidates : List Pid) {k : Kernel σ}, k.Under K →
    (Kernel.findExited candidates k).2.Under K
  | [], _, h => h
  | c :: cs, k, h => by
    have htouch : (k.touch c).Under K := h
    unfold Kernel.findExited
    split
    · exact h
    · exact findExited cs htouch

theorem waitResponse (cap : Nat) : (k.waitResponse pid request cap).2.Under K := by
  have htouch : (k.touch pid).Under K := h
  unfold Kernel.waitResponse
  split
  · refine .ite h (.ite htouch ?_)
    split
    · next heq => exact .of_eq (Under.findExited _ htouch) heq
    · next heq =>
      have hfound := Under.of_eq (Under.findExited _ htouch) heq
      exact hfound
  · exact h

end Kernel.Under

end Yurt
