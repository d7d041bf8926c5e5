import YurtKernel.Kernel.IpcOps
import YurtKernel.Dispatch.Objects

/-! Calls that move no data between processes.

    Duplicating and closing descriptors, making and wiring sockets, half-close: each leaves what is
    queued in pipes and sockets alone, up to channels that come or go whole. -/

namespace Yurt
open Kernel SortedMap
variable {σ : Type} {k : Kernel σ} {pid : Pid} {request : Bytes}
variable {s : SocketEntry} {id : Nat}

/-! ### Descriptors -/

/-- Channels come and go whole as references and pipes do. -/
def Ipc.fds (v : Ipc) : FdRule σ where
  holds _ v' := v.Quiet v'
  incFdEntryRef _ e h := h.trans (h.wired.incFdEntryRef e)
  closeEntry _ e h := h.trans (h.wired.closeEntry e)
  createPipe _ h := h.trans (h.wired.newPipe rfl)

namespace Ipc.Wired
variable (h : k.ipc.Wired)
include h

theorem fds : k.On k.ipc.fds := Ipc.Quiet.refl h

/-! ### Making sockets -/

/-- A new socket that names no other. -/
theorem addSocket (domain sockType : Nat) {kind : SocketKind}
    (hempty : ∀ box, kind.inbox = some box → box.Empty) (hpeer : kind.peer? = none) :
    k.ipc.Quiet (k.addSocket domain sockType kind).2.ipc := by
  refine h.newSocket (s := ⟨1, domain, sockType, false, kind⟩) hempty ?_ ?_
  · cases kind with
    | unixStream => cases hpeer
    | _ => rfl
  · cases kind with
    | unixDatagram => exact hpeer
    | _ => rfl

/-! ### Addresses -/

/-- Writing a kind that plays the old part and has the same to receive. -/
theorem setKind (kind : SocketKind) (hs : k.sockets.get? id = some s)
    (hrole : k.ipc.SameRole s.kind kind) (hinbox : kind.inbox = none ∨ kind.inbox = s.kind.inbox) :
    k.ipc.Quiet (k.setKind id kind).ipc := by
  have heq : (k.setKind id kind).ipc =
      { k.ipc with sockets := k.ipc.sockets.insert id { s with kind := kind } } := by
    simp only [Kernel.setKind, SortedMap.modify, hs, ipc]
  rw [heq]
  refine h.putSocket hs ?_ ?_
  · exact hrole
  · exact hinbox

/-- A kind that is neither stream nor datagram names no socket. -/
theorem setPlainKind (kind : SocketKind) (hs : k.sockets.get? id = some s)
    (hold : s.kind.inbox = none) (hnew : kind.inbox = none) :
    k.ipc.Quiet (k.setKind id kind).ipc := by
  have hplain : ∀ kind : SocketKind, kind.inbox = none →
      kind.streamPeer = none ∧ kind.isDatagram = false ∧ kind.datagramPeer = none := by
    intro kind hkind
    cases kind with
    | unixStream | unixDatagram => cases hkind
    | _ => exact ⟨rfl, rfl, rfl⟩
  obtain ⟨hstream, hdatagram, -⟩ := hplain s.kind hold
  obtain ⟨hstream', hdatagram', hpeer'⟩ := hplain kind hnew
  refine h.setKind _ hs ⟨by rw [hstream, hstream'], fun hne => absurd hstream hne,
    by rw [hdatagram, hdatagram'], fun p hp => ?_⟩ (.inl hnew)
  rw [hpeer'] at hp
  cases hp

end Ipc.Wired

theorem Kernel.ipc_noteSocketInode (k : Kernel σ) (path : Bytes) :
    (k.noteSocketInode path).ipc = k.ipc := by
  unfold noteSocketInode
  split_ifs <;> rfl

namespace Ipc.Wired
variable (h : k.ipc.Wired)
include h

theorem bindUnixDatagram (id : Nat) (path : Bytes) : k.ipc.Quiet (k.bindUnixDatagram id path).2.ipc := by
  unfold Kernel.bindUnixDatagram
  split_ifs
  · exact h.same rfl
  · cases hs : k.sockets.get? id with
    | none => exact h.same rfl
    | some s =>
      simp only [Option.map_some]
      cases hkind : s.kind with
      | unixDatagram peer peerPath bound rx rights isOpen =>
        have hset := h.setKind (.unixDatagram peer peerPath (some path) rx rights isOpen) hs
          ⟨by rw [hkind]; rfl, fun hne => absurd (by rw [hkind]; rfl) hne, by rw [hkind]; rfl,
            fun p hp => h.datagram id s p hs (by rw [hkind]; exact hp)⟩
          (.inr (by rw [hkind]; rfl))
        simp only [ipc_noteSocketInode]
        refine hset.trans (hset.wired.setNames _ (fun path' p hp => ?_))
        rw [get?_insert] at hp
        split_ifs at hp with hpath
        · -- the new name is the socket's own
          cases hp
          refine ⟨h.lt (v := k.ipc) hs, fun t ht => ?_⟩
          have ht : (k.sockets.modify id _).get? id = some t := ht
          rw [get?_modify, if_pos rfl, hs] at ht
          cases ht
          rfl
        · refine hset.wired.named path' p ?_
          cases bound with
          | none => exact hp
          | some old =>
            simp only [Option.elim] at hp
            rw [get?_erase] at hp
            split_ifs at hp
            exact hp
      | _ => exact h.same rfl

theorem connectUnixDatagram (id : Nat) (path : Bytes) :
    k.ipc.Quiet (k.connectUnixDatagram id path).2.ipc := by
  unfold Kernel.connectUnixDatagram
  cases hname : k.unixDatagrams.get? path with
  | none => exact h.same rfl
  | some peer =>
    cases hs : k.sockets.get? id with
    | none => exact h.same rfl
    | some s =>
      simp only [Option.map_some]
      cases hkind : s.kind with
      | unixDatagram p pp bound rx rights isOpen =>
        refine h.setKind _ hs ⟨by rw [hkind]; rfl, fun hne => absurd (by rw [hkind]; rfl) hne,
          by rw [hkind]; rfl, fun q hq => ?_⟩ (.inr (by rw [hkind]; rfl))
        cases hq
        exact h.named path peer hname
      | _ => exact h.same rfl

/-! ### Listening -/

theorem createUnixListener (path : Bytes) (backlog : Nat) :
    k.ipc.Quiet (k.createUnixListener path backlog).2.ipc := by
  unfold Kernel.createUnixListener
  split_ifs
  · exact h.same rfl
  · simp only [ipc_noteSocketInode]
    exact h.addSocket 3 6 (fun _ hnone => by cases hnone) rfl
  · simp only [ipc_noteSocketInode]
    exact h.addSocket 3 6 (fun _ hnone => by cases hnone) rfl

theorem becomeHost (hs : k.sockets.get? id = some s) (hold : s.kind.inbox = none) (handle : Int) :
    k.ipc.Quiet (k.becomeHost id handle).ipc := by
  have hset := h.setPlainKind (.host handle) hs hold rfl
  refine hset.trans (hset.wired.clearShut (fun t ht => ?_))
  have ht : (k.sockets.modify id _).get? id = some t := ht
  rw [get?_modify, if_pos rfl, hs] at ht
  cases ht
  rfl

/-! ### Connecting -/

/-- Two new streams that are each other's peer. -/
theorem streamPair (lp pp lp' pp' : Option Bytes) (cred : PeerCred) :
    k.ipc.Quiet ((k.addSocket 1 1 (.unixStream (k.nextSocketId + 1) lp pp [] [] true cred)).2.addSocket 1 1
      (.unixStream k.nextSocketId lp' pp' [] [] true cred)).2.ipc :=
  h.newPair (fun _ hbox => Option.some.inj hbox ▸ ⟨rfl, rfl⟩) (fun _ hbox => Option.some.inj hbox ▸ ⟨rfl, rfl⟩)
    (fun _ hp => ⟨(Option.some.inj hp).symm, rfl, rfl⟩)
    (fun _ hp => ⟨(Option.some.inj hp).symm, rfl, rfl⟩) (fun _ hp => nomatch hp) (fun _ hp => nomatch hp)

theorem createUnixStreamPair (cred : PeerCred) : k.ipc.Quiet (k.createUnixStreamPair cred).2.ipc :=
  h.streamPair none none none none cred

theorem createUnixDatagramPair : k.ipc.Quiet k.createUnixDatagramPair.2.ipc :=
  h.newPair (fun _ hbox => Option.some.inj hbox ▸ ⟨rfl, rfl⟩) (fun _ hbox => Option.some.inj hbox ▸ ⟨rfl, rfl⟩)
    (fun _ hp => nomatch hp) (fun _ hp => nomatch hp) (fun _ hp => ⟨(Option.some.inj hp).symm, rfl⟩)
    (fun _ hp => ⟨(Option.some.inj hp).symm, rfl⟩)

theorem connectUnixStream (path : Bytes) (cred : PeerCred) :
    k.ipc.Quiet (k.connectUnixStream path cred).2.ipc := by
  obtain hr | ⟨listener, s, lpath, backlog, pending, hs, hkind, hr⟩ := k.connectUnixStream_cases path cred
  · rw [hr]
    exact h.same rfl
  have hlt : listener < k.nextSocketId := h.lt (v := k.ipc) hs
  rw [hr hlt]
  have hpair : k.ipc.Quiet (k.pairAt path cred).ipc := h.streamPair none (some path) (some path) none cred
  exact hpair.trans (hpair.wired.setPlainKind _ ((get?_pairAt_of_lt path cred hlt).trans hs)
    (by rw [hkind]; rfl) rfl)

/-! ### Accepting -/

theorem acceptUnixStream (listener : Nat) : k.ipc.Quiet (k.acceptUnixStream listener).2.ipc := by
  unfold Kernel.acceptUnixStream
  cases hs : k.sockets.get? listener with
  | none => exact h.same rfl
  | some s =>
    simp only [Option.map_some]
    cases hkind : s.kind with
    | unixListener path backlog pending =>
      cases pending with
      | nil => exact h.same rfl
      | cons id pending => exact h.setPlainKind _ hs (by rw [hkind]; rfl) rfl
    | _ => exact h.same rfl

end Ipc.Wired

/-- Sockets come with nothing to receive. -/
def Ipc.calls (v : Ipc) : SocketRule σ where
  toFdRule := v.fds
  binds := True
  addSocket _ domain sockType _ hempty hpeer h := h.trans (h.wired.addSocket domain sockType hempty hpeer)
  setPlain _ _ _ kind hs hold hnew h := h.trans (h.wired.setPlainKind kind hs hold hnew)
  becomeHost _ _ _ handle hs hold h := h.trans (h.wired.becomeHost hs hold handle)
  bindUnixDatagram _ _ id path h := h.trans (h.wired.bindUnixDatagram id path)
  connectUnixDatagram _ id path h := h.trans (h.wired.connectUnixDatagram id path)
  createUnixListener _ _ path backlog h := h.trans (h.wired.createUnixListener path backlog)
  acceptUnixStream _ listener h := h.trans (h.wired.acceptUnixStream listener)
  connectUnixStream _ path cred h := h.trans (h.wired.connectUnixStream path cred)
  createUnixStreamPair _ cred h := h.trans (h.wired.createUnixStreamPair cred)
  createUnixDatagramPair _ h := h.trans h.wired.createUnixDatagramPair

namespace Ipc.Wired
variable (h : k.ipc.Wired)
include h

theorem calls : k.On k.ipc.calls.toFdRule := Ipc.Quiet.refl h

/-! ### Half-close -/

theorem socketShutdownApply (hid : id < k.nextSocketId) (how : Nat) :
    k.ipc.Quiet (k.socketShutdownApply id how).ipc := by
  unfold Kernel.socketShutdownApply
  generalize hbits : (if how = 0 then 1 else if how = 1 then 2 else 3) = bits
  have hlow : bits.testBit 2 = false := by
    rw [← hbits]
    split_ifs <;> rfl
  have hown : k.ipc.Quiet (k.orShutdown id bits).ipc :=
    h.orShut hid (fun hpeer => by rw [hlow] at hpeer; cases hpeer)
  simp only
  split_ifs with hread
  · exact hown
  · have hwrite : (k.orShutdown id bits).ipc.writeShut id := by
      have hbit : bits.testBit 1 = true := (and_two_pow_ne_zero_iff bits 1).mp hread
      simp only [Ipc.writeShut, Ipc.bits, orShutdown, ipc, get?_insert_self,
        Option.getD_some, Nat.testBit_or, hbit, Bool.or_true]
    cases hpeer : ((k.orShutdown id bits).sockets.get? id).bind (fun s => s.kind.peer?) with
    | none => exact hown
    | some peer =>
      simp only
      split_ifs with hlive
      · obtain ⟨s, hs, hkind⟩ := Option.bind_eq_some_iff.mp hpeer
        obtain ⟨t, ht⟩ := contains_iff.mp hlive
        refine hown.trans (hown.wired.orShut (hown.wired.lt ht) (fun _ u p hu hp => ?_))
        obtain rfl := Option.mem_unique ht hu
        -- the peer is the other end of this stream, or no stream at all
        cases hk : s.kind with
        | unixStream =>
          rw [hk] at hkind
          have hmate := (hown.wired.mated id s peer t hs (by rw [hk]; exact hkind) ht).2
          obtain rfl := Option.mem_unique hmate hp
          exact .inr hwrite
        | unixDatagram =>
          rw [hk] at hkind
          have hdatagram := (hown.wired.datagram id s peer hs (by rw [hk]; exact hkind)).2 t ht
          rw [SocketKind.streamPeer_of_isDatagram hdatagram] at hp
          cases hp
        | _ =>
          rw [hk] at hkind
          cases hkind
      · exact hown

theorem sysSocketShutdown (pid : Pid) (request : Bytes)
    (hlive : ∀ id, k.fdEntry pid (u32At request 0) = some (.socket id) → id < k.nextSocketId) :
    k.ipc.Quiet (k.sysSocketShutdown pid request).2.ipc := by
  unfold Kernel.sysSocketShutdown
  split_ifs
  · exact h.same rfl
  · exact h.same rfl
  · cases hfd : k.fdEntry pid (u32At request 0) with
    | none => exact h.same rfl
    | some e =>
      cases e with
      | socket id => exact Ipc.Wired.socketShutdownApply (k := k.touch pid) h (hlive id hfd) _
      | _ => exact h.same rfl

end Ipc.Wired

end Yurt
