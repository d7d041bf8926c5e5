import YurtKernel.Kernel.Socket

/-! Pipes and sockets as channels.

    `Ipc` is the part of a kernel that bytes between processes live in. `Wired` says how sockets name
    each other: the ends of a stream name one another, datagram sockets name datagram sockets only,
    and an end that saw its peer close for writing has a peer that did. `Quiet` is what any call may
    do beside moving data: it makes empty channels and drops whole ones, and keeps the wiring. -/

namespace Yurt
open SortedMap
variable {σ : Type}
variable {s s' : SocketEntry}

/-! ### What a socket has to receive -/

inductive Inbox where
  | stream (rx : Bytes) (rights : List (List FdEntry))
  | datagram (rx : List UnixDatagramPacket) (rights : List (List FdEntry))
  deriving DecidableEq

def Inbox.Empty : Inbox → Prop
  | .stream rx rights => rx = [] ∧ rights = []
  | .datagram rx rights => rx = [] ∧ rights = []

namespace SocketKind

def inbox : SocketKind → Option Inbox
  | .unixStream _ _ _ rx rights _ _ => some (.stream rx rights)
  | .unixDatagram _ _ _ rx rights _ => some (.datagram rx rights)
  | _ => none

def streamPeer : SocketKind → Option Nat
  | .unixStream peer _ _ _ _ _ _ => some peer
  | _ => none

def datagramPeer : SocketKind → Option Nat
  | .unixDatagram peer _ _ _ _ _ => peer
  | _ => none

def isDatagram : SocketKind → Bool
  | .unixDatagram _ _ _ _ _ _ => true
  | _ => false

/-- The socket believes that its peer is there. -/
def peerOpen : SocketKind → Bool
  | .unixStream _ _ _ _ _ isOpen _ => isOpen
  | .unixDatagram _ _ _ _ _ isOpen => isOpen
  | _ => false

/-- What a receive takes off the front of the queue, and the socket without it. -/
def takeFront (cap : Nat) : SocketKind → Option (Bytes × SocketKind)
  | .unixStream p lp pp rx q isOpen cred =>
    if rx.isEmpty then none else some (rx.take cap, .unixStream p lp pp (rx.drop cap) q isOpen cred)
  | .unixDatagram p pp bp (packet :: rest) q isOpen =>
    some (packet.data.take cap, .unixDatagram p pp bp rest q isOpen)
  | _ => none

section
variable (kind : SocketKind)

@[simp] theorem inbox_closePeer : kind.closePeer.inbox = kind.inbox := by
  cases kind <;> rfl

@[simp] theorem streamPeer_closePeer : kind.closePeer.streamPeer = kind.streamPeer := by
  cases kind <;> rfl

@[simp] theorem datagramPeer_closePeer :
    kind.closePeer.datagramPeer = kind.datagramPeer := by
  cases kind <;> rfl

@[simp] theorem isDatagram_closePeer : kind.closePeer.isDatagram = kind.isDatagram := by
  cases kind <;> rfl

end

theorem streamPeer_of_isDatagram {kind : SocketKind} (h : kind.isDatagram = true) :
    kind.streamPeer = none := by
  cases kind with
  | unixDatagram => rfl
  | _ => cases h

end SocketKind

/-- A receive finds no queue, or takes from the front of one. -/
theorem Kernel.recv_cases (kh : Kh σ) (k : Kernel σ) (id cap flags : Nat) :
    (∃ reply host, k.socketRecvId kh id cap flags = (reply, { k with host := host }) ∧
      (reply.writes ≠ [] ∨ reply.rc ≤ 0) ∧ ∀ s, k.sockets.get? id = some s → s.kind.inbox = none) ∨
    ∃ s box, k.sockets.get? id = some s ∧ s.kind.inbox = some box ∧ k.socketRecvId kh id cap flags =
      if k.readShut id then (.code 0, k)
      else if flags ≠ 0 ∧ flags ≠ msgPeek then (.code (-EOPNOTSUPP), k)
      else
        match s.kind.takeFront cap with
        | none => (.code (emptyRecv s.kind.peerOpen (k.socketPeerWriteClosed id)), k)
        | some (data, kind) => (.data data, if flags = msgPeek then k else k.setKind id kind) := by
  unfold Kernel.socketRecvId
  cases hs : k.sockets.get? id with
  | none => exact .inl ⟨_, k.host, rfl, .inr (by decide : -EBADF ≤ 0), fun s h => by cases h⟩
  | some s =>
    have hplain : s.kind.inbox = none → ∀ s', some s = some s' → s'.kind.inbox = none := by
      rintro hnone _ ⟨⟩
      exact hnone
    obtain ⟨_, _, _, _, kind⟩ := s
    dsimp only
    by_cases hshut : k.readShut id = true
    · simp only [if_pos hshut]
      cases kind with
      | unixStream | unixDatagram => exact .inr ⟨_, _, rfl, rfl, trivial⟩
      | _ => exact .inl ⟨_, k.host, rfl, .inr le_rfl, hplain rfl⟩
    · simp only [if_neg hshut]
      cases kind with
      | unixStream p lp pp rx | unixDatagram p pp bp rx => exact .inr ⟨_, _, rfl, rfl, by cases rx <;> rfl⟩
      | opened => exact .inl ⟨_, k.host, rfl, .inr (by decide : -ENOTCONN ≤ 0), hplain rfl⟩
      | host => exact .inl ⟨_, _, rfl, .inl (List.cons_ne_nil _ _), hplain rfl⟩
      | unixListener => exact .inl ⟨_, k.host, rfl, .inr (by decide : -EOPNOTSUPP ≤ 0), hplain rfl⟩

/-! ### The channels of a kernel -/

structure Ipc where
  pipes : SortedMap Nat PipeBuf
  nextPipe : Nat
  sockets : SortedMap Nat SocketEntry
  nextSocket : Nat
  shutdown : SortedMap Nat Nat
  datagrams : SortedMap Bytes Nat

def Kernel.ipc (k : Kernel σ) : Ipc where
  pipes := k.pipes
  nextPipe := k.nextPipeId
  sockets := k.sockets
  nextSocket := k.nextSocketId
  shutdown := k.socketShutdown
  datagrams := k.unixDatagrams

namespace Ipc
variable {v v' v'' : Ipc} {id : Nat}

section
variable (v : Ipc) (id : Nat)

def pipeBytes : Option Bytes := (v.pipes.get? id).map PipeBuf.bytes

def inbox (v : Ipc) (id : Nat) : Option Inbox := (v.sockets.get? id).bind (fun s => s.kind.inbox)

def bits : Nat := (v.shutdown.get? id).getD 0

/-- The socket is shut down for writing. -/
def writeShut : Prop := (v.bits id).testBit 1 = true

/-- The socket was told that its peer is shut down for writing. -/
def peerWriteClosed : Prop := (v.bits id).testBit 2 = true

end

structure Wired (v : Ipc) : Prop where
  pipe_fresh : ∀ id, v.nextPipe ≤ id → v.pipes.get? id = none
  fresh : ∀ id, v.nextSocket ≤ id → v.sockets.get? id = none
  shut_fresh : ∀ id, v.nextSocket ≤ id → v.shutdown.get? id = none
  peer_lt : ∀ id s p, v.sockets.get? id = some s → s.kind.streamPeer = some p → p < v.nextSocket
  mated : ∀ id s p s', v.sockets.get? id = some s → s.kind.streamPeer = some p →
    v.sockets.get? p = some s' → s.kind.peerOpen = true ∧ s'.kind.streamPeer = some id
  shut : ∀ id s p, v.sockets.get? id = some s → s.kind.streamPeer = some p →
    v.peerWriteClosed id → v.sockets.get? p = none ∨ v.writeShut p
  datagram : ∀ id s p, v.sockets.get? id = some s → s.kind.datagramPeer = some p →
    p < v.nextSocket ∧ ∀ s', v.sockets.get? p = some s' → s'.kind.isDatagram = true
  named : ∀ path p, v.datagrams.get? path = some p →
    p < v.nextSocket ∧ ∀ s', v.sockets.get? p = some s' → s'.kind.isDatagram = true

theorem Wired.lt (h : v.Wired) (hs : v.sockets.get? id = some s) : id < v.nextSocket := by
  by_contra hle
  rw [h.fresh id (not_lt.mp hle)] at hs
  cases hs

structure Quiet (v v' : Ipc) : Prop where
  nextPipe : v.nextPipe ≤ v'.nextPipe
  nextSocket : v.nextSocket ≤ v'.nextSocket
  pipe : ∀ id, id < v.nextPipe → v'.pipeBytes id = none ∨ v'.pipeBytes id = v.pipeBytes id
  newPipe : ∀ id bytes, v.nextPipe ≤ id → v'.pipeBytes id = some bytes → bytes = []
  inbox : ∀ id, id < v.nextSocket → v'.inbox id = none ∨ v'.inbox id = v.inbox id
  newInbox : ∀ id box, v.nextSocket ≤ id → v'.inbox id = some box → box.Empty
  wired : v'.Wired

theorem Quiet.refl (h : v.Wired) : v.Quiet v where
  nextPipe := le_rfl
  nextSocket := le_rfl
  pipe := fun _ _ => .inr rfl
  newPipe := fun id _ hid hbytes => by simp [pipeBytes, h.pipe_fresh id hid] at hbytes
  inbox := fun _ _ => .inr rfl
  newInbox := fun id _ hid hbox => by simp [Ipc.inbox, h.fresh id hid] at hbox
  wired := h

theorem Quiet.trans (h : v.Quiet v') (h' : v'.Quiet v'') : v.Quiet v'' where
  nextPipe := h.nextPipe.trans h'.nextPipe
  nextSocket := h.nextSocket.trans h'.nextSocket
  pipe := fun id hid => by
    rcases h'.pipe id (hid.trans_le h.nextPipe) with hnone | hsame
    · exact .inl hnone
    · rw [hsame]
      exact h.pipe id hid
  newPipe := fun id bytes hid hbytes => by
    rcases lt_or_ge id v'.nextPipe with hlt | hge
    · rcases h'.pipe id hlt with hnone | hsame
      · rw [hnone] at hbytes
        cases hbytes
      · exact h.newPipe id bytes hid (hsame ▸ hbytes)
    · exact h'.newPipe id bytes hge hbytes
  inbox := fun id hid => by
    rcases h'.inbox id (hid.trans_le h.nextSocket) with hnone | hsame
    · exact .inl hnone
    · rw [hsame]
      exact h.inbox id hid
  newInbox := fun id box hid hbox => by
    rcases lt_or_ge id v'.nextSocket with hlt | hge
    · rcases h'.inbox id hlt with hnone | hsame
      · rw [hnone] at hbox
        cases hbox
      · exact h.newInbox id box hid (hsame ▸ hbox)
    · exact h'.newInbox id box hge hbox
  wired := h'.wired

/-! ### Pipes -/

/-- Pipes come empty, keep their bytes and go. -/
theorem Wired.setPipes (h : v.Wired) {pipes : SortedMap Nat PipeBuf} {n : Nat} (hn : v.nextPipe ≤ n)
    (hold : ∀ i b, i < v.nextPipe → pipes.get? i = some b → v.pipeBytes i = some b.bytes)
    (hnew : ∀ i b, v.nextPipe ≤ i → pipes.get? i = some b → b.bytes = [] ∧ i < n) :
    v.Quiet { v with pipes := pipes, nextPipe := n } := by
  refine ⟨hn, le_rfl, fun i hi => ?_, fun i bytes hi hbytes => ?_, fun _ _ => .inr rfl,
    (Quiet.refl h).newInbox, { h with pipe_fresh := fun i hi => ?_ }⟩
  · rw [pipeBytes]
    cases hb : pipes.get? i with
    | none => exact .inl rfl
    | some b => exact .inr (hold i b hi hb).symm
  · obtain ⟨b, hb, rfl⟩ := Option.map_eq_some_iff.mp hbytes
    exact (hnew i b hi hb).1
  · by_contra hsome
    obtain ⟨b, hb⟩ := Option.ne_none_iff_exists'.mp hsome
    exact not_lt.mpr hi (hnew i b (hn.trans hi) hb).2

/-- A pipe's counts move, or the pipe goes. -/
theorem Wired.putPipe (h : v.Wired) (hid : id < v.nextPipe) {o : Option PipeBuf}
    (ho : ∀ b, o = some b → v.pipeBytes id = some b.bytes) :
    v.Quiet { v with pipes := v.pipes.put id o } := by
  refine h.setPipes le_rfl (fun i b hi hb => ?_) (fun i b hi hb => ?_)
  · rw [get?_put] at hb
    split_ifs at hb with hii
    · exact hii ▸ ho b hb
    · rw [pipeBytes, hb, Option.map_some]
  · rw [get?_put, if_neg (by omega), h.pipe_fresh i hi] at hb
    cases hb

/-- A new pipe. -/
theorem Wired.newPipe (h : v.Wired) {b : PipeBuf} (hb : b.bytes = []) :
    v.Quiet { v with pipes := v.pipes.insert v.nextPipe b, nextPipe := v.nextPipe + 1 } := by
  refine h.setPipes (Nat.le_succ _) (fun i b' hi hb' => ?_) (fun i b' hi hb' => ?_)
  · rw [get?_insert, if_neg (by omega)] at hb'
    rw [pipeBytes, hb', Option.map_some]
  · rw [get?_insert] at hb'
    split_ifs at hb' with hii
    · cases hb'
      exact ⟨hb, by omega⟩
    · rw [h.pipe_fresh i hi] at hb'
      cases hb'

/-! ### Sockets -/

/-- Two kinds that play the same part for the other sockets. -/
structure SameRole (v : Ipc) (kind kind' : SocketKind) : Prop where
  streamPeer : kind'.streamPeer = kind.streamPeer
  peerOpen : kind.streamPeer ≠ none → kind'.peerOpen = kind.peerOpen
  isDatagram : kind'.isDatagram = kind.isDatagram
  datagramPeer : ∀ p, kind'.datagramPeer = some p → p < v.nextSocket ∧
    ∀ s, v.sockets.get? p = some s → s.kind.isDatagram = true

namespace Wired

theorem sameRole_refl (h : v.Wired) (hs : v.sockets.get? id = some s) : v.SameRole s.kind s.kind :=
  ⟨rfl, fun _ => rfl, rfl, fun p hp => h.datagram id s p hs hp⟩

/-- Sockets that are left play the parts they had; an end stays open as long as its peer is there. -/
theorem mapped (h : v.Wired) (hpipes : v'.pipes = v.pipes) (hnextPipe : v'.nextPipe = v.nextPipe)
    (hnext : v'.nextSocket = v.nextSocket)
    (hback : ∀ i t', v'.sockets.get? i = some t' → ∃ t, v.sockets.get? i = some t ∧
      t'.kind.streamPeer = t.kind.streamPeer ∧ t'.kind.isDatagram = t.kind.isDatagram ∧
      (∀ p, t.kind.streamPeer = some p → v'.sockets.get? p ≠ none → t'.kind.peerOpen = t.kind.peerOpen) ∧
      ∀ p, t'.kind.datagramPeer = some p → p < v.nextSocket ∧
        ∀ s, v.sockets.get? p = some s → s.kind.isDatagram = true)
    (hshut : ∀ i, v.nextSocket ≤ i → v'.shutdown.get? i = none)
    (hbits : ∀ i, v'.sockets.get? i ≠ none → v'.bits i = v.bits i)
    (hnames : ∀ path p, v'.datagrams.get? path = some p → v.datagrams.get? path = some p) : v'.Wired := by
  have hgone : ∀ i, v.sockets.get? i = none → v'.sockets.get? i = none := by
    intro i hi
    by_contra hsome
    obtain ⟨t', ht'⟩ := Option.ne_none_iff_exists'.mp hsome
    obtain ⟨t, ht, -⟩ := hback i t' ht'
    cases hi.symm.trans ht
  have hkinds : ∀ p, (p < v.nextSocket ∧ ∀ u, v.sockets.get? p = some u → u.kind.isDatagram = true) →
      p < v'.nextSocket ∧ ∀ u', v'.sockets.get? p = some u' → u'.kind.isDatagram = true := by
    rintro p ⟨hlt, hkind⟩
    refine ⟨hnext ▸ hlt, fun u' hu' => ?_⟩
    obtain ⟨u, hu, -, hdatagram, -⟩ := hback p u' hu'
    rw [hdatagram]
    exact hkind u hu
  refine ⟨fun i hi => ?_, fun i hi => hgone i (h.fresh i (hnext ▸ hi)), fun i hi => hshut i (hnext ▸ hi),
    fun i t' p ht' hp => ?_, fun i t' p u' ht' hp hu' => ?_, fun i t' p ht' hp hclosed => ?_,
    fun i t' p ht' hp => ?_, fun path p hp => hkinds p (h.named path p (hnames path p hp))⟩
  · rw [hpipes]
    exact h.pipe_fresh i (hnextPipe ▸ hi)
  all_goals
    obtain ⟨t, ht, hpeer, -, hopen, hdatagram⟩ := hback i t' ht'
  · rw [hnext]
    exact h.peer_lt i t p ht (hpeer ▸ hp)
  · rw [hpeer] at hp
    obtain ⟨u, hu, hpeer', -⟩ := hback p u' hu'
    rw [hopen p hp (by simp [hu']), hpeer']
    exact h.mated i t p u ht hp hu
  · rw [hpeer] at hp
    rw [peerWriteClosed, hbits i (by simp [ht'])] at hclosed
    rcases h.shut i t p ht hp hclosed with hnone | hclosed
    · exact .inl (hgone p hnone)
    · rw [or_iff_not_imp_left, writeShut]
      intro hthere
      rwa [hbits p hthere]
  · exact hkinds p (hdatagram p hp)

/-- Replacing a socket by one that plays the same part. -/
theorem replace (h : v.Wired) (hs : v.sockets.get? id = some s)
    (hrole : v.SameRole s.kind s'.kind) :
    ({ v with sockets := v.sockets.insert id s' } : Ipc).Wired := by
  refine h.mapped rfl rfl rfl (fun i t' ht' => ?_) h.shut_fresh (fun _ _ => rfl) (fun _ _ hp => hp)
  have hback : ∃ t, v.sockets.get? i = some t ∧ v.SameRole t.kind t'.kind := by
    rw [get?_insert] at ht'
    split_ifs at ht' with hi
    · cases ht'
      exact ⟨s, hi ▸ hs, hrole⟩
    · exact ⟨t', ht', h.sameRole_refl ht'⟩
  obtain ⟨t, ht, hrole⟩ := hback
  exact ⟨t, ht, hrole.streamPeer, hrole.isDatagram, fun p hp _ => hrole.peerOpen (by simp [hp]),
    hrole.datagramPeer⟩

/-- Boxes that are as they were or gone. -/
theorem quiet_of_sockets (h : v.Wired) (hpipes : v'.pipes = v.pipes)
    (hnextPipe : v'.nextPipe = v.nextPipe) (hnext : v'.nextSocket = v.nextSocket)
    (hbox : ∀ i, v'.inbox i = none ∨ v'.inbox i = v.inbox i) (hwired : v'.Wired) : v.Quiet v' := by
  have hsame : ∀ i, v'.pipeBytes i = v.pipeBytes i := fun i => by rw [pipeBytes, hpipes, pipeBytes]
  refine ⟨hnextPipe.ge, hnext.ge, fun i _ => .inr (hsame i), fun i bytes hi hbytes => ?_,
    fun i _ => hbox i, fun i box hi hsome => ?_, hwired⟩
  · exact (Quiet.refl h).newPipe i bytes hi (hsame i ▸ hbytes)
  · rcases hbox i with hnone | hsame
    · rw [hnone] at hsome
      cases hsome
    · exact (Quiet.refl h).newInbox i box hi (hsame ▸ hsome)

theorem putSocket (h : v.Wired) (hs : v.sockets.get? id = some s)
    (hrole : v.SameRole s.kind s'.kind)
    (hinbox : s'.kind.inbox = none ∨ s'.kind.inbox = s.kind.inbox) :
    v.Quiet { v with sockets := v.sockets.insert id s' } := by
  refine h.quiet_of_sockets rfl rfl rfl (fun i => ?_) (h.replace hs hrole)
  simp only [Ipc.inbox, get?_insert]
  split_ifs with hi
  · rw [hi, hs, Option.bind_some, Option.bind_some]
    exact hinbox
  · exact .inr rfl

/-- New sockets beside the old ones: empty, and joined among themselves. -/
theorem grow (h : v.Wired) {sockets : SortedMap Nat SocketEntry} {n : Nat} (hn : v.nextSocket ≤ n)
    (hold : ∀ i, i < v.nextSocket → sockets.get? i = v.sockets.get? i)
    (hfresh : ∀ i, n ≤ i → sockets.get? i = none)
    (hnew : ∀ i t, v.nextSocket ≤ i → sockets.get? i = some t →
      (∀ box, t.kind.inbox = some box → box.Empty) ∧
      (∀ p, t.kind.streamPeer = some p → p < n ∧ ∀ u, sockets.get? p = some u →
        t.kind.peerOpen = true ∧ u.kind.streamPeer = some i) ∧
      ∀ p, t.kind.datagramPeer = some p → p < n ∧ ∀ u, sockets.get? p = some u →
        u.kind.isDatagram = true) : v.Quiet { v with sockets := sockets, nextSocket := n } := by
  have hkinds : ∀ p, (p < v.nextSocket ∧ ∀ u, v.sockets.get? p = some u → u.kind.isDatagram = true) →
      p < n ∧ ∀ u, sockets.get? p = some u → u.kind.isDatagram = true :=
    fun p hp => ⟨hp.1.trans_le hn, fun u hu => hp.2 u (hold p hp.1 ▸ hu)⟩
  refine ⟨le_rfl, hn, fun _ _ => .inr rfl, (Quiet.refl h).newPipe, fun i hi => .inr ?_,
    fun i box hi hbox => ?_, { h with
      fresh := hfresh
      shut_fresh := fun i hi => h.shut_fresh i (hn.trans hi)
      peer_lt := fun i t p ht hp => ?_
      mated := fun i t p u ht hp hu => ?_
      shut := fun i t p ht hp hclosed => ?_
      datagram := fun i t p ht hp => ?_
      named := fun path p hp => hkinds p (h.named path p hp) }⟩
  · simp only [Ipc.inbox, hold i hi]
  · obtain ⟨t, ht, hbox⟩ := Option.bind_eq_some_iff.mp hbox
    exact (hnew i t hi ht).1 box hbox
  -- an old name still has its old meaning
  · rcases lt_or_ge i v.nextSocket with hi | hi
    · exact (h.peer_lt i t p (hold i hi ▸ ht) hp).trans_le hn
    · exact ((hnew i t hi ht).2.1 p hp).1
  · rcases lt_or_ge i v.nextSocket with hi | hi
    · have ht := (hold i hi).symm.trans ht
      exact h.mated i t p u ht hp ((hold p (h.peer_lt i t p ht hp)).symm.trans hu)
    · exact ((hnew i t hi ht).2.1 p hp).2 u hu
  · rcases lt_or_ge i v.nextSocket with hi | hi
    · have ht := (hold i hi).symm.trans ht
      exact (h.shut i t p ht hp hclosed).imp_left (hold p (h.peer_lt i t p ht hp)).trans
    · have hclosed : v.peerWriteClosed i := hclosed
      simp [peerWriteClosed, bits, h.shut_fresh i hi] at hclosed
  · rcases lt_or_ge i v.nextSocket with hi | hi
    · exact hkinds p (h.datagram i t p ((hold i hi).symm.trans ht) hp)
    · exact (hnew i t hi ht).2.2 p hp

/-- Two new sockets that name each other, or new sockets that name none. -/
theorem newPair (h : v.Wired)
    (hempty : ∀ box, s.kind.inbox = some box → box.Empty)
    (hempty' : ∀ box, s'.kind.inbox = some box → box.Empty)
    (hstream : ∀ p, s.kind.streamPeer = some p →
      p = v.nextSocket + 1 ∧ s.kind.peerOpen = true ∧ s'.kind.streamPeer = some v.nextSocket)
    (hstream' : ∀ p, s'.kind.streamPeer = some p →
      p = v.nextSocket ∧ s'.kind.peerOpen = true ∧ s.kind.streamPeer = some (v.nextSocket + 1))
    (hdatagram : ∀ p, s.kind.datagramPeer = some p → p = v.nextSocket + 1 ∧ s'.kind.isDatagram = true)
    (hdatagram' : ∀ p, s'.kind.datagramPeer = some p → p = v.nextSocket ∧ s.kind.isDatagram = true) :
    v.Quiet { v with
      sockets := (v.sockets.insert v.nextSocket s).insert (v.nextSocket + 1) s'
      nextSocket := v.nextSocket + 1 + 1 } := by
  have hget : ∀ i, ((v.sockets.insert v.nextSocket s).insert (v.nextSocket + 1) s').get? i =
      if i = v.nextSocket + 1 then some s' else if i = v.nextSocket then some s else v.sockets.get? i := by
    intro i
    rw [get?_insert, get?_insert]
  refine h.grow (by omega) (fun i hi => ?_) (fun i hi => ?_) (fun i t hi ht => ?_)
  · rw [hget, if_neg (by omega), if_neg (by omega)]
  · rw [hget, if_neg (by omega), if_neg (by omega), h.fresh i (by omega)]
  · rw [hget] at ht
    split_ifs at ht with h1 h2
    · cases ht
      refine ⟨hempty', fun p hp => ?_, fun p hp => ?_⟩
      · obtain ⟨rfl, hopen, hpeer⟩ := hstream' p hp
        refine ⟨by omega, fun u hu => ?_⟩
        rw [hget, if_neg (by omega), if_pos rfl] at hu
        exact ⟨hopen, Option.some.inj hu ▸ h1 ▸ hpeer⟩
      · obtain ⟨rfl, hkind⟩ := hdatagram' p hp
        refine ⟨by omega, fun u hu => ?_⟩
        rw [hget, if_neg (by omega), if_pos rfl] at hu
        exact Option.some.inj hu ▸ hkind
    · cases ht
      refine ⟨hempty, fun p hp => ?_, fun p hp => ?_⟩
      · obtain ⟨rfl, hopen, hpeer⟩ := hstream p hp
        refine ⟨by omega, fun u hu => ?_⟩
        rw [hget, if_pos rfl] at hu
        exact ⟨hopen, Option.some.inj hu ▸ h2 ▸ hpeer⟩
      · obtain ⟨rfl, hkind⟩ := hdatagram p hp
        refine ⟨by omega, fun u hu => ?_⟩
        rw [hget, if_pos rfl] at hu
        exact Option.some.inj hu ▸ hkind
    · rw [h.fresh i hi] at ht
      cases ht

/-- A new socket that names no other. -/
theorem newSocket (h : v.Wired) (hempty : ∀ box, s.kind.inbox = some box → box.Empty)
    (hstream : s.kind.streamPeer = none) (hdatagram : s.kind.datagramPeer = none) :
    v.Quiet { v with
      sockets := v.sockets.insert v.nextSocket s
      nextSocket := v.nextSocket + 1 } := by
  refine h.grow (Nat.le_succ _) (fun i hi => get?_insert_ne _ _ (by omega)) (fun i hi => ?_)
    (fun i t hi ht => ?_)
  · rw [get?_insert, if_neg (by omega), h.fresh i (by omega)]
  · rw [get?_insert] at ht
    split_ifs at ht
    · cases ht
      rw [hstream, hdatagram]
      exact ⟨hempty, fun _ hp => (nomatch hp), fun _ hp => (nomatch hp)⟩
    · rw [h.fresh i hi] at ht
      cases ht

/-- A socket goes; its peer learns of it. -/
theorem drop (h : v.Wired) (hs : v.sockets.get? id = some s)
    (hpeers : ∀ x, v'.sockets.get? x = if x = id then none else
      if s.kind.peer? = some x then (v.sockets.get? x).map (fun t => { t with kind := t.kind.closePeer })
      else v.sockets.get? x)
    (hshut : v'.shutdown = v.shutdown.erase id)
    (hnames : ∀ path p, v'.datagrams.get? path = some p → v.datagrams.get? path = some p)
    (hpipes : v'.pipes = v.pipes) (hnextPipe : v'.nextPipe = v.nextPipe)
    (hnext : v'.nextSocket = v.nextSocket) : v.Quiet v' := by
  have hback : ∀ i t', v'.sockets.get? i = some t' → i ≠ id ∧ ∃ t, v.sockets.get? i = some t ∧
      t'.kind.inbox = t.kind.inbox ∧ t'.kind.streamPeer = t.kind.streamPeer ∧
      t'.kind.isDatagram = t.kind.isDatagram ∧ t'.kind.datagramPeer = t.kind.datagramPeer ∧
      (s.kind.peer? ≠ some i → t' = t) := by
    intro i t' ht'
    rw [hpeers] at ht'
    split_ifs at ht' with hi hpeer
    · obtain ⟨t, ht, rfl⟩ := Option.map_eq_some_iff.mp ht'
      exact ⟨hi, t, ht, by simp, by simp, by simp, by simp, fun hne => absurd hpeer hne⟩
    · exact ⟨hi, t', ht', rfl, rfl, rfl, rfl, fun _ => rfl⟩
  -- an end of another stream is not the peer of the socket that goes
  have hother : ∀ i t p, v.sockets.get? i = some t → t.kind.streamPeer = some p → p ≠ id →
      s.kind.peer? ≠ some i := by
    intro i t p ht hp hne hpeer
    cases hkind : s.kind with
    | unixStream peer lp pp rx q isOpen cred =>
      rw [hkind] at hpeer
      obtain rfl : peer = i := Option.some.inj hpeer
      have hmate := (h.mated id s peer t hs (by rw [hkind]; rfl) ht).2
      rw [hp] at hmate
      exact hne (Option.some.inj hmate)
    | unixDatagram peer pp bp rx q isOpen =>
      rw [hkind] at hpeer
      have hdatagram := (h.datagram id s i hs (by rw [hkind]; exact hpeer)).2 t ht
      rw [SocketKind.streamPeer_of_isDatagram hdatagram] at hp
      cases hp
    | _ =>
      rw [hkind] at hpeer
      cases hpeer
  have hbox : ∀ i, v'.inbox i = none ∨ v'.inbox i = v.inbox i := by
    intro i
    cases hi : v'.sockets.get? i with
    | none => exact .inl (by rw [Ipc.inbox, hi]; rfl)
    | some t' =>
      obtain ⟨-, t, ht, hbox, -⟩ := hback i t' hi
      right
      rw [Ipc.inbox, hi, Ipc.inbox, ht, Option.bind_some, Option.bind_some, hbox]
  refine h.quiet_of_sockets hpipes hnextPipe hnext hbox
    (h.mapped hpipes hnextPipe hnext (fun i t' ht' => ?_) (fun i hi => ?_) (fun i hthere => ?_) hnames)
  · obtain ⟨-, t, ht, -, hpeer, hdatagram, hto, hsame⟩ := hback i t' ht'
    refine ⟨t, ht, hpeer, hdatagram, fun p hp hthere => ?_, fun p hp => h.datagram i t p ht (hto ▸ hp)⟩
    obtain ⟨u', hu'⟩ := Option.ne_none_iff_exists'.mp hthere
    rw [hsame (hother i t p ht hp (hback p u' hu').1)]
  · rw [hshut, get?_erase, h.shut_fresh i hi, ite_self]
  · obtain ⟨t', ht'⟩ := Option.ne_none_iff_exists'.mp hthere
    rw [bits, hshut, get?_erase, if_neg (hback i t' ht').1, bits]

/-! ### Half-close and names -/

/-- More half-close bits for a socket; the peer's half closes only as the peer does. -/
theorem orShut (h : v.Wired) {extra : Nat} (hid : id < v.nextSocket)
    (hpeer : extra.testBit 2 = true → ∀ s p, v.sockets.get? id = some s →
      s.kind.streamPeer = some p → v.sockets.get? p = none ∨ v.writeShut p) :
    v.Quiet { v with shutdown := v.shutdown.insert id (v.bits id ||| extra) } := by
  have hbits : ∀ i, ({ v with shutdown := v.shutdown.insert id (v.bits id ||| extra) } : Ipc).bits i =
      if i = id then v.bits id ||| extra else v.bits i := by
    intro i
    simp only [bits, get?_insert]
    split_ifs <;> rfl
  have hmore : ∀ i, v.writeShut i →
      ({ v with shutdown := v.shutdown.insert id (v.bits id ||| extra) } : Ipc).writeShut i := by
    intro i hi
    rw [writeShut, hbits]
    split_ifs with hii
    · rw [Nat.testBit_or, ← hii, show (v.bits i).testBit 1 = true from hi, Bool.true_or]
    · exact hi
  refine h.quiet_of_sockets rfl rfl rfl (fun _ => .inr rfl) { h with
    shut_fresh := fun i hi => ?_
    shut := fun i t p ht hp hclosed => ?_ }
  · have hi : v.nextSocket ≤ i := hi
    rw [get?_insert, if_neg (by omega)]
    exact h.shut_fresh i hi
  · rw [peerWriteClosed, hbits] at hclosed
    have hcases : v.sockets.get? p = none ∨ v.writeShut p := by
      split_ifs at hclosed with hii
      · rw [Nat.testBit_or, Bool.or_eq_true] at hclosed
        rcases hclosed with hclosed | hclosed
        · exact h.shut i t p ht hp (hii ▸ hclosed)
        · exact hpeer hclosed t p (hii ▸ ht) hp
      · exact h.shut i t p ht hp hclosed
    exact hcases.imp_right (hmore p)

/-- A socket that is no stream forgets its half-close bits. -/
theorem clearShut (h : v.Wired) (hkind : ∀ s, v.sockets.get? id = some s →
    s.kind.streamPeer = none) : v.Quiet { v with shutdown := v.shutdown.erase id } := by
  have hbits : ∀ i, i ≠ id → ({ v with shutdown := v.shutdown.erase id } : Ipc).bits i = v.bits i := by
    intro i hi
    simp only [bits, get?_erase, if_neg hi]
  refine h.quiet_of_sockets rfl rfl rfl (fun _ => .inr rfl) { h with
    shut_fresh := fun i hi => by rw [get?_erase, h.shut_fresh i hi, ite_self]
    shut := fun i t p ht hp hclosed => ?_ }
  by_cases hi : i = id
  · rw [hkind t (hi ▸ ht)] at hp
    cases hp
  · rw [peerWriteClosed, hbits i hi] at hclosed
    rcases h.shut i t p ht hp hclosed with hnone | hshut
    · exact .inl hnone
    · by_cases hpid : p = id
      · -- a live peer would be a stream
        left
        cases hs : v.sockets.get? p with
        | none => rfl
        | some u =>
          have hmate := (h.mated i t p u ht hp hs).2
          rw [hkind u (hpid ▸ hs)] at hmate
          cases hmate
      · right
        rw [writeShut, hbits p hpid]
        exact hshut

/-- Names for datagram sockets come and go. -/
theorem setNames (h : v.Wired) (names : SortedMap Bytes Nat)
    (hnames : ∀ path p, names.get? path = some p → p < v.nextSocket ∧
      ∀ s, v.sockets.get? p = some s → s.kind.isDatagram = true) :
    v.Quiet { v with datagrams := names } :=
  h.quiet_of_sockets rfl rfl rfl (fun _ => .inr rfl) { h with named := hnames }

end Wired

end Ipc
end Yurt
