import YurtKernel.Kernel.IpcData

/-! Byte channels: pipes, and each direction of a connected stream.

    A channel is named by what holds its bytes, the pipe or the socket that receives. `Flow` is what
    one call may do to all channels at once: take bytes from the front, put bytes at the end, drop
    whole channels, and make new empty ones under names never used before. -/

namespace Yurt
variable {σ : Type}
variable {q : List (List FdEntry)} {rx : List UnixDatagramPacket} {data : Bytes} {rc : Int} {p : Nat}

inductive Channel where
  | pipe (id : Nat)
  | stream (id : Nat)
  deriving DecidableEq

namespace Ipc
variable {v v' : Ipc} {ch c : Channel}

/-- Bytes in a channel, if there is such a channel. -/
def queued (v : Ipc) : Channel → Option Bytes
  | .pipe id => v.pipeBytes id
  | .stream id =>
    match v.inbox id with
    | some (.stream rx _) => some rx
    | _ => none

/-- The name was given out. -/
def Born (v : Ipc) : Channel → Prop
  | .pipe id => id < v.nextPipe
  | .stream id => id < v.nextSocket

/-- No descriptors wait anywhere. -/
def NoRights (v : Ipc) : Prop := ∀ id box, v.inbox id = some box → box.rights = []

/-- No channel holds more than `KERNEL_BUFFER_CAP` bytes. -/
def Bounded (v : Ipc) : Prop := ∀ ch q, v.queued ch = some q → q.length ≤ kernelBufferCap

structure Flow (v v' : Ipc) (put got : Channel → Bytes) : Prop where
  born : ∀ ch, v.Born ch → v'.Born ch
  live : ∀ ch q, v.queued ch = some q → ∃ rest, q = got ch ++ rest ∧
    (v'.queued ch = some (rest ++ put ch) ∨ (put ch = [] ∧ v'.queued ch = none))
  idle : ∀ ch, v.queued ch = none → put ch = [] ∧ got ch = [] ∧
    (v.Born ch → v'.queued ch = none) ∧ ∀ q, v'.queued ch = some q → q = []
  bounded : v.Bounded → v'.Bounded
  noRights : v.NoRights → v'.NoRights
  wired : v'.Wired

/-- Nothing in or out. -/
def nothing : Channel → Bytes := fun _ => []

/-- Bytes of one channel only. -/
def only (c : Channel) (bytes : Bytes) : Channel → Bytes := fun ch => if ch = c then bytes else []

theorem only_nil (c : Channel) : only c [] = nothing := by
  funext ch
  simp [only, nothing]

theorem Wired.born (h : v.Wired) {q : Bytes} (hq : v.queued ch = some q) : v.Born ch := by
  by_contra hborn
  cases ch with
  | pipe id =>
    have hnone := h.pipe_fresh id (not_lt.mp hborn)
    simp [queued, pipeBytes, hnone] at hq
  | stream id =>
    have hnone := h.fresh id (not_lt.mp hborn)
    simp [queued, inbox, hnone] at hq

/-! ### Calls that move no data -/

theorem Quiet.queued_none_or_same (h : v.Quiet v') (hborn : v.Born ch) :
    v'.queued ch = none ∨ v'.queued ch = v.queued ch := by
  cases ch with
  | pipe id => exact h.pipe id hborn
  | stream id =>
    rcases h.inbox id hborn with hnone | hsame
    · exact .inl (by simp only [queued, hnone])
    · exact .inr (by simp only [queued, hsame])

theorem Quiet.queued_new (h : v.Quiet v') (hborn : ¬ v.Born ch) {q : Bytes}
    (hq : v'.queued ch = some q) : q = [] := by
  cases ch with
  | pipe id => exact h.newPipe id q (not_lt.mp hborn) hq
  | stream id =>
    simp only [queued] at hq
    split at hq
    · next rx rights hbox =>
      cases hq
      exact (h.newInbox id _ (not_lt.mp hborn) hbox).1
    · cases hq

theorem Quiet.flow (h : v.Quiet v') (hwired : v.Wired) : v.Flow v' nothing nothing where
  born := fun ch hborn => by
    cases ch with
    | pipe id => exact hborn.trans_le h.nextPipe
    | stream id => exact hborn.trans_le h.nextSocket
  live := fun ch q hq => by
    refine ⟨q, rfl, ?_⟩
    rcases h.queued_none_or_same (hwired.born hq) with hnone | hsame
    · exact .inr ⟨rfl, hnone⟩
    · left
      rw [hsame, hq, nothing, List.append_nil]
  idle := fun ch hnone => by
    have hdead : v.Born ch → v'.queued ch = none := by
      intro hborn
      rcases h.queued_none_or_same hborn with hgone | hsame
      · exact hgone
      · rw [hsame, hnone]
    refine ⟨rfl, rfl, hdead, fun q hq => ?_⟩
    by_cases hborn : v.Born ch
    · rw [hdead hborn] at hq
      cases hq
    · exact h.queued_new hborn hq
  bounded := fun hbounded ch q hq => by
    by_cases hborn : v.Born ch
    · rcases h.queued_none_or_same hborn with hgone | hsame
      · rw [hgone] at hq
        cases hq
      · exact hbounded ch q (hsame ▸ hq)
    · rw [h.queued_new hborn hq]
      exact Nat.zero_le _
  noRights := fun hnone id box hbox => by
    rcases lt_or_ge id v.nextSocket with hlt | hge
    · rcases h.inbox id hlt with hgone | hsame
      · rw [hgone] at hbox
        cases hbox
      · exact hnone id box (hsame ▸ hbox)
    · have hempty := h.newInbox id box hge hbox
      cases box with
      | stream | datagram => exact hempty.2
  wired := h.wired

/-! ### Calls that move data -/

/-- One channel gets other contents. -/
structure Sets (v v' : Ipc) (c : Channel) (q : Bytes) : Prop where
  nextPipe : v'.nextPipe = v.nextPipe
  nextSocket : v'.nextSocket = v.nextSocket
  self : v'.queued c = some q
  others : ∀ ch, ch ≠ c → v'.queued ch = v.queued ch
  noRights : v.NoRights → v'.NoRights
  wired : v'.Wired

theorem Sets.born {q : Bytes} (h : v.Sets v' c q) (hborn : v.Born ch) : v'.Born ch := by
  cases ch with
  | pipe id => exact hborn.trans_eq h.nextPipe.symm
  | stream id => exact hborn.trans_eq h.nextSocket.symm

/-- Taking `got` from the front of a channel and putting `put` at its end. -/
theorem Sets.flow {rest put got : Bytes} (h : v.Sets v' c (rest ++ put))
    (hq : v.queued c = some (got ++ rest)) (hroom : v.Bounded → (rest ++ put).length ≤ kernelBufferCap) :
    v.Flow v' (only c put) (only c got) where
  born := fun ch hborn => h.born hborn
  live := fun ch q hlive => by
    by_cases hc : ch = c
    · subst hc
      rw [hq] at hlive
      refine ⟨rest, ?_, .inl ?_⟩
      · rw [only, if_pos rfl]
        exact (Option.some.inj hlive).symm
      · rw [only, if_pos rfl]
        exact h.self
    · refine ⟨q, ?_, .inl ?_⟩
      · rw [only, if_neg hc, List.nil_append]
      · rw [h.others ch hc, hlive, only, if_neg hc, List.append_nil]
  idle := fun ch hnone => by
    have hc : ch ≠ c := by
      rintro rfl
      rw [hq] at hnone
      cases hnone
    have hstill : v'.queued ch = none := (h.others ch hc).trans hnone
    refine ⟨if_neg hc, if_neg hc, fun _ => hstill, fun q hsome => ?_⟩
    rw [hstill] at hsome
    cases hsome
  bounded := fun hbounded ch q hsome => by
    by_cases hc : ch = c
    · subst hc
      rw [h.self] at hsome
      exact Option.some.inj hsome ▸ hroom hbounded
    · exact hbounded ch q (h.others ch hc ▸ hsome)
  noRights := h.noRights
  wired := h.wired

theorem SetsBox.noRights {id : Nat} {box : Inbox} (h : v.SetsBox v' id box)
    (hbox : v.NoRights → box.rights = []) (hnone : v.NoRights) : v'.NoRights := by
  intro i b hb
  by_cases hi : i = id
  · subst hi
    rw [h.inbox] at hb
    exact Option.some.inj hb ▸ hbox hnone
  · exact hnone i b (h.others i hi ▸ hb)

/-- The inbox of a stream is the channel of that stream. -/
theorem SetsBox.sets {id : Nat} {rx : Bytes} (h : v.SetsBox v' id (.stream rx q))
    (hq : v.NoRights → q = []) :
    v.Sets v' (.stream id) rx where
  nextPipe := h.nextPipe
  nextSocket := h.nextSocket
  self := by simp only [queued, h.inbox]
  others := fun ch hch => by
    cases ch with
    | pipe i => simp only [queued, pipeBytes, h.pipes]
    | stream i =>
      have hi : i ≠ id := fun hi => hch (congrArg Channel.stream hi)
      simp only [queued, h.others i hi]
  noRights := fun hnone => h.noRights hq hnone
  wired := h.wired

/-- The inbox of a datagram socket is no channel. -/
theorem SetsBox.flow_datagram {id : Nat} {rx' : List UnixDatagramPacket} {q' : List (List FdEntry)}
    (h : v.SetsBox v' id (.datagram rx' q')) (hold : v.inbox id = some (.datagram rx q))
    (hq : v.NoRights → q' = []) :
    v.Flow v' nothing nothing := by
  have hsame : ∀ ch, v'.queued ch = v.queued ch := by
    intro ch
    cases ch with
    | pipe i => simp only [queued, pipeBytes, h.pipes]
    | stream i =>
      by_cases hi : i = id
      · simp only [queued, hi, h.inbox, hold]
      · simp only [queued, h.others i hi]
  refine ⟨fun ch hborn => ?_, fun ch q hlive => ⟨q, rfl, .inl ?_⟩, fun ch hnone => ?_,
    fun hbounded ch q hlive => hbounded ch q (hsame ch ▸ hlive), fun hnone => h.noRights hq hnone,
    h.wired⟩
  · cases ch with
    | pipe i => exact hborn.trans_eq h.nextPipe.symm
    | stream i => exact hborn.trans_eq h.nextSocket.symm
  · rw [hsame, hlive, nothing, List.append_nil]
  · refine ⟨rfl, rfl, fun _ => (hsame ch).trans hnone, fun q hq => ?_⟩
    rw [hsame, hnone] at hq
    cases hq

/-- Other bytes in a pipe. -/
theorem Wired.setsPipe (h : v.Wired) {id : Nat} {b : PipeBuf} (hb : v.pipes.get? id = some b)
    (bytes : Bytes) :
    v.Sets { v with pipes := v.pipes.insert id { b with bytes := bytes } } (.pipe id) bytes where
  nextPipe := rfl
  nextSocket := rfl
  self := by simp only [queued, pipeBytes, SortedMap.get?_insert_self, Option.map_some]
  others := fun ch hch => by
    cases ch with
    | pipe i =>
      have hi : i ≠ id := fun hi => hch (congrArg Channel.pipe hi)
      simp only [queued, pipeBytes, SortedMap.get?_insert_ne _ _ hi]
    | stream i => rfl
  noRights := fun hnone => hnone
  wired := h.insertPipe hb

/-! ### What a sender and a reader see -/

/-- The reader of a channel shut down reading. -/
def readClosed (v : Ipc) : Channel → Bool
  | .pipe _ => false
  | .stream id => v.bits id &&& 1 ≠ 0

def streamPeerOf (v : Ipc) (id : Nat) : Option Nat := (v.sockets.get? id).bind (fun s => s.kind.streamPeer)

/-- No write end is counted, or the socket at the other end is gone or shut down for writing. -/
def Unwritten (v : Ipc) : Channel → Prop
  | .pipe id => ∀ b, v.pipes.get? id = some b → b.writeEnds = 0
  | .stream id => ∀ p, v.streamPeerOf id = some p → v.sockets.get? p = none ∨ v.writeShut p

/-- A payload went into a channel as a whole, or the call failed and changed no channel. -/
def Sent (v v' : Ipc) (rc : Int) (c : Channel) (payload : Bytes) : Prop := (rc < 0 ∧ v' = v) ∨
    (rc = payload.length ∧ ∃ q, v.queued c = some q ∧ v'.queued c = some (q ++ payload) ∧
      v.Flow v' (only c payload) nothing)

end Ipc

inductive ReadMode where
  | take
  | peek
  | refused
  deriving DecidableEq

/-- Flags a receive from a stream understands. -/
def readMode (flags : Nat) : ReadMode :=
  if flags = 0 then .take else if flags = msgPeek then .peek else .refused

/-- A read of up to `cap` bytes. -/
structure Taking where
  channel : Channel
  cap : Nat
  mode : ReadMode

/-- Data a process finds at the start of its buffer. -/
def Reply.received (r : Reply) : Bytes :=
  match r.writes with
  | (0, bytes) :: _ => bytes.take r.rc.toNat
  | _ => []

@[simp] theorem Reply.received_code (rc : Int) : (Reply.code rc).received = [] := rfl

@[simp] theorem Reply.received_data (bytes : Bytes) : (Reply.data bytes).received = bytes := by
  simp [Reply.received, Reply.data]

/-- A read with `q` in the channel. -/
structure Ipc.Took (v v' : Ipc) (reply : Reply) (t : Taking) (q : Bytes) : Prop where
  queued : v.queued t.channel = some q
  received : reply.received =
    if v.readClosed t.channel = true ∨ t.mode = .refused then [] else q.take t.cap
  peek : t.mode = .peek → v' = v
  flow : v.Flow v' nothing (only t.channel (if t.mode = .peek then [] else reply.received))
  eof : reply.rc = 0 → 0 < t.cap → v.readClosed t.channel = true ∨ (q = [] ∧ v.Unwritten t.channel)

/-! ### Sockets as channels -/

section
variable {k : Kernel σ} {id : Nat}

theorem Ipc.Delivers.flow {v v' : Ipc} {peer : Nat} (h : v.Delivers v' rc peer data []) :
    v.Flow v' nothing nothing ∧ (∃ rx q, v.inbox peer = some (.datagram rx q)) ∨
      ∃ q, v.queued (.stream peer) = some q ∧ v'.queued (.stream peer) = some (q ++ data) ∧
        v.Flow v' (only (.stream peer) data) nothing := by
  rcases h.2 with ⟨rx, q, hbox, hroom, hsets⟩ | ⟨rx, q, packet, hbox, -, hsets⟩
  · right
    have hq : v.queued (.stream peer) = some rx := by simp only [Ipc.queued, hbox]
    have hset : v.Sets v' (.stream peer) (rx ++ data) :=
      hsets.sets (fun hnone => by
        simpa [pushRights, Inbox.rights] using hnone peer _ hbox)
    have hfit : (rx ++ data).length ≤ kernelBufferCap := by
      simp only [hasBufferCapacity, decide_eq_true_eq] at hroom
      rw [List.length_append]
      omega
    refine ⟨rx, hq, hset.self, ?_⟩
    rw [← only_nil (.stream peer)]
    exact hset.flow (by simpa using hq) (fun _ => hfit)
  · exact .inl ⟨hsets.flow_datagram hbox (fun hnone => by
        simpa [pushRights, Inbox.rights] using hnone peer _ hbox),
      rx, q, hbox⟩

/-- Streams are connected to streams. -/
theorem Ipc.Wired.not_datagram_of_streamPeerOf {v : Ipc} (h : v.Wired)
    (hp : v.streamPeerOf id = some p) :
    v.inbox p ≠ some (.datagram rx q) := by
  intro hbox
  rw [Ipc.streamPeerOf, Option.bind_eq_some_iff] at hp
  obtain ⟨s, hs, hpeer⟩ := hp
  rw [Ipc.inbox, Option.bind_eq_some_iff] at hbox
  obtain ⟨s', hs', hbox⟩ := hbox
  have hmate := (h.mated id s p s' hs hpeer hs').2
  cases hkind : s'.kind <;> simp [hkind, SocketKind.inbox, SocketKind.streamPeer] at hbox hmate

theorem Ipc.peerOf_of_streamPeerOf {v : Ipc} (hp : v.streamPeerOf id = some p) : v.peerOf id = some p := by
  rw [Ipc.streamPeerOf, Option.bind_eq_some_iff] at hp
  obtain ⟨s, hs, hpeer⟩ := hp
  rw [Ipc.peerOf, hs, Option.bind_some]
  cases hkind : s.kind <;> simp_all [SocketKind.streamPeer, SocketKind.peer?]

/-- Only streams are connected to streams. -/
theorem Ipc.Wired.queued_peerOf {v : Ipc} (h : v.Wired) {q : Bytes} (hp : v.peerOf id = some p)
    (hq : v.queued (.stream p) = some q) : v.streamPeerOf id = some p := by
  rw [Ipc.peerOf, Option.bind_eq_some_iff] at hp
  obtain ⟨s, hs, hpeer⟩ := hp
  rw [Ipc.streamPeerOf, hs, Option.bind_some]
  cases hkind : s.kind with
  | unixStream =>
    rw [hkind] at hpeer
    exact hpeer
  | unixDatagram =>
    rw [hkind] at hpeer
    have hgram := (h.datagram id s p hs (by rw [hkind]; exact hpeer)).2
    simp only [Ipc.queued, Ipc.inbox] at hq
    cases hs' : v.sockets.get? p with
    | none => simp [hs'] at hq
    | some s' =>
      have := hgram s' hs'
      cases hkind' : s'.kind <;> simp [hs', hkind', SocketKind.inbox, SocketKind.isDatagram] at hq this
  | _ => simp [hkind, SocketKind.peer?] at hpeer

/-- What a delivery to the peer of a socket is for the channels. -/
theorem Ipc.Wired.delivered {v v' : Ipc} (h : v.Wired)
    (hd : ∃ peer, v.peerOf id = some peer ∧ v.Delivers v' rc peer data []) :
    (v.streamPeerOf id = none → v.Flow v' nothing nothing) ∧
      ∀ p, v.streamPeerOf id = some p → v.Sent v' rc (.stream p) data := by
  obtain ⟨peer, hpeer, hdelivers⟩ := hd
  rcases hdelivers.flow with ⟨hflow, rx, q, hbox⟩ | ⟨q, hq, hafter, hflow⟩
  · refine ⟨fun _ => hflow, fun p hp => ?_⟩
    obtain rfl := Option.some.inj ((Ipc.peerOf_of_streamPeerOf hp).symm.trans hpeer)
    exact absurd hbox (h.not_datagram_of_streamPeerOf hp)
  · have hstream := h.queued_peerOf hpeer hq
    refine ⟨fun hnone => ?_, fun p hp => ?_⟩
    · rw [hstream] at hnone
      cases hnone
    · obtain rfl := Option.mem_unique hstream hp
      exact .inr ⟨hdelivers.1, q, hq, hafter, hflow⟩

theorem Ipc.Wired.flow_same {v : Ipc} (h : v.Wired) : v.Flow v nothing nothing := (Ipc.Quiet.refl h).flow h

theorem Ipc.Wired.flow_socketSendId (h : k.ipc.Wired) (kh : Kh σ) (id : Nat) (data : Bytes) :
    (k.ipc.streamPeerOf id = none → k.ipc.Flow (k.socketSendId kh id data).2.ipc nothing nothing) ∧
      ∀ p, k.ipc.streamPeerOf id = some p → k.ipc.Sent (k.socketSendId kh id data).2.ipc
        (k.socketSendId kh id data).1 (.stream p) data := by
  rcases h.socketSendId kh id data with ⟨hsame, hneg⟩ | hdelivers
  · rw [hsame]
    refine ⟨fun _ => h.flow_same, fun p hp => .inl ⟨hneg ?_, rfl⟩⟩
    rw [Ipc.peerOf_of_streamPeerOf hp]
    simp
  · exact h.delivered hdelivers

theorem Ipc.Wired.flow_socketSendmsgId (h : k.ipc.Wired) (id : Nat) (data : Bytes) :
    (k.ipc.streamPeerOf id = none → k.ipc.Flow (k.socketSendmsgId id data []).2.ipc nothing nothing) ∧
      ∀ p, k.ipc.streamPeerOf id = some p → k.ipc.Sent (k.socketSendmsgId id data []).2.ipc
        (k.socketSendmsgId id data []).1 (.stream p) data := by
  rcases h.socketSendmsgId id data [] with ⟨hneg, hsame⟩ | hdelivers
  · have hsame : (k.socketSendmsgId id data []).2 = k := by
      rcases hsame with hsame | hsame
      · exact hsame
      · exact hsame
    rw [hsame]
    exact ⟨fun _ => h.flow_same, fun p _ => .inl ⟨hneg, rfl⟩⟩
  · exact h.delivered hdelivers

theorem eq_false_or_eq_true_of_emptyRecv {isOpen closed : Bool} (h : emptyRecv isOpen closed = 0) :
    isOpen = false ∨ closed = true := by
  revert h
  revert isOpen closed
  decide

theorem take_length_ne_zero {q : Bytes} {cap : Nat} (hq : ¬ q.isEmpty = true) (hcap : 0 < cap) :
    (Reply.data (q.take cap)).rc ≠ 0 := by
  have hpos : 0 < q.length := List.length_pos_iff.mpr (by simpa using hq)
  simp only [Reply.data, List.length_take]
  omega

/-- A read that finds nothing to read, or no end to read from. -/
theorem Ipc.Wired.took_nothing {v : Ipc} (h : v.Wired) {t : Taking} {q : Bytes}
    (hq : v.queued t.channel = some q)
    (hwhy : v.readClosed t.channel = true ∨ t.mode = .refused ∨ q = [])
    (heof : rc = 0 → v.readClosed t.channel = true ∨ (q = [] ∧ v.Unwritten t.channel)) :
    v.Took v (.code rc) t q := by
  refine ⟨hq, ?_, fun _ => rfl, ?_, fun hzero _ => heof hzero⟩
  · rw [Reply.received_code]
    rcases hwhy with hclosed | hrefused | hempty
    · rw [if_pos (.inl hclosed)]
    · rw [if_pos (.inr hrefused)]
    · rw [hempty, List.take_nil, ite_self]
  · rw [Reply.received_code, ite_self, Ipc.only_nil]
    exact h.flow_same

/-- A receive from a stream. -/
theorem Ipc.Wired.took (h : k.ipc.Wired) (kh : Kh σ) {q : Bytes}
    (hq : k.ipc.queued (.stream id) = some q) (cap flags : Nat) :
    k.ipc.Took (k.socketRecvId kh id cap flags).2.ipc (k.socketRecvId kh id cap flags).1
      ⟨.stream id, cap, readMode flags⟩ q := by
  obtain ⟨s, hs, peer, lp, pp, rights, isOpen, cred, hkind⟩ : ∃ s, k.sockets.get? id = some s ∧
      ∃ peer lp pp rights isOpen cred, s.kind = .unixStream peer lp pp q rights isOpen cred := by
    simp only [Ipc.queued, Ipc.inbox] at hq
    cases hs : k.ipc.sockets.get? id with
    | none => simp [hs] at hq
    | some s =>
      refine ⟨s, hs, ?_⟩
      cases hkind : s.kind <;> simp [hs, hkind, SocketKind.inbox] at hq
      subst hq
      exact ⟨_, _, _, _, _, _, rfl⟩
  have hbox : k.ipc.inbox id = some (.stream q rights) := by
    rw [Ipc.inbox_eq (v := k.ipc) hs, hkind]
    rfl
  have hpeer : k.ipc.streamPeerOf id = some peer := by
    rw [Ipc.streamPeerOf, show k.ipc.sockets.get? id = some s from hs, Option.bind_some, hkind]
    rfl
  -- an empty stream is at its end only without a writer
  have hend : emptyRecv isOpen (k.socketPeerWriteClosed id) = 0 → k.ipc.Unwritten (.stream id) := by
    intro hzero p hp
    obtain rfl := Option.mem_unique hp hpeer
    have hstream : s.kind.streamPeer = some p := by rw [hkind]; rfl
    rcases eq_false_or_eq_true_of_emptyRecv hzero with hgone | hclosed
    · refine .inl (Option.eq_none_iff_forall_ne_some.mpr (fun s' hs' => ?_))
      have hopen := (h.mated id s p s' hs hstream hs').1
      rw [hkind, hgone] at hopen
      cases hopen
    · exact h.shut id s p hs hstream ((k.socketPeerWriteClosed_iff id).mp hclosed)
  have hrights : k.ipc.NoRights → rights = [] := fun hnone => hnone id _ hbox
  have hshut : k.ipc.readClosed (.stream id) = k.readShut id := rfl
  have hrecv : k.socketRecvId kh id cap flags =
      if k.readShut id then (.code 0, k)
      else if flags ≠ 0 ∧ flags ≠ msgPeek then (.code (-EOPNOTSUPP), k)
      else if q.isEmpty then (.code (emptyRecv isOpen (k.socketPeerWriteClosed id)), k)
      else (.data (q.take cap), if flags = msgPeek then k
        else k.setKind id (.unixStream peer lp pp (q.drop cap) rights isOpen cred)) := by
    simp only [Kernel.socketRecvId, hs, hkind]
  rw [hrecv]
  split_ifs with hclosed hflags hempty hpeek
  · exact h.took_nothing hq (.inl hclosed) (fun _ => .inl hclosed)
  · have hrefused : readMode flags = .refused := by rw [readMode, if_neg hflags.1, if_neg hflags.2]
    exact h.took_nothing hq (.inr (.inl hrefused)) (fun hzero => absurd hzero (by decide))
  · have hempty : q = [] := by simpa using hempty
    exact h.took_nothing hq (.inr (.inr hempty)) (fun hzero => .inr ⟨hempty, hend hzero⟩)
  · have hmode : readMode flags = .peek := by rw [hpeek]; rfl
    refine ⟨hq, ?_, fun _ => rfl, ?_, fun hzero hcap => ?_⟩
    · rw [Reply.received_data, if_neg]
      simp [hshut, hclosed, hmode]
    · rw [if_pos hmode, Ipc.only_nil]
      exact h.flow_same
    · exact absurd hzero (take_length_ne_zero hempty hcap)
  · have hmode : readMode flags = .take := by
      rw [readMode, if_pos]
      by_contra hne
      exact hflags ⟨hne, hpeek⟩
    have hset := (h.setStreamBox (q.drop cap) rights hs hkind).sets hrights
    refine ⟨hq, ?_, fun hpeek => ?_, ?_, fun hzero hcap => ?_⟩
    · rw [Reply.received_data, if_neg]
      simp [hshut, hclosed, hmode]
    · rw [hmode] at hpeek
      cases hpeek
    · rw [hmode, if_neg (by simp), Reply.received_data, ← Ipc.only_nil (.stream id)]
      refine Ipc.Sets.flow (by rwa [List.append_nil]) ?_ (fun hbounded => ?_)
      · rw [List.take_append_drop]
        exact hq
      · have := hbounded _ q hq
        rw [List.append_nil, List.length_drop]
        omega
    · exact absurd hzero (take_length_ne_zero hempty hcap)

/-- A receive from another socket. -/
theorem Ipc.Wired.flow_socketRecvId (h : k.ipc.Wired) (kh : Kh σ)
    (hnone : k.ipc.queued (.stream id) = none) (cap flags : Nat) :
    k.ipc.Flow (k.socketRecvId kh id cap flags).2.ipc nothing nothing := by
  obtain ⟨reply, host, hr, -⟩ | ⟨s, box, hs, hbox, hr⟩ := k.recv_cases kh id cap flags <;> rw [hr]
  · exact h.flow_same
  have hold : k.ipc.inbox id = some box := (Ipc.inbox_eq (v := k.ipc) hs).trans hbox
  cases htaken : s.kind.takeFront cap with
  | none => split_ifs <;> exact h.flow_same
  | some taken =>
    dsimp only
    split_ifs
    · exact h.flow_same
    · exact h.flow_same
    · exact h.flow_same
    cases hkind : s.kind with
    | unixDatagram p pp bound rx q isOpen =>
      rw [hkind] at htaken hbox
      cases rx with
      | nil => cases htaken
      | cons packet rest =>
        cases htaken
        cases hbox
        exact (h.setDatagramBox rest q hs hkind).flow_datagram hold (fun hnone => hnone id _ hold)
    | unixStream =>
      rw [hkind] at hbox
      cases hbox
      simp [Ipc.queued, hold] at hnone
    | opened | host | unixListener =>
      rw [hkind] at hbox
      cases hbox

end

end Yurt
