import YurtKernel.Kernel.IpcOps

/-! Operations of the registries that move data.

    A send appends to the inbox of one socket and a receive takes from the inbox of one, with the
    `SCM_RIGHTS` lists beside the bytes. Everything else stays. -/

namespace Yurt
open SortedMap
variable {σ : Type} {k : Kernel σ} {id : Nat}
variable {s : SocketEntry} {q : List (List FdEntry)} {pp : Option Bytes} {kind : SocketKind}
  {isOpen : Bool} {v : Ipc}

namespace Ipc

/-- From `v` to `v'` socket `id` gets something else to receive, and nothing else happens. -/
structure SetsBox (v v' : Ipc) (id : Nat) (box : Inbox) : Prop where
  pipes : v'.pipes = v.pipes
  nextPipe : v'.nextPipe = v.nextPipe
  nextSocket : v'.nextSocket = v.nextSocket
  inbox : v'.inbox id = some box
  others : ∀ i, i ≠ id → v'.inbox i = v.inbox i
  wired : v'.Wired

/-- Other bytes in a pipe. -/
theorem Wired.insertPipe (h : v.Wired) {b b' : PipeBuf} (hb : v.pipes.get? id = some b) :
    ({ v with pipes := v.pipes.insert id b' } : Ipc).Wired :=
  { h with
    pipe_fresh := fun i hi => by
      have hne : i ≠ id := by
        rintro rfl
        rw [h.pipe_fresh i hi] at hb
        cases hb
      rw [get?_insert_ne _ _ hne]
      exact h.pipe_fresh i hi }

/-- A kind with another inbox in the same part. -/
theorem Wired.setBox (h : k.ipc.Wired) {box : Inbox} (hs : k.sockets.get? id = some s)
    (hrole : k.ipc.SameRole s.kind kind) (hbox : kind.inbox = some box) :
    k.ipc.SetsBox (k.setKind id kind).ipc id box := by
  have heq : (k.setKind id kind).ipc =
      { k.ipc with sockets := k.ipc.sockets.insert id { s with kind := kind } } := by
    simp only [Kernel.setKind, SortedMap.modify, hs, Kernel.ipc]
  rw [heq]
  refine ⟨rfl, rfl, rfl, ?_, fun i hi => ?_, h.replace hs ?_⟩
  · simp only [Ipc.inbox, get?_insert_self, Option.bind_some, hbox]
  · simp only [Ipc.inbox, get?_insert_ne _ _ hi]
  · exact hrole

theorem Wired.setStreamBox (h : k.ipc.Wired) {peer : Nat} {lp : Option Bytes} {rx : Bytes}
    {cred : PeerCred} (rx' : Bytes) (q' : List (List FdEntry)) (hs : k.sockets.get? id = some s)
    (hkind : s.kind = .unixStream peer lp pp rx q isOpen cred) :
    k.ipc.SetsBox (k.setKind id (.unixStream peer lp pp rx' q' isOpen cred)).ipc id
      (.stream rx' q') :=
  h.setBox hs ⟨by rw [hkind]; rfl, fun _ => by rw [hkind]; rfl, by rw [hkind]; rfl,
    fun p hp => by cases hp⟩ rfl

theorem Wired.setDatagramBox (h : k.ipc.Wired) {peer : Option Nat} {bound : Option Bytes}
    {rx : List UnixDatagramPacket} (rx' : List UnixDatagramPacket) (q' : List (List FdEntry))
    (hs : k.sockets.get? id = some s) (hkind : s.kind = .unixDatagram peer pp bound rx q isOpen) :
    k.ipc.SetsBox (k.setKind id (.unixDatagram peer pp bound rx' q' isOpen)).ipc id
      (.datagram rx' q') :=
  h.setBox hs ⟨by rw [hkind]; rfl, fun _ => by rw [hkind]; rfl, by rw [hkind]; rfl,
    fun p hp => h.datagram id s p hs (by rw [hkind]; exact hp)⟩ rfl

theorem inbox_eq (hs : v.sockets.get? id = some s) :
    v.inbox id = s.kind.inbox := by rw [Ipc.inbox, hs, Option.bind_some]

/-! ### Sending -/

/-- A message of `data` and `rights` reached socket `peer`. -/
def Delivers (v v' : Ipc) (rc : Int) (peer : Nat) (data : Bytes) (rights : List FdEntry) : Prop :=
  rc = data.length ∧
    ((∃ rx q, v.inbox peer = some (.stream rx q) ∧ hasBufferCapacity rx.length data.length = true ∧
        v.SetsBox v' peer (.stream (rx ++ data) (pushRights q rights))) ∨
      (∃ rx q packet, v.inbox peer = some (.datagram rx q) ∧ packet.data = data ∧
        v.SetsBox v' peer (.datagram (rx ++ [packet]) (pushRights q rights))))

theorem Wired.deliverStream (h : k.ipc.Wired) (peer : Nat) (data : Bytes)
    (rights : List FdEntry) :
    ((k.deliverStream peer data rights).1 < 0 ∧ (k.deliverStream peer data rights).2 = k) ∨
      k.ipc.Delivers (k.deliverStream peer data rights).2.ipc (k.deliverStream peer data rights).1
        peer data rights := by
  unfold Kernel.deliverStream
  cases hs : k.sockets.get? peer with
  | none => exact .inl ⟨(by decide : -EPIPE < 0), rfl⟩
  | some s =>
    simp only [Option.map_some]
    cases hkind : s.kind with
    | unixStream p lp pp rx q isOpen cred =>
      simp only
      split_ifs with hfull
      · exact .inl ⟨(by decide : -EAGAIN < 0), rfl⟩
      · right
        have hroom : hasBufferCapacity rx.length data.length = true := by
          simp only [Bool.or_eq_true, not_or] at hfull
          simpa using hfull.1
        refine ⟨rfl, .inl ⟨rx, q, ?_, hroom, h.setStreamBox _ _ hs hkind⟩⟩
        rw [Ipc.inbox_eq (v := k.ipc) hs, hkind]
        rfl
    | _ => exact .inl ⟨(by decide : -EPIPE < 0), rfl⟩

theorem Wired.deliverPacket (h : k.ipc.Wired) {gone : Int} (hgone : 0 < gone) (peer : Nat)
    (packet : UnixDatagramPacket) (rights : List FdEntry) :
    ((k.deliverPacket gone peer packet rights).1 < 0 ∧ (k.deliverPacket gone peer packet rights).2 = k) ∨
      k.ipc.Delivers (k.deliverPacket gone peer packet rights).2.ipc
        (k.deliverPacket gone peer packet rights).1 peer packet.data rights := by
  unfold Kernel.deliverPacket
  have hlost : -gone < 0 := by omega
  cases hs : k.sockets.get? peer with
  | none => exact .inl ⟨hlost, rfl⟩
  | some s =>
    simp only [Option.map_some]
    cases hkind : s.kind with
    | unixDatagram p pp bp rx q isOpen =>
      simp only
      split_ifs
      · exact .inl ⟨(by decide : -EAGAIN < 0), rfl⟩
      · refine .inr ⟨rfl, .inr ⟨rx, q, packet, ?_, rfl, h.setDatagramBox _ _ hs hkind⟩⟩
        rw [Ipc.inbox_eq (v := k.ipc) hs, hkind]
        rfl
    | _ => exact .inl ⟨hlost, rfl⟩

/-- Socket a socket is connected to. -/
def peerOf (v : Ipc) (id : Nat) : Option Nat := (v.sockets.get? id).bind (fun s => s.kind.peer?)

/-- A send fails, goes to the host, or reaches the peer. -/
theorem Wired.socketSendId (h : k.ipc.Wired) (kh : Kh σ) (id : Nat) (data : Bytes) :
    ((k.socketSendId kh id data).2.ipc = k.ipc ∧
        (k.ipc.peerOf id ≠ none → (k.socketSendId kh id data).1 < 0)) ∨
      ∃ peer, k.ipc.peerOf id = some peer ∧ k.ipc.Delivers (k.socketSendId kh id data).2.ipc
        (k.socketSendId kh id data).1 peer data [] := by
  unfold Kernel.socketSendId
  split_ifs
  · exact .inl ⟨rfl, fun _ => (by decide : -EPIPE < 0)⟩
  · cases hs : k.sockets.get? id with
    | none => exact .inl ⟨rfl, fun _ => (by decide : -EBADF < 0)⟩
    | some s =>
      have hpeer : k.ipc.peerOf id = s.kind.peer? := by
        rw [Ipc.peerOf, show k.ipc.sockets.get? id = some s from hs, Option.bind_some]
      rw [hpeer]
      simp only [Option.map_some]
      cases hkind : s.kind with
      | opened => exact .inl ⟨rfl, fun _ => (by decide : -ENOTCONN < 0)⟩
      | host handle => exact .inl ⟨rfl, fun hne => absurd rfl hne⟩
      | unixListener => exact .inl ⟨rfl, fun _ => (by decide : -EOPNOTSUPP < 0)⟩
      | unixStream peer lp pp rx q isOpen cred =>
        simp only
        split_ifs
        · rcases h.deliverStream peer data [] with ⟨hrc, hsame⟩ | hdelivers
          · exact .inl ⟨congrArg Kernel.ipc hsame, fun _ => hrc⟩
          · exact .inr ⟨peer, rfl, hdelivers⟩
        · exact .inl ⟨rfl, fun _ => (by decide : -EPIPE < 0)⟩
      | unixDatagram peer pp bound rx q isOpen =>
        cases peer with
        | none => exact .inl ⟨rfl, fun hne => absurd rfl hne⟩
        | some peer =>
          simp only
          split_ifs
          · rcases h.deliverPacket (by decide : 0 < EPIPE) peer ⟨data, bound⟩ [] with
              ⟨hrc, hsame⟩ | hdelivers
            · exact .inl ⟨congrArg Kernel.ipc hsame, fun _ => hrc⟩
            · exact .inr ⟨peer, rfl, hdelivers⟩
          · exact .inl ⟨rfl, fun _ => (by decide : -EPIPE < 0)⟩

/-- A message with rights fails, and the references it holds may be dropped, or it reaches the
    peer. -/
theorem Wired.socketSendmsgId (h : k.ipc.Wired) (id : Nat) (data : Bytes)
    (rights : List FdEntry) :
    ((k.socketSendmsgId id data rights).1 < 0 ∧ ((k.socketSendmsgId id data rights).2 = k ∨
          (k.socketSendmsgId id data rights).2 = k.closeEntries rights)) ∨
      ∃ peer, k.ipc.peerOf id = some peer ∧ k.ipc.Delivers (k.socketSendmsgId id data rights).2.ipc
        (k.socketSendmsgId id data rights).1 peer data rights := by
  unfold Kernel.socketSendmsgId
  split
  · exact .inl ⟨(by decide : -EPIPE < 0), .inl rfl⟩
  have hpeer : k.ipc.peerOf id = ((k.sockets.get? id).map SocketEntry.kind).bind SocketKind.peer? := by
    rw [Ipc.peerOf]
    cases hs : k.sockets.get? id with
    | none => rw [show k.ipc.sockets.get? id = none from hs]; rfl
    | some s => rw [show k.ipc.sockets.get? id = some s from hs]; rfl
  -- either the delivery fails and changes nothing, or it succeeds
  have hcases : ∀ r r' : Int × Kernel σ,
      r' = (if r.1 < 0 then (r.1, r.2.closeEntries rights) else (r.1, r.2)) → (r.1 < 0 ∧ r.2 = k ∨
        ∃ peer, k.ipc.peerOf id = some peer ∧ k.ipc.Delivers r.2.ipc r.1 peer data rights) →
      (r'.1 < 0 ∧ (r'.2 = k ∨ r'.2 = k.closeEntries rights)) ∨
        ∃ peer, k.ipc.peerOf id = some peer ∧ k.ipc.Delivers r'.2.ipc r'.1 peer data rights := by
    rintro ⟨rc, k'⟩ _ rfl (⟨hrc, hk'⟩ | ⟨peer, hp, hdelivers⟩)
    · obtain rfl : k' = k := hk'
      rw [if_pos hrc]
      exact .inl ⟨hrc, .inr rfl⟩
    · have hrc : ¬ rc < 0 := by
        have := hdelivers.1
        simp only at this
        omega
      rw [if_neg hrc]
      exact .inr ⟨peer, hp, hdelivers⟩
  rw [hpeer] at hcases ⊢
  simp only
  refine hcases _ _ rfl ?_
  cases (k.sockets.get? id).map SocketEntry.kind with
  | none => exact .inl ⟨(by decide : -EBADF < 0), rfl⟩
  | some kind =>
    cases kind with
    | unixStream peer lp pp rx q isOpen cred =>
      simp only
      split_ifs
      · exact (h.deliverStream peer data rights).imp_right (fun hd => ⟨peer, rfl, hd⟩)
      · exact .inl ⟨(by decide : -EPIPE < 0), rfl⟩
    | unixDatagram peer pp bound rx q isOpen =>
      cases peer with
      | none => exact .inl ⟨(by decide : -EINVAL < 0), rfl⟩
      | some peer =>
        simp only
        split_ifs
        · exact (h.deliverPacket (by decide : 0 < EPIPE) peer ⟨data, bound⟩ rights).imp_right
            (fun hd => ⟨peer, rfl, hd⟩)
        · exact .inl ⟨(by decide : -EPIPE < 0), rfl⟩
    | _ => exact .inl ⟨(by decide : -EOPNOTSUPP < 0), rfl⟩

/-! ### Receiving -/

/-- The rest of a queue, after something was taken off its front. -/
theorem Wired.setTaken (h : k.ipc.Wired) (hs : k.sockets.get? id = some s) {cap : Nat}
    {data : Bytes} (htaken : s.kind.takeFront cap = some (data, kind)) :
    ∃ box, kind.inbox = some box ∧ k.ipc.SetsBox (k.setKind id kind).ipc id box := by
  cases hkind : s.kind with
  | unixStream p lp pp rx q isOpen cred =>
    rw [hkind, SocketKind.takeFront] at htaken
    split_ifs at htaken
    cases htaken
    exact ⟨_, rfl, h.setStreamBox _ _ hs hkind⟩
  | unixDatagram p pp bp rx q isOpen =>
    rw [hkind] at htaken
    cases rx with
    | nil => cases htaken
    | cons packet rest =>
      cases htaken
      exact ⟨_, rfl, h.setDatagramBox _ _ hs hkind⟩
  | opened | host | unixListener => rw [hkind] at htaken; cases htaken

end Ipc

/-- The rights queue of an inbox. -/
def Inbox.rights : Inbox → List (List FdEntry)
  | .stream _ rights => rights
  | .datagram _ rights => rights

def Inbox.popRights : Inbox → Inbox
  | .stream rx rights => .stream rx rights.tail
  | .datagram rx rights => .datagram rx rights.tail

/-- Rights are taken from the front of the queue of the socket's inbox. -/
theorem Ipc.Wired.popRights (h : k.ipc.Wired) (id : Nat) :
    ((k.popRights id).1 = [] ∧ (k.popRights id).2.ipc = k.ipc ∧
        (k.readShut id = false → ∀ box, k.ipc.inbox id = some box → box.rights = [])) ∨
      ∃ box r q, k.readShut id = false ∧ k.ipc.inbox id = some box ∧ box.rights = r :: q ∧
        (k.popRights id).1 = r ∧ k.ipc.SetsBox (k.popRights id).2.ipc id box.popRights := by
  unfold Kernel.popRights
  split
  · next hshut => exact .inl ⟨rfl, rfl, fun hopen => nomatch hopen.symm.trans hshut⟩
  rename_i hshut
  have hshut : k.readShut id = false := by simpa using hshut
  cases hs : k.sockets.get? id with
  | none =>
    refine .inl ⟨rfl, rfl, fun _ box hbox => ?_⟩
    rw [Ipc.inbox, show k.ipc.sockets.get? id = none from hs] at hbox
    cases hbox
  | some s =>
    rw [Ipc.inbox_eq (v := k.ipc) hs]
    simp only [Option.map_some]
    cases hkind : s.kind with
    | unixStream peer lp pp rx q isOpen cred =>
      cases q with
      | nil => exact .inl ⟨rfl, rfl, fun _ box hbox => by cases hbox; rfl⟩
      | cons r q =>
        exact .inr ⟨.stream rx (r :: q), r, q, hshut, rfl, rfl, rfl, h.setStreamBox _ _ hs hkind⟩
    | unixDatagram peer pp bound rx q isOpen =>
      cases q with
      | nil => exact .inl ⟨rfl, rfl, fun _ box hbox => by cases hbox; rfl⟩
      | cons r q =>
        exact .inr ⟨.datagram rx (r :: q), r, q, hshut, rfl, rfl, rfl, h.setDatagramBox _ _ hs hkind⟩
    | _ => exact .inl ⟨rfl, rfl, fun _ _ hbox => by cases hbox⟩

end Yurt
