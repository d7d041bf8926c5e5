import YurtKernel.Kernel.FdTable

/-! Sockets by id (`kernel.rs`, `dispatch/socket.rs`).

    The system calls look a descriptor's socket id up and then work on the registry alone. Queued
    `SCM_RIGHTS` lists are references: they are taken when a message is sent and handed over, or
    dropped, when it is received. -/

namespace Yurt
variable {σ : Type} (k : Kernel σ) (id : Nat) (path : Bytes)

def hasBufferCapacity (current additional : Nat) : Bool :=
  additional ≤ kernelBufferCap ∧ current ≤ kernelBufferCap - additional

/-- `MSG_PEEK`. -/
def msgPeek : Nat := 2

/-! ### Creation -/

namespace Kernel

def createSocket (handle : Int) (domain sockType : Nat) : Nat × Kernel σ :=
  k.addSocket domain sockType (.host handle)

def createOpenSocket (domain sockType flags : Nat) : Nat × Kernel σ :=
  k.addSocket domain sockType (.opened flags none)

def createUnixDatagramSocket : Nat × Kernel σ := k.addSocket 1 2 (.unixDatagram none none none [] [] true)

/-- Two connected sockets under the next two ids; `kind` builds one from its peer's id. -/
def addPair (sockType : Nat) (kind : Nat → SocketKind) : (Nat × Nat) × Kernel σ :=
  let left := k.nextSocketId
  let right := k.nextSocketId + 1
  ((left, right), ((k.addSocket 1 sockType (kind right)).2.addSocket 1 sockType (kind left)).2)

def peerCredFor (pid : Pid) : PeerCred :=
  ⟨pid, (k.process pid).credentials.euid, (k.process pid).credentials.egid⟩

def createUnixStreamPair (cred : PeerCred) : (Nat × Nat) × Kernel σ :=
  k.addPair 1 (fun peer => .unixStream peer none none [] [] true cred)

def createUnixDatagramPair : (Nat × Nat) × Kernel σ :=
  k.addPair 2 (fun peer => .unixDatagram (some peer) none none [] [] true)

/-- Write to the kind of a socket that is there. -/
def setKind (kind : SocketKind) : Kernel σ :=
  { k with sockets := k.sockets.modify id (fun s => { s with kind := kind }) }

/-- A bound path outside the abstract namespace shows up in the file system. -/
def noteSocketInode : Kernel σ :=
  if path.head? = some 0 then k
  else { k with unixSocketInodes := k.unixSocketInodes.insert path () }

/-! ### Addresses -/

def bindUnixDatagram : Int × Kernel σ :=
  if k.unixDatagrams.contains path then (-EADDRINUSE, k)
  else
    match (k.sockets.get? id).map SocketEntry.kind with
    | none => (-EBADF, k)
    | some (.unixDatagram peer peerPath bound rx rights isOpen) =>
      let old := bound.elim k.unixDatagrams k.unixDatagrams.erase
      let k := k.setKind id (.unixDatagram peer peerPath (some path) rx rights isOpen)
      (0, { k with unixDatagrams := old.insert path id }.noteSocketInode path)
    | some _ => (-EINVAL, k)

def connectUnixDatagram : Int × Kernel σ :=
  match k.unixDatagrams.get? path with
  | none => (-ECONNREFUSED, k)
  | some peer =>
    match (k.sockets.get? id).map SocketEntry.kind with
    | none => (-EBADF, k)
    | some (.unixDatagram _ _ bound rx rights _) =>
      (0, k.setKind id (.unixDatagram (some peer) (some path) bound rx rights true))
    | some _ => (-EOPNOTSUPP, k)

def unlinkUnixSocketInode : Bool × Kernel σ :=
  (k.unixSocketInodes.contains path, { k with
      unixListeners := k.unixListeners.erase path
      unixDatagrams := k.unixDatagrams.erase path
      unixSocketInodes := k.unixSocketInodes.erase path })

def createUnixListener (backlog : Nat) : Except Int Nat × Kernel σ :=
  if k.unixListeners.contains path then (.error EADDRINUSE, k)
  else
    let backlog := if backlog = 0 then 128 else backlog
    let (id, k) := k.addSocket 3 6 (.unixListener path backlog [])
    (.ok id, { k with unixListeners := k.unixListeners.insert path id }.noteSocketInode path)

/-- Connect to the listener at `path`: the server end waits in its queue, the client end is
    returned. -/
def connectUnixStream (cred : PeerCred) : Except Int Nat × Kernel σ :=
  match k.unixListeners.get? path with
  | none => (.error ECONNREFUSED, k)
  | some listener =>
    match (k.sockets.get? listener).map SocketEntry.kind with
    | some (.unixListener lpath backlog pending) =>
      if backlog ≤ pending.length then (.error ECONNREFUSED, k)
      else
        let ((client, server), k) := k.createUnixStreamPair cred
        let k := k.setKind listener (.unixListener lpath backlog (pending ++ [server]))
        let k := k.setKind client (.unixStream server none (some path) [] [] true cred)
        (.ok client, k.setKind server (.unixStream client (some path) none [] [] true cred))
    | _ => (.error ECONNREFUSED, k)

def acceptUnixStream (listener : Nat) : Except Int Nat × Kernel σ :=
  match (k.sockets.get? listener).map SocketEntry.kind with
  | none => (.error EBADF, k)
  | some (.unixListener _ _ []) => (.error EAGAIN, k)
  | some (.unixListener path backlog (id :: pending)) =>
    (.ok id, k.setKind listener (.unixListener path backlog pending))
  | some _ => (.error EINVAL, k)

/-! ### Half-close -/

def socketShutdownBits : Nat := (k.socketShutdown.get? id).getD 0

/-- `shutdown(SHUT_RD)`: received data is discarded. -/
def readShut : Bool := k.socketShutdownBits id &&& 1 ≠ 0

/-- `shutdown(SHUT_WR)`: sending fails. -/
def writeShut : Bool := k.socketShutdownBits id &&& 2 ≠ 0

def socketPeerWriteClosed : Bool := k.socketShutdownBits id &&& 4 ≠ 0

end Kernel

def SocketKind.peer? : SocketKind → Option Nat
  | .unixStream peer _ _ _ _ _ _ => some peer
  | .unixDatagram peer _ _ _ _ _ => peer
  | _ => none

def Kernel.orShutdown (id bits : Nat) : Kernel σ :=
  { k with socketShutdown := k.socketShutdown.insert id (k.socketShutdownBits id ||| bits) }

def Kernel.socketShutdownApply (id how : Nat) : Kernel σ :=
  let bits := if how = 0 then 1 else if how = 1 then 2 else 3
  let k := k.orShutdown id bits
  if bits &&& 2 = 0 then k
  else
    -- the peer reads end of file once it has drained what is queued
    match (k.sockets.get? id).bind (fun s => s.kind.peer?) with
    | some peer => if k.sockets.contains peer then k.orShutdown peer 4 else k
    | none => k

def Kernel.socketShutdownClear : Kernel σ := { k with socketShutdown := k.socketShutdown.erase id }

/-! ### Sending -/

def datagramQueueBytes (rx : List UnixDatagramPacket) : Nat :=
  (rx.map (fun packet => packet.data.length)).sum

def rightsQueueFull (rights : List FdEntry) (queueLen : Nat) : Bool :=
  !rights.isEmpty && kernelRightsQueueCap ≤ queueLen

/-- Queue with a message's rights behind it; a message without rights leaves no list. -/
def pushRights (queue : List (List FdEntry)) (rights : List FdEntry) : List (List FdEntry) :=
  if rights.isEmpty then queue else queue ++ [rights]

/-- Append stream bytes, and rights, to what socket `peer` has to receive. -/
def Kernel.deliverStream (peer : Nat) (data : Bytes) (rights : List FdEntry) : Int × Kernel σ :=
  match (k.sockets.get? peer).map SocketEntry.kind with
  | some (.unixStream p lp pp rx q isOpen cred) =>
    if !hasBufferCapacity rx.length data.length || rightsQueueFull rights q.length then (-EAGAIN, k)
    else (data.length, k.setKind peer (.unixStream p lp pp (rx ++ data) (pushRights q rights) isOpen cred))
  | _ => (-EPIPE, k)

/-- Append a packet, and rights, to what socket `peer` has to receive; `gone` is the code if there
    is no datagram socket. -/
def Kernel.deliverPacket (gone : Int) (peer : Nat) (packet : UnixDatagramPacket)
    (rights : List FdEntry) : Int × Kernel σ :=
  match (k.sockets.get? peer).map SocketEntry.kind with
  | some (.unixDatagram p pp bp rx q isOpen) =>
    if !hasBufferCapacity (datagramQueueBytes rx) packet.data.length ||
        rightsQueueFull rights q.length then (-EAGAIN, k)
    else (packet.data.length,
      k.setKind peer (.unixDatagram p pp bp (rx ++ [packet]) (pushRights q rights) isOpen))
  | _ => (-gone, k)

def Kernel.socketSendId (kh : Kh σ) (k : Kernel σ) (id : Nat) (data : Bytes) : Int × Kernel σ :=
  if k.writeShut id then (-EPIPE, k)
  else
    match (k.sockets.get? id).map SocketEntry.kind with
    | none => (-EBADF, k)
    | some (.opened _ _) => (-ENOTCONN, k)
    | some (.host handle) =>
      let (rc, host) := kh.socketSend k.host handle data
      (rc, { k with host := host })
    | some (.unixListener _ _ _) => (-EOPNOTSUPP, k)
    | some (.unixStream peer _ _ _ _ isOpen _) =>
      if isOpen then k.deliverStream peer data [] else (-EPIPE, k)
    | some (.unixDatagram none _ _ _ _ _) => (-EINVAL, k)
    | some (.unixDatagram (some peer) _ bound _ _ isOpen) =>
      if isOpen then k.deliverPacket EPIPE peer ⟨data, bound⟩ [] else (-EPIPE, k)

/-- Send with rights, which the caller has already taken references for. They are queued, or dropped
    when the send fails; a shut-down write half returns before either. -/
def Kernel.socketSendmsgId (data : Bytes) (rights : List FdEntry) : Int × Kernel σ :=
  if k.writeShut id then (-EPIPE, k)
  else
    let (rc, k) := match (k.sockets.get? id).map SocketEntry.kind with
      | some (.unixStream peer _ _ _ _ isOpen _) =>
        if isOpen then k.deliverStream peer data rights else (-EPIPE, k)
      | some (.unixDatagram (some peer) _ bound _ _ isOpen) =>
        if isOpen then k.deliverPacket EPIPE peer ⟨data, bound⟩ rights else (-EPIPE, k)
      | some (.unixDatagram none _ _ _ _ _) => (-EINVAL, k)
      | some _ => (-EOPNOTSUPP, k)
      | none => (-EBADF, k)
    if rc < 0 then (rc, k.closeEntries rights) else (rc, k)

/-! ### Receiving -/

/-- Code of a receive that finds nothing queued. -/
def emptyRecv (peerOpen peerWriteClosed : Bool) : Int :=
  if peerOpen && !peerWriteClosed then -EAGAIN else 0

def Kernel.socketRecvId (kh : Kh σ) (k : Kernel σ) (id cap flags : Nat) : Reply × Kernel σ :=
  match k.sockets.get? id with
  | none => (.code (-EBADF), k)
  | some s =>
    if k.readShut id then (.code 0, k)
    else
      match s.kind with
      | .opened _ _ => (.code (-ENOTCONN), k)
      | .host handle =>
        let ((rc, bytes), host) := kh.socketRecv k.host handle cap flags
        (⟨rc, [(0, bytes.take cap)]⟩, { k with host := host })
      | .unixListener _ _ _ => (.code (-EOPNOTSUPP), k)
      | .unixDatagram p pp bp rx rights isOpen =>
        if flags ≠ 0 ∧ flags ≠ msgPeek then (.code (-EOPNOTSUPP), k)
        else
          match rx with
          | [] => (.code (emptyRecv isOpen (k.socketPeerWriteClosed id)), k)
          | packet :: rest =>
            (.data (packet.data.take cap),
              if flags = msgPeek then k
              else k.setKind id (.unixDatagram p pp bp rest rights isOpen))
      | .unixStream p lp pp rx rights isOpen cred =>
        if flags ≠ 0 ∧ flags ≠ msgPeek then (.code (-EOPNOTSUPP), k)
        else if rx.isEmpty then (.code (emptyRecv isOpen (k.socketPeerWriteClosed id)), k)
        else
          (.data (rx.take cap),
            if flags = msgPeek then k
            else k.setKind id (.unixStream p lp pp (rx.drop cap) rights isOpen cred))

/-- Take the rights of the next message off the queue, unless the read half is shut down. -/
def Kernel.popRights : List FdEntry × Kernel σ :=
  if k.readShut id then ([], k)
  else
    match (k.sockets.get? id).map SocketEntry.kind with
    | some (.unixStream p lp pp rx (r :: q) isOpen cred) =>
      (r, k.setKind id (.unixStream p lp pp rx q isOpen cred))
    | some (.unixDatagram p pp bp rx (r :: q) isOpen) =>
      (r, k.setKind id (.unixDatagram p pp bp rx q isOpen))
    | _ => ([], k)

end Yurt
