import YurtKernel.Dispatch.Fd

/-! Socket calls (`dispatch/socket.rs`).

    A descriptor leads to a socket id and the work is done on the registry. Calls that make a socket
    give its one reference to a descriptor of the caller, or release it when the caller is at its
    descriptor limit. -/

namespace Yurt
variable {σ : Type} (kh : Kh σ) (k : Kernel σ) (pid : Pid) (request : Bytes)

/-! ### Descriptors -/

/-- Id of the live socket behind a descriptor. -/
def Kernel.socketIdForFd (fd : Nat) : Except Int Nat :=
  match k.fdEntry pid fd with
  | none => .error (-EBADF)
  | some (.socket id) => if k.sockets.contains id then .ok id else .error (-EBADF)
  | some _ => .error (-ENOTSOCK)

/-- Install a socket on the lowest free descriptor, or give its reference back. -/
def Kernel.installSocketIdFd (id : Nat) : Int × Kernel σ :=
  match k.freeFd pid with
  | none => (-EMFILE, (k.touch pid).decFdEntryRef kh (.socket id))
  | some fd => (fd, k.installFd pid fd (.socket id))

def Kernel.installSocketFd (handle : Int) (domain sockType : Nat) : Int × Kernel σ :=
  let (id, k) := k.createSocket handle domain sockType
  k.installSocketIdFd kh pid id

def Kernel.replaceSocketFd (fd oldId newId : Nat) : Kernel σ :=
  (k.installFd pid fd (.socket newId)).decFdEntryRef kh (.socket oldId)

/-! ### Socket addresses -/

def sockaddrFamily (addr : Bytes) : Option Nat :=
  if addr.length < 2 then none else some (leNat (addr.take 2))

/-- Path of an `AF_UNIX` address. Abstract names start with a zero byte and lose trailing zeros;
    others end at the first zero. -/
def unixPathFromAddr (addr : Bytes) : Option Bytes :=
  if (sockaddrFamily addr ≠ some 1 ∧ sockaddrFamily addr ≠ some 3) ∨ addr.length ≤ 2 then none
  else
    let path := addr.drop 2
    if path.head? = some 0 then
      let name := (path.reverse.dropWhile (fun b => b = 0)).reverse
      if 1 < name.length then some name else none
    else
      let name := path.takeWhile (fun b => b ≠ 0)
      if name.isEmpty then none else some name

def isIpv4Sockaddr (addr : Bytes) : Bool := sockaddrFamily addr = some 2 ∧ 16 ≤ addr.length
def isIpv6Sockaddr (addr : Bytes) : Bool := sockaddrFamily addr = some 10 ∧ 28 ≤ addr.length

def inetSockaddrOk (domain : Nat) (addr : Bytes) : Bool :=
  (domain = 2 && isIpv4Sockaddr addr) || (domain = 10 && isIpv6Sockaddr addr)

/-- Any-address sockaddr of a family. -/
def anyAddr (family size : Nat) : Bytes := leBytes 2 family ++ List.replicate (size - 2) 0

def anyAddrIpv4Sockaddr : Bytes := anyAddr 2 16
def anyAddrIpv6Sockaddr : Bytes := anyAddr 10 28

/-! ### Opening, binding, connecting -/

namespace Kernel

/-- `socket(family, type)`. -/
def sysSocketOpen : Int × Kernel σ :=
  if request.length < 8 then (-EINVAL, k)
  else
    let family := leNat (request.take 1)
    let sockType := leNat ((request.drop 1).take 1)
    if family ∉ [1, 2, 3, 10] then (-EAFNOSUPPORT, k)
    else if sockType ∉ [1, 2, 5, 6] then (-EPROTOTYPE, k)
    else if sockType = 2 ∨ sockType = 5 then
      if family ≠ 1 ∧ family ≠ 3 then (-EAFNOSUPPORT, k)
      else
        let (id, k) := k.createUnixDatagramSocket
        k.installSocketIdFd kh pid id
    else
      let (id, k) := k.createOpenSocket family sockType (u32At request 4)
      k.installSocketIdFd kh pid id

/-- `bind(fd, addr)`. -/
def sysSocketBind : Int × Kernel σ :=
  if request.length < 4 then (-EINVAL, k)
  else
    let addr := request.drop 4
    let k' := k.touch pid
    match k.socketIdForFd pid (u32At request 0) with
    | .error rc => (rc, k')
    | .ok id =>
      match k.sockets.get? id with
      | none => (-EBADF, k')
      | some s =>
        match s.kind, unixPathFromAddr addr with
        | .unixDatagram _ _ _ _ _ _, some path => k'.bindUnixDatagram id path
        | .unixDatagram _ _ _ _ _ _, none => (-EINVAL, k')
        | .opened flags _, path =>
          if path.isSome ∧ s.domain ≠ 1 ∧ s.domain ≠ 3 then (-EAFNOSUPPORT, k')
          else if path.isNone ∧ !inetSockaddrOk s.domain addr then (-EAFNOSUPPORT, k')
          else (0, k'.setKind id (.opened flags (some addr)))
        | _, path =>
          if path.isSome ∧ s.domain ≠ 1 ∧ s.domain ≠ 3 then (-EAFNOSUPPORT, k')
          else (-EOPNOTSUPP, k')

/-- A socket becomes a connection of the host; half-close bits of its former life are dropped. -/
def becomeHost (id : Nat) (handle : Int) : Kernel σ := (k.setKind id (.host handle)).socketShutdownClear id

/-- Listen on a path of the kernel, or on an address of the host. -/
def listenAt (fd id backlog : Nat) (addr : Bytes) : Int × Kernel σ :=
  match unixPathFromAddr addr with
  | some path =>
    match k.createUnixListener path backlog with
    | (.ok newId, k) => (0, k.replaceSocketFd kh pid fd id newId)
    | (.error e, k) => (-e, k)
  | none =>
    let (handle, host) := kh.socketListenAt k.host addr backlog
    let k := { k with host := host }
    if handle < 0 then (handle, k) else (0, k.becomeHost id handle)

/-- `listen(fd, backlog)`. -/
def sysSocketListen : Int × Kernel σ :=
  if request.length < 8 then (-EINVAL, k)
  else
    let fd := u32At request 0
    let backlog := u32At request 4
    let k' := k.touch pid
    match k.socketIdForFd pid fd with
    | .error rc => (rc, k')
    | .ok id =>
      match k.sockets.get? id with
      | none => (-EBADF, k')
      | some s =>
        match s.kind with
        | .opened _ bound =>
          if s.sockType ≠ 1 ∧ s.sockType ≠ 6 then (-EOPNOTSUPP, k')
          else
            match bound, s.domain with
            | none, 2 => k'.listenAt kh pid fd id backlog anyAddrIpv4Sockaddr
            | none, 10 => k'.listenAt kh pid fd id backlog anyAddrIpv6Sockaddr
            | none, _ => (-EINVAL, k')
            | some addr, _ => k'.listenAt kh pid fd id backlog addr
        | _ => (-EOPNOTSUPP, k')

/-- `accept(fd)`: the descriptor limit is checked before a connection is taken off its queue. -/
def sysSocketAccept : Int × Kernel σ :=
  if request.length < 8 then (-EINVAL, k)
  else
    let k' := k.touch pid
    match k.fdEntry pid (u32At request 0) with
    | none => (-EBADF, k')
    | some (.socket id) =>
      match k.sockets.get? id with
      | none => (-EBADF, k')
      | some s =>
        match s.kind with
        | .unixListener _ _ _ =>
          if (k.freeFd pid).isNone then (-EMFILE, k')
          else
            match k'.acceptUnixStream id with
            | (.ok accepted, k) => k.installSocketIdFd kh pid accepted
            | (.error e, k) => (-e, k)
        | .host handle =>
          if (k.freeFd pid).isNone then (-EMFILE, k')
          else
            let (accepted, host) := kh.socketAccept k'.host handle (u32At request 4)
            let k := { k' with host := host }
            if accepted < 0 then (accepted, k)
            else k.installSocketFd kh pid accepted s.domain s.sockType
        | _ => (if s.sockType = 1 ∨ s.sockType = 6 then -EINVAL else -EOPNOTSUPP, k')
    | some _ => (-ENOTSOCK, k')

/-- `connect(fd, addr)`. -/
def sysSocketConnect : Int × Kernel σ :=
  if request.length < 4 then (-EINVAL, k)
  else
    let fd := u32At request 0
    let addr := request.drop 4
    if addr.isEmpty then (-EINVAL, k)
    else
      let k' := k.touch pid
      match k.socketIdForFd pid fd with
      | .error rc => (rc, k')
      | .ok id =>
        match k.sockets.get? id with
        | none => (-EBADF, k')
        | some s =>
          match s.kind, unixPathFromAddr addr with
          | .opened flags _, path =>
            match path with
            | some path =>
              if (s.domain = 1 ∨ s.domain = 3) ∧ (s.sockType = 1 ∨ s.sockType = 6) then
                match k'.connectUnixStream path (k.peerCredFor pid) with
                | (.ok newId, k) => (0, k.replaceSocketFd kh pid fd id newId)
                | (.error e, k) => (-e, k)
              else (-EAFNOSUPPORT, k')
            | none =>
              if !inetSockaddrOk s.domain addr then (-EAFNOSUPPORT, k')
              else
                let (handle, host) := kh.socketConnect k'.host addr flags
                let k := { k' with host := host }
                if handle < 0 then (handle, k) else (0, k.becomeHost id handle)
          | .unixDatagram _ _ _ _ _ _, some path => k'.connectUnixDatagram id path
          | .unixDatagram _ _ _ _ _ _, none => (-EAFNOSUPPORT, k')
          | _, _ => (-EOPNOTSUPP, k')

/-- Descriptors for the two ends of a pair: both, or neither. -/
def installSocketPair (left right : Nat) : Reply × Kernel σ :=
  match k.freeFd pid with
  | none => (.code (-EMFILE), (k.decFdEntryRef kh (.socket left)).decFdEntryRef kh (.socket right))
  | some leftFd =>
    let k := k.installFd pid leftFd (.socket left)
    match k.freeFd pid with
    | none =>
      let k := (k.removeFd pid leftFd).decFdEntryRef kh (.socket left)
      (.code (-EMFILE), k.decFdEntryRef kh (.socket right))
    | some rightFd =>
      (.data (leBytes 4 leftFd ++ leBytes 4 rightFd), k.installFd pid rightFd (.socket right))

/-- `socketpair(family, type)`. -/
def sysSocketpair (cap : Nat) : Reply × Kernel σ :=
  if request.length < 8 ∨ cap < 8 then (.code (-EINVAL), k)
  else
    let family := leNat (request.take 1)
    let sockType := leNat ((request.drop 1).take 1)
    if family ≠ 1 ∧ family ≠ 3 then (.code (-EAFNOSUPPORT), k)
    else if sockType ∉ [1, 2, 5, 6] then (.code (-EPROTOTYPE), k)
    else
      let ((left, right), k) :=
        if sockType = 2 ∨ sockType = 5 then k.createUnixDatagramPair
        else (k.touch pid).createUnixStreamPair (k.peerCredFor pid)
      (k.touch pid).installSocketPair kh pid left right

/-! ### Half-close and close -/

/-- `shutdown(fd, how)`. -/
def sysSocketShutdown : Int × Kernel σ :=
  if request.length < 8 then (-EINVAL, k)
  else if u32At request 4 > 2 then (-EINVAL, k)
  else
    match k.fdEntry pid (u32At request 0) with
    | none => (-EBADF, k.touch pid)
    | some (.socket id) => (0, (k.touch pid).socketShutdownApply id (u32At request 4))
    | some _ => (-ENOTSOCK, k.touch pid)

def sysSocketClose : Int × Kernel σ :=
  if request.length < 4 then (-EINVAL, k)
  else
    match k.fdEntry pid (u32At request 0) with
    | some (.socket _) => k.closeFdNumber kh pid (u32At request 0)
    | _ => (-EBADF, k.touch pid)

/-! ### Data -/

def sysSocketSend : Int × Kernel σ :=
  if request.length < 4 then (-EINVAL, k)
  else
    match k.socketIdForFd pid (u32At request 0) with
    | .error rc => (rc, k.touch pid)
    | .ok id => (k.touch pid).socketSendId kh id (request.drop 4)

def sysSocketRecv (cap : Nat) : Reply × Kernel σ :=
  if request.length < 8 then (.code (-EINVAL), k)
  else if cap = 0 then (.code (-EINVAL), k)
  else
    match k.socketIdForFd pid (u32At request 0) with
    | .error rc => (.code rc, k.touch pid)
    | .ok id => (k.touch pid).socketRecvId kh id cap (u32At request 4)

/-- Send one packet to the datagram socket bound at an address. -/
def socketSendtoId (id : Nat) (addr data : Bytes) : Int × Kernel σ :=
  if k.writeShut id then (-EPIPE, k)
  else
    match unixPathFromAddr addr with
    | none => (-EINVAL, k)
    | some path =>
      match (k.sockets.get? id).map SocketEntry.kind with
      | none => (-EBADF, k)
      | some (.unixDatagram _ _ bound _ _ _) =>
        match k.unixDatagrams.get? path with
        | none => (-ECONNREFUSED, k)
        | some target => k.deliverPacket ECONNREFUSED target ⟨data, bound⟩ []
      | some _ => (-EOPNOTSUPP, k)

/-- `sendto`; `MSG_DONTWAIT` and `MSG_NOSIGNAL` are accepted and ignored. -/
def sysSocketSendto : Int × Kernel σ :=
  if request.length < 12 then (-EINVAL, k)
  else
    let addrLen := u32At request 8
    if request.length < 12 + addrLen then (-EINVAL, k)
    else if u32At request 4 ≠ u32At request 4 &&& 0x4040 then (-EOPNOTSUPP, k)
    else
      match k.socketIdForFd pid (u32At request 0) with
      | .error rc => (rc, k.touch pid)
      | .ok id => (k.touch pid).socketSendtoId id ((request.drop 12).take addrLen)
          (request.drop (12 + addrLen))

/-- `recvfrom`: data, then the length and kind of the sender's path, then as much of it as fits. -/
def sysSocketRecvfrom (cap : Nat) : Reply × Kernel σ :=
  if request.length < 16 then (.code (-EINVAL), k)
  else
    let flags := u32At request 4
    let dataCap := u32At request 8
    if cap < dataCap + 8 then (.code (-EINVAL), k)
    else
      let pathFit := min (cap - (dataCap + 8)) (u32At request 12)
      let k' := k.touch pid
      match k.socketIdForFd pid (u32At request 0) with
      | .error rc => (.code rc, k')
      | .ok id =>
        if k.readShut id then (.code 0, k')
        else
          match (k.sockets.get? id).map SocketEntry.kind with
          | none => (.code (-EBADF), k')
          | some (.unixDatagram p pp bp rx rights isOpen) =>
            if flags ≠ 0 ∧ flags ≠ msgPeek then (.code (-EOPNOTSUPP), k')
            else
              match rx with
              | [] => (.code (emptyRecv isOpen (k.socketPeerWriteClosed id)), k')
              | packet :: rest =>
                let data := packet.data.take dataCap
                let (path, isAbstract) := match packet.sourcePath with
                  | some (0 :: name) => (name, 1)
                  | some path => (path, 0)
                  | none => ([], 0)
                (⟨data.length, [(0, data), (dataCap, leBytes 4 path.length ++ leBytes 4 isAbstract),
                    (dataCap + 8, path.take pathFit)]⟩,
                  if flags = msgPeek then k'
                  else k'.setKind id (.unixDatagram p pp bp rest rights isOpen))
          | some _ => (.code (-EOPNOTSUPP), k')

/-! ### Descriptors in messages -/

/-- Take a reference for every descriptor named; an unknown one gives back those taken before it. -/
def cloneFdRights (pid : Pid) : List Nat → List FdEntry → Kernel σ → Except Int (List FdEntry) × Kernel σ
  | [], rights, k => (.ok rights, k)
  | fd :: fds, rights, k =>
    match k.fdEntry pid fd with
    | none => (.error (-EBADF), (k.touch pid).closeEntries rights)
    | some e => Kernel.cloneFdRights pid fds (rights ++ [e]) ((k.touch pid).incFdEntryRef e)

end Kernel

/-- Little-endian words. -/
def words : Nat → Bytes → List Nat
  | 0, _ => []
  | n + 1, bytes => leNat (bytes.take 4) :: words n (bytes.drop 4)

/-- `sendmsg(fd, data, fds)`. -/
def Kernel.sysSocketSendmsg : Int × Kernel σ :=
  if request.length < 12 then (-EINVAL, k)
  else
    let dataLen := u32At request 4
    let fdCount := u32At request 8
    if request.length < 12 + dataLen + 4 * fdCount then (-EINVAL, k)
    else
      match Kernel.cloneFdRights pid (words fdCount (request.drop (12 + dataLen))) [] k with
      | (.error rc, k) => (rc, k)
      | (.ok rights, k) =>
        match k.socketIdForFd pid (u32At request 0) with
        | .error rc => (rc, (k.touch pid).closeEntries rights)
        | .ok id => (k.touch pid).socketSendmsgId id ((request.drop 12).take dataLen) rights

/-- Give received rights descriptors, in order, as long as `fit` slots and the descriptor limit
    allow; the rest is dropped. Returns the descriptors and whether the limit was hit. -/
def Kernel.deliverRights (pid : Pid) : Nat → Bool → List FdEntry → Kernel σ → (List Nat × Bool) × Kernel σ
  | _, hit, [], k => (([], hit), k)
  | 0, hit, e :: es, k => Kernel.deliverRights pid 0 hit es (k.closeEntry e).2
  | fit + 1, true, e :: es, k => Kernel.deliverRights pid (fit + 1) true es (k.closeEntry e).2
  | fit + 1, false, e :: es, k =>
    match k.freeFd pid with
    | none => Kernel.deliverRights pid (fit + 1) true es ((k.touch pid).closeEntry e).2
    | some fd =>
      let r := Kernel.deliverRights pid fit false es (k.installFd pid fd e)
      ((fd :: r.1.1, r.1.2), r.2)

/-- `RIGHTS_TRUNCATED`. -/
def rightsTruncated : Nat := 0x80000000

/-- Install received rights and write their header and descriptors at `start` of the response, which
    has `room` bytes from there. -/
def Kernel.installFdRightsTruncated (rights : List FdEntry) (start room : Nat) : Reply × Kernel σ :=
  if room < 4 then (.code (-EINVAL), k.closeEntries rights)
  else
    let fit := (room - 4) / 4
    let ((fds, hit), k) := Kernel.deliverRights pid fit false rights k
    let header := if fit < rights.length ∨ hit then fds.length ||| rightsTruncated else fds.length
    (⟨4 + fds.length * 4, [(start, leBytes 4 header), (start + 4, fds.flatMap (leBytes 4))]⟩, k)

/-- `recvmsg(fd, flags, data_cap)`: data, then the descriptors that came with it. -/
def Kernel.sysSocketRecvmsg (cap : Nat) : Reply × Kernel σ :=
  if request.length < 12 then (.code (-EINVAL), k)
  else
    let flags := u32At request 4
    let dataCap := u32At request 8
    if cap < dataCap + 4 then (.code (-EINVAL), k)
    else
      match k.socketIdForFd pid (u32At request 0) with
      | .error rc => (.code rc, k.touch pid)
      | .ok id =>
        let (received, k) := (k.touch pid).socketRecvId kh id dataCap flags
        if received.rc < 0 then (received, k)
        else if flags = msgPeek then
          (⟨received.rc, received.writes ++ [(dataCap, leBytes 4 0)]⟩, k)
        else
          let (rights, k) := k.popRights id
          let (installed, k) := k.installFdRightsTruncated pid rights dataCap (cap - dataCap)
          (⟨if installed.rc < 0 then installed.rc else received.rc, received.writes ++ installed.writes⟩, k)

end Yurt
