import YurtKernel.Dispatch.Delivery
import YurtKernel.Dispatch.Poll

/-! `connect` and `listen` on a socket that several descriptors refer to.

    A socket of the host and a datagram socket change in place, so every descriptor sees it. An
    `AF_UNIX` stream or listener is a new object: it takes the place of the old one behind the one
    descriptor the call was made through, which also loses its close-on-exec flag. -/

namespace Yurt
open Kernel SortedMap
variable {σ : Type} {k k' : Kernel σ} {pid : Pid} {fd id : Nat}
variable {s : SocketEntry} {bound : Option Bytes} {made : Kernel σ} {a b : Descriptor}
  {path request : Bytes} {cred : PeerCred} {flags newId backlog : Nat} {e : Int}
variable (kh : Kh σ) (d : Descriptor) (rest : Bytes)

/-! ### Addresses of sockets -/

/-- Imports of the host that report the two addresses of one of its sockets. -/
structure KhAddr (σ : Type) where
  socketLocalAddr : σ → Int → Nat → (Int × Bytes) × σ
  socketPeerAddr : σ → Int → Nat → (Int × Bytes) × σ

/-- As much of a path as fits; a socket without one has an empty name. -/
def pathReply (cap : Nat) : Option Bytes → Reply
  | some path => .data (path.take cap)
  | none => .code 0

/-- `getsockname` (`which` 0) and `getpeername`. -/
def Kernel.sysSocketAddr (kh : KhAddr σ) (k : Kernel σ) (pid : Pid) (request : Bytes) (cap : Nat) :
    Reply × Kernel σ :=
  if request.length < 4 then (.code (-EINVAL), k)
  else
    let which := if 8 ≤ request.length then u32At request 4 else 0
    if cap = 0 then (.code (-EINVAL), k)
    else
      let k' := k.touch pid
      match k.fdEntry pid (u32At request 0) with
      | none => (.code (-EBADF), k')
      | some (.socket id) =>
        match k.sockets.get? id with
        | none => (.code (-EBADF), k')
        | some s =>
          match s.kind with
          | .unixListener path _ _ =>
            (if which = 0 then pathReply cap (some path) else .code (-ENOTCONN), k')
          | .unixStream _ localPath peerPath _ _ _ _ =>
            (pathReply cap (if which = 0 then localPath else peerPath), k')
          | .unixDatagram peer peerPath bound _ _ _ =>
            (if which = 0 then pathReply cap bound
              else if peer.isSome then pathReply cap peerPath else .code (-ENOTCONN), k')
          | .opened _ _ =>
            (if s.domain = 1 ∨ s.domain = 3 then
                if which = 0 then .code 0 else .code (-ENOTCONN)
              else .code (-EAFNOSUPPORT), k')
          | .host handle =>
            let ((rc, bytes), host) := if which = 0 then kh.socketLocalAddr k.host handle cap
              else kh.socketPeerAddr k.host handle cap
            (⟨rc, [(0, bytes.take cap)]⟩, { k' with host := host })
      | some _ => (.code (-ENOTSOCK), k')

/-! ### Descriptors of one socket -/

/-- A descriptor number of some process. -/
structure Descriptor where
  pid : Pid
  fd : Nat
  word : fd < 2 ^ 32

namespace Kernel

def entryAt (k : Kernel σ) (d : Descriptor) : Option FdEntry := k.fdEntry d.pid d.fd

def flagsAt (k : Kernel σ) (d : Descriptor) : Except Int Nat :=
  (k.process d.pid).fdTable.getDescriptorFlags d.fd

/-- Calls through one descriptor are answered as through the other. The number `accept` returns is
    the caller's least free one, so callers are compared where these agree. -/
structure AnswersAlike (kh : Kh σ) (ka : KhAddr σ) (k : Kernel σ) (a b : Descriptor) : Prop where
  send : ∀ data, (k.sysSocketSend kh a.pid (leBytes 4 a.fd ++ data)).1 =
    (k.sysSocketSend kh b.pid (leBytes 4 b.fd ++ data)).1
  recv : ∀ flags cap, (k.sysSocketRecv kh a.pid (leBytes 4 a.fd ++ leBytes 4 flags) cap).1 =
    (k.sysSocketRecv kh b.pid (leBytes 4 b.fd ++ leBytes 4 flags) cap).1
  accept : ∀ flags, k.freeFd a.pid = k.freeFd b.pid →
    (k.sysSocketAccept kh a.pid (leBytes 4 a.fd ++ leBytes 4 flags)).1 =
      (k.sysSocketAccept kh b.pid (leBytes 4 b.fd ++ leBytes 4 flags)).1
  addr : ∀ which cap, (k.sysSocketAddr ka a.pid (leBytes 4 a.fd ++ leBytes 4 which) cap).1 =
    (k.sysSocketAddr ka b.pid (leBytes 4 b.fd ++ leBytes 4 which) cap).1
  poll : ∀ events, (k.pollReventsForFd a.pid a.fd events).1 = (k.pollReventsForFd b.pid b.fd events).1

/-- Sending looks at no process. -/
theorem socketSendId_withProcesses (k : Kernel σ) (ps : SortedMap Pid Process)
    (id : Nat) (data : Bytes) :
    ((k.withProcesses ps).socketSendId kh id data).1 = (k.socketSendId kh id data).1 := by
  have hstream : ∀ peer, ((k.withProcesses ps).deliverStream peer data []).1 =
      (k.deliverStream peer data []).1 := by
    intro peer
    simp only [deliverStream, withProcesses]
    split
    · split_ifs <;> rfl
    · rfl
  have hpacket : ∀ peer packet, ((k.withProcesses ps).deliverPacket EPIPE peer packet []).1 =
      (k.deliverPacket EPIPE peer packet []).1 := by
    intro peer packet
    simp only [deliverPacket, withProcesses]
    split
    · split_ifs <;> rfl
    · rfl
  have hshut : (k.withProcesses ps).writeShut id = k.writeShut id := rfl
  have hsockets : (k.withProcesses ps).sockets = k.sockets := rfl
  unfold socketSendId
  rw [hshut, hsockets]
  split_ifs
  · rfl
  · split <;> first | rfl | skip
    · split_ifs
      · exact hstream _
      · rfl
    · split_ifs
      · exact hpacket _ _
      · rfl

theorem socketRecvId_withProcesses (k : Kernel σ) (ps : SortedMap Pid Process)
    (id cap flags : Nat) :
    ((k.withProcesses ps).socketRecvId kh id cap flags).1 = (k.socketRecvId kh id cap flags).1 := by
  have hshut : (k.withProcesses ps).readShut id = k.readShut id := rfl
  have hsockets : (k.withProcesses ps).sockets = k.sockets := rfl
  unfold socketRecvId
  rw [hshut, hsockets]
  cases k.sockets.get? id with
  | none => rfl
  | some s =>
    by_cases hread : k.readShut id = true
    · simp only [if_pos hread]
    · simp only [if_neg hread]
      cases s.kind with
      | unixDatagram p pp bp rx => cases rx <;> split_ifs <;> rfl
      | unixStream => dsimp only; split_ifs <;> rfl
      | _ => rfl

theorem socketIdForFd_entry (h : k.fdEntry pid fd = some (.socket id)) :
    k.socketIdForFd pid fd = if k.sockets.contains id then .ok id else .error (-EBADF) := by
  rw [socketIdForFd, h]

end Kernel

/-- What a socket call reads off its request. -/
theorem Descriptor.u32At_request :
    u32At (leBytes 4 d.fd ++ rest) 0 = d.fd := u32At_leBytes_append d.word rest

theorem Descriptor.drop_request :
    (leBytes 4 d.fd ++ rest).drop 4 = rest := List.drop_left' (leBytes_length 4 d.fd)

theorem Descriptor.u32At_second : u32At (leBytes 4 d.fd ++ rest) 4 = u32At rest 0 := by
  rw [u32At, d.drop_request, u32At, List.drop_zero]

theorem Descriptor.length_request : (leBytes 4 d.fd ++ rest).length = 4 + rest.length := by
  rw [List.length_append, leBytes_length]

namespace Kernel

theorem sysSocketSend_entry {d : Descriptor}
    (hd : k.entryAt d = some (.socket id)) (data : Bytes) :
    (k.sysSocketSend kh d.pid (leBytes 4 d.fd ++ data)).1 =
      if k.sockets.contains id then (k.socketSendId kh id data).1 else -EBADF := by
  have hlen : ¬ (leBytes 4 d.fd ++ data).length < 4 := by
    rw [d.length_request]
    omega
  rw [sysSocketSend, if_neg hlen, d.u32At_request, d.drop_request, socketIdForFd_entry hd]
  split_ifs
  · exact k.socketSendId_withProcesses kh (k.touch d.pid).processes id data
  · rfl

theorem sysSocketRecv_entry {d : Descriptor}
    (hd : k.entryAt d = some (.socket id)) (flags cap : Nat) :
    (k.sysSocketRecv kh d.pid (leBytes 4 d.fd ++ leBytes 4 flags) cap).1 =
      if cap = 0 then .code (-EINVAL)
      else if k.sockets.contains id then
        (k.socketRecvId kh id cap (u32At (leBytes 4 flags) 0)).1
      else .code (-EBADF) := by
  have hlen : ¬ (leBytes 4 d.fd ++ leBytes 4 flags).length < 8 := by
    rw [d.length_request, leBytes_length]
    omega
  rw [sysSocketRecv, if_neg hlen, d.u32At_request, d.u32At_second, socketIdForFd_entry hd]
  split_ifs
  · rfl
  · exact k.socketRecvId_withProcesses kh (k.touch d.pid).processes id cap _
  · rfl

/-- What `accept` answers, given the caller's least free number. -/
def acceptCode (k : Kernel σ) (id flags : Nat) (free : Option Nat) : Int :=
  match k.sockets.get? id with
  | none => -EBADF
  | some s =>
    match s.kind, free with
    | .unixListener _ _ _, none => -EMFILE
    | .unixListener _ _ [], some _ => -EAGAIN
    | .unixListener _ _ (_ :: _), some fd => fd
    | .host _, none => -EMFILE
    | .host handle, some fd =>
      if (kh.socketAccept k.host handle flags).1 < 0 then (kh.socketAccept k.host handle flags).1
      else fd
    | _, _ => if s.sockType = 1 ∨ s.sockType = 6 then -EINVAL else -EOPNOTSUPP

theorem sysSocketAccept_code (hlen : 8 ≤ request.length)
    (hfd : k.fdEntry pid (u32At request 0) = some (.socket id)) :
    (k.sysSocketAccept kh pid request).1 = k.acceptCode kh id (u32At request 4) (k.freeFd pid) := by
  cases hs : k.sockets.get? id with
  | none =>
    simp only [sysSocketAccept, if_neg (not_lt.mpr hlen), hfd, hs, acceptCode]
  | some s =>
    cases hkind : s.kind with
    | unixListener path backlog pending =>
      rw [sysSocketAccept_listener kh hlen hfd hs hkind]
      simp only [acceptCode, hs, hkind]
      cases k.freeFd pid <;> cases pending <;> rfl
    | host handle =>
      have hhost : (k.touch pid).host = k.host := rfl
      simp only [sysSocketAccept, if_neg (not_lt.mpr hlen), hfd, hs, hkind, acceptCode, hhost]
      cases hfree : k.freeFd pid with
      | none => rfl
      | some fd =>
        rw [if_neg (by simp)]
        generalize kh.socketAccept k.host handle (u32At request 4) = r
        dsimp only
        split_ifs
        · rfl
        · have hsame : ∀ (k₁ : Kernel σ) (accepted : Int) (domain sockType : Nat),
              k₁.process pid = k.process pid →
              (k₁.installSocketFd kh pid accepted domain sockType).1 = fd := by
            intro k₁ accepted domain sockType hrecord
            have hfree' : (k₁.createSocket accepted domain sockType).2.freeFd pid = some fd :=
              (freeFd_congr (k := k) hrecord).trans hfree
            simp only [installSocketFd, installSocketIdFd, hfree']
          exact hsame _ _ _ _ (k.process_touch pid)
    | _ => simp only [sysSocketAccept, if_neg (not_lt.mpr hlen), hfd, hs, hkind, acceptCode]

theorem sysSocketAccept_entry {d : Descriptor}
    (hd : k.entryAt d = some (.socket id)) (flags : Nat) :
    (k.sysSocketAccept kh d.pid (leBytes 4 d.fd ++ leBytes 4 flags)).1 =
      k.acceptCode kh id (u32At (leBytes 4 flags) 0) (k.freeFd d.pid) := by
  have hlen : 8 ≤ (leBytes 4 d.fd ++ leBytes 4 flags).length := by
    rw [d.length_request, leBytes_length]
  have hfd : k.fdEntry d.pid (u32At (leBytes 4 d.fd ++ leBytes 4 flags) 0) = some (.socket id) := by
    rw [d.u32At_request]
    exact hd
  rw [k.sysSocketAccept_code kh hlen hfd, d.u32At_second]

theorem sysSocketAddr_entry (ka : KhAddr σ) (ha : k.entryAt a = some (.socket id))
    (hb : k.entryAt b = some (.socket id)) (which cap : Nat) :
    (k.sysSocketAddr ka a.pid (leBytes 4 a.fd ++ leBytes 4 which) cap).1 =
      (k.sysSocketAddr ka b.pid (leBytes 4 b.fd ++ leBytes 4 which) cap).1 := by
  have ha' : k.fdEntry a.pid a.fd = some (.socket id) := ha
  have hb' : k.fdEntry b.pid b.fd = some (.socket id) := hb
  unfold sysSocketAddr
  simp only [Descriptor.length_request, leBytes_length, Descriptor.u32At_request,
    Descriptor.u32At_second, ha', hb', if_neg (show ¬ 4 + 4 < 4 by decide)]
  by_cases hcap : cap = 0
  · simp only [if_pos hcap]
  · simp only [if_neg hcap]
    cases k.sockets.get? id with
    | none => rfl
    | some s =>
      dsimp only
      cases s.kind <;> rfl

/-- Descriptors of one socket are answered alike. -/
theorem answersAlike (ka : KhAddr σ) (ha : k.entryAt a = some (.socket id))
    (hb : k.entryAt b = some (.socket id)) :
    k.AnswersAlike kh ka a b where
  send data := by rw [k.sysSocketSend_entry kh ha, k.sysSocketSend_entry kh hb]
  recv flags cap := by rw [k.sysSocketRecv_entry kh ha, k.sysSocketRecv_entry kh hb]
  accept flags hfree := by
    rw [k.sysSocketAccept_entry kh ha, k.sysSocketAccept_entry kh hb, hfree]
  addr which cap := k.sysSocketAddr_entry ka ha hb which cap
  poll events := by
    rw [pollReventsForFd_open ha, pollReventsForFd_open hb]
    rfl

end Kernel

/-! ### The two calls -/

/-- The descriptor a `connect` or `listen` goes through. -/
def SysCall.joins : SysCall → Option Nat
  | .connect request | .listen request => some (u32At request 0)
  | _ => none

/-- Whether the call puts a new object behind its descriptor: a fresh socket connects to a path or
    listens at one. -/
def SysCall.swaps (k : Kernel σ) (pid : Pid) : SysCall → Bool
  | .connect request =>
    match k.kindAt pid (u32At request 0) with
    | some (.opened _ _) => (unixPathFromAddr (request.drop 4)).isSome
    | _ => false
  | .listen request =>
    match k.kindAt pid (u32At request 0) with
    | some (.opened _ (some addr)) => (unixPathFromAddr addr).isSome
    | _ => false
  | _ => false

/-- A `connect` or `listen` acts on socket `id` and not on one of its descriptors: they refer to one
    live socket, answer alike in every state that has them as the call left them, and keep their
    flags. -/
structure SysCall.ActsOnSocket (kh : Kh σ) (ka : KhAddr σ) (k : Kernel σ) (pid id : Nat)
    (call : SysCall) : Prop where
  together : ∃ id', (call.run kh k pid).2.sockets.contains id' = true ∧
    ∀ d, k.entryAt d = some (.socket id) → (call.run kh k pid).2.entryAt d = some (.socket id')
  alike : ∀ a b, k.entryAt a = some (.socket id) → k.entryAt b = some (.socket id) →
    ∀ later : Kernel σ, later.entryAt a = (call.run kh k pid).2.entryAt a →
      later.entryAt b = (call.run kh k pid).2.entryAt b → later.AnswersAlike kh ka a b
  flags : ∀ d, k.entryAt d = some (.socket id) → (call.run kh k pid).2.flagsAt d = k.flagsAt d

/-- The descriptor `fd` of `pid` now refers to `newId`, with its flags clear; the others are as they
    were. -/
structure Kernel.Swapped (k : Kernel σ) (pid : Pid) (fd newId : Nat) (k' : Kernel σ) : Prop where
  here : k'.fdEntry pid fd = some (.socket newId)
  cleared : (k'.process pid).fdTable.getDescriptorFlags fd = .ok 0
  entry : ∀ q f, ¬ (q = pid ∧ f = fd) → k'.fdEntry q f = k.fdEntry q f
  flags : ∀ q f, ¬ (q = pid ∧ f = fd) → (k'.process q).fdTable.getDescriptorFlags f =
    (k.process q).fdTable.getDescriptorFlags f
  live : k'.sockets.contains newId = true

theorem Kernel.processes_decFdEntryRef (k : Kernel σ) (id : Nat) :
    (k.decFdEntryRef kh (.socket id)).processes = k.processes := by
  have hclose : (k.socketDecRef id).2.processes = k.processes := k.processes_closeEntry (.socket id)
  rw [decFdEntryRef]
  cases (k.socketDecRef id).1 <;> exact hclose

/-- Dropping a fresh socket leaves the others there. -/
theorem Kernel.contains_decFdEntryRef_opened (hs : k.sockets.get? id = some s)
    (hkind : s.kind = .opened flags bound) (hne : newId ≠ id)
    (hnew : k.sockets.contains newId = true) :
    (k.decFdEntryRef kh (.socket id)).sockets.contains newId = true := by
  have hdrop : (k.socketDecRef id).2.sockets.get? newId = k.sockets.get? newId := by
    rw [socketDecRef, socketDecRefAux_some hs, hkind]
    split_ifs
    · exact get?_insert_ne _ _ hne
    · dsimp only
      rw [dropSocket, get?_erase, if_neg hne]
      exact get?_insert_ne _ _ hne
  rw [decFdEntryRef]
  rw [SortedMap.contains, ← hdrop] at hnew
  cases (k.socketDecRef id).1 <;> exact hnew

theorem Kernel.swapped_replaceSocketFd (htable : k'.processes = (k.touch pid).processes)
    (hs : k'.sockets.get? id = some s) (hkind : s.kind = .opened flags bound) (hne : newId ≠ id)
    (hnew : k'.sockets.contains newId = true) :
    k.Swapped pid fd newId (k'.replaceSocketFd kh pid fd id newId) := by
  have hprocs : (k'.replaceSocketFd kh pid fd id newId).processes =
      (k'.installFd pid fd (.socket newId)).processes := processes_decFdEntryRef kh _ id
  have hself : (k'.replaceSocketFd kh pid fd id newId).process pid =
      { k.process pid with fdTable := (k.process pid).fdTable.install fd (.socket newId) } := by
    rw [process_congr hprocs, process_installFd, process_congr htable, k.process_touch]
  have hother : ∀ q, q ≠ pid → (k'.replaceSocketFd kh pid fd id newId).process q = k.process q := by
    intro q hq
    rw [process_congr hprocs, process, installFd, get?_updProcess_ne hq]
    rw [htable]
    exact k.process_touch_any pid q
  refine ⟨?_, ?_, fun q f hnot => ?_, fun q f hnot => ?_, ?_⟩
  · rw [fdEntry, hself]
    exact get?_insert_self _ _ _
  · rw [hself]
    exact FdTable.getDescriptorFlags_install_self _ _ _
  · by_cases hq : q = pid
    · have hf : f ≠ fd := fun hf => hnot ⟨hq, hf⟩
      rw [fdEntry, hq, hself]
      exact get?_insert_ne _ _ hf
    · rw [fdEntry, hother q hq, fdEntry]
  · by_cases hq : q = pid
    · have hf : f ≠ fd := fun hf => hnot ⟨hq, hf⟩
      rw [hq, hself]
      exact FdTable.getDescriptorFlags_install_ne _ _ hf
    · rw [hother q hq]
  · exact contains_decFdEntryRef_opened kh (k := k'.installFd pid fd (.socket newId)) hs hkind hne hnew

/-- What a call that succeeds does to the descriptors: nothing, with the socket still there, or it
    puts the next socket id behind its own. -/
def SysCall.Joined (k : Kernel σ) (pid : Pid) (fd id : Nat) (call : SysCall) : Prop :=
  if call.swaps k pid then k.Swapped pid fd k.nextSocketId (call.run kh k pid).2
  else (call.run kh k pid).2.processes = (k.touch pid).processes ∧
    (call.run kh k pid).2.sockets.contains id = true

namespace Kernel

theorem contains_setKind (k : Kernel σ) (x id : Nat) (kind : SocketKind) :
    (k.setKind x kind).sockets.contains id = k.sockets.contains id := by
  rw [SortedMap.contains, SortedMap.contains, setKind, get?_modify]
  split_ifs with hx
  · rw [hx, Option.isSome_map]
  · rfl

theorem socketIdForFd_kind (h : k.socketIdForFd pid fd = .ok id) :
    ∃ s, k.sockets.get? id = some s ∧ k.kindAt pid fd = some s.kind := by
  obtain ⟨hfd, s, hs⟩ := socketIdForFd_ok h
  refine ⟨s, hs, ?_⟩
  rw [kindAt_socket hfd, hs]
  rfl

/-- The new listener is there, next to everything that was. -/
theorem createUnixListener_made (id : Nat)
    (h : k.createUnixListener path backlog = (.ok newId, made)) (hid : id ≠ k.nextSocketId) :
    newId = k.nextSocketId ∧ made.processes = k.processes ∧
      made.sockets.get? id = k.sockets.get? id ∧ made.sockets.contains newId = true := by
  unfold createUnixListener at h
  by_cases hused : k.unixListeners.contains path = true
  · rw [if_pos hused] at h
    cases h
  · rw [if_neg hused] at h
    cases h
    have hnote : ∀ k₁ : Kernel σ, (k₁.noteSocketInode path).processes = k₁.processes ∧
        (k₁.noteSocketInode path).sockets = k₁.sockets := by
      intro k₁
      unfold noteSocketInode
      split_ifs <;> exact ⟨rfl, rfl⟩
    rw [(hnote _).1, (hnote _).2]
    refine ⟨rfl, rfl, get?_insert_ne _ _ hid, ?_⟩
    rw [SortedMap.contains]
    exact (congrArg Option.isSome (get?_insert_self _ _ _)).trans rfl

/-- The new connection is there; a fresh socket is as it was. -/
theorem connectUnixStream_made (h : k.connectUnixStream path cred = (.ok newId, made))
    (hs : k.sockets.get? id = some s) (hkind : s.kind = .opened flags bound)
    (hlt : ∀ i t, k.sockets.get? i = some t → i < k.nextSocketId) :
    newId = k.nextSocketId ∧ made.processes = k.processes ∧
      made.sockets.get? id = some s ∧ made.sockets.contains newId = true := by
  obtain hr | ⟨listener, t, lpath, backlog, pending, ht, hlistens, hr⟩ := k.connectUnixStream_cases path cred
  · rw [hr] at h
    cases h
  rw [hr (hlt listener t ht)] at h
  cases h
  have hne : id ≠ listener := by
    rintro rfl
    obtain rfl := Option.mem_unique hs ht
    rw [hkind] at hlistens
    cases hlistens
  refine ⟨rfl, rfl, ?_, ?_⟩
  · rw [get?_setKind, if_neg hne, get?_pairAt_of_lt path cred (hlt id s hs), hs]
  · rw [contains_setKind, SortedMap.contains, get?_pairAt, if_neg (by omega), if_pos rfl]
    rfl

theorem Stocked.lt_nextSocketId (hk : k.Stocked) (hs : k.sockets.get? id = some s) :
    id < k.nextSocketId := by
  by_contra hle
  rw [hk.socket_fresh id (not_lt.mp hle)] at hs
  cases hs

theorem createUnixListener_error (h : k.createUnixListener path backlog = (.error e, made)) :
    e = EADDRINUSE := by
  unfold createUnixListener at h
  by_cases hused : k.unixListeners.contains path = true
  · rw [if_pos hused] at h
    cases h
    rfl
  · rw [if_neg hused] at h
    cases h

theorem listenAt_joined (hk : k.Stocked) {addr : Bytes} (hs : k.sockets.get? id = some s)
    (hkind : s.kind = .opened flags bound)
    (hok : ((k.touch pid).listenAt kh pid fd id backlog addr).1 = 0) :
    if (unixPathFromAddr addr).isSome then
      k.Swapped pid fd k.nextSocketId ((k.touch pid).listenAt kh pid fd id backlog addr).2
    else ((k.touch pid).listenAt kh pid fd id backlog addr).2.processes = (k.touch pid).processes ∧
      ((k.touch pid).listenAt kh pid fd id backlog addr).2.sockets.contains id = true := by
  have hlt := hk.lt_nextSocketId hs
  unfold listenAt at hok ⊢
  cases hpath : unixPathFromAddr addr with
  | none =>
    rw [hpath] at hok
    generalize kh.socketListenAt (k.touch pid).host addr backlog = r at hok ⊢
    dsimp only at hok ⊢
    rw [if_neg (by simp)]
    by_cases hhandle : r.1 < 0
    · rw [if_pos hhandle] at hok
      exact absurd hok (ne_of_lt hhandle)
    · rw [if_neg hhandle]
      refine ⟨rfl, ?_⟩
      have hcontains : (k.touch pid).sockets.contains id = true := by
        rw [SortedMap.contains]
        exact congrArg Option.isSome hs
      exact (contains_setKind _ id id _).trans hcontains
  | some path =>
    rw [hpath] at hok
    dsimp only at hok ⊢
    rw [if_pos (Option.isSome_some)]
    cases hmade : (k.touch pid).createUnixListener path backlog with
    | mk made k₁ =>
      rw [hmade] at hok
      cases made with
      | error e =>
        rw [createUnixListener_error hmade] at hok
        exact absurd hok (by decide : -EADDRINUSE ≠ 0)
      | ok newId =>
        obtain ⟨rfl, htable, hold, hnew⟩ := createUnixListener_made id hmade (ne_of_lt hlt)
        exact swapped_replaceSocketFd kh htable (hold.trans hs) hkind (ne_of_gt hlt) hnew

end Kernel

theorem SysCall.joined_listen (hk : k.Stocked)
    (hid : k.socketIdForFd pid (u32At request 0) = .ok id)
    (hok : (SysCall.run kh k pid (.listen request)).1.rc = 0) :
    SysCall.Joined kh k pid (u32At request 0) id (.listen request) := by
  obtain ⟨s, hs, hat⟩ := socketIdForFd_kind hid
  have hok : (k.sysSocketListen kh pid request).1 = 0 := hok
  unfold SysCall.Joined
  rw [show (SysCall.run kh k pid (.listen request)).2 = (k.sysSocketListen kh pid request).2 from rfl]
  simp only [SysCall.swaps, hat]
  unfold sysSocketListen at hok ⊢
  by_cases hlen : request.length < 8
  · rw [if_pos hlen] at hok
    exact absurd hok (by decide : -EINVAL ≠ 0)
  simp only [if_neg hlen, hid, hs] at hok ⊢
  cases hkind : s.kind with
  | opened flags bound =>
    rw [hkind] at hok
    dsimp only at hok ⊢
    by_cases htype : s.sockType ≠ 1 ∧ s.sockType ≠ 6
    · rw [if_pos htype] at hok
      exact absurd hok (by decide : -EOPNOTSUPP ≠ 0)
    rw [if_neg htype] at hok ⊢
    cases bound with
    | none =>
      -- an address of the host: its family is not one of paths
      have hany : ∀ addr, unixPathFromAddr addr = none →
          ((k.touch pid).listenAt kh pid (u32At request 0) id (u32At request 4) addr).1 = 0 →
          _ := fun addr hpath hzero => by
        have hjoined := listenAt_joined kh hk hs hkind hzero
        rw [hpath, if_neg (by simp)] at hjoined
        exact hjoined
      rw [if_neg (by simp)]
      split at hok
      · exact hany _ (by decide) hok
      · exact hany _ (by decide) hok
      · exact absurd hok (by decide : -EINVAL ≠ 0)
      · next heq => cases heq
    | some addr => exact listenAt_joined kh hk hs hkind hok
  | _ =>
    rw [hkind] at hok
    exact absurd hok (by decide : -EOPNOTSUPP ≠ 0)

theorem Kernel.connectUnixStream_error (h : k.connectUnixStream path cred = (.error e, made)) :
    e = ECONNREFUSED := by
  unfold connectUnixStream at h
  split at h
  · cases h
    rfl
  · split at h
    · split_ifs at h
      · cases h
        rfl
      · cases h
    · cases h
      rfl

theorem SysCall.joined_connect (hk : k.Stocked)
    (hid : k.socketIdForFd pid (u32At request 0) = .ok id)
    (hok : (SysCall.run kh k pid (.connect request)).1.rc = 0) :
    SysCall.Joined kh k pid (u32At request 0) id (.connect request) := by
  obtain ⟨s, hs, hat⟩ := socketIdForFd_kind hid
  have hlt := hk.lt_nextSocketId hs
  have hcontains : (k.touch pid).sockets.contains id = true := by
    rw [SortedMap.contains]
    exact congrArg Option.isSome hs
  have hok : (k.sysSocketConnect kh pid request).1 = 0 := hok
  unfold SysCall.Joined
  rw [show (SysCall.run kh k pid (.connect request)).2 = (k.sysSocketConnect kh pid request).2 from rfl]
  simp only [SysCall.swaps, hat]
  obtain ⟨hneg, -⟩ | ⟨id', s', hid', hs', hcase⟩ := k.connect_cases kh pid request
  · exact absurd hok (ne_of_lt hneg)
  cases hid.symm.trans hid'
  obtain rfl := Option.mem_unique hs hs'
  obtain ⟨flags, bound, hkind, ⟨path, hpath, hr⟩ | ⟨hpath, handle, host, hr⟩⟩ |
    ⟨peer, pp, bound, rx, q, isOpen, path, hkind, -, hr⟩ := hcase
  · simp only [hkind, hpath, Option.isSome_some, if_true]
    rw [hr] at hok ⊢
    cases hmade : (k.touch pid).connectUnixStream path (k.peerCredFor pid) with
    | mk made k₁ =>
      rw [hmade] at hok
      cases made with
      | error e =>
        rw [connectUnixStream_error hmade] at hok
        exact absurd hok (by decide : -ECONNREFUSED ≠ 0)
      | ok newId =>
        obtain ⟨rfl, htable, hold, hnew⟩ := connectUnixStream_made hmade hs hkind (fun _ _ => hk.lt_nextSocketId)
        exact swapped_replaceSocketFd kh htable hold hkind (ne_of_gt hlt) hnew
  · simp only [hkind, hpath, Option.isSome_none, Bool.false_eq_true, if_false]
    rw [hr] at hok ⊢
    split_ifs at hok ⊢ with hhandle
    · exact absurd hok (ne_of_lt hhandle)
    · exact ⟨rfl, (contains_setKind _ id id _).trans hcontains⟩
  · simp only [hkind]
    rw [if_neg (by simp), hr, connectUnixDatagram]
    split
    · exact ⟨rfl, hcontains⟩
    · split
      · exact ⟨rfl, hcontains⟩
      · exact ⟨rfl, (contains_setKind _ id id _).trans hcontains⟩
      · exact ⟨rfl, hcontains⟩

/-- In every reachable kernel, a `connect` or `listen` that succeeds acts on the socket exactly if it
    changes it in place, or no other descriptor refers to it and its own has no flag to lose. -/
theorem connect_listen_act_on_socket_iff (ka : KhAddr σ) (host : σ)
    (hk : Reachable kh host k) (pid : Pid) (call : SysCall) {fd id : Nat}
    (hjoins : call.joins = some fd) (hid : k.socketIdForFd pid fd = .ok id)
    (hok : (call.run kh k pid).1.rc = 0) :
    call.ActsOnSocket kh ka k pid id ↔
      (call.swaps k pid = true → (∀ d, k.entryAt d = some (.socket id) → d.pid = pid ∧ d.fd = fd) ∧
        (k.process pid).fdTable.getDescriptorFlags fd = .ok 0) := by
  have hjoined : call.Joined kh k pid fd id ∧ fd < 2 ^ 32 := by
    cases call with
    | connect request =>
      cases hjoins
      exact ⟨SysCall.joined_connect kh hk.stocked hid hok, u32At_lt request 0⟩
    | listen request =>
      cases hjoins
      exact ⟨SysCall.joined_listen kh hk.stocked hid hok, u32At_lt request 0⟩
    | _ => cases hjoins
  obtain ⟨hjoined, hword⟩ := hjoined
  obtain ⟨hfd, s, hs⟩ := socketIdForFd_ok hid
  rw [SysCall.Joined] at hjoined
  cases hswaps : call.swaps k pid with
  | false =>
    rw [if_neg (by simp [hswaps])] at hjoined
    obtain ⟨htable, hlive⟩ := hjoined
    have hrecord : ∀ q, (call.run kh k pid).2.process q = k.process q := fun q =>
      (process_congr htable q).trans (k.process_touch_any pid q)
    have hentry : ∀ d, (call.run kh k pid).2.entryAt d = k.entryAt d := fun d => by
      rw [entryAt, fdEntry, hrecord]
      rfl
    refine ⟨fun _ h => absurd h Bool.false_ne_true, fun _ => ⟨⟨id, hlive, fun d hd => (hentry d).trans hd⟩,
      fun a b ha hb later hla hlb => ?_, fun d _ => ?_⟩⟩
    · exact answersAlike kh ka (hla.trans ((hentry a).trans ha))
        (hlb.trans ((hentry b).trans hb))
    · rw [flagsAt, hrecord, flagsAt]
  | true =>
    rw [if_pos hswaps] at hjoined
    have hne : k.nextSocketId ≠ id := ne_of_gt (hk.stocked.lt_nextSocketId hs)
    refine ⟨fun h _ => ⟨fun d hd => ?_, ?_⟩, fun h => ?_⟩
    · -- another descriptor still refers to the old socket
      by_contra hother
      obtain ⟨id', -, hall⟩ := h.together
      have hhere := (hall ⟨pid, fd, hword⟩ hfd).symm.trans hjoined.here
      have hthere := (hall d hd).symm.trans ((hjoined.entry d.pid d.fd hother).trans hd)
      have heq : id' = k.nextSocketId := by simpa using hhere
      have heq' : id' = id := by simpa using hthere
      exact hne (heq ▸ heq')
    · exact ((h.flags ⟨pid, fd, hword⟩ hfd).symm.trans hjoined.cleared)
    · obtain ⟨hsole, hclear⟩ := h rfl
      have hentry : ∀ d, k.entryAt d = some (.socket id) →
          (call.run kh k pid).2.entryAt d = some (.socket k.nextSocketId) := by
        intro d hd
        obtain ⟨hp, hf⟩ := hsole d hd
        rw [entryAt, hp, hf]
        exact hjoined.here
      refine ⟨⟨_, hjoined.live, hentry⟩, fun a b ha hb later hla hlb => ?_, fun d hd => ?_⟩
      · exact answersAlike kh ka (hla.trans (hentry a ha)) (hlb.trans (hentry b hb))
      · obtain ⟨hp, hf⟩ := hsole d hd
        rw [flagsAt, flagsAt, hp, hf, hclear]
        exact hjoined.cleared

/-- A host without sockets reports no addresses. -/
def KhAddr.absent : KhAddr Unit where
  socketLocalAddr h _ _ := ((-ENOSYS, []), h)
  socketPeerAddr h _ _ := ((-ENOSYS, []), h)

/-- The address of path `/a`. -/
def addrA : Bytes := [1, 0, 47, 97]

/-- Two datagram sockets, the one at `/a` behind descriptor 3, the other behind 4 and 5. -/
def datagramAliases : List KernelCall :=
  [.sys 1 (.socketOpen ([1, 2, 0, 0] ++ leBytes 4 0)), .sys 1 (.bind (leBytes 4 3 ++ addrA)),
    .sys 1 (.socketOpen ([1, 2, 0, 0] ++ leBytes 4 0)), .sys 1 (.dup (leBytes 4 4))]

theorem connect_listen_act_on_socket_iff_datagram : SysCall.ActsOnSocket Kh.absent KhAddr.absent
      (Run.run (KernelCall.step Kh.absent) (Kernel.new ()) datagramAliases) 1 2
      (.connect (leBytes 4 5 ++ addrA)) :=
  (connect_listen_act_on_socket_iff Kh.absent KhAddr.absent () (Reachable.new.run _) 1
    (.connect (leBytes 4 5 ++ addrA)) (rfl : _ = some 5) (by decide) (by decide)).mpr
    (fun h => absurd h (by decide))

/-- A stream socket bound to `/a`, behind descriptors 3 and 4. -/
def streamAliases : Kernel Unit := Run.run (KernelCall.step Kh.absent) (Kernel.new ())
    [.sys 1 (.socketOpen ([1, 1, 0, 0] ++ leBytes 4 0)), .sys 1 (.bind (leBytes 4 3 ++ addrA)),
      .sys 1 (.dup (leBytes 4 3))]

/-- `listen` through 3 succeeds; 3 is a listener then, and 4 is not. -/
theorem listen_leaves_alias_behind : let listen : SysCall := .listen (leBytes 4 3 ++ leBytes 4 1)
    let after := (listen.run Kh.absent streamAliases 1).2
    (listen.run Kh.absent streamAliases 1).1.rc = 0 ∧
      (after.sysSocketAccept Kh.absent 1 (leBytes 4 3 ++ leBytes 4 0)).1 = -EAGAIN ∧
      (after.sysSocketAccept Kh.absent 1 (leBytes 4 4 ++ leBytes 4 0)).1 = -EINVAL ∧
      ¬ listen.ActsOnSocket Kh.absent KhAddr.absent streamAliases 1 1 := by
  refine ⟨by decide, by decide, by decide, fun h => ?_⟩
  have halike := h.alike ⟨1, 3, by decide⟩ ⟨1, 4, by decide⟩ (by decide) (by decide) _ rfl rfl
  exact absurd (halike.accept 0 rfl) (by decide)

end Yurt
