import YurtKernel.Kernel.Ipc
import YurtKernel.Dispatch.Socket

/-! What reads, writes and packets can do.

    One lemma for each call lists its outcomes. What a call keeps is then shown for the outcomes, not
    for the branches of its code. -/

namespace Yurt
open Kernel SortedMap
variable {σ : Type} {k k' : Kernel σ} {pid : Pid} {id : Nat}
variable {rc : Int} {fd : Nat}

/-! ### Calls that do nothing -/

namespace Kernel

/-- At most the record of the caller was made. -/
def Idle (k : Kernel σ) (pid : Pid) (k' : Kernel σ) : Prop := k' = k ∨ k' = k.touch pid

theorem Idle.keeps {P : Kernel σ → Prop} (h : k.Idle pid k') (hk : P k) (htouch : P (k.touch pid)) :
    P k' := by
  rcases h with rfl | rfl
  · exact hk
  · exact htouch

/-- The call failed and did nothing. -/
def Refuses (k : Kernel σ) (pid : Pid) (r : Int × Kernel σ) : Prop := r.1 < 0 ∧ k.Idle pid r.2

theorem refuses (h : rc < 0) : k.Refuses pid (rc, k) := ⟨h, .inl rfl⟩

theorem refuses_touch (h : rc < 0) : k.Refuses pid (rc, k.touch pid) := ⟨h, .inr rfl⟩

/-! ### Sockets behind descriptors -/

theorem socketIdForFd_neg (h : k.socketIdForFd pid fd = .error rc) : rc < 0 := by
  unfold socketIdForFd at h
  split at h
  · cases h
    decide
  · split_ifs at h
    cases h
    decide
  · cases h
    decide

theorem socketIdForFd_ok (h : k.socketIdForFd pid fd = .ok id) :
    k.fdEntry pid fd = some (.socket id) ∧ ∃ s, k.sockets.get? id = some s := by
  unfold socketIdForFd at h
  split at h
  · cases h
  · rename_i id' hfd
    split_ifs at h with hc
    cases h
    exact ⟨hfd, contains_iff.mp hc⟩
  · cases h

end Kernel

/-! ### Outcomes -/

section
variable (kh : Kh σ) (k : Kernel σ) (pid : Pid) (request : Bytes)

theorem Kernel.writeFd_cases : k.Refuses pid (k.writeFd kh pid request) ∨ ¬ request.length < 4 ∧
    ((∃ (f : Process → Process) (buffer : Bytes),
        (k.fdEntry pid (u32At request 0) = some .stdout ∧ f = (fun p => { p with stdoutBuffer := buffer }) ∨
          k.fdEntry pid (u32At request 0) = some .stderr ∧ f = fun p => { p with stderrBuffer := buffer }) ∧
        k.writeFd kh pid request = (((request.drop 4).length : Int), k.updProcess pid f)) ∨
      (∃ id b, k.fdEntry pid (u32At request 0) = some (.pipe id .write) ∧ k.pipes.get? id = some b ∧
        hasBufferCapacity b.bytes.length (request.drop 4).length = true ∧
        k.writeFd kh pid request = (((request.drop 4).length : Int), { k.touch pid with
          pipes := k.pipes.insert id { b with bytes := b.bytes ++ request.drop 4 } })) ∨
      (∃ id o, k.fdEntry pid (u32At request 0) = some (.file id) ∧ k.ofds.get? id = some o ∧
        o.writable = true ∧ ∃ n vfs host,
          k.vfs.write kh k.host o.mountId o.inode o.offset (request.drop 4) = (n, vfs, host) ∧
          k.writeFd kh pid request = (n, { k.touch pid with vfs := vfs, host := host }.advance id n)) ∨
      ∃ id, k.fdEntry pid (u32At request 0) = some (.socket id) ∧
        k.writeFd kh pid request = (k.touch pid).socketSendId kh id (request.drop 4)) := by
  unfold writeFd
  split
  · exact .inl (refuses (by decide))
  rename_i hlen
  cases hfd : k.fdEntry pid (u32At request 0) with
  | none => exact .inl (refuses_touch (by decide))
  | some e =>
    cases e with
    | stdin | directory => exact .inl (refuses_touch (by decide))
    | stdout =>
      dsimp only
      cases appendStream (k.process pid).stdoutBuffer (request.drop 4) with
      | none => exact .inl (refuses_touch (by decide))
      | some buffer => exact .inr ⟨hlen, .inl ⟨_, buffer, .inl ⟨rfl, rfl⟩, rfl⟩⟩
    | stderr =>
      dsimp only
      cases appendStream (k.process pid).stderrBuffer (request.drop 4) with
      | none => exact .inl (refuses_touch (by decide))
      | some buffer => exact .inr ⟨hlen, .inl ⟨_, buffer, .inr ⟨rfl, rfl⟩, rfl⟩⟩
    | file id =>
      dsimp only
      cases ho : k.ofds.get? id with
      | none => exact .inl (refuses_touch (by decide))
      | some o =>
        dsimp only
        by_cases hw : o.writable = true
        · refine .inr ⟨hlen, .inr (.inr (.inl ⟨id, o, rfl, ho, hw, _, _, _, rfl, ?_⟩))⟩
          rw [if_neg (by simp [hw])]
          rfl
        · rw [if_pos (by simpa using hw)]
          exact .inl (refuses_touch (by decide))
    | socket id => exact .inr ⟨hlen, .inr (.inr (.inr ⟨id, rfl, rfl⟩))⟩
    | pipe id side =>
      cases side with
      | read => exact .inl (refuses_touch (by decide))
      | write =>
        dsimp only
        cases hb : k.pipes.get? id with
        | none => exact .inl (refuses_touch (by decide))
        | some b =>
          dsimp only
          split_ifs with hends hfull
          · exact .inl (refuses_touch (by decide))
          · exact .inl (refuses_touch (by decide))
          · exact .inr ⟨hlen, .inr (.inl ⟨id, b, rfl, hb, by simpa using hfull, rfl⟩)⟩

theorem Kernel.sendto_cases : k.Refuses pid (k.sysSocketSendto pid request) ∨
    ¬ (request.length < 12 ∨ request.length < 12 + u32At request 8) ∧
    ∃ id s p pp bound rx q isOpen path target,
      k.fdEntry pid (u32At request 0) = some (.socket id) ∧ k.sockets.get? id = some s ∧
      s.kind = .unixDatagram p pp bound rx q isOpen ∧
      unixPathFromAddr ((request.drop 12).take (u32At request 8)) = some path ∧
      k.unixDatagrams.get? path = some target ∧
      k.sysSocketSendto pid request = (k.touch pid).deliverPacket ECONNREFUSED target
        ⟨request.drop (12 + u32At request 8), bound⟩ [] := by
  unfold sysSocketSendto
  simp only
  split_ifs with hlen haddr hflags
  · exact .inl (refuses (by decide))
  · exact .inl (refuses (by decide))
  · exact .inl (refuses (by decide))
  cases hid : k.socketIdForFd pid (u32At request 0) with
  | error rc => exact .inl (refuses_touch (socketIdForFd_neg hid))
  | ok id =>
    obtain ⟨hfd, s, hs⟩ := socketIdForFd_ok hid
    unfold socketSendtoId
    simp only
    split_ifs
    · exact .inl (refuses_touch (by decide))
    cases hpath : unixPathFromAddr ((request.drop 12).take (u32At request 8)) with
    | none => exact .inl (refuses_touch (by decide))
    | some path =>
      simp only [show (k.touch pid).sockets.get? id = some s from hs, Option.map_some]
      cases hkind : s.kind with
      | unixDatagram p pp bound rx q isOpen =>
        cases ht : k.unixDatagrams.get? path with
        | none =>
          rw [show (k.touch pid).unixDatagrams.get? path = none from ht]
          exact .inl (refuses_touch (by decide))
        | some target =>
          rw [show (k.touch pid).unixDatagrams.get? path = some target from ht]
          exact .inr ⟨not_or.mpr ⟨hlen, haddr⟩, id, s, p, pp, bound, rx, q, isOpen, path, target, hfd, hs,
            hkind, rfl, ht, rfl⟩
      | _ => exact .inl (refuses_touch (by decide))

/-- A socket that was just opened becomes the end of a pair or a socket of the host; a datagram
    socket gets a peer. -/
theorem Kernel.connect_cases : k.Refuses pid (k.sysSocketConnect kh pid request) ∨
    ∃ id s, k.socketIdForFd pid (u32At request 0) = .ok id ∧ k.sockets.get? id = some s ∧
      ((∃ flags bound, s.kind = .opened flags bound ∧
        ((∃ path, unixPathFromAddr (request.drop 4) = some path ∧ k.sysSocketConnect kh pid request =
            match (k.touch pid).connectUnixStream path (k.peerCredFor pid) with
            | (.ok newId, k') => (0, k'.replaceSocketFd kh pid (u32At request 0) id newId)
            | (.error e, k') => (-e, k')) ∨
          unixPathFromAddr (request.drop 4) = none ∧ ∃ handle host, k.sysSocketConnect kh pid request =
            if handle < 0 then (handle, { k.touch pid with host := host })
            else (0, { k.touch pid with host := host }.becomeHost id handle))) ∨
      ∃ peer pp bound rx q isOpen path, s.kind = .unixDatagram peer pp bound rx q isOpen ∧
        unixPathFromAddr (request.drop 4) = some path ∧
        k.sysSocketConnect kh pid request = (k.touch pid).connectUnixDatagram id path) := by
  unfold sysSocketConnect
  simp only
  split_ifs
  · exact .inl (refuses (by decide))
  · exact .inl (refuses (by decide))
  cases hid : k.socketIdForFd pid (u32At request 0) with
  | error rc => exact .inl (refuses_touch (socketIdForFd_neg hid))
  | ok id =>
    obtain ⟨-, s, hs⟩ := socketIdForFd_ok hid
    simp only [hs]
    cases hkind : s.kind with
    | opened flags bound =>
      cases unixPathFromAddr (request.drop 4) with
      | some path =>
        simp only
        split_ifs
        · exact .inr ⟨id, s, rfl, hs, .inl ⟨flags, bound, hkind, .inl ⟨path, rfl, rfl⟩⟩⟩
        · exact .inl (refuses_touch (by decide))
      | none =>
        by_cases hinet : (!inetSockaddrOk s.domain (request.drop 4)) = true
        · simp only [if_pos hinet]
          exact .inl (refuses_touch (by decide))
        · simp only [if_neg hinet]
          exact .inr ⟨id, s, rfl, hs, .inl ⟨flags, bound, hkind, .inr ⟨trivial, _, _, rfl⟩⟩⟩
    | unixDatagram peer pp bound rx q isOpen =>
      cases unixPathFromAddr (request.drop 4) with
      | some path =>
        exact .inr ⟨id, s, rfl, hs, .inr ⟨peer, pp, bound, rx, q, isOpen, path, hkind, rfl, rfl⟩⟩
      | none => exact .inl (refuses_touch (by decide))
    | _ => exact .inl (refuses_touch (by decide))

end

/-! ### Connections -/

/-- The ends of a new connection, which know its path. -/
def Kernel.pairAt (k : Kernel σ) (path : Bytes) (cred : PeerCred) : Kernel σ :=
  ((k.addSocket 1 1 (.unixStream (k.nextSocketId + 1) none (some path) [] [] true cred)).2.addSocket 1 1
    (.unixStream k.nextSocketId (some path) none [] [] true cred)).2

section
variable (path : Bytes) (cred : PeerCred)

theorem Kernel.get?_pairAt (k : Kernel σ) (i : Nat) : (k.pairAt path cred).sockets.get? i =
      if i = k.nextSocketId + 1 then
        some ⟨1, 1, 1, false, .unixStream k.nextSocketId (some path) none [] [] true cred⟩
      else if i = k.nextSocketId then
        some ⟨1, 1, 1, false, .unixStream (k.nextSocketId + 1) none (some path) [] [] true cred⟩
      else k.sockets.get? i := by
  simp [pairAt, addSocket]

theorem Kernel.get?_pairAt_of_lt (h : id < k.nextSocketId) :
    (k.pairAt path cred).sockets.get? id = k.sockets.get? id := by
  rw [get?_pairAt, if_neg (by omega), if_neg (by omega)]

/-- A connection is refused, or the server's end is put into the queue of a listener. -/
theorem Kernel.connectUnixStream_cases (k : Kernel σ) :
    k.connectUnixStream path cred = (.error ECONNREFUSED, k) ∨
    ∃ listener s lpath backlog pending, k.sockets.get? listener = some s ∧
      s.kind = .unixListener lpath backlog pending ∧ (listener < k.nextSocketId →
        k.connectUnixStream path cred = (.ok k.nextSocketId, (k.pairAt path cred).setKind listener
          (.unixListener lpath backlog (pending ++ [k.nextSocketId + 1])))) := by
  unfold connectUnixStream
  split
  · exact .inl rfl
  rename_i listener _
  split
  · next lpath backlog pending hkind =>
    obtain ⟨s, hs, hkind⟩ := Option.map_eq_some_iff.mp hkind
    split
    · exact .inl rfl
    refine .inr ⟨listener, s, lpath, backlog, pending, hs, hkind, fun hlt => Prod.ext rfl ?_⟩
    refine congrArg (fun sockets => ({ k.pairAt path cred with sockets := sockets } : Kernel σ))
      (ext_get? (fun i => ?_))
    simp only [createUnixStreamPair, addPair, pairAt, addSocket, setKind, get?_modify, get?_insert]
    have hleft : listener ≠ k.nextSocketId := by omega
    have hright : listener ≠ k.nextSocketId + 1 := by omega
    by_cases hserver : i = k.nextSocketId + 1
    · simp [hserver, hright.symm]
    by_cases hclient : i = k.nextSocketId
    · simp [hclient, hleft.symm]
    · simp [hserver, hclient, hleft, hright]
  · exact .inl rfl

end

/-- A `recvfrom` fails early, is refused, or is a receive whose reply goes on with the sender's
    address. -/
theorem Kernel.recvfrom_cases (kh : Kh σ) (k : Kernel σ) (pid : Pid) (request : Bytes) (cap : Nat) :
    (∃ rc k', k.sysSocketRecvfrom pid request cap = (.code rc, k') ∧ k.Idle pid k' ∧
      ((request.length < 16 ∨ cap < u32At request 8 + 8) ∨
        ∃ e, k.socketIdForFd pid (u32At request 0) = .error e)) ∨
    ∃ id s, ¬ (request.length < 16 ∨ cap < u32At request 8 + 8) ∧
      k.socketIdForFd pid (u32At request 0) = .ok id ∧ k.sockets.get? id = some s ∧
      (s.kind.isDatagram = false ∧ k.sysSocketRecvfrom pid request cap =
          (.code (if k.readShut id then 0 else -EOPNOTSUPP), k.touch pid) ∨
        s.kind.isDatagram = true ∧ ∃ reply k' more,
          (k.touch pid).socketRecvId kh id (u32At request 8) (u32At request 4) = (reply, k') ∧
          k.sysSocketRecvfrom pid request cap = (⟨reply.rc, reply.writes ++ more⟩, k') ∧
          (reply.writes = [] → more = [])) := by
  unfold sysSocketRecvfrom
  by_cases hlen : request.length < 16
  · rw [if_pos hlen]
    exact .inl ⟨_, k, rfl, .inl rfl, .inl (.inl hlen)⟩
  by_cases hcap : cap < u32At request 8 + 8
  · simp only [if_neg hlen, if_pos hcap]
    exact .inl ⟨_, k, rfl, .inl rfl, .inl (.inr hcap)⟩
  simp only [if_neg hlen, if_neg hcap]
  cases hid : k.socketIdForFd pid (u32At request 0) with
  | error rc => exact .inl ⟨rc, _, rfl, .inr rfl, .inr ⟨rc, rfl⟩⟩
  | ok id =>
    obtain ⟨-, s, hs⟩ := socketIdForFd_ok hid
    refine .inr ⟨id, s, not_or.mpr ⟨hlen, hcap⟩, rfl, hs, ?_⟩
    have hs' : (k.touch pid).sockets.get? id = some s := hs
    have hshut : (k.touch pid).readShut id = k.readShut id := rfl
    have hclosed : (k.touch pid).socketPeerWriteClosed id = k.socketPeerWriteClosed id := rfl
    simp only [hs, socketRecvId, hs', hshut, hclosed, Option.map_some]
    cases hkind : s.kind with
    | unixDatagram p pp bp rx rights isOpen =>
      refine .inr ⟨rfl, ?_⟩
      simp only
      split_ifs
      · exact ⟨_, _, [], rfl, rfl, fun _ => rfl⟩
      · exact ⟨_, _, [], rfl, rfl, fun _ => rfl⟩
      · cases rx with
        | nil => exact ⟨_, _, [], rfl, rfl, fun _ => rfl⟩
        | cons => exact ⟨_, _, _, rfl, rfl, fun hnone => by cases hnone⟩
      · cases rx with
        | nil => exact ⟨_, _, [], rfl, rfl, fun _ => rfl⟩
        | cons => exact ⟨_, _, _, rfl, rfl, fun hnone => by cases hnone⟩
    | _ =>
      refine .inl ⟨rfl, ?_⟩
      split_ifs <;> rfl

end Yurt
