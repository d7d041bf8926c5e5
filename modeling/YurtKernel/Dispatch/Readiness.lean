import YurtKernel.Kernel.ThreadExit
import YurtKernel.Dispatch.Poll

/-! Whether `poll` is right (`dispatch/mod.rs`, `dispatch/socket.rs`).

    What `poll` says is compared with what the next read, accept or write returns. A stream whose other
    half is shut down is at its end without `poll` saying so, and it looks at no buffer's free space. -/

namespace Yurt
open Kernel
variable {σ : Type} {k : Kernel σ} {pid : Pid} {fd : Nat} {e : FdEntry}
variable {q : List (List FdEntry)} {pp : Option Bytes} {pending : List Nat} {path : Bytes}
  {isOpen : Bool} {readable writable : Prop} {backlog flags : Nat}

/-! ### When it holds -/

section
variable (kh : Kh σ) (k : Kernel σ) (h : σ)

/-- The host does not put off a read of `inode`. -/
def Leaf.ReadsAtOnce : Leaf → Inode → Prop
  | .dev, inode => inode = 3 ∨ inode = 4 → ∀ room, 0 < room → (kh.fillRandom h room).1.1 ≠ -EAGAIN
  | .hostFs b, inode =>
    b.fds.contains inode → ∀ room, 0 < room → (kh.realRead h inode room).1.1 ≠ -EAGAIN
  | _, _ => True

/-- The host does not put off a write of one byte to `inode`. -/
def Leaf.WritesAtOnce : Leaf → Inode → Prop
  | .hostFs b, inode =>
    b.fds.contains inode → ∀ byte, (kh.realWrite h inode [byte]).1 ≠ -EAGAIN
  | _, _ => True

def Backend.ReadsAtOnce : Backend → Inode → Prop
  | .leaf b, inode => b.ReadsAtOnce kh h inode
  | .overlay b, inode =>
    match b.state.layered.get? inode with
    | some (.upper, inner) => b.upper.ReadsAtOnce kh h inner
    | some (.lower, inner) => b.lower.ReadsAtOnce kh h inner
    | none => True

def Backend.WritesAtOnce : Backend → Inode → Prop
  | .leaf b, inode => b.WritesAtOnce kh h inode
  | .overlay b, inode =>
    match b.state.layered.get? inode with
    | some (.upper, inner) => b.upper.WritesAtOnce kh h inner
    | _ => True

namespace Kernel

/-- The host answers the reads, and the writes a description allows, of an open file at once. -/
def FileAtOnce (o : OpenFileDescription) : Prop := ∀ b, k.vfs.backend? o.mountId = some b →
    b.ReadsAtOnce kh k.host o.inode ∧ (o.writable = true → b.WritesAtOnce kh k.host o.inode)

/-- A connected socket that is not at its end tells so, and one that can be written to has room at its
    peer. -/
def EndReady (id : Nat) (rxEmpty isOpen : Bool) (peerFull : Prop) : Prop := isOpen = true →
    (rxEmpty = true → k.readShut id = false ∧ k.socketPeerWriteClosed id = false) ∧
    (k.writeShut id = false → ¬peerFull)

/-- The peer's stream holds as much as it can. -/
def StreamFull (peer : Nat) : Prop :=
  ∃ p lp pp rx q isOpen cred, (k.sockets.get? peer).map SocketEntry.kind =
    some (.unixStream p lp pp rx q isOpen cred) ∧ kernelBufferCap ≤ rx.length

/-- The peer's packets take up as much as they can. -/
def QueueFull (peer : Option Nat) : Prop :=
  ∃ id p pp bp rx q isOpen, peer = some id ∧ (k.sockets.get? id).map SocketEntry.kind =
    some (.unixDatagram p pp bp rx q isOpen) ∧ kernelBufferCap ≤ datagramQueueBytes rx

/-- The states in which `poll` is right about an entry: what is written to has room, no stream has come
    to its end through a half-close, and the host puts nothing off. -/
def PollReady (pid : Pid) : FdEntry → Prop
  | .stdin | .pipe _ .read | .directory _ _ _ => True
  | .stdout => (k.process pid).stdoutBuffer.length < kernelBufferCap
  | .stderr => (k.process pid).stderrBuffer.length < kernelBufferCap
  | .pipe id .write =>
    ∀ b, k.pipes.get? id = some b → b.readEnds ≠ 0 → b.bytes.length < kernelBufferCap
  | .file id => ∀ o, k.ofds.get? id = some o → k.FileAtOnce kh o
  | .socket id =>
    match (k.sockets.get? id).map SocketEntry.kind with
    | some (.opened _ _) => k.readShut id = false
    | some (.unixStream peer _ _ rx _ isOpen _) =>
      k.EndReady id rx.isEmpty isOpen (k.StreamFull peer)
    | some (.unixDatagram peer _ _ rx _ isOpen) =>
      k.EndReady id rx.isEmpty isOpen (k.QueueFull peer)
    | _ => True

/-- A descriptor of a socket of the host. -/
def IsHostSocket (e : FdEntry) : Prop :=
  ∃ id handle, e = .socket id ∧ (k.sockets.get? id).map SocketEntry.kind = some (.host handle)

end Kernel

end

/-! ### The next call of each kind of entry -/

theorem readU32Args_leBytes (hfd : fd < 2 ^ 32) : readU32Args 1 (leBytes 4 fd) = some [fd] := by
  rw [readU32Args_one, leBytes_length, if_neg (by decide)]
  have h := u32At_leBytes_append hfd []
  rw [List.append_nil] at h
  rw [h]

theorem writeRequest_drop (fd : Nat) (byte : Fin 256) : (leBytes 4 fd ++ [byte]).drop 4 = [byte] :=
  List.drop_left' (leBytes_length 4 fd)

theorem hasBufferCapacity_one (n : Nat) : hasBufferCapacity n 1 = true ↔ n < kernelBufferCap := by
  unfold hasBufferCapacity kernelBufferCap
  rw [decide_eq_true_iff]
  omega

/-- Appending one byte to an output stream fails exactly when it is full. -/
theorem appendStream_one (buffer : Bytes) (byte : Fin 256) :
    appendStream buffer [byte] = if buffer.length < kernelBufferCap then some (buffer ++ [byte]) else none := by
  unfold appendStream
  rw [List.length_singleton]
  by_cases h : buffer.length < kernelBufferCap
  · rw [if_pos h, if_pos ((hasBufferCapacity_one _).mpr h)]
  · rw [if_neg h, if_neg (fun hc => h ((hasBufferCapacity_one _).mp hc))]

section Next
variable {kh : Kh σ} (hfd : fd < 2 ^ 31) (hopen : k.fdEntry pid fd = some e)
include hfd hopen

/-- The next read of an entry that is not a socket. -/
theorem Kernel.takeNext_eq (hsocket : ∀ id, e ≠ .socket id) (room flags : Nat) :
    (k.touch pid).takeNext kh pid fd room flags =
      (match e with
        | .stdin =>
          if (k.process pid).stdinBuffer.isEmpty then (if (k.process pid).stdinEof then 0 else -EAGAIN)
          else ((k.process pid).stdinBuffer.take room).length
        | .stdout | .stderr => -EINVAL
        | .pipe id .read =>
          match k.pipes.get? id with
          | none => -EBADF
          | some b =>
            if b.bytes.isEmpty then (if b.writeEnds = 0 then 0 else -EAGAIN)
            else (b.bytes.take room).length
        | .file id =>
          match k.ofds.get? id with
          | none => -EBADF
          | some o => (k.vfs.read kh k.host o.mountId o.inode o.offset room).1.1
        | .directory _ _ _ => -EISDIR
        | _ => -EBADF) := by
  have hentry : (k.touch pid).fdEntry pid fd = some e := by rw [k.fdEntry_touch, hopen]
  unfold takeNext readFd
  rw [readU32Args_leBytes (by omega)]
  dsimp only
  rw [hentry]
  cases e with
  | stdin =>
    dsimp only
    rw [k.process_touch]
    split <;> rfl
  | stdout | stderr | directory => rfl
  | file id =>
    dsimp only
    change (match k.ofds.get? id with | none => _ | some o => _ : Reply × Kernel σ).1.rc = _
    cases k.ofds.get? id <;> rfl
  | pipe id side =>
    cases side with
    | write => rfl
    | read =>
      dsimp only
      change (match k.pipes.get? id with | none => _ | some b => _ : Reply × Kernel σ).1.rc = _
      cases k.pipes.get? id with
      | none => rfl
      | some b =>
        dsimp only
        split <;> rfl
  | socket id => exact absurd rfl (hsocket id)

/-- The next read of a socket, or the next accept of a listener. -/
theorem Kernel.takeNext_socket {id : Nat} (he : e = .socket id) (room flags : Nat) :
    (k.touch pid).takeNext kh pid fd room flags =
      match (k.sockets.get? id).map SocketEntry.kind with
      | some (.unixListener _ _ _) =>
        ((k.touch pid).sysSocketAccept kh pid (leBytes 4 fd ++ leBytes 4 flags)).1
      | _ => ((k.touch pid).socketRecvId kh id room 0).1.rc := by
  subst he
  have hentry : (k.touch pid).fdEntry pid fd = some (.socket id) := by rw [k.fdEntry_touch, hopen]
  unfold takeNext readFd
  rw [readU32Args_leBytes (by omega)]
  dsimp only
  rw [hentry, k.touch_touch]
  rfl

/-- The next write of one byte. -/
theorem Kernel.putOne_eq (byte : Fin 256) : (k.touch pid).putOne kh pid fd byte =
      match e with
        | .stdout => if (k.process pid).stdoutBuffer.length < kernelBufferCap then 1 else -EAGAIN
        | .stderr => if (k.process pid).stderrBuffer.length < kernelBufferCap then 1 else -EAGAIN
        | .stdin => -EINVAL
        | .pipe id .write =>
          match k.pipes.get? id with
          | none => -EBADF
          | some b =>
            if b.readEnds = 0 then -EPIPE
            else if b.bytes.length < kernelBufferCap then 1 else -EAGAIN
        | .file id =>
          match k.ofds.get? id with
          | none => -EBADF
          | some o =>
            if o.writable then (k.vfs.write kh k.host o.mountId o.inode o.offset [byte]).1 else -EBADF
        | .socket id => ((k.touch pid).socketSendId kh id [byte]).1
        | _ => -EBADF := by
  have hentry : (k.touch pid).fdEntry pid fd = some e := by rw [k.fdEntry_touch, hopen]
  have hlen : ¬(leBytes 4 fd ++ [byte]).length < 4 := by
    rw [List.length_append, leBytes_length]; omega
  unfold putOne writeFd
  rw [if_neg hlen, writeRequest_drop, u32At_leBytes_append (by omega)]
  rw [hentry]
  cases e with
  | stdin | directory => rfl
  | stdout | stderr =>
    dsimp only
    rw [k.process_touch, appendStream_one]
    split_ifs <;> rfl
  | file id =>
    dsimp only
    change (match k.ofds.get? id with | none => _ | some o => _ : Int × Kernel σ).1 = _
    cases k.ofds.get? id with
    | none => rfl
    | some o =>
      dsimp only
      cases o.writable <;> rfl
  | pipe id side =>
    cases side with
    | read => rfl
    | write =>
      dsimp only
      change (match k.pipes.get? id with | none => _ | some b => _ : Int × Kernel σ).1 = _
      cases k.pipes.get? id with
      | none => rfl
      | some b =>
        have hcap : ¬(!hasBufferCapacity b.bytes.length [byte].length) = true ↔
            b.bytes.length < kernelBufferCap := by
          rw [← hasBufferCapacity_one]; simp
        dsimp only
        by_cases hends : b.readEnds = 0
        · rw [if_pos hends, if_pos hends]
        · rw [if_neg hends, if_neg hends]
          by_cases hroom : b.bytes.length < kernelBufferCap
          · rw [if_pos hroom, if_neg (hcap.mpr hroom)]; rfl
          · rw [if_neg hroom, if_pos (not_not.mp (fun h => hroom (hcap.mp h)))]
  | socket id =>
    rw [k.touch_touch]

end Next

/-! ### Files -/

theorem ofNat_ne_eagain (n : Nat) : (n : Int) ≠ -EAGAIN := by
  have h : -EAGAIN < 0 := by decide
  omega

theorem ebadf_ne_eagain : -EBADF ≠ -EAGAIN := by decide

theorem epipe_ne_eagain : -EPIPE ≠ -EAGAIN := by decide

section
variable (kh : Kh σ) (h : σ) (b : Leaf) (inode : Inode) (offset : Nat)

theorem Leaf.read_atOnce :
    (∀ room, 0 < room → (b.read kh h inode offset room).1.1 ≠ -EAGAIN) ↔ b.ReadsAtOnce kh h inode := by
  cases b with
  | ramfs b | proc b | tar b =>
    refine iff_of_true (fun room _ => ?_) trivial
    dsimp only [Leaf.read, RamfsBackend.read, ProcBackend.read, TarLayerBackend.read]
    split
    · exact ebadf_ne_eagain
    · exact ofNat_ne_eagain _
  | hostFs b =>
    dsimp only [Leaf.read, Leaf.ReadsAtOnce, HostFsBackend.read]
    by_cases hfd : b.fds.contains inode = true
    · simp only [hfd, if_true, forall_const]
    · simp only [hfd]
      exact iff_of_true (fun _ _ => ebadf_ne_eagain) (fun h => absurd h (by decide))
  | dev =>
    -- only the random devices ask the host
    have hfill : ∀ room, 0 < room → ((Dev.read.fill kh h room).1.1 ≠ -EAGAIN ↔
        (kh.fillRandom h room).1.1 ≠ -EAGAIN) := by
      intro room hroom
      unfold Dev.read.fill
      rw [if_neg (by omega)]
      dsimp only
      split
      · rename_i hrc
        rw [hrc]
        exact iff_of_true (ofNat_ne_eagain _) (ofNat_ne_eagain 0)
      · rfl
    dsimp only [Leaf.read, Leaf.ReadsAtOnce, Dev.read]
    split
    · exact iff_of_true (fun _ _ => ofNat_ne_eagain 0) (fun h => absurd h (by decide))
    · exact iff_of_true (fun room _ => ofNat_ne_eagain room) (fun h => absurd h (by decide))
    · exact ⟨fun hread _ room hroom => (hfill room hroom).mp (hread room hroom),
        fun hhost room hroom => (hfill room hroom).mpr (hhost (.inl rfl) room hroom)⟩
    · exact ⟨fun hread _ room hroom => (hfill room hroom).mp (hread room hroom),
        fun hhost room hroom => (hfill room hroom).mpr (hhost (.inr rfl) room hroom)⟩
    · rename_i h3 h4
      exact iff_of_true (fun _ _ => ebadf_ne_eagain)
        (fun hdev => (hdev.elim (fun h => absurd h h3) (fun h => absurd h h4)))

theorem Leaf.write_atOnce :
    (∀ byte, (b.write kh h inode offset [byte]).1 ≠ -EAGAIN) ↔ b.WritesAtOnce kh h inode := by
  cases b with
  | ramfs b =>
    refine iff_of_true (fun byte => ?_) trivial
    dsimp only [Leaf.write, RamfsBackend.write]
    split
    · exact ebadf_ne_eagain
    · exact ofNat_ne_eagain _
  | dev =>
    refine iff_of_true (fun byte => ?_) trivial
    dsimp only [Leaf.write, Dev.write]
    split
    · exact ofNat_ne_eagain _
    · exact ebadf_ne_eagain
  | proc | tar => exact iff_of_true (fun _ => ebadf_ne_eagain) trivial
  | hostFs b =>
    dsimp only [Leaf.write, Leaf.WritesAtOnce, HostFsBackend.write]
    by_cases hfd : b.fds.contains inode = true
    · simp only [hfd, if_true, forall_const]
    · simp only [hfd]
      exact iff_of_true (fun _ => ebadf_ne_eagain) (fun h => absurd h (by decide))

end

theorem Backend.read_atOnce (kh : Kh σ) (h : σ) (b : Backend) (inode : Inode) (offset : Nat) :
    (∀ room, 0 < room → (b.read kh h inode offset room).1.1 ≠ -EAGAIN) ↔ b.ReadsAtOnce kh h inode := by
  cases b with
  | leaf b => exact b.read_atOnce kh h inode offset
  | overlay b =>
    dsimp only [Backend.read, OverlayBackend.read, Backend.ReadsAtOnce]
    rcases b.state.layered.get? inode with _ | ⟨layer, inner⟩
    · exact iff_of_true (fun _ _ => ebadf_ne_eagain) trivial
    · cases layer <;> exact Leaf.read_atOnce kh h _ inner offset

theorem Backend.write_atOnce (kh : Kh σ) (h : σ) (b : Backend) (inode : Inode) (offset : Nat) :
    (∀ byte, (b.write kh h inode offset [byte]).1 ≠ -EAGAIN) ↔ b.WritesAtOnce kh h inode := by
  cases b with
  | leaf b => exact b.write_atOnce kh h inode offset
  | overlay b =>
    dsimp only [Backend.write, Backend.onOverlay, OverlayBackend.write, Backend.WritesAtOnce]
    rcases b.state.layered.get? inode with _ | ⟨layer, inner⟩
    · exact iff_of_true (fun _ => ebadf_ne_eagain) trivial
    · cases layer with
      | upper => exact b.upper.write_atOnce kh h inner offset
      | lower => exact iff_of_true (fun _ => ebadf_ne_eagain) trivial

/-- Reads of an open file and the writes it allows are put off exactly when the host does so. -/
theorem Kernel.fileAtOnce_iff (kh : Kh σ) (k : Kernel σ) (o : OpenFileDescription) : k.FileAtOnce kh o ↔
      (∀ room, 0 < room → (k.vfs.read kh k.host o.mountId o.inode o.offset room).1.1 ≠ -EAGAIN) ∧
      (o.writable = true →
        ∀ byte, (k.vfs.write kh k.host o.mountId o.inode o.offset [byte]).1 ≠ -EAGAIN) := by
  unfold FileAtOnce MountTable.read MountTable.write
  cases hb : k.vfs.backend? o.mountId with
  | none =>
    exact iff_of_true (fun b h => absurd h (by simp))
      ⟨fun _ _ => ebadf_ne_eagain, fun _ _ => ebadf_ne_eagain⟩
  | some b =>
    rw [b.read_atOnce kh k.host o.inode o.offset, b.write_atOnce kh k.host o.inode o.offset]
    simp only [Option.some.injEq, forall_eq']

/-! ### Connected sockets -/

theorem connectedRevents_readable (rxEmpty isOpen wantsWrite : Bool) :
    connectedRevents rxEmpty isOpen true wantsWrite &&& (pollin ||| pollhup) ≠ 0 ↔
      rxEmpty = false ∨ isOpen = false := by
  revert rxEmpty isOpen wantsWrite
  decide

theorem connectedRevents_writable (rxEmpty isOpen wantsRead : Bool) :
    connectedRevents rxEmpty isOpen wantsRead true &&& pollout ≠ 0 ↔ isOpen = true := by
  revert rxEmpty isOpen wantsRead
  decide

/-- Both kinds of connected sockets: `count` is what a receive of queued data returns, `full` that the
    peer has no room. -/
theorem Kernel.pollHonest_connected {kh : Kh σ} {id : Nat} {rxEmpty : Bool} {full : Prop}
    (count : Nat → Nat)
    (hrevents : ∀ wantsRead wantsWrite, k.entryRevents pid wantsRead wantsWrite e =
      connectedRevents rxEmpty isOpen wantsRead wantsWrite)
    (hread : ∀ room flags, (k.touch pid).takeNext kh pid fd room flags =
      if k.readShut id then 0
      else if rxEmpty then emptyRecv isOpen (k.socketPeerWriteClosed id) else count room)
    (hwrite : ∀ byte, (k.touch pid).putOne kh pid fd byte = -EAGAIN ↔
      k.writeShut id = false ∧ isOpen = true ∧ full) :
    k.PollHonest kh pid fd e ↔ k.EndReady id rxEmpty isOpen full := by
  have hagain : -EAGAIN < 0 := by decide
  constructor
  · rintro ⟨hreads, hwrites⟩ hisOpen
    constructor
    · intro hempty
      have h := hreads false 1 0 (by decide)
      rw [hrevents, if_neg (by rw [connectedRevents_readable]; simp [hempty, hisOpen]), hread] at h
      by_cases hshut : k.readShut id = true
      · rw [if_pos hshut] at h
        exact absurd h (by decide)
      · rw [if_neg hshut, if_pos hempty, hisOpen] at h
        refine ⟨Bool.eq_false_iff.mpr hshut, ?_⟩
        cases hclosed : k.socketPeerWriteClosed id with
        | false => rfl
        | true =>
          rw [hclosed] at h
          exact absurd h (by decide)
    · intro hshut hfull
      refine hwrites false 0 ?_ ((hwrite 0).mpr ⟨hshut, hisOpen, hfull⟩)
      rw [hrevents, connectedRevents_writable]
      exact hisOpen
  · intro hready
    refine ⟨fun wantsWrite room flags _ => ?_, fun wantsRead byte hout hagain => ?_⟩
    · rw [hrevents, hread]
      split
      · -- something is queued, or the peer is gone
        rename_i htold
        rw [connectedRevents_readable] at htold
        split
        · exact ofNat_ne_eagain 0
        · split
          · rename_i hempty
            obtain hrx | hisOpen := htold
            · exact absurd (hrx.symm.trans hempty) (by decide)
            · rw [hisOpen]; exact ofNat_ne_eagain 0
          · exact ofNat_ne_eagain _
      · rename_i htold
        rw [connectedRevents_readable, not_or, Bool.not_eq_false, Bool.not_eq_false] at htold
        obtain ⟨hopenShut, hclosed⟩ := (hready htold.2).1 htold.1
        rw [hopenShut, hclosed, htold.1, htold.2]
        exact hagain
    · rw [hrevents, connectedRevents_writable] at hout
      obtain ⟨hshut, -, hfull⟩ := (hwrite byte).mp hagain
      exact (hready hout).2 hshut hfull

theorem Kernel.deliverStream_again (k : Kernel σ) (peer : Nat) (byte : Fin 256) :
    (k.deliverStream peer [byte] []).1 = -EAGAIN ↔ k.StreamFull peer := by
  unfold deliverStream StreamFull
  split
  · rename_i p lp pp rx q isOpen cred hkind
    have hcap := hasBufferCapacity_one rx.length
    have hfull : (!hasBufferCapacity rx.length [byte].length || rightsQueueFull [] q.length) = true ↔
        kernelBufferCap ≤ rx.length := by
      rw [← Nat.not_lt, ← hcap]; simp [rightsQueueFull]
    rw [hkind]
    by_cases hroom : kernelBufferCap ≤ rx.length
    · rw [if_pos (hfull.mpr hroom)]
      exact iff_of_true rfl ⟨p, lp, pp, rx, q, isOpen, cred, rfl, hroom⟩
    · rw [if_neg (fun h => hroom (hfull.mp h))]
      refine iff_of_false (ofNat_ne_eagain _) ?_
      rintro ⟨p', lp', pp', rx', q', isOpen', cred', hsame, hlen⟩
      cases hsame
      exact hroom hlen
  · rename_i hkind
    refine iff_of_false epipe_ne_eagain ?_
    rintro ⟨p, lp, pp, rx, q, isOpen, cred, hsame, -⟩
    exact hkind _ _ _ _ _ _ _ hsame

theorem Kernel.deliverPacket_again (k : Kernel σ) (peer : Nat) (byte : Fin 256) (bound : Option Bytes) :
    (k.deliverPacket EPIPE peer ⟨[byte], bound⟩ []).1 = -EAGAIN ↔ k.QueueFull (some peer) := by
  unfold deliverPacket QueueFull
  split
  · rename_i p pp bp rx q isOpen hkind
    have hcap := hasBufferCapacity_one (datagramQueueBytes rx)
    have hfull : (!hasBufferCapacity (datagramQueueBytes rx) [byte].length ||
        rightsQueueFull [] q.length) = true ↔ kernelBufferCap ≤ datagramQueueBytes rx := by
      rw [← Nat.not_lt, ← hcap]; simp [rightsQueueFull]
    by_cases hroom : kernelBufferCap ≤ datagramQueueBytes rx
    · rw [if_pos (hfull.mpr hroom)]
      exact iff_of_true rfl ⟨peer, p, pp, bp, rx, q, isOpen, rfl, hkind, hroom⟩
    · rw [if_neg (fun h => hroom (hfull.mp h))]
      refine iff_of_false (ofNat_ne_eagain _) ?_
      rintro ⟨_, p', pp', bp', rx', q', isOpen', hpeer, hsame, hlen⟩
      cases hpeer
      rw [hkind] at hsame
      cases hsame
      exact hroom hlen
  · rename_i hkind
    refine iff_of_false epipe_ne_eagain ?_
    rintro ⟨_, p, pp, bp, rx, q, isOpen, hpeer, hsame, -⟩
    cases hpeer
    exact hkind _ _ _ _ _ _ hsame

/-- A send that reaches a peer only with both ends open. -/
theorem send_again_iff {shut isOpen : Bool} {full : Prop} {r : Int × Kernel σ} (h : r.1 = -EAGAIN ↔ full) :
    (if shut then (-EPIPE, k) else if isOpen then r else (-EPIPE, k)).1 = -EAGAIN ↔
      shut = false ∧ isOpen = true ∧ full := by
  cases shut with
  | true => exact iff_of_false epipe_ne_eagain (fun h => nomatch h.1)
  | false =>
    cases isOpen with
    | false => exact iff_of_false epipe_ne_eagain (fun h => nomatch h.2.1)
    | true => exact h.trans ⟨fun h => ⟨rfl, rfl, h⟩, fun h => h.2.2⟩

/-! ### Each kind of entry -/

theorem event_readable (holds : Bool) : event holds pollin &&& (pollin ||| pollhup) ≠ 0 ↔ holds = true := by
  revert holds; decide

/-- `readable` is said when asked for `POLLIN`, `writable` when asked for `POLLOUT`. -/
structure Kernel.Tells (k : Kernel σ) (pid : Pid) (e : FdEntry) (readable writable : Prop) : Prop where
  hin : ∀ wantsWrite, k.entryRevents pid true wantsWrite e &&& (pollin ||| pollhup) ≠ 0 ↔ readable
  hout : ∀ wantsRead, k.entryRevents pid wantsRead true e &&& pollout ≠ 0 ↔ writable

theorem Kernel.tells_of_revents {f : Bool → Bool → Nat}
    (h : ∀ wantsRead wantsWrite, k.entryRevents pid wantsRead wantsWrite e = f wantsRead wantsWrite)
    (hin : ∀ wantsWrite, f true wantsWrite &&& (pollin ||| pollhup) ≠ 0 ↔ readable)
    (hout : ∀ wantsRead, f wantsRead true &&& pollout ≠ 0 ↔ writable) :
    k.Tells pid e readable writable :=
  ⟨fun wantsWrite => by rw [h, hin], fun wantsRead => by rw [h, hout]⟩

theorem Kernel.Tells.honest_iff {kh : Kh σ} (htold : k.Tells pid e readable writable) :
    k.PollHonest kh pid fd e ↔
      (∀ room flags, 0 < room → (readable → (k.touch pid).takeNext kh pid fd room flags ≠ -EAGAIN) ∧
        (¬readable → (k.touch pid).takeNext kh pid fd room flags < 0)) ∧
      (writable → ∀ byte, (k.touch pid).putOne kh pid fd byte ≠ -EAGAIN) := by
  obtain ⟨hin, hout⟩ := htold
  constructor
  · intro h
    refine ⟨fun room flags hroom => ⟨fun htold => ?_, fun htold => ?_⟩, fun htold byte => ?_⟩
    · have hread := h.reads false room flags hroom
      rwa [if_pos ((hin false).mpr htold)] at hread
    · have hread := h.reads false room flags hroom
      rwa [if_neg (fun hc => htold ((hin false).mp hc))] at hread
    · exact h.writes false byte ((hout false).mpr htold)
  · rintro ⟨hreads, hwrites⟩
    refine ⟨fun wantsWrite room flags hroom => ?_, fun wantsRead byte htold => ?_⟩
    · split
      · rename_i htold
        exact (hreads room flags hroom).1 ((hin wantsWrite).mp htold)
      · rename_i htold
        exact (hreads room flags hroom).2 (fun h => htold ((hin wantsWrite).mpr h))
    · exact hwrites ((hout wantsRead).mp htold) byte

section Entries
variable {kh : Kh σ} (hfd : fd < 2 ^ 31)
include hfd

theorem Kernel.pollHonest_stdin (hopen : k.fdEntry pid fd = some .stdin) :
    k.PollHonest kh pid fd .stdin := by
  have htold : k.Tells pid .stdin
      ((!(k.process pid).stdinBuffer.isEmpty || (k.process pid).stdinEof) = true) False := by
    refine ⟨fun _ => event_readable _, fun wantsRead => ?_⟩
    dsimp only [entryRevents, event]
    split <;> decide
  rw [htold.honest_iff]
  refine ⟨fun room flags _ => ?_, False.elim⟩
  rw [k.takeNext_eq hfd hopen (fun _ h => nomatch h)]
  cases (k.process pid).stdinBuffer with
  | cons => exact ⟨fun _ => ofNat_ne_eagain _, fun h => absurd rfl h⟩
  | nil =>
    cases (k.process pid).stdinEof with
    | true => exact ⟨fun _ => ofNat_ne_eagain 0, fun h => absurd rfl h⟩
    | false => exact ⟨fun h => absurd h (by decide), fun _ => (by decide : -EAGAIN < 0)⟩

omit hfd in
/-- The output streams: ready always, right while there is room. -/
theorem Kernel.pollHonest_output {buffer : Bytes}
    (hrevents : ∀ wantsRead wantsWrite, k.entryRevents pid wantsRead wantsWrite e = event wantsWrite pollout)
    (hread : ∀ room flags, (k.touch pid).takeNext kh pid fd room flags = -EINVAL)
    (hwrite : ∀ byte, (k.touch pid).putOne kh pid fd byte =
      if buffer.length < kernelBufferCap then 1 else -EAGAIN) :
    k.PollHonest kh pid fd e ↔ buffer.length < kernelBufferCap := by
  have htold : k.Tells pid e False True := tells_of_revents hrevents (by decide) (by decide)
  rw [htold.honest_iff]
  constructor
  · rintro ⟨-, hwrites⟩
    by_contra hfull
    exact hwrites trivial 0 ((hwrite 0).trans (if_neg hfull))
  · intro hroom
    refine ⟨fun room flags _ => ⟨False.elim, fun _ => ?_⟩, fun _ byte => ?_⟩
    · rw [hread]; decide
    · rw [hwrite, if_pos hroom]
      exact ofNat_ne_eagain 1

omit hfd in
/-- Files and directories are ready always. -/
theorem Kernel.pollHonest_seekable
    (hrevents : ∀ wantsRead wantsWrite, k.entryRevents pid wantsRead wantsWrite e =
      event wantsRead pollin ||| event wantsWrite pollout) :
    k.PollHonest kh pid fd e ↔
      (∀ room flags, 0 < room → (k.touch pid).takeNext kh pid fd room flags ≠ -EAGAIN) ∧
      ∀ byte, (k.touch pid).putOne kh pid fd byte ≠ -EAGAIN := by
  have htold : k.Tells pid e True True := tells_of_revents hrevents (by decide) (by decide)
  rw [htold.honest_iff]
  simp only [true_imp_iff, not_true_eq_false, false_imp_iff, and_true]

theorem Kernel.pollHonest_directory {m : MountId} {i : Option Inode}
    (hopen : k.fdEntry pid fd = some (.directory m i path)) :
    k.PollHonest kh pid fd (.directory m i path) := by
  rw [pollHonest_seekable (fun _ _ => rfl)]
  refine ⟨fun room flags _ => ?_, fun byte => ?_⟩
  · rw [k.takeNext_eq hfd hopen (fun _ h => nomatch h)]
    exact (by decide : -EISDIR ≠ -EAGAIN)
  · rw [k.putOne_eq hfd hopen]
    exact ebadf_ne_eagain

theorem Kernel.pollHonest_file {id : Nat} (hopen : k.fdEntry pid fd = some (.file id)) :
    k.PollHonest kh pid fd (.file id) ↔ ∀ o, k.ofds.get? id = some o → k.FileAtOnce kh o := by
  rw [pollHonest_seekable (fun _ _ => rfl)]
  have hread : ∀ room flags, (k.touch pid).takeNext kh pid fd room flags = _ :=
    k.takeNext_eq hfd hopen (fun _ h => nomatch h)
  have hwrite : ∀ byte, (k.touch pid).putOne kh pid fd byte = _ := k.putOne_eq hfd hopen
  simp only [hread, hwrite, k.fileAtOnce_iff kh]
  cases k.ofds.get? id with
  | none =>
    exact iff_of_true ⟨fun _ _ _ => ebadf_ne_eagain, fun _ => ebadf_ne_eagain⟩ (fun o h => nomatch h)
  | some o =>
    simp only [Option.some.injEq, forall_eq']
    constructor
    · rintro ⟨hreads, hwrites⟩
      refine ⟨fun room hroom => hreads room 0 hroom, fun hwritable byte => ?_⟩
      have h := hwrites byte
      rwa [if_pos hwritable] at h
    · rintro ⟨hreads, hwrites⟩
      refine ⟨fun room _ hroom => hreads room hroom, fun byte => ?_⟩
      split
      · rename_i hwritable
        exact hwrites hwritable byte
      · exact ebadf_ne_eagain

theorem Kernel.pollHonest_pipeRead {id : Nat} (hopen : k.fdEntry pid fd = some (.pipe id .read)) :
    k.PollHonest kh pid fd (.pipe id .read) := by
  have htold : k.Tells pid (.pipe id .read)
      (∃ b, k.pipes.get? id = some b ∧ (b.bytes.isEmpty = false ∨ b.writeEnds = 0)) False := by
    constructor <;> intro wants <;> dsimp only [entryRevents, event]
    · cases k.pipes.get? id with
      | none => exact iff_of_false (by decide) (fun ⟨b, h, _⟩ => nomatch h)
      | some b =>
        simp only [Option.some.injEq, exists_eq_left']
        cases b.bytes.isEmpty with
        | false => exact iff_of_true (by decide : pollin &&& (pollin ||| pollhup) ≠ 0) (.inl rfl)
        | true => by_cases hends : b.writeEnds = 0 <;> simp only [hends] <;> decide
    · split
      · decide
      · split
        · decide
        · split <;> decide
  rw [htold.honest_iff]
  refine ⟨fun room flags _ => ?_, False.elim⟩
  rw [k.takeNext_eq hfd hopen (fun _ h => nomatch h)]
  dsimp only
  cases k.pipes.get? id with
  | none => exact ⟨fun ⟨b, h, _⟩ => absurd h (by simp), fun _ => (by decide : -EBADF < 0)⟩
  | some b =>
    simp only [Option.some.injEq, exists_eq_left']
    cases b.bytes.isEmpty with
    | false => exact ⟨fun _ => ofNat_ne_eagain _, fun h => absurd (.inl rfl) h⟩
    | true =>
      by_cases hends : b.writeEnds = 0
      · rw [if_pos hends]
        exact ⟨fun _ => ofNat_ne_eagain 0, fun h => absurd (.inr hends) h⟩
      · rw [if_neg hends]
        exact ⟨fun h => absurd h (by simp [hends]), fun _ => (by decide : -EAGAIN < 0)⟩

theorem Kernel.pollHonest_pipeWrite {id : Nat} (hopen : k.fdEntry pid fd = some (.pipe id .write)) :
    k.PollHonest kh pid fd (.pipe id .write) ↔
      ∀ b, k.pipes.get? id = some b → b.readEnds ≠ 0 → b.bytes.length < kernelBufferCap := by
  have htold : k.Tells pid (.pipe id .write) False
      (∃ b, k.pipes.get? id = some b ∧ b.readEnds ≠ 0) := by
    constructor <;> intro wants <;> dsimp only [entryRevents, event]
    · split
      · decide
      · split
        · decide
        · split <;> decide
    · cases k.pipes.get? id with
      | none => exact iff_of_false (by decide) (fun ⟨b, h, _⟩ => nomatch h)
      | some b =>
        simp only [Option.some.injEq, exists_eq_left']
        split
        · rename_i hends
          exact iff_of_false (by decide) (fun h => h hends)
        · rename_i hends
          exact iff_of_true (by decide) hends
  rw [htold.honest_iff]
  have hwrite : ∀ byte, (k.touch pid).putOne kh pid fd byte = _ := k.putOne_eq hfd hopen
  constructor
  · rintro ⟨-, hwrites⟩ b hb hends
    by_contra hfull
    refine hwrites ⟨b, hb, hends⟩ 0 ?_
    rw [hwrite]
    dsimp only
    rw [hb]
    dsimp only
    rw [if_neg hends, if_neg hfull]
  · intro hroom
    refine ⟨fun room flags _ => ⟨False.elim, fun _ => ?_⟩, ?_⟩
    · rw [k.takeNext_eq hfd hopen (fun _ h => nomatch h)]
      exact (by decide : -EBADF < 0)
    · rintro ⟨b, hb, hends⟩ byte
      rw [hwrite]
      dsimp only
      rw [hb]
      dsimp only
      rw [if_neg hends, if_pos (hroom b hb hends)]
      exact ofNat_ne_eagain 1

/-- The accept of a listener waits exactly when nothing is pending. -/
theorem Kernel.acceptNext {id : Nat} (hopen : k.fdEntry pid fd = some (.socket id))
    (hkind : (k.sockets.get? id).map SocketEntry.kind = some (.unixListener path backlog pending)) :
    (pending ≠ [] → ((k.touch pid).sysSocketAccept kh pid (leBytes 4 fd ++ leBytes 4 flags)).1 ≠ -EAGAIN) ∧
    (pending = [] → ((k.touch pid).sysSocketAccept kh pid (leBytes 4 fd ++ leBytes 4 flags)).1 < 0) := by
  have hentry : (k.touch pid).fdEntry pid fd = some (.socket id) := by rw [k.fdEntry_touch, hopen]
  obtain ⟨s, hs, hskind⟩ := Option.map_eq_some_iff.mp hkind
  have hs' : (k.touch pid).sockets.get? id = some s := hs
  have hkind' : ((k.touch pid).sockets.get? id).map SocketEntry.kind =
    some (.unixListener path backlog pending) := hkind
  have hmfile : -EMFILE ≠ -EAGAIN ∧ -EMFILE < 0 := by decide
  have hlen : ¬(leBytes 4 fd ++ leBytes 4 flags).length < 8 := by
    rw [List.length_append, leBytes_length, leBytes_length]; decide
  unfold sysSocketAccept
  rw [if_neg hlen, u32At_leBytes_append (by omega)]
  rw [hentry, k.touch_touch]
  dsimp only
  rw [hs']
  dsimp only
  rw [hskind]
  dsimp only
  split
  · exact ⟨fun _ => hmfile.1, fun _ => hmfile.2⟩
  · unfold acceptUnixStream
    rw [hkind']
    cases pending with
    | nil => exact ⟨fun h => absurd rfl h, fun _ => (by decide : -EAGAIN < 0)⟩
    | cons accepted rest =>
      refine ⟨fun _ => ?_, fun h => nomatch h⟩
      dsimp only [installSocketIdFd]
      split
      · exact hmfile.1
      · exact ofNat_ne_eagain _

section Sockets
variable {id : Nat} (hopen : k.fdEntry pid fd = some (.socket id))
include hopen

theorem Kernel.pollHonest_noSocket (hs : k.sockets.get? id = none) :
    k.PollHonest kh pid fd (.socket id) := by
  have hrevents : ∀ wr ww, k.entryRevents pid wr ww (.socket id) = pollnval := by
    intro wr ww
    dsimp only [entryRevents]
    rw [hs]
  have htold : k.Tells pid (.socket id) False False := tells_of_revents hrevents (by decide) (by decide)
  rw [htold.honest_iff]
  refine ⟨fun room flags _ => ⟨False.elim, fun _ => ?_⟩, False.elim⟩
  have hs' : (k.touch pid).sockets.get? id = none := hs
  rw [k.takeNext_socket hfd hopen rfl, hs]
  dsimp only [Option.map_none, socketRecvId]
  rw [hs']
  exact (by decide : -EBADF < 0)

variable {s : SocketEntry} (hs : k.sockets.get? id = some s)
include hs

omit hfd hopen in
theorem Kernel.entryRevents_socket (wantsRead wantsWrite : Bool) :
    k.entryRevents pid wantsRead wantsWrite (.socket id) = s.kind.revents wantsRead wantsWrite := by
  dsimp only [entryRevents]
  rw [hs]

omit hfd hopen in
/-- What a receive returns. -/
theorem Kernel.socketRecvId_rc (room : Nat) : (k.socketRecvId kh id room 0).1.rc =
      if k.readShut id then 0
      else
        match s.kind with
        | .opened _ _ => -ENOTCONN
        | .host handle => (kh.socketRecv k.host handle room 0).1.1
        | .unixListener _ _ _ => -EOPNOTSUPP
        | .unixDatagram _ _ _ rx _ isOpen =>
          if rx.isEmpty then emptyRecv isOpen (k.socketPeerWriteClosed id)
          else ((rx.head?.map (fun packet => (packet.data.take room).length)).getD 0 : Nat)
        | .unixStream _ _ _ rx _ isOpen _ =>
          if rx.isEmpty then emptyRecv isOpen (k.socketPeerWriteClosed id) else (rx.take room).length := by
  unfold socketRecvId
  rw [hs]
  dsimp only
  by_cases hshut : k.readShut id = true
  · rw [if_pos hshut, if_pos hshut]; rfl
  · rw [if_neg hshut, if_neg hshut]
    cases s.kind with
    | unixDatagram _ _ _ rx => cases rx <;> rfl
    | unixStream _ _ _ rx => cases rx <;> rfl
    | _ => rfl

theorem Kernel.takeNext_recv (hlistener : ∀ path backlog pending, s.kind ≠ .unixListener path backlog pending)
    (room flags : Nat) : (k.touch pid).takeNext kh pid fd room flags =
      ((k.touch pid).socketRecvId kh id room 0).1.rc := by
  rw [k.takeNext_socket hfd hopen rfl, hs]
  dsimp only [Option.map_some]
  cases hkind : s.kind with
  | unixListener path backlog pending => exact absurd hkind (hlistener path backlog pending)
  | _ => rfl

theorem Kernel.pollHonest_opened {bound : Option Bytes} (hkind : s.kind = .opened flags bound) :
    k.PollHonest kh pid fd (.socket id) ↔ k.readShut id = false := by
  have hs' : (k.touch pid).sockets.get? id = some s := hs
  have htold : k.Tells pid (.socket id) False True := by
    refine tells_of_revents (k.entryRevents_socket hs) ?_ ?_ <;> rw [hkind] <;>
      dsimp only [SocketKind.revents] <;> decide
  have hread : ∀ room flags, (k.touch pid).takeNext kh pid fd room flags =
      if k.readShut id then 0 else -ENOTCONN := by
    intro room flags
    rw [k.takeNext_recv hfd hopen hs (fun _ _ _ h => nomatch hkind.symm.trans h),
      socketRecvId_rc hs', hkind]
    rfl
  rw [htold.honest_iff]
  constructor
  · rintro ⟨hreads, -⟩
    have h := (hreads 1 0 (by decide)).2 (fun h => h)
    rw [hread] at h
    by_contra hshut
    rw [if_pos (Bool.not_eq_false _ ▸ hshut)] at h
    exact absurd h (by decide)
  · intro hshut
    refine ⟨fun room flags _ => ⟨False.elim, fun _ => ?_⟩, fun _ byte => ?_⟩
    · rw [hread, hshut]
      exact (by decide : -ENOTCONN < 0)
    · rw [k.putOne_eq hfd hopen]
      dsimp only [socketSendId]
      rw [hs', Option.map_some, hkind]
      split
      · exact epipe_ne_eagain
      · exact (by decide : -ENOTCONN ≠ -EAGAIN)

theorem Kernel.pollHonest_listener (hkind : s.kind = .unixListener path backlog pending) :
    k.PollHonest kh pid fd (.socket id) := by
  have hmap : (k.sockets.get? id).map SocketEntry.kind = some (.unixListener path backlog pending) := by
    rw [hs, Option.map_some, hkind]
  have htold : k.Tells pid (.socket id) (pending ≠ []) False := by
    refine tells_of_revents (k.entryRevents_socket hs) ?_ ?_ <;> rw [hkind] <;> intro wants
    · cases pending with
      | nil => exact iff_of_false (by decide : ¬0 &&& (pollin ||| pollhup) ≠ 0) (fun h => h rfl)
      | cons => exact iff_of_true (by decide : pollin &&& (pollin ||| pollhup) ≠ 0) (fun h => nomatch h)
    · dsimp only [SocketKind.revents, event]
      split <;> decide
  rw [htold.honest_iff]
  refine ⟨fun room flags _ => ?_, False.elim⟩
  rw [k.takeNext_socket hfd hopen rfl, hmap]
  obtain ⟨hpending, hnone⟩ := k.acceptNext hfd hopen hmap
  exact ⟨hpending, fun h => hnone (not_not.mp h)⟩

theorem Kernel.pollHonest_stream {peer : Nat} {lp : Option Bytes} {rx : Bytes} {cred : PeerCred}
    (hkind : s.kind = .unixStream peer lp pp rx q isOpen cred) :
    k.PollHonest kh pid fd (.socket id) ↔ k.EndReady id rx.isEmpty isOpen (k.StreamFull peer) := by
  have hs' : (k.touch pid).sockets.get? id = some s := hs
  refine pollHonest_connected (fun room => (rx.take room).length) (fun wr ww => ?_)
    (fun room flags => ?_) (fun byte => ?_)
  · rw [k.entryRevents_socket hs, hkind]; rfl
  · rw [k.takeNext_recv hfd hopen hs (fun _ _ _ h => nomatch hkind.symm.trans h),
      socketRecvId_rc hs', hkind]
    rfl
  · rw [k.putOne_eq hfd hopen]
    dsimp only [socketSendId]
    rw [hs', Option.map_some, hkind]
    exact send_again_iff ((k.touch pid).deliverStream_again peer byte)

theorem Kernel.pollHonest_datagram {peer : Option Nat} {bp : Option Bytes}
    {rx : List UnixDatagramPacket} (hkind : s.kind = .unixDatagram peer pp bp rx q isOpen) :
    k.PollHonest kh pid fd (.socket id) ↔ k.EndReady id rx.isEmpty isOpen (k.QueueFull peer) := by
  have hs' : (k.touch pid).sockets.get? id = some s := hs
  refine pollHonest_connected
    (fun room => (rx.head?.map (fun packet => (packet.data.take room).length)).getD 0)
    (fun wr ww => ?_) (fun room flags => ?_) (fun byte => ?_)
  · rw [k.entryRevents_socket hs, hkind]; rfl
  · rw [k.takeNext_recv hfd hopen hs (fun _ _ _ h => nomatch hkind.symm.trans h),
      socketRecvId_rc hs', hkind]
    rfl
  · rw [k.putOne_eq hfd hopen]
    dsimp only [socketSendId]
    rw [hs', Option.map_some, hkind]
    cases peer with
    | none =>
      have hinval : -EINVAL ≠ -EAGAIN := by decide
      refine iff_of_false ?_ (fun ⟨_, _, peer, h⟩ => ?_)
      · split
        · exact epipe_ne_eagain
        · exact hinval
      · obtain ⟨_, _, _, _, _, _, hpeer, _⟩ := h
        exact nomatch hpeer
    | some peer => exact send_again_iff ((k.touch pid).deliverPacket_again peer byte bp)

end Sockets

end Entries

/-- An open descriptor that is not a socket of the host: `poll` is right exactly in the states of
    `PollReady`. -/
theorem Kernel.pollHonest_iff {kh : Kh σ} (hfd : fd < 2 ^ 31) (hopen : k.fdEntry pid fd = some e)
    (hhost : ¬k.IsHostSocket e) : k.PollHonest kh pid fd e ↔ k.PollReady kh pid e := by
  cases e with
  | stdin => exact iff_of_true (k.pollHonest_stdin hfd hopen) trivial
  | stdout | stderr =>
    exact pollHonest_output (fun _ _ => rfl)
      (k.takeNext_eq hfd hopen (fun _ h => nomatch h)) (k.putOne_eq hfd hopen)
  | file id => exact k.pollHonest_file hfd hopen
  | directory => exact iff_of_true (k.pollHonest_directory hfd hopen) trivial
  | pipe id side =>
    cases side with
    | read => exact iff_of_true (k.pollHonest_pipeRead hfd hopen) trivial
    | write => exact k.pollHonest_pipeWrite hfd hopen
  | socket id =>
    dsimp only [PollReady]
    cases hs : k.sockets.get? id with
    | none => exact iff_of_true (k.pollHonest_noSocket hfd hopen hs) trivial
    | some s =>
      dsimp only [Option.map_some]
      cases hkind : s.kind with
      | opened => exact k.pollHonest_opened hfd hopen hs hkind
      | host handle =>
        refine absurd ⟨id, handle, rfl, ?_⟩ hhost
        rw [hs, Option.map_some, hkind]
      | unixListener => exact iff_of_true (k.pollHonest_listener hfd hopen hs hkind) trivial
      | unixStream => exact k.pollHonest_stream hfd hopen hs hkind
      | unixDatagram => exact k.pollHonest_datagram hfd hopen hs hkind

/-- `poll` tells the truth about an open descriptor exactly when what is written to has room, no
    half-close has brought a read to its end, and the host puts nothing off. -/
theorem poll_truthful_iff (kh : Kh σ) (k : Kernel σ) (pid : Pid) (fd : Nat) (e : FdEntry)
    (hopen : k.fdEntry pid fd = some e) (hhost : ¬k.IsHostSocket e) :
    k.PollTruthful kh pid fd ↔ (fd < 2 ^ 31 → k.PollReady kh pid e) := by
  constructor
  · intro h hfd
    exact (k.pollHonest_iff hfd hopen hhost).mp (h.honest hopen hfd)
  · intro h
    by_cases hfd : fd < 2 ^ 31
    · exact ((k.pollHonest_iff hfd hopen hhost).mpr (h hfd)).truthful hopen
    · -- a record cannot name such a descriptor
      exact ⟨fun htold => absurd htold.spec.2.2 hfd, fun htold => absurd htold.spec.2.2 hfd,
        fun htold => absurd htold.spec.2.2 hfd⟩

/-- A pair of connected sockets, 3 and 4. -/
def pairedSockets : Kernel Unit := (oneProcess.sysSocketpair Kh.absent 1 ([1, 1, 0, 0] ++ leBytes 4 0) 8).2

/-- While nothing is shut down, `poll` is right about a new pair. -/
theorem poll_truthful_iff_pair : pairedSockets.fdEntry 1 3 = some (.socket 1) ∧
    pairedSockets.PollTruthful Kh.absent 1 3 := by
  have hopen : pairedSockets.fdEntry 1 3 = some (.socket 1) := by decide
  have hkind : (pairedSockets.sockets.get? 1).map SocketEntry.kind =
      some (.unixStream 2 none none [] [] true ⟨1, 1000, 1000⟩) := by decide
  have hpeer : (pairedSockets.sockets.get? 2).map SocketEntry.kind =
      some (.unixStream 1 none none [] [] true ⟨1, 1000, 1000⟩) := by decide
  refine ⟨hopen, (poll_truthful_iff Kh.absent pairedSockets 1 3 (.socket 1) hopen ?_).mpr (fun _ => ?_)⟩
  · rintro ⟨id, handle, he, hhost⟩
    cases he
    rw [hkind] at hhost
    exact nomatch hhost
  · dsimp only [PollReady]
    rw [hkind]
    refine fun _ => ⟨fun _ => by decide, fun _ => ?_⟩
    rintro ⟨p, lp, pp, rx, q, isOpen, cred, hsame, hfull⟩
    rw [hpeer] at hsame
    cases hsame
    exact absurd hfull (by decide)

/-- The peer has shut its write half down: the next read is at its end. -/
def halfClosed : Kernel Unit := (pairedSockets.sysSocketShutdown 1 (leBytes 4 4 ++ leBytes 4 1)).2

/-- `payload` has been written to standard output. -/
def printed (payload : Bytes) : Kernel Unit := (oneProcess.writeFd Kh.absent 1 (leBytes 4 1 ++ payload)).2

theorem printed_untruthful {payload : Bytes} (hfull : payload.length = kernelBufferCap) :
    ¬(printed payload).PollTruthful Kh.absent 1 1 := by
  have hlen : ¬(leBytes 4 1 ++ payload).length < 4 := by
    rw [List.length_append, leBytes_length]; omega
  have hstdout : oneProcess.fdEntry 1 1 = some .stdout := by decide
  have hempty : (oneProcess.process 1).stdoutBuffer = [] := by decide
  have hcap : hasBufferCapacity 0 kernelBufferCap = true := by decide
  have hstate : printed payload =
      oneProcess.updProcess 1 (fun p => { p with stdoutBuffer := payload }) := by
    unfold printed writeFd
    rw [if_neg hlen, u32At_leBytes_append (by decide), List.drop_left' (leBytes_length 4 1)]
    rw [hstdout]
    dsimp only [appendStream]
    rw [hempty, List.length_nil, hfull, if_pos hcap, List.nil_append]
  intro h
  generalize printed payload = k at h hstate
  have hprocess : (k.process 1).stdoutBuffer.length = kernelBufferCap := by
    rw [hstate, process_updProcess]
    unfold Process.ensureMainThread
    split <;> exact hfull
  have hopen : k.fdEntry 1 1 = some .stdout := by
    rw [hstate, fdEntry, process_updProcess]
    unfold Process.ensureMainThread
    split <;> exact hstdout
  have htold : pollout &&& pollout ≠ 0 := by decide
  refine (h.honest hopen (by decide)).writes false 0 htold ?_
  rw [k.putOne_eq (by decide) hopen]
  rw [hprocess, if_neg (Nat.lt_irrefl _)]

/-- Two untruths: nothing is said about a socket that reads as ended, and a write is promised to a full
    buffer. -/
theorem poll_untruthful : ¬halfClosed.PollTruthful Kh.absent 1 3 ∧
    ¬(printed (List.replicate kernelBufferCap 0)).PollTruthful Kh.absent 1 1 := by
  constructor
  · intro h
    have htold := halfClosed.pollSays_one 1 (by decide : 3 < 2 ^ 31) (by decide : 1 < 256 ^ 2)
    have hread := h.unreadable htold (by decide) (by decide) 1 0 (by decide)
    exact absurd hread (by decide)
  · exact printed_untruthful List.length_replicate

end Yurt
