import YurtKernel.Kernel.Host
import YurtKernel.Kernel.Thread

/-! Reference counts of pipes, open file descriptions and sockets (`kernel.rs`).

    An fd entry names its object by id. `incFdEntryRef` and `decFdEntryRef` move the count of the
    object an entry names; an object whose count reaches zero is dropped from its registry, with what
    hangs on it (locks of a description, path and pending connections of a listener, the peer's view
    of a stream). -/

namespace Yurt
variable {σ : Type} (k : Kernel σ) (id : Nat) (ofdId : Nat)

/-! ### Pipes -/

def PipeBuf.new : PipeBuf := ⟨[], 1, 1⟩

def PipeBuf.incRef (b : PipeBuf) : PipeEnd → PipeBuf
  | .read => { b with readEnds := satAdd b.readEnds 1 }
  | .write => { b with writeEnds := satAdd b.writeEnds 1 }

def PipeBuf.decRef (b : PipeBuf) : PipeEnd → PipeBuf
  | .read => { b with readEnds := b.readEnds - 1 }
  | .write => { b with writeEnds := b.writeEnds - 1 }

def Kernel.createPipe : Nat × Kernel σ :=
  (k.nextPipeId, { k with nextPipeId := k.nextPipeId + 1, pipes := k.pipes.insert k.nextPipeId .new })

def Kernel.pipeIncRef (side : PipeEnd) : Kernel σ :=
  { k with pipes := k.pipes.modify id (fun b => b.incRef side) }

/-- Give one end back; the buffer goes when neither end is left. -/
def Kernel.pipeDecRef (side : PipeEnd) : Kernel σ :=
  match k.pipes.get? id with
  | none => k
  | some b =>
    let b := b.decRef side
    if b.readEnds = 0 ∧ b.writeEnds = 0 then { k with pipes := k.pipes.erase id }
    else { k with pipes := k.pipes.insert id b }

/-! ### Open file descriptions and their locks -/

def Kernel.createOfd (mountId : MountId) (inode : Inode) (writable : Bool) : Nat × Kernel σ :=
  (k.nextOfdId, { k with
      nextOfdId := k.nextOfdId + 1
      ofds := k.ofds.insert k.nextOfdId ⟨mountId, inode, 0, 1, writable, 0⟩ })

def Kernel.ofdIncRef : Kernel σ :=
  { k with ofds := k.ofds.modify id (fun o => { o with refs := satAdd o.refs 1 }) }

/-- What is left of a lock once `ofdId` lets go of it. -/
def FlockState.release : FlockState → FlockState
  | .shared holders => .shared (holders.filter (fun h => h ≠ ofdId))
  | .exclusive owner => .exclusive owner

/-- Whether anybody still holds a lock after `ofdId` let go of it. -/
def FlockState.heldWithout : FlockState → Bool
  | .shared holders => !(holders.filter (fun h => h ≠ ofdId)).isEmpty
  | .exclusive owner => owner ≠ ofdId

def Kernel.flockReleaseForOfd : Kernel σ :=
  { k with flockLocks :=
      (k.flockLocks.filter (fun _ s => s.heldWithout ofdId)).mapValues (fun _ s => s.release ofdId) }

def Kernel.ofdDecRef : Kernel σ :=
  match k.ofds.get? id with
  | none => k
  | some o =>
    if o.refs - 1 = 0 then
      let k := k.flockReleaseForOfd id
      { k with ofds := k.ofds.erase id }
    else { k with ofds := k.ofds.insert id { o with refs := o.refs - 1 } }

/-- `flock_try_acquire`: `none` is a conflict. -/
def Kernel.flockTryAcquire (mountId : MountId) (inode : Inode)
    (exclusive : Bool) : Option (Kernel σ) :=
  let key := toLex (mountId, inode)
  let put := fun s => some { k with flockLocks := k.flockLocks.insert key s }
  match k.flockLocks.get? key with
  | none => put (if exclusive then .exclusive ofdId else .shared [ofdId])
  | some (.shared holders) =>
    if exclusive then
      if holders = [ofdId] then put (.exclusive ofdId) else none
    else if holders.contains ofdId then some k
    else put (.shared (holders ++ [ofdId]))
  | some (.exclusive owner) =>
    if owner = ofdId then
      if exclusive then some k else put (.shared [ofdId])
    else none

/-! ### Sockets -/

/-- Register a socket under the next id, with one reference. -/
def Kernel.addSocket (domain sockType : Nat) (kind : SocketKind) : Nat × Kernel σ :=
  (k.nextSocketId, { k with
      nextSocketId := k.nextSocketId + 1
      sockets := k.sockets.insert k.nextSocketId ⟨1, domain, sockType, false, kind⟩ })

def Kernel.socketIncRef : Kernel σ :=
  { k with sockets := k.sockets.modify id (fun s => { s with refs := satAdd s.refs 1 }) }

/-- Record on a stream or datagram socket that its peer is gone. -/
def SocketKind.closePeer : SocketKind → SocketKind
  | .unixStream peer lp pp rx rights _ cred => .unixStream peer lp pp rx rights false cred
  | .unixDatagram peer pp bp rx rights _ => .unixDatagram peer pp bp rx rights false
  | kind => kind

namespace Kernel

def closePeer (k : Kernel σ) (peer : Option Nat) : Kernel σ :=
  match peer with
  | none => k
  | some id => { k with sockets := k.sockets.modify id (fun s => { s with kind := s.kind.closePeer }) }

/-- Forget a socket and its half-close bits. -/
def dropSocket : Kernel σ :=
  { k with sockets := k.sockets.erase id, socketShutdown := k.socketShutdown.erase id }

/-- `socket_dec_ref`, with a bound on how deep pending connections nest. Returns the host handle to
    close when the last reference of a host socket went. -/
def socketDecRefAux : Nat → Kernel σ → Nat → Option Int × Kernel σ
  | 0, k, _ => (none, k)
  | fuel + 1, k, id =>
    match k.sockets.get? id with
    | none => (none, k)
    | some s =>
      let s := { s with refs := s.refs - 1 }
      let k := { k with sockets := k.sockets.insert id s }
      if s.refs ≠ 0 then (none, k)
      else
        match s.kind with
        | .opened _ _ => (none, k.dropSocket id)
        | .host handle => (some handle, k.dropSocket id)
        | .unixListener path _ pending =>
          let k := { k with unixListeners := k.unixListeners.erase path }
          let k := pending.foldl (fun k p => (Kernel.socketDecRefAux fuel k p).2) k
          (none, k.dropSocket id)
        | .unixStream peer _ _ _ _ _ _ => (none, (k.closePeer (some peer)).dropSocket id)
        | .unixDatagram peer _ bound _ _ _ =>
          let k := match bound with
            | some path => { k with unixDatagrams := k.unixDatagrams.erase path }
            | none => k
          (none, (k.closePeer peer).dropSocket id)

/-- A listener's pending connections are streams, so two levels are all there is. -/
def socketDecRef : Option Int × Kernel σ := Kernel.socketDecRefAux (k.sockets.size + 1) k id

/-! ### Fd entries -/

def incFdEntryRef : FdEntry → Kernel σ
  | .pipe id side => k.pipeIncRef id side
  | .file ofdId => k.ofdIncRef ofdId
  | .socket id => k.socketIncRef id
  | _ => k

/-- Close a host socket handle, if there is one to close. -/
def closeHandle (kh : Kh σ) (k : Kernel σ) (handle : Option Int) : Kernel σ :=
  match handle with
  | some h => { k with host := (kh.socketClose k.host h).2 }
  | none => k

def decFdEntryRef (kh : Kh σ) (k : Kernel σ) : FdEntry → Kernel σ
  | .pipe id side => k.pipeDecRef id side
  | .file ofdId => k.ofdDecRef ofdId
  | .socket id => (k.socketDecRef id).2.closeHandle kh (k.socketDecRef id).1
  | _ => k

/-! ### What a drop leaves alone -/

theorem pipeDecRef_only (side : PipeEnd) : ∃ pipes, k.pipeDecRef id side = { k with pipes := pipes } := by
  unfold pipeDecRef
  split
  · exact ⟨_, rfl⟩
  · dsimp only
    split_ifs <;> exact ⟨_, rfl⟩

theorem ofdDecRef_only : ∃ ofds locks, k.ofdDecRef id = { k with ofds := ofds, flockLocks := locks } := by
  unfold ofdDecRef
  split
  · exact ⟨_, _, rfl⟩
  · dsimp only
    split_ifs <;> exact ⟨_, _, rfl⟩

/-- `k'` has other sockets and names of sockets, and is the same but for these. -/
def SocketsOnly (k k' : Kernel σ) : Prop := ∃ sockets shut listeners datagrams, k' = { k with
  sockets := sockets, socketShutdown := shut, unixListeners := listeners, unixDatagrams := datagrams }

theorem socketDecRefAux_only (fuel : Nat) : ∀ (k : Kernel σ) (id : Nat),
    k.SocketsOnly (Kernel.socketDecRefAux fuel k id).2 := by
  induction fuel with
  | zero => exact fun k _ => ⟨_, _, _, _, rfl⟩
  | succ fuel ih =>
    intro k id
    rw [socketDecRefAux]
    cases k.sockets.get? id with
    | none => exact ⟨_, _, _, _, rfl⟩
    | some s =>
      dsimp only
      split_ifs
      · exact ⟨_, _, _, _, rfl⟩
      · cases s.kind with
        | unixListener path backlog pending =>
          obtain ⟨_, _, _, _, h⟩ := List.foldlRecOn (motive := k.SocketsOnly) pending
            (fun k p => (socketDecRefAux fuel k p).2) ⟨_, _, _, _, rfl⟩ (by
              rintro _ ⟨_, _, _, _, rfl⟩ p -
              exact ih _ p)
          dsimp only
          rw [h]
          exact ⟨_, _, _, _, rfl⟩
        | unixDatagram peer pp bound => cases bound <;> cases peer <;> exact ⟨_, _, _, _, rfl⟩
        | _ => exact ⟨_, _, _, _, rfl⟩

end Kernel

end Yurt
