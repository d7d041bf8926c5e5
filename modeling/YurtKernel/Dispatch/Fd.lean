import YurtKernel.Kernel.Socket
import YurtKernel.Vfs.MountTable

/-! Descriptor calls (`dispatch/mod.rs`): closing and duplicating, flags, pipes, reading and writing.

    Each call decodes its words and then looks the descriptor up in the caller's table. Looking it up
    makes the caller's record if there was none, so the failing paths return the touched kernel. -/

namespace Yurt
variable {σ : Type} (kh : Kh σ) (k : Kernel σ) (pid : Pid) (request : Bytes)

/-! ### Closing and duplicating -/

namespace Kernel

/-- `close_fd_number`. -/
def closeFdNumber (fd : Nat) : Int × Kernel σ :=
  match k.fdEntry pid fd with
  | none => (-EBADF, k.removeFd pid fd)
  | some e =>
    match (k.removeFd pid fd).closeEntry e with
    | (none, k) => (0, k)
    | (some handle, k) =>
      let (rc, host) := kh.socketClose k.host handle
      (rc, { k with host := host })

/-- `close(fd)`. -/
def closeFd : Int × Kernel σ :=
  match readU32Args 1 request with
  | some [fd] => k.closeFdNumber kh pid fd
  | _ => (-EINVAL, k)

/-- `dup(oldfd)`. -/
def dupFd : Int × Kernel σ :=
  match readU32Args 1 request with
  | some [oldfd] =>
    match k.fdEntry pid oldfd with
    | none => (-EBADF, k.touch pid)
    | some e =>
      let k := (k.touch pid).incFdEntryRef e
      match k.freeFd pid with
      | none => (-EMFILE, k.decFdEntryRef kh e)
      | some newfd => (newfd, k.installFd pid newfd e)
  | _ => (-EINVAL, k)

/-- Put an alias of `e` at `newfd`, dropping first what stands there. -/
def aliasFd (newfd : Nat) (e : FdEntry) : Option Int × Kernel σ :=
  let (handle, k) := match k.fdEntry pid newfd with
    | some prev => k.closeEntry prev
    | none => (none, k)
  (handle, (k.incFdEntryRef e).installFd pid newfd e)

/-- `dup2(oldfd, newfd)`. -/
def dup2Fd : Int × Kernel σ :=
  match readU32Args 2 request with
  | some [oldfd, newfd] =>
    match k.fdEntry pid oldfd with
    | none => (-EBADF, k.touch pid)
    | some e =>
      if (k.process pid).nofileSoft ≤ newfd then (-EBADF, k.touch pid)
      else if oldfd = newfd then (newfd, k.touch pid)
      else
        let (handle, k) := (k.touch pid).aliasFd pid newfd e
        (newfd, k.closeHandle kh handle)
  | _ => (-EINVAL, k)

/-- `dup3(oldfd, newfd, flags)`: one descriptor twice is an error, and bit 0 asks for close-on-exec. -/
def dup3Fd : Int × Kernel σ :=
  match readU32Args 3 request with
  | some [oldfd, newfd, flags] =>
    if flags ≠ flags &&& 1 then (-EINVAL, k)
    else if oldfd = newfd then (-EINVAL, k)
    else
      match k.fdEntry pid oldfd with
      | none => (-EBADF, k.touch pid)
      | some e =>
        if (k.process pid).nofileSoft ≤ newfd then (-EBADF, k.touch pid)
        else
          let (handle, k) := (k.touch pid).aliasFd pid newfd e
          let k := k.updProcess pid (fun p => { p with fdTable := p.fdTable.flagged newfd flags })
          (newfd, k.closeHandle kh handle)
  | _ => (-EINVAL, k)

/-- `dup_min(oldfd, minfd)`, the kernel's `F_DUPFD`. -/
def dupMinFd : Int × Kernel σ :=
  match readU32Args 2 request with
  | some [oldfd, minfd] =>
    match k.fdEntry pid oldfd with
    | none => (-EBADF, k.touch pid)
    | some e =>
      let p := k.process pid
      if p.nofileSoft ≤ minfd then (-EINVAL, k.touch pid)
      else
        match p.fdTable.lowestFreeFdBelow minfd p.nofileSoft with
        | none => (-EMFILE, k.touch pid)
        | some newfd => (newfd, ((k.touch pid).incFdEntryRef e).installFd pid newfd e)
  | _ => (-EINVAL, k)

/-! ### Flags -/

def setFdDescriptorFlags : Int × Kernel σ :=
  match readU32Args 2 request with
  | some [fd, flags] =>
    match (k.process pid).fdTable.setDescriptorFlags fd flags with
    | .error e => (-e, k.touch pid)
    | .ok t => (0, k.updProcess pid (fun p => { p with fdTable := t }))
  | _ => (-EINVAL, k)

def getFdDescriptorFlags : Int × Kernel σ :=
  match readU32Args 1 request with
  | some [fd] =>
    match (k.process pid).fdTable.getDescriptorFlags fd with
    | .error e => (-e, k.touch pid)
    | .ok flags => (flags, k.touch pid)
  | _ => (-EINVAL, k)

end Kernel

/-- `O_APPEND | O_NONBLOCK`. -/
def settableStatusFlags : Nat := 0x400 ||| 0x800

/-- Access mode of a descriptor that keeps no status flags. -/
def FdEntry.accessMode : FdEntry → Nat
  | .stdin | .directory _ _ _ | .pipe _ .read => 0
  | .stdout | .stderr | .pipe _ .write => 1
  | .socket _ | .file _ => 2

namespace Kernel

def getFileStatusFlags : Int × Kernel σ :=
  match readU32Args 1 request with
  | some [fd] =>
    match k.fdEntry pid fd with
    | none => (-EBADF, k.touch pid)
    | some (.file id) =>
      match k.ofds.get? id with
      | some o => (((if o.writable then 2 else 0) ||| o.statusFlags : Nat), k.touch pid)
      | none => (-EBADF, k.touch pid)
    | some e => (e.accessMode, k.touch pid)
  | _ => (-EINVAL, k)

/-- Write to an open file description that is there. -/
def modifyOfd (id : Nat) (f : OpenFileDescription → OpenFileDescription) :
    Kernel σ := { k with ofds := k.ofds.modify id f }

def setFileStatusFlags : Int × Kernel σ :=
  match readU32Args 2 request with
  | some [fd, flags] =>
    match k.fdEntry pid fd with
    | none => (-EBADF, k.touch pid)
    | some (.file id) =>
      if k.ofds.contains id then
        (0, (k.touch pid).modifyOfd id (fun o => { o with statusFlags := flags &&& settableStatusFlags }))
      else (-EBADF, k.touch pid)
    | some _ => (0, k.touch pid)
  | _ => (-EINVAL, k)

/-! ### Pipes -/

/-- `pipe()`: both descriptors, or neither. -/
def pipe (k : Kernel σ) (pid : Pid) (cap : Nat) : Reply × Kernel σ :=
  if cap < 8 then (.code (-EINVAL), k)
  else
    let (id, k) := k.createPipe
    let k := k.touch pid
    match k.freeFd pid with
    | none => (.code (-EMFILE), (k.pipeDecRef id .read).pipeDecRef id .write)
    | some readFd =>
      let k := k.installFd pid readFd (.pipe id .read)
      match k.freeFd pid with
      | none => (.code (-EMFILE), ((k.removeFd pid readFd).pipeDecRef id .read).pipeDecRef id .write)
      | some writeFd =>
        (.data (leBytes 4 readFd ++ leBytes 4 writeFd), k.installFd pid writeFd (.pipe id .write))

/-! ### Reading and writing -/

/-- Advance the cursor by a positive count. -/
def advance (id : Nat) (n : Int) : Kernel σ :=
  if 0 < n then k.modifyOfd id (fun o => { o with offset := o.offset + n.toNat }) else k

/-- `read(fd)`. -/
def readFd (cap : Nat) : Reply × Kernel σ :=
  match readU32Args 1 request with
  | some [fd] =>
    match k.fdEntry pid fd with
    | none => (.code (-EBADF), k.touch pid)
    | some .stdin =>
      let p := k.process pid
      if p.stdinBuffer.isEmpty then
        (.code (if p.stdinEof then 0 else -EAGAIN), k.touch pid)
      else (.data (p.stdinBuffer.take cap),
        k.updProcess pid (fun p => { p with stdinBuffer := p.stdinBuffer.drop cap }))
    | some .stdout | some .stderr => (.code (-EINVAL), k.touch pid)
    | some (.pipe id .read) =>
      match k.pipes.get? id with
      | none => (.code (-EBADF), k.touch pid)
      | some b =>
        if b.bytes.isEmpty then (.code (if b.writeEnds = 0 then 0 else -EAGAIN), k.touch pid)
        else
          let k := k.touch pid
          (.data (b.bytes.take cap),
            { k with pipes := k.pipes.insert id { b with bytes := b.bytes.drop cap } })
    | some (.pipe _ .write) => (.code (-EBADF), k.touch pid)
    | some (.file id) =>
      match k.ofds.get? id with
      | none => (.code (-EBADF), k.touch pid)
      | some o =>
        let k := k.touch pid
        let ((n, bytes), host) := k.vfs.read kh k.host o.mountId o.inode o.offset cap
        (⟨n, [(0, bytes)]⟩, { k with host := host }.advance id n)
    | some (.directory _ _ _) => (.code (-EISDIR), k.touch pid)
    | some (.socket id) => (k.touch pid).socketRecvId kh id cap 0
  | _ => (.code (-EINVAL), k)

end Kernel

/-- Append to an output stream of the process. -/
def appendStream (buffer payload : Bytes) : Option Bytes :=
  if hasBufferCapacity buffer.length payload.length then some (buffer ++ payload) else none

/-- `write(fd, bytes)`. -/
def Kernel.writeFd : Int × Kernel σ :=
  if request.length < 4 then (-EINVAL, k)
  else
    let payload := request.drop 4
    match k.fdEntry pid (u32At request 0) with
    | none => (-EBADF, k.touch pid)
    | some .stdin => (-EINVAL, k.touch pid)
    | some .stdout =>
      match appendStream (k.process pid).stdoutBuffer payload with
      | none => (-EAGAIN, k.touch pid)
      | some buffer => (payload.length, k.updProcess pid (fun p => { p with stdoutBuffer := buffer }))
    | some .stderr =>
      match appendStream (k.process pid).stderrBuffer payload with
      | none => (-EAGAIN, k.touch pid)
      | some buffer => (payload.length, k.updProcess pid (fun p => { p with stderrBuffer := buffer }))
    | some (.pipe id .write) =>
      match k.pipes.get? id with
      | none => (-EBADF, k.touch pid)
      | some b =>
        if b.readEnds = 0 then (-EPIPE, k.touch pid)
        else if !hasBufferCapacity b.bytes.length payload.length then (-EAGAIN, k.touch pid)
        else
          let k := k.touch pid
          (payload.length, { k with pipes := k.pipes.insert id { b with bytes := b.bytes ++ payload } })
    | some (.pipe _ .read) => (-EBADF, k.touch pid)
    | some (.file id) =>
      match k.ofds.get? id with
      | none => (-EBADF, k.touch pid)
      | some o =>
        if !o.writable then (-EBADF, k.touch pid)
        else
          let k := k.touch pid
          let (n, vfs, host) := k.vfs.write kh k.host o.mountId o.inode o.offset payload
          (n, { k with vfs := vfs, host := host }.advance id n)
    | some (.directory _ _ _) => (-EBADF, k.touch pid)
    | some (.socket id) => (k.touch pid).socketSendId kh id payload

/-! ### Positions -/

/-- `pread(fd, offset)`: the cursor stays where it is. -/
def Kernel.preadFd (cap : Nat) : Reply × Kernel σ :=
  if request.length < 12 then (.code (-EINVAL), k)
  else
    match k.fdEntry pid (u32At request 0) with
    | none => (.code (-EBADF), k.touch pid)
    | some (.file id) =>
      match k.ofds.get? id with
      | none => (.code (-EBADF), k.touch pid)
      | some o =>
        let k := k.touch pid
        let ((n, bytes), host) := k.vfs.read kh k.host o.mountId o.inode (u64At request 4) cap
        (⟨n, [(0, bytes)]⟩, { k with host := host })
    | some (.directory _ _ _) => (.code (-EISDIR), k.touch pid)
    | some _ => (.code (-ESPIPE), k.touch pid)

/-- `pwrite(fd, offset, bytes)`: an empty payload does not reach the file. -/
def Kernel.pwriteFd : Int × Kernel σ :=
  if request.length < 12 then (-EINVAL, k)
  else
    let payload := request.drop 12
    match k.fdEntry pid (u32At request 0) with
    | none => (-EBADF, k.touch pid)
    | some (.file id) =>
      match k.ofds.get? id with
      | none => (-EBADF, k.touch pid)
      | some o =>
        if !o.writable then (-EBADF, k.touch pid)
        else if payload.isEmpty then (0, k.touch pid)
        else
          let k := k.touch pid
          let (n, vfs, host) := k.vfs.write kh k.host o.mountId o.inode (u64At request 4) payload
          (n, { k with vfs := vfs, host := host })
    | some (.directory _ _ _) => (-EBADF, k.touch pid)
    | some _ => (-ESPIPE, k.touch pid)

/-- `i64::saturating_add`. -/
def satAddI64 (a b : Int) : Int := max (-2 ^ 63) (min (a + b) i64Max)

/-- `lseek(fd, offset, whence)` with whence 0 for the start, 1 for the cursor and 2 for the end. -/
def Kernel.lseek (cap : Nat) : Reply × Kernel σ :=
  if request.length < 16 ∨ cap < 8 then (.code (-EINVAL), k)
  else
    match k.fdEntry pid (u32At request 0) with
    | none => (.code (-EBADF), k.touch pid)
    | some (.file id) =>
      match k.ofds.get? id with
      | none => (.code (-EBADF), k.touch pid)
      | some o =>
        let base := match u32At request 12 with
          | 0 => some 0
          | 1 => some (toI64 o.offset)
          | 2 => some (toI64 ((k.vfs.size o.mountId o.inode).getD 0))
          | _ => none
        match base with
        | none => (.code (-EINVAL), k.touch pid)
        | some base =>
          let newOff := satAddI64 base (toI64 (u64At request 4))
          if newOff < 0 then (.code (-EINVAL), k.touch pid)
          else (.data (leBytes 8 newOff.toNat),
            (k.touch pid).modifyOfd id (fun o => { o with offset := newOff.toNat }))
    | some _ => (.code (-ESPIPE), k.touch pid)

end Yurt
