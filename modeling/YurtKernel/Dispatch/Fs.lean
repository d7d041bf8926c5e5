import YurtKernel.Kernel.Path
import YurtKernel.Kernel.Socket
import YurtKernel.Dispatch.Process

/-! Path calls (`dispatch/fs.rs`), and the image lookup of `sys_spawn` (`dispatch/process.rs`).

    Calls that read through a path resolve it with `normalizeReadablePath`: `/proc` is brought up to
    date and a `/proc/<pid>` the caller may not see is reported as missing. Calls that only change
    names or metadata normalize the path and leave the rest to the backend. -/

namespace Yurt
open Kernel
variable {σ : Type} (kh : Kh σ) (k : Kernel σ) (caller : Pid) (request : Bytes)

/-- `take_bytes`: `len` bytes at `at`, and what follows them. -/
def takeBytes (start len : Nat) : Option (Bytes × Bytes) :=
  if request.length < start + len then none
  else some ((request.drop start).take len, request.drop (start + len))

/-- `AT_FDCWD`, and the id that `chown` leaves alone. -/
def atFdcwd : Nat := u32Max

def idNoChange : Nat := u32Max

/-! ### Visibility of `/proc/<pid>` -/

def Kernel.procPidVisible (caller target : Pid) : Bool × Kernel σ :=
  match k.mayControlPid caller target with
  | (.ok _, k) => (true, k)
  | (.error _, k) => (false, k)

def Kernel.procPathReachable (path : Bytes) : Bool × Kernel σ :=
  match procTargetPid path with
  | none => (true, k)
  | some target => k.procPidVisible caller target

def Kernel.normalizeReadablePath (rawPath : Bytes) : Except Int Bytes × Kernel σ :=
  onPath .error (k.normalize caller rawPath) (fun path k =>
    match k.publishProcSnapshots.procPathReachable caller path with
    | (true, k) => (.ok path, k)
    | (false, k) => (.error (-ENOENT), k))

/-! ### Symbolic links -/

/-- Follow the links at a path as they stand, with the number that may still be followed. -/
def MountTable.followLiteral (vfs : MountTable) : Nat → Bytes → Except Int Bytes
  | hops, path =>
    match vfs.readlink path with
    | none => .ok path
    | some target =>
      match hops with
      | 0 => .error ELOOP
      | hops + 1 => vfs.followLiteral hops target

def Kernel.followSymlinksLiteral (path : Bytes) : Except Int Bytes := k.vfs.followLiteral symloopMax path

/-- First link among the components below `parent`: its parent, its target and what follows it. The
    last component counts only if `followTerminal`. -/
def MountTable.firstLink (vfs : MountTable) (followTerminal : Bool) :
    Bytes → List Bytes → Option (Bytes × Bytes × List Bytes)
  | _, [] => none
  | parent, c :: rest =>
    if !followTerminal && rest.isEmpty then none
    else
      match vfs.readlink (parent ++ slash :: c) with
      | some target => some (parent, target, rest)
      | none => vfs.firstLink followTerminal (parent ++ slash :: c) rest

/-- A link that is not the last component must stand in a directory. -/
def MountTable.passable (vfs : MountTable) (parent : Bytes) (rest : List Bytes) : Bool :=
  rest.isEmpty || vfs.entryType (if parent.isEmpty then rootPath else parent) = directoryType

/-- The path a link found below `parent` and followed by `rest` stands for. -/
def splicedPath (parent target : Bytes) (rest : List Bytes) : Bytes :=
  (if isAbsolute target then target else parent ++ slash :: target) ++ rest.flatMap (fun c => slash :: c)

/-- The loop of `resolve_symlinks_per_component`: every link is spliced in and the whole path is
    resolved and authorized anew. -/
def Kernel.spliceLinks (caller : Pid) (followTerminal : Bool) :
    Nat → List Bytes → Kernel σ → Except Int Bytes × Kernel σ
  | hops, comps, k =>
    match k.vfs.firstLink followTerminal [] comps with
    | none => (.ok (joinComponents comps), k)
    | some (parent, target, rest) =>
      if !k.vfs.passable parent rest then (.error (-ENOENT), k)
      else if target.isEmpty then (.error (-ENOENT), k)
      else
        match hops with
        | 0 => (.error (-ELOOP), k)
        | hops + 1 =>
          onPath .error (k.normalizeReadablePath caller (splicedPath parent target rest))
            (fun path k => Kernel.spliceLinks caller followTerminal hops (splitComponents path) k)

def Kernel.resolveSymlinksPerComponent (path : Bytes)
    (followTerminal : Bool) : Except Int Bytes × Kernel σ :=
  spliceLinks caller followTerminal symloopMax (splitComponents path) k

/-- A readable path with its links resolved. -/
def Kernel.resolveReadable (rawPath : Bytes) (followTerminal : Bool) : Except Int Bytes × Kernel σ :=
  onPath .error (k.normalizeReadablePath caller rawPath)
    (fun path k => k.resolveSymlinksPerComponent caller path followTerminal)

/-! ### The working directory -/

/-- `dir_anchor`: mount and inode of a directory, without an inode where the backend has none. -/
def MountTable.dirAnchor (vfs : MountTable) (path : Bytes) : MountId × Option Inode :=
  match vfs.dirInodeAt path with
  | some (mountId, inode) => (mountId, some inode)
  | none => ((vfs.mountOf path).getD rootMount, none)

def Kernel.setCwd (pid : Pid) (cwd : Cwd) : Kernel σ := k.updProcess pid (fun p => { p with cwd := cwd })

def Kernel.chdir : Int × Kernel σ :=
  if request.isEmpty then (-EINVAL, k)
  else
    onPath id (k.normalizeReadablePath caller request) (fun path k =>
      let ty := k.vfs.entryType path
      if ty = directoryType then
        let anchor := k.vfs.dirAnchor path
        (0, k.setCwd caller ⟨anchor.1, anchor.2, path⟩)
      else if ty = unknownType then (-ENOENT, k)
      else (-ENOTDIR, k))

def Kernel.fchdir : Int × Kernel σ :=
  if request.length ≠ 4 then (-EINVAL, k)
  else
    match k.fdEntry caller (u32At request 0) with
    | none => (-EBADF, k.touch caller)
    | some (.directory mountId (some inode) _) =>
      match k.vfs.dirAbspathIn mountId inode with
      | none => (-ENOENT, k.touch caller)
      | some abs => (0, k.setCwd caller ⟨mountId, some inode, abs⟩)
    | some (.directory mountId none path) =>
      if k.vfs.entryType path ≠ directoryType then (-ENOENT, k.touch caller)
      else (0, k.setCwd caller ⟨mountId, none, path⟩)
    | some _ => (-ENOTDIR, k.touch caller)

/-- Answer with a path and a NUL byte; a short buffer gets the size it should have. -/
def Reply.pathNul (path : Bytes) (cap : Nat) : Reply :=
  if cap < path.length + 1 then .code (path.length + 1 : Nat) else .data (path ++ [0])

namespace Kernel

def getcwd (cap : Nat) : Reply × Kernel σ :=
  match k.refreshAnchoredCwd caller with
  | (.anchored abs, k) => (.pathNul abs cap, k)
  | (.anchoredRemoved, k) => (.code (-ENOENT), k)
  | (.degraded cwd, k) => (.pathNul cwd.path cap, k)

/-! ### Opening -/

/-- A descriptor for a directory; it has no description to release when none is free. -/
def installDirectory (path : Bytes) : Int × Kernel σ :=
  let anchor := k.vfs.dirAnchor path
  match k.freeFd caller with
  | none => (-EMFILE, k.touch caller)
  | some fd => (fd, k.installFd caller fd (.directory anchor.1 anchor.2 path))

/-- The end of a successful `open`: a description and a descriptor for it, or neither. -/
def installFile (mountId : MountId) (inode : Inode) (writable : Bool) : Int × Kernel σ :=
  let (ofdId, k) := k.createOfd mountId inode writable
  match k.freeFd caller with
  | none => (-EMFILE, (k.touch caller).ofdDecRef ofdId)
  | some fd => (fd, k.installFd caller fd (.file ofdId))

/-- Bits 0 to 4 of the flags: writable, create, truncate, directory, exclusive. -/
def openResolved (flags : Nat) (path : Bytes) : Int × Kernel σ :=
  let ty := k.vfs.entryType path
  if flags.testBit 4 && flags.testBit 1 && ty ≠ unknownType then (-EEXIST, k)
  else if flags.testBit 3 && ty ≠ directoryType then (-ENOTDIR, k)
  else if ty = directoryType then
    if flags.testBit 0 || flags.testBit 1 || flags.testBit 2 then (-EISDIR, k)
    else k.installDirectory caller path
  else
    match k.vfs.openResult kh k.host path flags with
    | (.error err, vfs, host) =>
      let k := { k with vfs := vfs, host := host }
      if err ≠ ENOENT then (-err, k)
      else if flags.testBit 1 then (-EPERM, k) else (-ENOENT, k)
    | (.ok (mountId, inode), vfs, host) =>
      let vfs := if flags.testBit 2 then vfs.truncate mountId inode else vfs
      { k with vfs := vfs, host := host }.installFile caller mountId inode (flags.testBit 0)

/-- `open` on the decoded request. -/
def openAt (flags : Nat) (rawPath : Bytes) : Int × Kernel σ :=
  onPath id (k.resolveReadable caller rawPath true)
    (fun path k => k.openResolved kh caller flags path)

def sysOpen : Int × Kernel σ :=
  if request.length < 4 then (-EINVAL, k)
  else if (request.drop 4).isEmpty then (-EINVAL, k)
  else k.openAt kh caller (u32At request 0) (request.drop 4)

end Kernel

/-! ### Paths relative to a directory descriptor -/

/-- The inode walk of `resolve_at` over all components but the last: whether it stops at one that
    the path resolver has to look at. A mount point ends the walk, the mount table finds it again. -/
def MountTable.needsPathResolver (vfs : MountTable) (mountId : MountId) : Inode → Bytes → List Bytes → Bool
  | inode, abs, name :: next :: rest =>
    let nextAbs := childPath abs name
    let crosses := vfs.mountOf nextAbs ≠ some mountId
    match vfs.resolveAtIn mountId inode name with
    | some (some child, 3) =>
      if crosses then false else vfs.needsPathResolver mountId child nextAbs (next :: rest)
    | _ => !crosses
  | _, _, _ => false

/-- Whether the path below a directory descriptor goes to the path resolver. Paths with `.` or `..`
    are left to the base call. -/
def MountTable.stopsAtLink (vfs : MountTable) (mountId : MountId) (inode : Inode)
    (abs path : Bytes) : Bool :=
  let components := splitComponents path
  !(components.any (fun c => c = dotName || c = dotDotName)) &&
    vfs.needsPathResolver mountId inode abs components

namespace Kernel

/-- `resolve_at`: the path a `*at` call acts on; errors are positive. -/
def resolveAt (dirfd : Nat) (path : Bytes) : Except Int Bytes × Kernel σ :=
  if isAbsolute path || dirfd = atFdcwd then (.ok path, k)
  else
    match k.fdEntry caller dirfd with
    | none => (.error EBADF, k.touch caller)
    | some (.directory _ none snapshot) => (.ok (childPath snapshot path), k.touch caller)
    | some (.directory mountId (some inode) _) =>
      let k := k.touch caller
      match k.vfs.dirAbspathIn mountId inode with
      | none => (.error ENOENT, k)
      | some abs =>
        let joined := childPath abs path
        if k.vfs.stopsAtLink mountId inode abs path then
          onPath .error (k.realpathOf caller (parentOf joined))
            (fun parent k => (.ok (childPath parent (basename joined)), k))
        else (.ok joined, k)
    | some _ => (.error ENOTDIR, k.touch caller)

/-- Resolve the directory descriptor of an `*at` call and go on with the base call. -/
def atPath {ρ : Type} (fail : Int → ρ) (k : Kernel σ) (caller : Pid) (dirfd : Nat)
    (path : Bytes) (f : Bytes → Kernel σ → ρ × Kernel σ) : ρ × Kernel σ :=
  if path.isEmpty then (fail (-EINVAL), k)
  else onPath (fun errno => fail (-errno)) (k.resolveAt caller dirfd path) f

def sysOpenat : Int × Kernel σ :=
  if request.length < 8 then (-EINVAL, k)
  else k.atPath id caller (u32At request 0) (request.drop 8)
    (fun path k => k.sysOpen kh caller (leBytes 4 (u32At request 4) ++ path))

/-! ### Names -/

def withVfs (r : Int × MountTable × σ) : Int × Kernel σ := (r.1, { k with vfs := r.2.1, host := r.2.2 })

def mkdir (kh : Kh σ) (k : Kernel σ) (caller : Pid) (request : Bytes) : Int × Kernel σ :=
  if request.isEmpty then (-EINVAL, k)
  else onPath id (k.normalizeReadablePath caller request)
    (fun path k => k.withVfs (k.vfs.mkdir kh k.host path))

def rmdir (k : Kernel σ) (caller : Pid) (request : Bytes) : Int × Kernel σ :=
  if request.isEmpty then (-EINVAL, k)
  else onPath id (k.normalizeReadablePath caller request)
    (fun path k => k.withVfs (k.vfs.rmdir k.host path))

/-- A name in `/proc` the caller may see: anything that is not a pid, and the visible pids. -/
def visibleNames (caller : Pid) : List Bytes → Kernel σ → List Bytes × Kernel σ
  | [], k => ([], k)
  | name :: names, k =>
    let (keep, k) := match parseU32 name with
      | none => (true, k)
      | some target => k.procPidVisible caller target
    let (rest, k) := Kernel.visibleNames caller names k
    (if keep then name :: rest else rest, k)

end Kernel

/-- One record of a listing: length, type and name. -/
def MountTable.dirRecord (vfs : MountTable) (parent name : Bytes) : Bytes :=
  leBytes 4 name.length ++ leBytes 1 (vfs.entryType (childPath parent name)) ++ name

/-- As many records as fit from `cursor` on. -/
def MountTable.packRecords (vfs : MountTable) (parent : Bytes) (cap : Nat) : Nat → List Bytes → List Bytes
  | _, [] => []
  | cursor, name :: names =>
    if cap < cursor + (5 + name.length) then []
    else vfs.dirRecord parent name ::
      vfs.packRecords parent cap (cursor + (5 + name.length)) names

def Kernel.readdir (k : Kernel σ) (caller : Pid) (request : Bytes) (cap : Nat) : Reply × Kernel σ :=
  if request.isEmpty then (.code (-EINVAL), k)
  else if cap < 4 then (.code (-EINVAL), k)
  else
    onPath Reply.code (k.normalizeReadablePath caller request) (fun path k =>
      match k.vfs.readdir path with
      | none => (.code (-ENOENT), k)
      | some entries =>
        let (entries, k) :=
          if path = procPrefix then visibleNames caller entries k else (entries, k)
        let records := k.vfs.packRecords path cap 4 entries
        (.data (leBytes 4 records.length ++ records.flatten), k))

/-- Two byte strings of a request, the first one with its length in front. -/
def twoPaths : Option (Bytes × Bytes) :=
  if request.length < 4 then none
  else
    match takeBytes request 4 (u32At request 0) with
    | none => none
    | some (first, second) => if second.isEmpty then none else some (first, second)

namespace Kernel

/-- `symlink(target, link_path)`: the target is content and stays as it is. -/
def symlink (kh : Kh σ) (k : Kernel σ) (caller : Pid) (request : Bytes) : Int × Kernel σ :=
  match twoPaths request with
  | none => (-EINVAL, k)
  | some (target, linkPathRaw) =>
    onPath id (k.normalize caller linkPathRaw)
      (fun linkPath k => k.withVfs (k.vfs.symlink kh k.host target linkPath))

/-- A call on two paths, both normalized first. -/
def onTwoPaths (f : Kernel σ → Bytes → Bytes → Int × MountTable × σ) : Int × Kernel σ :=
  match twoPaths request with
  | none => (-EINVAL, k)
  | some (firstRaw, secondRaw) =>
    onPath id (k.normalize caller firstRaw) (fun first k =>
      onPath id (k.normalize caller secondRaw) (fun second k => k.withVfs (f k first second)))

def rename (kh : Kh σ) (k : Kernel σ) (caller : Pid) (request : Bytes) : Int × Kernel σ :=
  k.onTwoPaths caller request (fun k old new => k.vfs.rename kh k.host old new)

def hardLink : Int × Kernel σ :=
  k.onTwoPaths caller request (fun k target path => k.vfs.link kh k.host target path)

def readlink (k : Kernel σ) (caller : Pid) (request : Bytes) (cap : Nat) : Reply × Kernel σ :=
  if request.isEmpty then (.code (-EINVAL), k)
  else
    onPath Reply.code (k.normalizeReadablePath caller request) (fun path k =>
      match k.vfs.readlink path with
      | some target => (.data (target.take cap), k)
      | none => (.code (if k.vfs.entryType path = unknownType then -ENOENT else -EINVAL), k))

/-- `realpath`: links are followed before `/proc` is brought up to date. -/
def realpath (cap : Nat) : Reply × Kernel σ :=
  onPath (fun errno => Reply.code (-errno)) (k.realpathOf caller request) (fun resolved k =>
    match k.publishProcSnapshots.procPathReachable caller resolved with
    | (true, k) => (.pathNul resolved cap, k)
    | (false, k) => (.code (-ENOENT), k))

def unlink (kh : Kh σ) (k : Kernel σ) (caller : Pid) (request : Bytes) : Int × Kernel σ :=
  if request.isEmpty then (-EINVAL, k)
  else
    onPath id (k.normalizeReadablePath caller request) (fun path k =>
      let (removedSocket, k) := k.unlinkUnixSocketInode path
      let (rc, k) := k.withVfs (k.vfs.unlink kh k.host path)
      (if rc = -ENOENT ∧ removedSocket then 0 else rc, k))

end Kernel

/-! ### Attributes -/

/-- The 16-byte record of `stat`: size, type and mode. -/
def statRecord (size filetype mode : Nat) : Bytes := leBytes 8 size ++ leBytes 4 filetype ++ leBytes 4 mode

/-- Look a path up without creating anything. -/
def Kernel.probe (path : Bytes) : Option (MountId × Inode) × Kernel σ :=
  let r := k.vfs.openPath kh k.host path 0
  (r.1, { k with vfs := r.2.1, host := r.2.2 })

def Kernel.writeStatRecord (path : Bytes) : Reply × Kernel σ :=
  if k.unixSocketInodes.contains path then (.data (statRecord 0 socketType 0o140666), k)
  else
    let ty := k.vfs.entryType path
    if ty = unknownType then (.code (-ENOENT), k)
    else if ty = regularType then
      match k.probe kh path with
      | (none, k) => (.code (-ENOENT), k)
      | (some (mountId, inode), k) =>
        (.data (statRecord ((k.vfs.size mountId inode).getD 0) ty
          (k.resolveMetadata mountId inode).mode), k)
    else if ty = symlinkType then
      (.data (statRecord (((k.vfs.readlink path).map List.length).getD 0) ty 0o120777), k)
    else
      (.data (statRecord 0 ty (if ty = directoryType then 0o040755
        else if ty = socketType then 0o140666 else 0o100644)), k)

/-- A trailing slash asks for a directory. -/
def pathRequiresDir (raw : Bytes) : Bool := rootPath.isSuffixOf raw || (slash :: dotName).isSuffixOf raw

/-- Common body of `stat` and `lstat`, which differ in whether a link at the end is followed. -/
def Kernel.statWith (cap : Nat) (followTerminal : Bool) : Reply × Kernel σ :=
  if request.isEmpty then (.code (-EINVAL), k)
  else if cap < 16 then (.code (-EINVAL), k)
  else
    onPath Reply.code (k.resolveReadable caller request followTerminal) (fun path k =>
      let ty := k.vfs.entryType path
      if pathRequiresDir request && ty = unknownType then (.code (-ENOENT), k)
      else if pathRequiresDir request && ty ≠ directoryType then (.code (-ENOTDIR), k)
      else k.writeStatRecord kh path)

def Kernel.statPath (cap : Nat) : Reply × Kernel σ := k.statWith kh caller request cap true

def Kernel.lstatPath (cap : Nat) :
    Reply × Kernel σ := k.statWith kh caller request cap (pathRequiresDir request)

/-- New owner and group, where they are to change. -/
def Metadata.chowned (m : Metadata) (uid gid : Nat) : Metadata :=
  { m with
    uid := if uid ≠ idNoChange then uid else m.uid
    gid := if gid ≠ idNoChange then gid else m.gid }

def Credentials.mayModify (c : Credentials) (ownerUid : Nat) : Bool := c.euid = 0 || c.euid = ownerUid

namespace Kernel

/-- Look a path up and change the metadata of what it names, if `allowed` says so. -/
def changeMetadata (raw : Bytes)
    (allowed : Credentials → Metadata → Bool) (change : Metadata → Metadata) : Int × Kernel σ :=
  if raw.isEmpty then (-EINVAL, k)
  else
    onPath id (k.normalize caller raw) (fun path k =>
      match k.probe kh path with
      | (none, k) => (-ENOENT, k)
      | (some (mountId, inode), k) =>
        let k := k.touch caller
        let metadata := k.resolveMetadata mountId inode
        if allowed (k.process caller).credentials metadata then
          (0, k.setMetadataOverride mountId inode (change metadata))
        else (-EPERM, k))

/-- `chown(uid, gid, path)` is for root. -/
def chown : Int × Kernel σ :=
  if request.length < 8 then (-EINVAL, k)
  else k.changeMetadata kh caller (request.drop 8) (fun c _ => c.euid = 0)
    (fun m => m.chowned (u32At request 0) (u32At request 4))

def fchown : Int × Kernel σ :=
  if request.length ≠ 12 then (-EINVAL, k)
  else
    match k.fdEntry caller (u32At request 0) with
    | some (.file id) =>
      match k.ofds.get? id with
      | none => (-EBADF, k.touch caller)
      | some o =>
        let k := k.touch caller
        if (k.process caller).credentials.euid ≠ 0 then (-EPERM, k)
        else (0, k.setMetadataOverride o.mountId o.inode
          ((k.resolveMetadata o.mountId o.inode).chowned (u32At request 4) (u32At request 8)))
    | _ => (-EBADF, k.touch caller)

def utimens : Int × Kernel σ :=
  if request.length < 8 then (-EINVAL, k)
  else k.changeMetadata kh caller (request.drop 8) (fun c m => c.mayModify m.uid)
    (fun m => { m with mtimeNs := u64At request 0 })

/-- `chmod(mode, path)`: the file type is not the caller's to change. -/
def chmod : Int × Kernel σ :=
  if request.length < 4 then (-EINVAL, k)
  else k.changeMetadata kh caller (request.drop 4) (fun c m => c.mayModify m.uid)
    (fun m => { m with mode := m.mode &&& 0o170000 ||| u32At request 0 &&& 0o007777 })

/-! ### Lengths, locks and syncing -/

def sysFtruncate : Int × Kernel σ :=
  if request.length ≠ 12 then (-EINVAL, k)
  else if i64Max < u64At request 4 then (-EINVAL, k)
  else
    match k.fdEntry caller (u32At request 0) with
    | none => (-EBADF, k.touch caller)
    | some (.file id) =>
      match k.ofds.get? id with
      | none => (-EBADF, k.touch caller)
      | some o =>
        if !o.writable then (-EBADF, k.touch caller)
        else
          let (rc, vfs) := k.vfs.setLen o.mountId o.inode (u64At request 4)
          (rc, { k.touch caller with vfs := vfs })
    | some (.directory _ _ _) => (-EISDIR, k.touch caller)
    | some _ => (-EINVAL, k.touch caller)

/-- The link loop of `truncate`: a target is resolved like a path of the request, so a relative one
    starts at the working directory. -/
def truncateTarget (caller : Pid) : Nat → Bytes → Kernel σ → Except Int Bytes × Kernel σ
  | hops, path, k =>
    match k.vfs.readlink path with
    | none => (.ok path, k)
    | some target =>
      match hops with
      | 0 => (.error (-EINVAL), k)
      | hops + 1 =>
        onPath .error (k.normalizeReadablePath caller target)
          (fun path k => Kernel.truncateTarget caller hops path k)

def sysTruncate : Int × Kernel σ :=
  if request.length < 8 then (-EINVAL, k)
  else if i64Max < u64At request 0 then (-EINVAL, k)
  else if (request.drop 8).isEmpty then (-EINVAL, k)
  else
    onPath id (k.normalizeReadablePath caller (request.drop 8)) (fun path k =>
      onPath id (truncateTarget caller symloopMax path k) (fun path k =>
        if k.vfs.entryType path = directoryType then (-EISDIR, k)
        else
          match k.probe kh path with
          | (none, k) => (-ENOENT, k)
          | (some (mountId, inode), k) =>
            let (rc, vfs) := k.vfs.setLen mountId inode (u64At request 0)
            (rc, { k with vfs := vfs })))

/-- `flock_release`. -/
def flockRelease (ofdId : Nat) (mountId : MountId) (inode : Inode) : Kernel σ :=
  let key := toLex (mountId, inode)
  match k.flockLocks.get? key with
  | none => k
  | some s =>
    if s.heldWithout ofdId then { k with flockLocks := k.flockLocks.insert key (s.release ofdId) }
    else { k with flockLocks := k.flockLocks.erase key }

/-- `flock(fd, operation)`: exactly one of shared, exclusive and unlock; a conflict is `EAGAIN`
    whether or not the caller asked to wait. -/
def sysFlock : Int × Kernel σ :=
  if request.length ≠ 8 then (-EINVAL, k)
  else
    let op := u32At request 4
    if op ≠ op &&& 15 then (-EINVAL, k)
    else if op &&& 11 ≠ 1 ∧ op &&& 11 ≠ 2 ∧ op &&& 11 ≠ 8 then (-EINVAL, k)
    else
      match k.fdEntry caller (u32At request 0) with
      | some (.file id) =>
        match k.ofds.get? id with
        | none => (-EBADF, k.touch caller)
        | some o =>
          let k := k.touch caller
          if op.testBit 3 then (0, k.flockRelease id o.mountId o.inode)
          else
            match k.flockTryAcquire id o.mountId o.inode (op.testBit 1) with
            | some k => (0, k)
            | none => (-EAGAIN, k)
      | _ => (-EBADF, k.touch caller)

end Kernel

end Yurt
