import YurtKernel.Dispatch.Fs

/-! The rest of the path calls: `statvfs`, `access`, the `*at` family (`dispatch/fs.rs`), and
    `sys_spawn` (`dispatch/process.rs`), which loads its image through a path.

    An `*at` call resolves its directory descriptor first and hands the path to the base call. -/

namespace Yurt
variable {σ : Type} (kh : Kh σ) (k : Kernel σ) (caller : Pid) (request : Bytes)

/-! ### File system information -/

def statvfsRecordSize : Nat := 64

/-- Block size, block and inode counts of the record, the same for every mount. -/
def statvfsRecord (flag : Nat) : Bytes :=
  leBytes 4 4096 ++ leBytes 4 4096 ++ leBytes 8 262144 ++ leBytes 8 196608 ++ leBytes 8 196608 ++
    leBytes 8 1000000 ++ leBytes 8 950000 ++ leBytes 8 950000 ++ leBytes 4 flag ++ leBytes 4 255

/-- A path that opens for reading and not for writing is on a read-only mount. -/
def Kernel.writeStatvfsRecord (path : Bytes) : Reply × Kernel σ :=
  match k.probe kh path with
  | (none, k) => (.data (statvfsRecord 0), k)
  | (some _, k) =>
    let (r, vfs, host) := k.vfs.openResult kh k.host path 1
    let flag := match r with
      | .error _ => 1
      | .ok _ => 0
    (.data (statvfsRecord flag), { k with vfs := vfs, host := host })

def Kernel.sysStatvfs (cap : Nat) : Reply × Kernel σ :=
  if request.isEmpty then (.code (-EINVAL), k)
  else if cap < statvfsRecordSize then (.code statvfsRecordSize, k)
  else
    onPath Reply.code (k.resolveReadable caller request true) (fun path k =>
      if k.vfs.entryType path = unknownType then (.code (-ENOENT), k)
      else k.writeStatvfsRecord kh path)

/-! ### Access -/

def modeBitsMask : Nat := 7

def atSymlinkNofollow : Nat := 0x100
def atEaccess : Nat := 0x200
def atRemovedir : Nat := 0x200

/-- `check_access_mode`: 0 or an error. Bits of `mode`: 0 execute, 1 write, 2 read. -/
def checkAccessMode (m : Metadata) (uid gid mode : Nat) : Int :=
  if mode = 0 then 0
  else if uid = 0 then
    if mode.testBit 0 && m.mode &&& 0o111 = 0 then EACCES else 0
  else
    -- owner, group or other bits
    let shift := if uid = m.uid then 6 else if gid = m.gid then 3 else 0
    if mode.testBit 2 && !m.mode.testBit (shift + 2) then EACCES
    else if mode.testBit 1 && !m.mode.testBit (shift + 1) then EACCES
    else if mode.testBit 0 && !m.mode.testBit shift then EACCES
    else 0

namespace Kernel

/-- A readable path, with its links resolved unless the flag says not to. -/
def accessPath (rawPath : Bytes) (nofollow : Bool) : Except Int Bytes × Kernel σ :=
  if nofollow then k.normalizeReadablePath caller rawPath
  else k.resolveReadable caller rawPath true

def accessCheck (rawPath : Bytes) (mode flag : Nat) : Int × Kernel σ :=
  onPath id (k.accessPath caller rawPath (flag &&& atSymlinkNofollow ≠ 0)) (fun path k =>
    match k.probe kh path with
    | (none, k) => (-ENOENT, k)
    | (some (mountId, inode), k) =>
      if mode = 0 then (0, k)
      else
        let k := k.touch caller
        let c := (k.process caller).credentials
        let m := k.resolveMetadata mountId inode
        if flag &&& atEaccess ≠ 0 then (-checkAccessMode m c.euid c.egid mode, k)
        else (-checkAccessMode m c.uid c.gid mode, k))

def sysAccess : Int × Kernel σ :=
  if request.length < 4 then (-EINVAL, k)
  else
    let mode := u32At request 0
    if mode ≠ mode &&& modeBitsMask then (-EINVAL, k)
    else if (request.drop 4).isEmpty then (-EINVAL, k)
    else k.accessCheck kh caller (request.drop 4) mode 0

/-! ### Calls relative to a directory descriptor -/

def sysFaccessat : Int × Kernel σ :=
  if request.length < 12 then (-EINVAL, k)
  else
    let mode := u32At request 4
    let flag := u32At request 8
    if mode ≠ mode &&& modeBitsMask ∨ flag ≠ flag &&& (atSymlinkNofollow ||| atEaccess) then
      (-EINVAL, k)
    else k.atPath id caller (u32At request 0) (request.drop 12)
      (fun path k => k.accessCheck kh caller path mode flag)

def sysUnlinkat : Int × Kernel σ :=
  if request.length < 8 then (-EINVAL, k)
  else
    let flag := u32At request 4
    if flag ≠ flag &&& atRemovedir then (-EINVAL, k)
    else k.atPath id caller (u32At request 0) (request.drop 8) (fun path k =>
      if flag &&& atRemovedir ≠ 0 then k.rmdir caller path else k.unlink kh caller path)

/-- `mkdirat(dirfd, mode, path)`; the mode is not used. -/
def sysMkdirat : Int × Kernel σ :=
  if request.length < 8 then (-EINVAL, k)
  else k.atPath id caller (u32At request 0) (request.drop 8) (fun path k => k.mkdir kh caller path)

def sysFstatat (cap : Nat) : Reply × Kernel σ :=
  if request.length < 8 then (.code (-EINVAL), k)
  else
    let flag := u32At request 4
    if flag ≠ flag &&& atSymlinkNofollow then (.code (-EINVAL), k)
    else k.atPath Reply.code caller (u32At request 0) (request.drop 8) (fun path k =>
      if flag &&& atSymlinkNofollow ≠ 0 then k.lstatPath kh caller path cap
      else k.statPath kh caller path cap)

def sysReadlinkat (cap : Nat) : Reply × Kernel σ :=
  if request.length < 4 then (.code (-EINVAL), k)
  else k.atPath Reply.code caller (u32At request 0) (request.drop 4)
    (fun path k => k.readlink caller path cap)

end Kernel

/-! ### Spawning -/

/-- The argument list of `sys_spawn`: records up to the end, less than four bytes of rest ignored. -/
def spawnArgv : Nat → Bytes → Option (List Bytes)
  | 0, _ => some []
  | fuel + 1, request =>
    if request.length < 4 then some []
    else if (request.drop 4).length < u32At request 0 then none
    else (spawnArgv fuel ((request.drop 4).drop (u32At request 0))).map
      (fun argv => (request.drop 4).take (u32At request 0) :: argv)

/-- Path, links, lookup and content of an executable. -/
def Kernel.loadImage (rawPath : Bytes) : Except Int Bytes × Kernel σ :=
  onPath .error (k.normalize caller rawPath) (fun path k =>
    match k.followSymlinksLiteral path with
    | .error errno => (.error (-errno), k)
    | .ok execPath =>
      match k.probe kh execPath with
      | (none, k) => (.error (-ENOENT), k)
      | (some (mountId, inode), k) =>
        let size := toUsize ((k.vfs.size mountId inode).getD 0)
        let ((n, bytes), host) := k.vfs.read kh k.host mountId inode 0 size
        let k := { k with host := host }
        if n < 0 then (.error n, k)
        else (.ok ((bytes ++ List.replicate (size - bytes.length) 0).take n.toNat), k))

/-- The record a spawned child starts with, given what `process_mut` hands out for its pid. -/
def Process.spawnChild (parent fresh : Process) (callerPid : Pid) (argv : List Bytes) : Process :=
  { fresh with
    ppid := callerPid
    argv := argv
    umask := parent.umask
    credentials := parent.credentials
    cwd := parent.cwd
    rlimits := parent.rlimits
    fdTable := .fromEntries parent.fdTable.inheritableEntries
    nice := parent.nice
    schedulerPolicy := parent.schedulerPolicy
    schedulerPriority := parent.schedulerPriority
    pgid := parent.pgid
    sid := parent.sid
    signalDispositions := parent.signalDispositions }

/-- Register a child of `caller` that runs `wasm`. -/
def Kernel.stageSpawn (wasm : Bytes) (argv : List Bytes) : Int × Kernel σ :=
  match k.tryAllocSpawnPid with
  | (none, k) => (-EAGAIN, k)
  | (some childPid, k) =>
    let k := k.touch caller
    let parent := k.process caller
    let k := parent.fdTable.inheritableEntries.values.foldl Kernel.incFdEntryRef k
    let k := k.updProcess childPid (fun fresh => parent.spawnChild fresh caller argv)
    let k := k.updProcess caller (fun p => { p with children := pushChild p.children childPid })
    (childPid, { k with pendingSpawns := k.pendingSpawns ++ [⟨childPid, wasm, argv⟩] })

/-- `sys_spawn(path, argv)`. -/
def Kernel.sysSpawn : Int × Kernel σ :=
  if request.length < 4 then (-EINVAL, k)
  else
    match takeBytes request 4 (u32At request 0) with
    | none => (-EINVAL, k)
    | some (rawPath, argvRequest) =>
      if rawPath.isEmpty then (-EINVAL, k)
      else
        match spawnArgv (argvRequest.length + 1) argvRequest with
        | none => (-EINVAL, k)
        | some argv =>
          onPath id (k.loadImage kh caller rawPath) (fun wasm k => k.stageSpawn caller wasm argv)

/-! ### All path calls -/

/-- The calls that take a path, with their request bytes and, where there is a response, the room in
    it. -/
inductive PathCall where
  | openPath (request : Bytes)
  | openat (request : Bytes)
  | stat (request : Bytes) (cap : Nat)
  | lstat (request : Bytes) (cap : Nat)
  | fstatat (request : Bytes) (cap : Nat)
  | readlink (request : Bytes) (cap : Nat)
  | readlinkat (request : Bytes) (cap : Nat)
  | realpath (request : Bytes) (cap : Nat)
  | access (request : Bytes)
  | faccessat (request : Bytes)
  | chdir (request : Bytes)
  | readdir (request : Bytes) (cap : Nat)
  | statvfs (request : Bytes) (cap : Nat)
  | chmod (request : Bytes)
  | chown (request : Bytes)
  | utimens (request : Bytes)
  | truncate (request : Bytes)
  | mkdir (request : Bytes)
  | mkdirat (request : Bytes)
  | rmdir (request : Bytes)
  | unlink (request : Bytes)
  | unlinkat (request : Bytes)
  | rename (request : Bytes)
  | link (request : Bytes)
  | symlink (request : Bytes)
  | spawn (request : Bytes)
  deriving DecidableEq

/-- A call without a response. -/
def onlyCode (r : Int × Kernel σ) : Reply × Kernel σ := (.code r.1, r.2)

/-- Run a path call of `caller`. -/
def PathCall.run : PathCall → Reply × Kernel σ
  | .openPath request => onlyCode (k.sysOpen kh caller request)
  | .openat request => onlyCode (k.sysOpenat kh caller request)
  | .stat request cap => k.statPath kh caller request cap
  | .lstat request cap => k.lstatPath kh caller request cap
  | .fstatat request cap => k.sysFstatat kh caller request cap
  | .readlink request cap => k.readlink caller request cap
  | .readlinkat request cap => k.sysReadlinkat caller request cap
  | .realpath request cap => k.realpath caller request cap
  | .access request => onlyCode (k.sysAccess kh caller request)
  | .faccessat request => onlyCode (k.sysFaccessat kh caller request)
  | .chdir request => onlyCode (k.chdir caller request)
  | .readdir request cap => k.readdir caller request cap
  | .statvfs request cap => k.sysStatvfs kh caller request cap
  | .chmod request => onlyCode (k.chmod kh caller request)
  | .chown request => onlyCode (k.chown kh caller request)
  | .utimens request => onlyCode (k.utimens kh caller request)
  | .truncate request => onlyCode (k.sysTruncate kh caller request)
  | .mkdir request => onlyCode (k.mkdir kh caller request)
  | .mkdirat request => onlyCode (k.sysMkdirat kh caller request)
  | .rmdir request => onlyCode (k.rmdir caller request)
  | .unlink request => onlyCode (k.unlink kh caller request)
  | .unlinkat request => onlyCode (k.sysUnlinkat kh caller request)
  | .rename request => onlyCode (k.rename kh caller request)
  | .link request => onlyCode (k.hardLink kh caller request)
  | .symlink request => onlyCode (k.symlink kh caller request)
  | .spawn request => onlyCode (k.sysSpawn kh caller request)

end Yurt
