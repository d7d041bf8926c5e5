import YurtKernel.Kernel.Host
import YurtKernel.Vfs.Ramfs
import YurtKernel.Vfs.Decimal

/-! The synthetic backends: `/proc`, `/dev` and the read-only tar layer (`vfs.rs`).

    `/proc` is rebuilt from process snapshots. File inodes are remembered for ever, directory inodes
    as long as the process is in the snapshot, and both are minted from one counter. -/

namespace Yurt
variable (b : ProcBackend) (inode : Inode) (path : Bytes) (p : ProcessSnapshot)

/-! ### Per-process files -/

/-- Basename of `argv[0]`, as valid UTF-8. -/
def commFromArgv (argv : List Bytes) : Option Bytes :=
  argv.head?.map (fun first => fromUtf8Lossy (basename first))

/-- One `Key:\tvalue` line of a status file. -/
def statusLine (key : List Char) (values : List Nat) : Bytes :=
  ascii (key ++ [':']) ++ values.flatMap (fun v => 9 :: decimal v) ++ [10]

def formatStatus : Bytes :=
  (match commFromArgv p.argv with
    | some name => ascii ['N', 'a', 'm', 'e', ':'] ++ 9 :: name ++ [10]
    | none => []) ++
  statusLine ['P', 'i', 'd'] [p.pid] ++ statusLine ['P', 'P', 'i', 'd'] [p.ppid] ++
  statusLine ['U', 'i', 'd'] [p.uid, p.euid, p.euid, p.euid] ++
  statusLine ['G', 'i', 'd'] [p.gid, p.egid, p.egid, p.egid] ++
  statusLine ['P', 'g', 'i', 'd'] [p.pgid] ++ statusLine ['S', 'i', 'd'] [p.sid]

def formatCmdline : Bytes := p.argv.flatMap (fun arg => arg ++ [0])

def formatComm : Bytes := (commFromArgv p.argv).getD [] ++ [10]

/-- The files of one process directory. -/
def procFiles : List (Bytes × Bytes) :=
  [(ascii ['s', 't', 'a', 't', 'u', 's'], formatStatus p),
    (ascii ['c', 'm', 'd', 'l', 'i', 'n', 'e'], formatCmdline p),
    (ascii ['c', 'o', 'm', 'm'], formatComm p),
    (ascii ['c', 'w', 'd'], p.cwd)]

/-- Directory of a process in the backend. -/
def pidDir (pid : Nat) : Bytes := slash :: decimal pid

namespace ProcBackend

/-! ### Refresh -/

/-- Inode of a file path, minted on first sight. -/
def fileInode : Inode × ProcBackend :=
  match b.inodes.get? path with
  | some id => (id, b)
  | none => (b.nextId, { b with nextId := b.nextId + 1, inodes := b.inodes.insert path b.nextId })

/-- Put one file of a process in. -/
def addFile (dir : Bytes) (b : ProcBackend) (file : Bytes × Bytes) : ProcBackend :=
  let path := dir ++ slash :: file.1
  let (id, b) := b.fileInode path
  { b with entries := b.entries.insert path (id, file.2) }

section
variable (oldDirs : SortedMap Bytes Inode) (b : ProcBackend)

/-- Inode of a process directory: the one it had before the refresh, or a new one. -/
def dirInodeFor (dir : Bytes) : Inode × ProcBackend :=
  match oldDirs.get? dir with
  | some id => (id, b)
  | none => (b.nextId, { b with nextId := b.nextId + 1 })

/-- Put one process in. -/
def addProcess (snap : ProcessSnapshot) : ProcBackend :=
  let dir := pidDir snap.pid
  let (id, b) := dirInodeFor oldDirs b dir
  let b := { b with dirInodes := b.dirInodes.insert dir id, dirPaths := b.dirPaths.insert id dir }
  (procFiles snap).foldl (addFile dir) b

end

/-- Keep the remembered file inodes and the counter, and nothing else. -/
def emptied : ProcBackend :=
  { b with
    entries := .empty
    dirInodes := SortedMap.empty.insert rootPath 0
    dirPaths := SortedMap.empty.insert 0 rootPath }

def refreshProcesses (snapshots : List ProcessSnapshot) : ProcBackend :=
  snapshots.foldl (addProcess b.dirInodes) b.emptied

/-! ### Queries -/

def openPath : Option Inode := (b.entries.get? path).map Prod.fst

/-- Content behind an inode: the first entry that carries it. -/
def content? : Option Bytes := (b.entries.values.find? (fun e => e.1 = inode)).map Prod.snd

def read (offset cap : Nat) : Int × Bytes :=
  match b.content? inode with
  | none => (-EBADF, [])
  | some content =>
    ((RamfsBackend.slice content offset cap).length, RamfsBackend.slice content offset cap)

def size : Option Nat := (b.content? inode).map List.length

/-- `strip_prefix`. -/
def stripStart (start : Bytes) (s : Bytes) : Option Bytes :=
  if start.isPrefixOf s then some (s.drop start.length) else none

/-- Process directory of an entry key, if it is below one. -/
def keyPid (key : Bytes) : Option Bytes := (stripStart rootPath key).bind
    (fun rest => (rest.findIdx? (fun b => b = slash)).map (fun i => rest.take i))

/-- First occurrences, in order. -/
def firsts (l : List Bytes) : List Bytes :=
  l.foldl (fun acc x => if acc.contains x then acc else acc ++ [x]) []

def readdir : Option (List Bytes) :=
  if path.isEmpty || path = rootPath then
    -- a key without its leading slash would abort the listing
    if b.entries.keys.all (fun key => rootPath.isPrefixOf key) then
      some (firsts (b.entries.keys.filterMap keyPid))
    else none
  else
    let names := (b.entries.keys.filterMap (stripStart (path ++ [slash]))).filter
      (fun rest => !rest.contains slash)
    if names.isEmpty then none else some names

def entryType : Nat :=
  if b.entries.contains path then regularType
  else if path = rootPath then directoryType
  else if b.entries.keys.any (fun key => (path ++ [slash]).isPrefixOf key) then directoryType
  else unknownType

def dirInode : Option Inode := b.dirInodes.get? path

def dirPath : Option Bytes := b.dirPaths.get? inode

def resolveAt (dirInode : Inode) (name : Bytes) : Option (Option Inode × Nat) :=
  match b.dirPaths.get? dirInode with
  | none => none
  | some base =>
    let child := childPath base name
    match b.entryType child with
    | 3 => some (b.dirInodes.get? child, directoryType)
    | 4 => some (b.openPath child, regularType)
    | _ => none

end ProcBackend

/-! ### Devices -/

namespace Dev

def nullName : Bytes := ascii ['n', 'u', 'l', 'l']
def zeroName : Bytes := ascii ['z', 'e', 'r', 'o']
def urandomName : Bytes := ascii ['u', 'r', 'a', 'n', 'd', 'o', 'm']
def randomName : Bytes := ascii ['r', 'a', 'n', 'd', 'o', 'm']

/-- Inode of a device by its name; 0 is the directory itself. -/
def inodeOf (name : Bytes) : Option Inode :=
  if name = nullName then some 1
  else if name = zeroName then some 2
  else if name = urandomName then some 3
  else if name = randomName then some 4
  else none

def openPath : Option Inode :=
  match path with
  | 47 :: name => inodeOf name
  | _ => none

def isDevice : Bool := 1 ≤ inode && inode ≤ 4

/-- Random devices ask the host. -/
def read {σ : Type} (kh : Kh σ) (h : σ) (inode : Inode) (cap : Nat) : (Int × Bytes) × σ :=
  match inode with
  | 1 => ((0, []), h)
  | 2 => ((cap, List.replicate cap 0), h)
  | 3 => fill
  | 4 => fill
  | _ => ((-EBADF, []), h)
where
  fill : (Int × Bytes) × σ :=
    if cap = 0 then ((0, []), h)
    else
      let ((rc, bytes), h) := kh.fillRandom h cap
      if rc = 0 then ((cap, bytes), h) else ((rc, bytes), h)

def write (payload : Bytes) : Int :=
  if isDevice inode then payload.length else -EBADF

def size : Option Nat := if isDevice inode then some 0 else none

def dirInode : Option Inode := if path = rootPath then some 0 else none

def dirPath : Option Bytes := if inode = 0 then some rootPath else none

def resolveAt (dirInode : Inode) (name : Bytes) : Option (Option Inode × Nat) :=
  if dirInode ≠ 0 then none else (inodeOf name).map (fun id => (some id, regularType))

end Dev

/-! ### Tar layers -/

namespace TarLayerBackend

/-- Image layers refuse writable and creating opens. -/
def openPath (b : TarLayerBackend) (path : Bytes) (flags : Nat) : Option Inode :=
  if flags.testBit 0 || flags.testBit 1 then none else b.inodes.get? path

section
variable (b : TarLayerBackend) (inode : Inode)

/-- Data range behind an inode. -/
def range? : Option (Nat × Nat) :=
  (b.inodes.toList.find? (fun e => e.2 = inode)).bind (fun e => b.files.get? e.1)

def read (offset cap : Nat) : Int × Bytes :=
  match b.range? inode with
  | none => (-EBADF, [])
  | some (fileOff, fileLen) =>
    let start := min offset fileLen
    let n := min (fileLen - start) cap
    (n, (b.archive.drop (fileOff + start)).take n)

def size : Option Nat := (b.range? inode).map Prod.snd

/-- Beginning of every path below `path`. -/
def below : Bytes := if path = rootPath then rootPath else path ++ [slash]

def readdir (path : Bytes) : Option (List Bytes) :=
  let under := b.files.keys.filterMap (ProcBackend.stripStart (below path))
  if path = rootPath || !under.isEmpty then
    some (sortDedup ((under.filter (fun rest => !rest.isEmpty)).map
      (fun rest => rest.takeWhile (fun c => c ≠ slash))))
  else none

def entryType (path : Bytes) : Nat :=
  if b.files.contains path then regularType
  else if path = rootPath then directoryType
  else if b.files.keys.any (fun key => (path ++ [slash]).isPrefixOf key) then directoryType
  else unknownType

def dirInode (path : Bytes) : Option Inode := b.dirInodes.get? path

def dirPath : Option Bytes := b.dirPaths.get? inode

def resolveAt (dirInode : Inode) (name : Bytes) : Option (Option Inode × Nat) :=
  match b.dirPaths.get? dirInode with
  | none => none
  | some base =>
    let child := childPath base name
    match b.entryType child with
    | 3 => some (b.dirInodes.get? child, directoryType)
    | 4 => some (b.inodes.get? child, regularType)
    | _ => none

end

end TarLayerBackend
end Yurt
