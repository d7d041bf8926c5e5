import YurtKernel.Lib.SortedMap

/-! Data of the pluggable filesystem layer (`vfs.rs`).

    A mount table is a list of prefixes, each with a backend. The trait object of the source becomes
    an inductive type with one constructor for each implementation. An overlay holds its two layers,
    which are plain backends: the kernel builds overlays over an image and a ramfs and never stacks
    them. Paths and file contents are byte strings, inode and mount ids natural numbers. -/

namespace Yurt

abbrev Byte := Fin 256
abbrev Bytes := List Byte

instance Byte.neZero : NeZero 256 := ⟨by decide⟩

/-- The bytes of an ASCII text. -/
def ascii (s : List Char) : Bytes := s.map (fun c => Fin.ofNat 256 c.toNat)

abbrev MountId := Nat
abbrev Inode := Nat

def rootMount : MountId := 0

/-- Per-inode metadata the kernel tracks apart from the storage. -/
structure Metadata where
  uid : Nat
  gid : Nat
  mode : Nat
  mtimeNs : Nat
  deriving DecidableEq

/-- What `/proc` is told about one process. -/
structure ProcessSnapshot where
  pid : Nat
  ppid : Nat
  uid : Nat
  euid : Nat
  gid : Nat
  egid : Nat
  pgid : Nat
  sid : Nat
  argv : List Bytes
  cwd : Bytes
  deriving DecidableEq

/-- In-memory backend: a flat path namespace with file, symlink and directory tables. -/
structure RamfsBackend where
  inodes : SortedMap Inode Bytes
  paths : SortedMap Bytes Inode
  symlinks : SortedMap Bytes Bytes
  dirInodes : SortedMap Bytes Inode
  dirPaths : SortedMap Inode Bytes
  refcount : SortedMap Inode Nat
  nextId : Nat
  deriving DecidableEq

/-- Synthetic per-process files, regenerated from process snapshots. -/
structure ProcBackend where
  entries : SortedMap Bytes (Inode × Bytes)
  inodes : SortedMap Bytes Inode
  dirInodes : SortedMap Bytes Inode
  dirPaths : SortedMap Inode Bytes
  nextId : Nat
  deriving DecidableEq

structure HostFsHandle where
  drained : Nat
  eofSeen : Bool
  size : Option Nat
  deriving DecidableEq

/-- A real-disk subtree; inode ids are host descriptors. -/
structure HostFsBackend where
  fds : SortedMap Inode HostFsHandle
  paths : SortedMap Bytes Inode
  lastOpenError : Option Int
  deriving DecidableEq

/-- Read-only image layer, indexed once from an archive. -/
structure TarLayerBackend where
  archive : Bytes
  files : SortedMap Bytes (Nat × Nat)
  inodes : SortedMap Bytes Inode
  metadata : SortedMap Inode Metadata
  dirInodes : SortedMap Bytes Inode
  dirPaths : SortedMap Inode Bytes
  deriving DecidableEq

inductive Layer where | upper | lower
  deriving DecidableEq

/-- Book-keeping of an overlay, its two layers apart. -/
structure OverlayState where
  layered : SortedMap Inode (Layer × Inode)
  paths : SortedMap Bytes Inode
  whiteouts : SortedMap Bytes Unit
  nextId : Nat
  deriving DecidableEq

/-- A backend with its own storage. -/
inductive Leaf where
  | ramfs (b : RamfsBackend)
  | dev
  | proc (b : ProcBackend)
  | hostFs (b : HostFsBackend)
  | tar (b : TarLayerBackend)
  deriving DecidableEq

/-- Union of a read-only lower and a writable upper layer. -/
structure OverlayBackend where
  lower : Leaf
  upper : Leaf
  state : OverlayState
  deriving DecidableEq

inductive Backend where
  | leaf (b : Leaf)
  | overlay (b : OverlayBackend)
  deriving DecidableEq

/-- One row of the mount table. -/
structure Mount where
  pfx : Bytes
  backend : Backend
  deriving DecidableEq

structure MountTable where
  mounts : List Mount
  deriving DecidableEq

def RamfsBackend.new : RamfsBackend where
  inodes := .empty
  paths := .empty
  symlinks := .empty
  dirInodes := SortedMap.empty.insert (ascii ['/']) 0
  dirPaths := SortedMap.empty.insert 0 (ascii ['/'])
  refcount := .empty
  nextId := 1

def ProcBackend.new : ProcBackend where
  entries := .empty
  inodes := .empty
  dirInodes := SortedMap.empty.insert (ascii ['/']) 0
  dirPaths := SortedMap.empty.insert 0 (ascii ['/'])
  nextId := 1

def MountTable.new (root : Backend) : MountTable := ⟨[⟨ascii ['/'], root⟩]⟩

/-- Append a mount; its id is its position. -/
def MountTable.addMount (t : MountTable) (pfx : Bytes) (b : Backend) : MountTable :=
  ⟨t.mounts ++ [⟨pfx, b⟩]⟩

end Yurt
