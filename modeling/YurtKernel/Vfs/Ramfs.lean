import YurtKernel.Kernel.State

/-! The in-memory backend (`RamfsBackend` in `vfs.rs`).

    A flat namespace: files, symlinks and directories are keyed by their whole path. Directory inodes
    are kept both ways so that an open directory survives a rename. `usize` is 32 bits wide on the
    machine the kernel ships for, so 64-bit offsets are taken modulo `2 ^ 32`. -/

namespace Yurt
variable (b : RamfsBackend) (path : Bytes) (inode : Inode) (content : Bytes)

def slash : Byte := 47

def rootPath : Bytes := [slash]

/-- `as usize` on a 64-bit offset. -/
def toUsize (n : Nat) : Nat := n % 2 ^ 32

/-- `isize::MAX` of the machine. -/
def isizeMax : Nat := 2 ^ 31 - 1

/-- Sort and drop duplicates. -/
def sortDedup (l : List Bytes) : List Bytes :=
  (l.foldl (fun m name => m.insert name ()) (SortedMap.empty : SortedMap Bytes Unit)).keys

/-- File types as the WASI byte has them. -/
def unknownType : Nat := 0
def directoryType : Nat := 3
def regularType : Nat := 4
def socketType : Nat := 6
def symlinkType : Nat := 7

/-! ### Paths -/

/-- Position of the last slash. -/
def lastSlash (p : Bytes) : Option Nat :=
  (p.reverse.findIdx? (fun b => b = slash)).map (fun i => p.length - 1 - i)

/-- Directory that lists `p`. -/
def parentOf (p : Bytes) : Bytes :=
  match lastSlash p with
  | none => rootPath
  | some 0 => rootPath
  | some (idx + 1) => p.take (idx + 1)

def basename (p : Bytes) : Bytes :=
  match lastSlash p with
  | none => p
  | some idx => p.drop (idx + 1)

/-- Path of `name` under `base`, without doubling the separator. -/
def childPath (base name : Bytes) : Bytes :=
  (if base.getLast? = some slash then base else base ++ [slash]) ++ name

namespace RamfsBackend

/-! ### Files -/

/-- Install or replace a path's content. -/
def install (path content : Bytes) : Inode × RamfsBackend :=
  match b.paths.get? path with
  | some id => (id, { b with inodes := b.inodes.modify id (fun _ => content) })
  | none =>
    (b.nextId, { b with
        nextId := b.nextId + 1
        inodes := b.inodes.insert b.nextId content
        refcount := b.refcount.insert b.nextId 1
        paths := b.paths.insert path b.nextId })

/-- Look a path up; bit 1 of the flags makes a missing file. -/
def openPath (flags : Nat) : Option Inode × RamfsBackend :=
  match b.paths.get? path with
  | some id => (some id, b)
  | none =>
    if flags.testBit 1 then
      let (id, b) := b.install path []
      (some id, b)
    else (none, b)

def truncate : RamfsBackend := { b with inodes := b.inodes.modify inode (fun _ => []) }

/-- Cut or zero-extend to exactly `n` bytes. -/
def resize (n : Nat) : Bytes := content.take n ++ List.replicate (n - content.length) 0

/-- No vector is longer than `isize::MAX`, and one grows only if there is room for what `Vec` asks the
    allocator for. -/
def CanHold (room : Bool) (n : Nat) : Prop := n ≤ content.length ∨ n ≤ isizeMax ∧ room = true

instance (room : Bool) (n : Nat) : Decidable (CanHold content room n) :=
  inferInstanceAs (Decidable (_ ∨ _))

/-- `Vec::resize`, `none` being the panic. -/
def tryResize (room : Bool) (n : Nat) : Option Bytes :=
  if CanHold content room n then some (resize content n) else none

def setLen (length : Nat) : Int × RamfsBackend :=
  match b.inodes.get? inode with
  | none => (-EBADF, b)
  | some content =>
    if length ≥ 2 ^ 32 then (-EFBIG, b)
    else (0, { b with inodes := b.inodes.insert inode (resize content length) })

/-- Bytes a read of `cap` bytes at `offset` finds in a content. -/
def slice (offset cap : Nat) : Bytes := (content.drop (toUsize offset)).take cap

def read (offset cap : Nat) : Int × Bytes :=
  match b.inodes.get? inode with
  | none => (-EBADF, [])
  | some content => ((slice content offset cap).length, slice content offset cap)

/-- Content after `payload` was written at `start`, with a gap filled by zeros. -/
def overwrite (start : Nat) (payload : Bytes) : Bytes :=
  let content := if start + payload.length > content.length
    then resize content (start + payload.length) else content
  content.take start ++ payload ++ content.drop (start + payload.length)

def write (offset : Nat) (payload : Bytes) : Int × RamfsBackend :=
  match b.inodes.get? inode with
  | none => (-EBADF, b)
  | some content =>
    (payload.length,
      { b with inodes := b.inodes.insert inode (overwrite content (toUsize offset) payload) })

def size : Option Nat := (b.inodes.get? inode).map List.length

def defaultMetadata : Metadata := ⟨0, 0, 0o100644, 0⟩

/-- Remove a symlink or one name of a file; the content goes with the last name. -/
def unlink : Int × RamfsBackend :=
  if b.symlinks.contains path then (0, { b with symlinks := b.symlinks.erase path })
  else
    match b.paths.get? path with
    | none => (-ENOENT, b)
    | some id =>
      let remaining := (b.refcount.get? id).elim 0 (fun c => c - 1)
      let b := { b with paths := b.paths.erase path }
      if remaining = 0 then
        (0, { b with inodes := b.inodes.erase id, refcount := b.refcount.erase id })
      else (0, { b with refcount := b.refcount.insert id remaining })

/-- The path is a file, a symlink or a directory. -/
def occupied : Bool := b.paths.contains path || b.symlinks.contains path || b.dirInodes.contains path

def link (target linkPath : Bytes) : Int × RamfsBackend :=
  match b.paths.get? target with
  | none => (-ENOENT, b)
  | some id =>
    if b.occupied linkPath then (-EEXIST, b)
    else
      (0, { b with
          paths := b.paths.insert linkPath id
          refcount := b.refcount.insert id (satAdd ((b.refcount.get? id).getD 0) 1) })

def symlink (target linkPath : Bytes) : Int × RamfsBackend :=
  if b.paths.contains linkPath || b.symlinks.contains linkPath then (-EEXIST, b)
  else (0, { b with symlinks := b.symlinks.insert linkPath target })

def readlink : Option Bytes := b.symlinks.get? path

/-! ### Directories -/

def entryType : Nat :=
  if path = rootPath || b.dirInodes.contains path then directoryType
  else if b.symlinks.contains path then symlinkType
  else if b.paths.contains path then regularType
  else unknownType

def dirInode : Option Inode := b.dirInodes.get? path

def dirPath : Option Bytes := b.dirPaths.get? inode

/-- One component under a live directory inode; symlinks carry no inode. -/
def resolveAt (dirInode : Inode) (name : Bytes) : Option (Option Inode × Nat) :=
  match b.dirPaths.get? dirInode with
  | none => none
  | some base =>
    let child := childPath base name
    match b.entryType child with
    | 3 => some (b.dirInodes.get? child, directoryType)
    | 4 => some (b.paths.get? child, regularType)
    | 7 => some (none, symlinkType)
    | _ => none

/-- Every path the backend tracks. -/
def tracked : List Bytes := b.paths.keys ++ b.symlinks.keys ++ b.dirInodes.keys

/-- Tracked paths directly under `path`. -/
def children : List Bytes := b.tracked.filter (fun p => p ≠ path ∧ parentOf p = path)

def mkdir : Int × RamfsBackend :=
  if b.occupied path then (-EEXIST, b)
  else if !b.dirInodes.contains (parentOf path) then (-ENOENT, b)
  else
    (0, { b with
        nextId := b.nextId + 1
        dirInodes := b.dirInodes.insert path b.nextId
        dirPaths := b.dirPaths.insert b.nextId path })

def rmdir : Int × RamfsBackend :=
  if path = rootPath then (-EBUSY, b)
  else
    match b.dirInodes.get? path with
    | none => (-ENOENT, b)
    | some id =>
      if !(b.children path).isEmpty then (-ENOTEMPTY, b)
      else (0, { b with dirInodes := b.dirInodes.erase path, dirPaths := b.dirPaths.erase id })

def readdir : Option (List Bytes) :=
  if path = rootPath || b.dirInodes.contains path then
    some (sortDedup ((b.children path).map basename))
  else none

/-! ### Rename -/

inductive SourceKind where | file | symlink | directory
  deriving DecidableEq

def sourceKind : Option SourceKind :=
  if b.paths.contains path then some .file
  else if b.symlinks.contains path then some .symlink
  else if b.dirInodes.contains path then some .directory
  else none

/-- `k` is `old` or below it. -/
def inSubtree (old k : Bytes) : Bool := k = old || (old ++ [slash]).isPrefixOf k

/-- Key of a moved entry. -/
def remap (old new k : Bytes) : Bytes := new ++ k.drop old.length

/-- Move every key of a subtree, one after the other. -/
def rekey {V : Type} (old new : Bytes) (m : SortedMap Bytes V) : SortedMap Bytes V :=
  (m.toList.filter (fun e => inSubtree old e.1)).foldl
    (fun m e => (m.erase e.1).insert (remap old new e.1) e.2) m

/-- New path of every directory inode of a moved subtree. -/
def repath (old new : Bytes) (dirInodes : SortedMap Bytes Inode) (m : SortedMap Inode Bytes) :
    SortedMap Inode Bytes :=
  (dirInodes.toList.filter (fun e => inSubtree old e.1)).foldl
    (fun m e => m.insert e.2 (remap old new e.1)) m

/-- Clear a destination that is a file or a symlink. -/
def clearDestination : RamfsBackend :=
  if b.paths.contains path then (b.unlink path).2
  else if b.symlinks.contains path then { b with symlinks := b.symlinks.erase path }
  else b

/-- Move one name, or a whole subtree; inode ids stay. -/
def move (kind : SourceKind) (old new : Bytes) : RamfsBackend :=
  match kind with
  | .file =>
    match b.paths.get? old with
    | some id => { b with paths := (b.paths.erase old).insert new id }
    | none => b
  | .symlink =>
    match b.symlinks.get? old with
    | some target => { b with symlinks := (b.symlinks.erase old).insert new target }
    | none => b
  | .directory =>
    { b with
      paths := rekey old new b.paths
      symlinks := rekey old new b.symlinks
      dirInodes := rekey old new b.dirInodes
      dirPaths := repath old new b.dirInodes b.dirPaths }

def rename (old new : Bytes) : Int × RamfsBackend :=
  if old = new then (0, b)
  else if old = rootPath then (-EBUSY, b)
  else
    match b.sourceKind old with
    | none => (-ENOENT, b)
    | some kind =>
      if kind = .directory ∧ (old ++ [slash]).isPrefixOf new then (-EINVAL, b)
      else if !b.dirInodes.contains (parentOf new) then (-ENOENT, b)
      else if b.dirInodes.contains new then (-EEXIST, b)
      else if kind = .directory ∧ (b.paths.contains new ∨ b.symlinks.contains new) then (-ENOTDIR, b)
      else (0, (b.clearDestination new).move kind old new)

end RamfsBackend
end Yurt
