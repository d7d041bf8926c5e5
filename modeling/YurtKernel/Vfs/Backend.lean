import YurtKernel.Vfs.Proc

/-! The backend trait and host directories (`vfs.rs`).

    Each trait method is one function by cases over the plain backends, the trait's default being
    what a backend without an override answers. Methods that can reach the host thread its state
    through. -/

namespace Yurt
variable {σ : Type} (kh : Kh σ) (h : σ) (b : HostFsBackend) (inode : Inode)

/-! ### Host directories -/

namespace HostFsBackend

/-- Open once per path; the cached descriptor serves every later open. -/
def openPath (path : Bytes) (flags : Nat) : Option Inode × HostFsBackend × σ :=
  let b := { b with lastOpenError := none }
  match b.paths.get? path with
  | some inode => (some inode, b, h)
  | none =>
    let (fd, h) := kh.realOpen h path flags 0
    if fd < 0 then (none, { b with lastOpenError := some (-fd) }, h)
    else
      let (stat, h) := kh.realStatSize h path
      let size := match stat with
        | .ok n => some n
        | .error _ => none
      (some fd.toNat, { b with
          paths := b.paths.insert path fd.toNat
          fds := b.fds.insert fd.toNat ⟨0, false, size⟩ }, h)

def read (cap : Nat) : (Int × Bytes) × σ :=
  if b.fds.contains inode then kh.realRead h inode cap else ((-EBADF, []), h)

def write (payload : Bytes) : Int × σ :=
  if b.fds.contains inode then kh.realWrite h inode payload else (-EBADF, h)

def size (b : HostFsBackend) (inode : Inode) : Option Nat :=
  some (((b.fds.get? inode).bind HostFsHandle.size).getD 0)

def unlink (path : Bytes) : Int × HostFsBackend × σ :=
  let (rc, h) := kh.realUnlink h path
  (rc, { b with paths := b.paths.erase path }, h)

def rename (old new : Bytes) : Int × HostFsBackend × σ :=
  let paths := match b.paths.get? old with
    | some inode => (b.paths.erase old).insert new inode
    | none => b.paths.erase new
  let (rc, h) := kh.realRename h old new
  (rc, { b with paths := paths }, h)

end HostFsBackend

/-! ### Plain backends -/

namespace Leaf

def size : Leaf → Inode → Option Nat
  | .ramfs b, inode => b.size inode
  | .dev, inode => Dev.size inode
  | .proc b, inode => b.size inode
  | .hostFs b, inode => b.size inode
  | .tar b, inode => b.size inode

def defaultMetadata : Leaf → Inode → Option Metadata
  | .ramfs _, _ => some RamfsBackend.defaultMetadata
  | .tar b, inode => b.metadata.get? inode
  | _, _ => none

def readlink : Leaf → Bytes → Option Bytes
  | .ramfs b, path => b.readlink path
  | _, _ => none

def entryType : Leaf → Bytes → Nat
  | .ramfs b, path => b.entryType path
  | .proc b, path => b.entryType path
  | .tar b, path => b.entryType path
  | _, _ => unknownType

def readdir : Leaf → Bytes → Option (List Bytes)
  | .ramfs b, path => b.readdir path
  | .proc b, path => b.readdir path
  | .tar b, path => b.readdir path
  | _, _ => none

def dirInode : Leaf → Bytes → Option Inode
  | .ramfs b, path => b.dirInode path
  | .dev, path => Dev.dirInode path
  | .proc b, path => b.dirInode path
  | .hostFs _, _ => none
  | .tar b, path => b.dirInode path

def dirPath : Leaf → Inode → Option Bytes
  | .ramfs b, inode => b.dirPath inode
  | .dev, inode => Dev.dirPath inode
  | .proc b, inode => b.dirPath inode
  | .hostFs _, _ => none
  | .tar b, inode => b.dirPath inode

def resolveAt : Leaf → Inode → Bytes → Option (Option Inode × Nat)
  | .ramfs b, inode, name => b.resolveAt inode name
  | .dev, inode, name => Dev.resolveAt inode name
  | .proc b, inode, name => b.resolveAt inode name
  | .hostFs _, _, _ => none
  | .tar b, inode, name => b.resolveAt inode name

/-- `take_open_error`: only host directories keep one. -/
def takeOpenError : Leaf → Option Int × Leaf
  | .hostFs b => (b.lastOpenError, .hostFs { b with lastOpenError := none })
  | b => (none, b)

def refreshProcesses (snapshots : List ProcessSnapshot) : Leaf → Leaf
  | .proc b => .proc (b.refreshProcesses snapshots)
  | b => b

def openPath (kh : Kh σ) (h : σ) : Leaf → Bytes → Nat → Option Inode × Leaf × σ
  | .ramfs b, path, flags =>
    let (id, b) := b.openPath path flags
    (id, .ramfs b, h)
  | .dev, path, _ => (Dev.openPath path, .dev, h)
  | .proc b, path, _ => (b.openPath path, .proc b, h)
  | .hostFs b, path, flags =>
    let (id, b, h) := b.openPath kh h path flags
    (id, .hostFs b, h)
  | .tar b, path, flags => (b.openPath path flags, .tar b, h)

def read (kh : Kh σ) (h : σ) : Leaf → Inode → Nat → Nat → (Int × Bytes) × σ
  | .ramfs b, inode, offset, cap => (b.read inode offset cap, h)
  | .dev, inode, _, cap => Dev.read kh h inode cap
  | .proc b, inode, offset, cap => (b.read inode offset cap, h)
  | .hostFs b, inode, _, cap => b.read kh h inode cap
  | .tar b, inode, offset, cap => (b.read inode offset cap, h)

def write (kh : Kh σ) (h : σ) : Leaf → Inode → Nat → Bytes → Int × Leaf × σ
  | .ramfs b, inode, offset, payload =>
    let (rc, b) := b.write inode offset payload
    (rc, .ramfs b, h)
  | .dev, inode, _, payload => (Dev.write inode payload, .dev, h)
  | .hostFs b, inode, _, payload =>
    let (rc, h) := b.write kh h inode payload
    (rc, .hostFs b, h)
  | b, _, _, _ => (-EBADF, b, h)

def truncate : Leaf → Inode → Leaf
  | .ramfs b, inode => .ramfs (b.truncate inode)
  | b, _ => b

def setLen : Leaf → Inode → Nat → Int × Leaf
  | .ramfs b, inode, length =>
    let (rc, b) := b.setLen inode length
    (rc, .ramfs b)
  | b, _, _ => (-EROFS, b)

def unlink (kh : Kh σ) (h : σ) : Leaf → Bytes → Int × Leaf × σ
  | .ramfs b, path =>
    let (rc, b) := b.unlink path
    (rc, .ramfs b, h)
  | .hostFs b, path =>
    let (rc, b, h) := b.unlink kh h path
    (rc, .hostFs b, h)
  | b, _ => (-EROFS, b, h)

def symlink (kh : Kh σ) (h : σ) : Leaf → Bytes → Bytes → Int × Leaf × σ
  | .ramfs b, target, path =>
    let (rc, b) := b.symlink target path
    (rc, .ramfs b, h)
  | .hostFs b, target, path =>
    let (rc, h) := kh.realSymlink h target path
    (rc, .hostFs b, h)
  | b, _, _ => (-EROFS, b, h)

def mkdir (kh : Kh σ) (h : σ) : Leaf → Bytes → Int × Leaf × σ
  | .ramfs b, path =>
    let (rc, b) := b.mkdir path
    (rc, .ramfs b, h)
  | .hostFs b, path =>
    let (rc, h) := kh.realMkdir h path 0o755
    (rc, .hostFs b, h)
  | b, _ => (-EROFS, b, h)

def rmdir : Leaf → Bytes → Int × Leaf
  | .ramfs b, path =>
    let (rc, b) := b.rmdir path
    (rc, .ramfs b)
  | b, _ => (-EROFS, b)

def link : Leaf → Bytes → Bytes → Int × Leaf
  | .ramfs b, target, path =>
    let (rc, b) := b.link target path
    (rc, .ramfs b)
  | b, _, _ => (-EPERM, b)

def rename (kh : Kh σ) (h : σ) : Leaf → Bytes → Bytes → Int × Leaf × σ
  | .ramfs b, old, new =>
    let (rc, b) := b.rename old new
    (rc, .ramfs b, h)
  | .hostFs b, old, new =>
    let (rc, b, h) := b.rename kh h old new
    (rc, .hostFs b, h)
  | b, _, _ => (-EROFS, b, h)

end Leaf
end Yurt
