import YurtKernel.Vfs.Overlay

/-! The mount table (`MountTable` in `vfs.rs`).

    A path belongs to the mount with the longest matching prefix, the later one of two equally long.
    The root mount sees the absolute path, another mount what follows its prefix, which is empty for
    the mount point itself. -/

namespace Yurt
variable {σ : Type} (t : MountTable) (kh : Kh σ) (h : σ) (path : Bytes)

/-! ### Trait methods of a mounted backend -/

namespace Backend

def size : Backend → Inode → Option Nat
  | .leaf b => b.size
  | .overlay b => b.size

def defaultMetadata : Backend → Inode → Option Metadata
  | .leaf b, inode => b.defaultMetadata inode
  | .overlay _, _ => none

def readlink : Backend → Bytes → Option Bytes
  | .leaf b, path => b.readlink path
  | .overlay _, _ => none

def entryType : Backend → Bytes → Nat
  | .leaf b => b.entryType
  | .overlay b => b.entryType

def readdir : Backend → Bytes → Option (List Bytes)
  | .leaf b => b.readdir
  | .overlay b => b.readdir

def dirInode : Backend → Bytes → Option Inode
  | .leaf b, path => b.dirInode path
  | .overlay _, _ => none

def dirPath : Backend → Inode → Option Bytes
  | .leaf b, inode => b.dirPath inode
  | .overlay _, _ => none

def resolveAt : Backend → Inode → Bytes → Option (Option Inode × Nat)
  | .leaf b, inode, name => b.resolveAt inode name
  | .overlay _, _, _ => none

def takeOpenError : Backend → Option Int × Backend
  | .leaf b =>
    let (e, b) := b.takeOpenError
    (e, .leaf b)
  | b => (none, b)

def refreshProcesses (snapshots : List ProcessSnapshot) : Backend → Backend
  | .leaf b => .leaf (b.refreshProcesses snapshots)
  | b => b

/-- Lift a method of a plain backend. -/
def onLeaf {ρ : Type} (r : ρ × Leaf × σ) : ρ × Backend × σ := (r.1, .leaf r.2.1, r.2.2)

/-- Lift a method of an overlay. -/
def onOverlay {ρ : Type} (r : ρ × OverlayBackend × σ) : ρ × Backend × σ := (r.1, .overlay r.2.1, r.2.2)

section
variable (kh : Kh σ) (h : σ)

def openPath : Backend → Bytes → Nat → Option Inode × Backend × σ
  | .leaf b, path, flags => onLeaf (b.openPath kh h path flags)
  | .overlay b, path, flags => onOverlay (b.openPath kh h path flags)

def read : Backend → Inode → Nat → Nat → (Int × Bytes) × σ
  | .leaf b => b.read kh h
  | .overlay b => b.read kh h

def write : Backend → Inode → Nat → Bytes → Int × Backend × σ
  | .leaf b, inode, offset, payload => onLeaf (b.write kh h inode offset payload)
  | .overlay b, inode, offset, payload => onOverlay (b.write kh h inode offset payload)

def truncate : Backend → Inode → Backend
  | .leaf b, inode => .leaf (b.truncate inode)
  | .overlay b, inode => .overlay (b.truncate inode)

def setLen : Backend → Inode → Nat → Int × Backend
  | .leaf b, inode, length =>
    let (rc, b) := b.setLen inode length
    (rc, .leaf b)
  | .overlay b, inode, length =>
    let (rc, b) := b.setLen inode length
    (rc, .overlay b)

def unlink : Backend → Bytes → Int × Backend × σ
  | .leaf b, path => onLeaf (b.unlink kh h path)
  | .overlay b, path => onOverlay (b.unlink kh h path)

def symlink : Backend → Bytes → Bytes → Int × Backend × σ
  | .leaf b, target, path => onLeaf (b.symlink kh h target path)
  | b, _, _ => (-EROFS, b, h)

def mkdir : Backend → Bytes → Int × Backend × σ
  | .leaf b, path => onLeaf (b.mkdir kh h path)
  | b, _ => (-EROFS, b, h)

def rmdir : Backend → Bytes → Int × Backend
  | .leaf b, path =>
    let (rc, b) := b.rmdir path
    (rc, .leaf b)
  | b, _ => (-EROFS, b)

def link : Backend → Bytes → Bytes → Int × Backend × σ
  | .leaf b, target, path =>
    let (rc, b) := b.link target path
    (rc, .leaf b, h)
  | .overlay b, target, path => onOverlay (b.link kh h target path)

def rename : Backend → Bytes → Bytes → Int × Backend × σ
  | .leaf b, old, new => onLeaf (b.rename kh h old new)
  | .overlay b, old, new => onOverlay (b.rename kh h old new)

end

end Backend

/-- Absolute path of a mount-relative one. -/
def composeMountAbspath (pfx rel : Bytes) : Bytes :=
  if pfx = rootPath then (if rel.isEmpty then rootPath else rel)
  else if rel = rootPath || rel.isEmpty then pfx
  else if rel.head? = some slash then pfx ++ rel
  else pfx ++ slash :: rel

namespace MountTable

/-! ### Routing -/

/-- The mount takes the path: its prefix matches up to a component boundary. -/
def claims (pfx path : Bytes) : Bool := pfx.isPrefixOf path &&
    (pfx = rootPath || (path.drop pfx.length).isEmpty || (path.drop pfx.length).head? = some slash)

/-- Index of the owner among `mounts`, counting from `i`; `best` is the owner so far. -/
def owner (path : Bytes) : List Mount → Nat → Option (Nat × Nat) → Option Nat
  | [], _, best => best.map Prod.fst
  | m :: ms, i, best =>
    if claims m.pfx path && (best.elim 0 Prod.snd) ≤ m.pfx.length then
      owner path ms (i + 1) (some (i, m.pfx.length))
    else owner path ms (i + 1) best

/-- Path below a mount. -/
def relative (pfx path : Bytes) : Bytes := if pfx = rootPath then path else path.drop pfx.length

/-- `resolve`: the owning mount and the path below it. -/
def resolve : Option (MountId × Mount × Bytes) :=
  match owner path t.mounts 0 none with
  | none => none
  | some id => (t.mounts[id]?).map (fun m => (id, m, relative m.pfx path))

/-- Put a backend back. -/
def setBackend (id : MountId) (b : Backend) : MountTable :=
  ⟨t.mounts.modify id (fun m => { m with backend := b })⟩

def mountOf : Option MountId := (t.resolve path).map Prod.fst

/-! ### Queries -/

def dirInodeAt : Option (MountId × Inode) :=
  match t.resolve path with
  | none => none
  | some (id, m, rel) => (m.backend.dirInode rel).map (fun ino => (id, ino))

/-- A mount id that is out of range would abort the kernel; ids come from the table itself. -/
def backend? (id : MountId) : Option Backend := (t.mounts[id]?).map Mount.backend

def resolveAtIn (id : MountId) (inode : Inode) (name : Bytes) : Option (Option Inode × Nat) :=
  (t.backend? id).bind (fun b => b.resolveAt inode name)

/-- Absolute path of a live directory inode. -/
def dirAbspathIn (id : MountId) (inode : Inode) : Option Bytes :=
  match t.mounts[id]? with
  | none => none
  | some m => (m.backend.dirPath inode).map (composeMountAbspath m.pfx)

section
variable (t : MountTable) (path : Bytes)

def size (id : MountId) (inode : Inode) : Option Nat := (t.backend? id).bind (fun b => b.size inode)

def defaultMetadata (id : MountId) (inode : Inode) : Option Metadata :=
  (t.backend? id).bind (fun b => b.defaultMetadata inode)

def readlink : Option Bytes :=
  match t.resolve path with
  | none => none
  | some (_, m, rel) => m.backend.readlink rel

def readdir : Option (List Bytes) :=
  match t.resolve path with
  | none => none
  | some (_, m, rel) => m.backend.readdir rel

def entryType : Nat :=
  match t.resolve path with
  | none => unknownType
  | some (_, m, rel) => m.backend.entryType rel

/-! ### Content -/

def openPath (kh : Kh σ) (h : σ) (t : MountTable) (path : Bytes) (flags : Nat) :
    Option (MountId × Inode) × MountTable × σ :=
  match t.resolve path with
  | none => (none, t, h)
  | some (id, m, rel) =>
    let (inode, b, h) := m.backend.openPath kh h rel flags
    (inode.map (fun i => (id, i)), t.setBackend id b, h)

/-- `open` with the reason of a failure. -/
def openResult (flags : Nat) : Except Int (MountId × Inode) × MountTable × σ :=
  match t.resolve path with
  | none => (.error ENOENT, t, h)
  | some (id, m, rel) =>
    match m.backend.openPath kh h rel flags with
    | (some inode, b, h) => (.ok (id, inode), t.setBackend id b, h)
    | (none, b, h) =>
      let (e, b) := b.takeOpenError
      (.error (e.getD ENOENT), t.setBackend id b, h)

def read (kh : Kh σ) (h : σ) (t : MountTable) (id : MountId) (inode : Inode) (offset cap : Nat) :
    (Int × Bytes) × σ :=
  match t.backend? id with
  | none => ((-EBADF, []), h)
  | some b => b.read kh h inode offset cap

def write (kh : Kh σ) (h : σ) (t : MountTable) (id : MountId) (inode : Inode) (offset : Nat)
    (payload : Bytes) : Int × MountTable × σ :=
  match t.backend? id with
  | none => (-EBADF, t, h)
  | some b =>
    let (rc, b, h) := b.write kh h inode offset payload
    (rc, t.setBackend id b, h)

def truncate (id : MountId) (inode : Inode) : MountTable :=
  match t.backend? id with
  | none => t
  | some b => t.setBackend id (b.truncate inode)

def setLen (id : MountId) (inode : Inode) (length : Nat) : Int × MountTable :=
  match t.backend? id with
  | none => (-EBADF, t)
  | some b =>
    let (rc, b) := b.setLen inode length
    (rc, t.setBackend id b)

end

/-! ### Names -/

/-- Run a method of the backend that owns `path` on the path below the mount. -/
def onOwner (f : Backend → Bytes → Int × Backend × σ) : Int × MountTable × σ :=
  match t.resolve path with
  | none => (-ENOENT, t, h)
  | some (id, m, rel) =>
    let (rc, b, h) := f m.backend rel
    (rc, t.setBackend id b, h)

def unlink (kh : Kh σ) (h : σ) (t : MountTable) (path : Bytes) : Int × MountTable × σ :=
  t.onOwner h path (Backend.unlink kh h)

def symlink (kh : Kh σ) (h : σ) (t : MountTable) (target path : Bytes) : Int × MountTable × σ :=
  t.onOwner h path (fun b rel => b.symlink kh h target rel)

def mkdir (kh : Kh σ) (h : σ) (t : MountTable) (path : Bytes) : Int × MountTable × σ :=
  t.onOwner h path (Backend.mkdir kh h)

def rmdir (h : σ) (t : MountTable) (path : Bytes) : Int × MountTable × σ :=
  t.onOwner h path (fun b rel => ((b.rmdir rel).1, (b.rmdir rel).2, h))

/-- Run a method on two paths of one mount. -/
def onBoth (first second : Bytes)
    (f : Backend → Bytes → Bytes → Int × Backend × σ) : Int × MountTable × σ :=
  match t.resolve first, t.resolve second with
  | some (id, m, rel), some (id', _, rel') =>
    if id ≠ id' then (-EXDEV, t, h)
    else
      let (rc, b, h) := f m.backend rel rel'
      (rc, t.setBackend id b, h)
  | _, _ => (-ENOENT, t, h)

def link (kh : Kh σ) (h : σ) (t : MountTable) (target path : Bytes) : Int × MountTable × σ :=
  t.onBoth h target path (Backend.link kh h)

def rename (kh : Kh σ) (h : σ) (t : MountTable) (old new : Bytes) : Int × MountTable × σ :=
  t.onBoth h old new (Backend.rename kh h)

def refreshProcesses (t : MountTable) (snapshots : List ProcessSnapshot) : MountTable :=
  ⟨t.mounts.map (fun m => { m with backend := m.backend.refreshProcesses snapshots })⟩

end MountTable
end Yurt
