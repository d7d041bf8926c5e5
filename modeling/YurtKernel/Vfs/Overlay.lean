import YurtKernel.Vfs.Backend

/-! Overlays (`OverlayBackend` in `vfs.rs`).

    An overlay answers from its upper layer first. External inode ids stand for an inode of one of
    the layers; a first writable open of a lower file copies it up; a removed path is whited out. -/

namespace Yurt
variable {σ : Type} (kh : Kh σ) (h : σ) (b : OverlayBackend) (path : Bytes)

namespace OverlayBackend

def new (lower upper : Leaf) : OverlayBackend := ⟨lower, upper, ⟨.empty, .empty, .empty, 1⟩⟩

def whitedOut : Bool := b.state.whiteouts.contains path

/-- Drop the cached id of a path. -/
def forget : OverlayBackend := { b with state := { b.state with paths := b.state.paths.erase path } }

/-- Hand out an external id for an inode of a layer and cache it under the path. -/
def register (layer : Layer) (inner : Inode) : Option Inode × OverlayBackend :=
  (some b.state.nextId, { b with state := { b.state with
        nextId := b.state.nextId + 1
        layered := b.state.layered.insert b.state.nextId (layer, inner)
        paths := b.state.paths.insert path b.state.nextId } })

/-! ### Queries -/

section
variable (kh : Kh σ) (h : σ) (b : OverlayBackend)

def size (inode : Inode) : Option Nat :=
  match b.state.layered.get? inode with
  | some (.upper, inner) => b.upper.size inner
  | some (.lower, inner) => b.lower.size inner
  | none => none

def entryType (path : Bytes) : Nat :=
  if b.whitedOut path then unknownType
  else if b.upper.entryType path ≠ unknownType then b.upper.entryType path
  else b.lower.entryType path

/-- Union of the layers without the whited-out children. -/
def readdir (path : Bytes) : Option (List Bytes) :=
  match b.upper.readdir path, b.lower.readdir path with
  | none, none => none
  | us, ls =>
    some (sortDedup ((us.getD [] ++ ls.getD []).filter
      (fun name => !b.whitedOut (TarLayerBackend.below path ++ name))))

def read (inode : Inode) (offset cap : Nat) : (Int × Bytes) × σ :=
  match b.state.layered.get? inode with
  | some (.upper, inner) => b.upper.read kh h inner offset cap
  | some (.lower, inner) => b.lower.read kh h inner offset cap
  | none => ((-EBADF, []), h)

/-! ### Content -/

def write (inode : Inode) (offset : Nat) (payload : Bytes) : Int × OverlayBackend × σ :=
  match b.state.layered.get? inode with
  | some (.upper, inner) =>
    let (rc, upper, h) := b.upper.write kh h inner offset payload
    (rc, { b with upper := upper }, h)
  | _ => (-EBADF, b, h)

def truncate (inode : Inode) : OverlayBackend :=
  match b.state.layered.get? inode with
  | some (.upper, inner) => { b with upper := b.upper.truncate inner }
  | _ => b

def setLen (inode : Inode) (length : Nat) : Int × OverlayBackend :=
  match b.state.layered.get? inode with
  | some (.upper, inner) =>
    let (rc, upper) := b.upper.setLen inner length
    (rc, { b with upper := upper })
  | some (.lower, _) => (-EROFS, b)
  | none => (-EBADF, b)

end

/-- Whole content behind an inode, as the copying operations read it into a zeroed buffer. -/
def slurp (size : Option Nat) (read : σ → Nat → (Int × Bytes) × σ) : (Int × Bytes) × σ :=
  let len := size.getD 0
  if len > 0 then
    let ((n, bytes), h) := read h len
    ((n, (bytes ++ List.replicate len 0).take n.toNat), h)
  else ((0, []), h)

/-- `copy_up`: the lower content becomes a file of the upper layer. -/
def copyUp : Option Inode × OverlayBackend × σ :=
  match b.lower.openPath kh h path 0 with
  | (none, lower, h) => (none, { b with lower := lower }, h)
  | (some inner, lower, h) =>
    let b := { b with lower := lower }
    let ((n, content), h) := slurp h (lower.size inner) (fun h len => lower.read kh h inner 0 len)
    if n < 0 then (none, b, h)
    else
      match b.upper.openPath kh h path 0b011 with
      | (none, upper, h) => (none, { b with upper := upper }, h)
      | (some inner, upper, h) =>
        let (rc, upper, h) := (upper.truncate inner).write kh h inner 0 content
        (if rc < 0 then none else some inner, { b with upper := upper }, h)

/-- The whiteout of a path is lifted by a creating open and refuses any other. -/
def liftWhiteout : OverlayBackend :=
  if b.whitedOut path then
    { b with state := { b.state with
        whiteouts := b.state.whiteouts.erase path
        paths := b.state.paths.erase path } }
  else b

/-- Cached id that serves an open: a writable one needs the upper layer. -/
def cached (writable : Bool) : Option Inode :=
  match b.state.paths.get? path with
  | none => none
  | some id =>
    match b.state.layered.get? id with
    | some (.upper, _) => some id
    | _ => if writable then none else some id

/-- Open a path the cache does not serve: the upper layer, then the lower one, then a new file. -/
def openLayers (flags : Nat) : Option Inode × OverlayBackend × σ :=
  match b.upper.openPath kh h path flags with
  | (some inner, upper, h) =>
    let (id, b) := { b with upper := upper }.register path .upper inner
    (id, b, h)
  | (none, upper, h) =>
    let b := { b with upper := upper }
    match b.lower.openPath kh h path 0 with
    | (some inner, lower, h) =>
      let b := { b with lower := lower }
      if flags.testBit 0 then
        match b.copyUp kh h path with
        | (none, b, h) => (none, b, h)
        | (some inner, b, h) =>
          let (id, b) := b.register path .upper inner
          (id, b, h)
      else
        let (id, b) := b.register path .lower inner
        (id, b, h)
    | (none, lower, h) =>
      let b := { b with lower := lower }
      if flags.testBit 1 then
        match b.upper.openPath kh h path flags with
        | (none, upper, h) => (none, { b with upper := upper }, h)
        | (some inner, upper, h) =>
          let (id, b) := { b with upper := upper }.register path .upper inner
          (id, b, h)
      else (none, b, h)

def openPath (flags : Nat) : Option Inode × OverlayBackend × σ :=
  if b.whitedOut path && !flags.testBit 1 then (none, b, h)
  else
    let b := b.liftWhiteout path
    match b.cached path (flags.testBit 0) with
    | some id => (some id, b, h)
    | none => (b.forget path).openLayers kh h path flags

/-! ### Names -/

def unlink (kh : Kh σ) (h : σ) (b : OverlayBackend) (path : Bytes) : Int × OverlayBackend × σ :=
  let b := b.forget path
  let (rc, upper, h) := b.upper.unlink kh h path
  let (probe, lower, h) := b.lower.openPath kh h path 0
  let b := { b with upper := upper, lower := lower }
  if rc = 0 ∨ probe.isSome then
    (0, { b with state := { b.state with whiteouts := b.state.whiteouts.insert path () } }, h)
  else (-ENOENT, b, h)

/-- Bring a lower-only link target up; the code is 0, or says why it cannot be. -/
def raiseTarget (target : Bytes) : Int × OverlayBackend × σ :=
  if b.upper.entryType target ∈ [directoryType, regularType, symlinkType] then (0, b, h)
  else if b.lower.entryType target ≠ regularType then (-EPERM, b, h)
  else
    match b.copyUp kh h target with
    | (none, b, h) => (- EIO, b, h)
    | (some _, b, h) => (0, b.forget target, h)

def link (kh : Kh σ) (h : σ) (b : OverlayBackend) (target path : Bytes) : Int × OverlayBackend × σ :=
  if b.whitedOut target then (-ENOENT, b, h)
  else if b.entryType target = unknownType then (-ENOENT, b, h)
  else if b.entryType path ≠ unknownType then (-EEXIST, b, h)
  else
    let (rc, b, h) := b.raiseTarget kh h target
    if rc ≠ 0 then (rc, b, h)
    else
      let (rc, upper) := b.upper.link target path
      let b := { b with upper := upper }
      if rc = 0 then
        (rc, { b with state := { b.state with whiteouts := b.state.whiteouts.erase path } }, h)
      else (rc, b, h)

/-- Remove what stands at the destination of a rename, if anything does. -/
def clearDestination : OverlayBackend × σ :=
  if b.entryType path ≠ unknownType then (b.unlink kh h path).2 else (b, h)

/-- Rename of a regular file: copy the bytes to the new name, then remove the old one. -/
def renameFile (old new : Bytes) : Int × OverlayBackend × σ :=
  match b.openPath kh h old 0 with
  | (none, b, h) => (-ENOENT, b, h)
  | (some source, b, h) =>
    let ((n, content), h) := slurp h (b.size source) (fun h len => b.read kh h source 0 len)
    if n < 0 then (n, b, h)
    else
      let (b, h) := b.clearDestination kh h new
      match b.openPath kh h new 0b011 with
      | (none, b, h) => (- EIO, b, h)
      | (some dest, b, h) =>
        let (w, b, h) := (b.truncate dest).write kh h dest 0 content
        if w < 0 then (w, b, h)
        else
          let (_, b, h) := b.unlink kh h old
          (0, b, h)

/-- `rename`. A symlink cannot be read back through the overlay, and directories do not move. -/
def rename (old new : Bytes) : Int × OverlayBackend × σ :=
  if b.whitedOut old then (-ENOENT, b, h)
  else if b.entryType old = unknownType then (-ENOENT, b, h)
  else if old = new then (0, b, h)
  else if b.entryType new = directoryType then (-EEXIST, b, h)
  else if b.entryType old = regularType then b.renameFile kh h old new
  else if b.entryType old = symlinkType then (-ENOENT, b, h)
  else (-EXDEV, b, h)

end OverlayBackend
end Yurt
