import YurtKernel.Vfs.MountTable
import YurtKernel.Kernel.Lifecycle

/-! Path resolution for process-relative paths (`path.rs`), and what `/proc` is told
    (`publish_proc_snapshots` in `kernel.rs`).

    `normalize` is lexical: working directory, `/proc/self`, `.` and `..`. `realpath` also follows
    symbolic links. A relative path starts at the caller's working directory, which is looked up by
    its inode when it has one, so a rename behind it is seen and a removal is an error. -/

namespace Yurt
variable {σ : Type} (k : Kernel σ) (vfs : MountTable) (pid : Pid) (path : Bytes)
variable {r : Except Int Bytes × Kernel σ} {P : Kernel σ → Prop} {ρ : Type}

def dotName : Bytes := ascii ['.']
def dotDotName : Bytes := ascii ['.', '.']

/-- `/proc` -/
def procPrefix : Bytes := ascii ['/', 'p', 'r', 'o', 'c']

/-- `/self` -/
def selfSuffix : Bytes := ascii ['/', 's', 'e', 'l', 'f']

/-! ### Components -/

def isAbsolute : Bool := path.head? = some slash

/-- The nonempty pieces between slashes. -/
def splitComponents : List Bytes := (path.splitOn slash).filter (fun part => !part.isEmpty)

def joinComponents : List Bytes → Bytes
  | [] => rootPath
  | cs => cs.flatMap (fun c => slash :: c)

def absoluteFromCwd (cwd path : Bytes) : Bytes :=
  if isAbsolute path then path else childPath (if cwd.isEmpty then rootPath else cwd) path

/-- Paths with a NUL byte, or none at all, are refused. -/
def badPath : Bool := path.isEmpty || path.contains 0

/-- Take one more component into a lexical path. -/
def pushComponent (components : List Bytes) (c : Bytes) : List Bytes :=
  if c = dotName then components
  else if c = dotDotName then components.dropLast
  else components ++ [c]

def normalizeLexicalPath (cwd path : Bytes) : Except Int Bytes :=
  if badPath path then .error (-EINVAL)
  else .ok (joinComponents ((splitComponents (absoluteFromCwd cwd path)).foldl pushComponent []))

def appendRest (base : Bytes) (rest : List Bytes) : Bytes := rest.foldl childPath base

/-! ### `/proc` paths -/

/-- `/proc/self` and what is below it name the caller. -/
def procSelfRewrite : Bytes :=
  match ProcBackend.stripStart (procPrefix ++ selfSuffix) path with
  | some suffix =>
    if suffix.isEmpty || isAbsolute suffix then procPrefix ++ slash :: decimal pid ++ suffix else path
  | none => path

/-- The pid a path below `/proc` is about. -/
def procTargetPid : Option Pid :=
  (ProcBackend.stripStart (procPrefix ++ [slash]) path).bind (fun rest =>
    let first := rest.takeWhile (fun b => b ≠ slash)
    if first.isEmpty then none else parseU32 first)

/-! ### Going on with a path -/

/-- Go on with a resolved path, or report why there is none. -/
def onPath {ρ : Type} (fail : Int → ρ) (r : Except Int Bytes × Kernel σ)
    (f : Bytes → Kernel σ → ρ × Kernel σ) : ρ × Kernel σ :=
  match r with
  | (.error rc, k) => (fail rc, k)
  | (.ok path, k) => f path k

/-- From what holds after the resolution to what holds at the end. -/
theorem onPath_ends {Q : Kernel σ → Prop} {fail : Int → ρ} {f : Bytes → Kernel σ → ρ × Kernel σ}
    (hr : P r.2) (hfail : ∀ k, P k → Q k) (hf : ∀ path k, P k → Q (f path k).2) :
    Q (onPath fail r f).2 := by
  obtain ⟨rc | path, k⟩ := r
  · exact hfail k hr
  · exact hf path k hr

/-- What holds after the resolution and is kept by the continuation holds at the end. -/
theorem onPath_keeps {fail : Int → ρ} {f : Bytes → Kernel σ → ρ × Kernel σ} (hr : P r.2)
    (hf : ∀ path k, P k → P (f path k).2) : P (onPath fail r f).2 :=
  onPath_ends hr (fun _ h => h) hf

theorem ite_keeps {c : Prop} [Decidable c] {r r' : ρ × Kernel σ} (h : P r.2) (h' : P r'.2) :
    P (if c then r else r').2 := by
  by_cases hc : c
  · rwa [if_pos hc]
  · rwa [if_neg hc]

/-! ### The working directory -/

/-- Outcome of looking the working directory up. -/
inductive CwdRefresh where
  | anchored (abs : Bytes)
  | anchoredRemoved
  | degraded (cwd : Cwd)

/-- `refresh_anchored_cwd`: the path of the directory inode, also written back to the record. -/
def Kernel.refreshAnchoredCwd : CwdRefresh × Kernel σ :=
  let cwd := (k.process pid).cwd
  match cwd.dirInode with
  | none => (.degraded cwd, k.touch pid)
  | some inode =>
    match k.vfs.dirAbspathIn cwd.mountId inode with
    | none => (.anchoredRemoved, k.touch pid)
    | some abs => (.anchored abs, k.updProcess pid (fun p => { p with cwd := { p.cwd with path := abs } }))

/-- Base of relative paths. A `/` that has no inode yet gets one here. -/
def Kernel.resolvedCwd : Except Int Bytes × Kernel σ :=
  match k.refreshAnchoredCwd pid with
  | (.anchored abs, k) => (.ok abs, k)
  | (.anchoredRemoved, k) => (.error (-ENOENT), k)
  | (.degraded cwd, k) =>
    if cwd.path = rootPath then
      match k.vfs.dirInodeAt rootPath with
      | some (mountId, inode) =>
        (.ok cwd.path, k.updProcess pid (fun p =>
          { p with cwd := { p.cwd with mountId := mountId, dirInode := some inode } }))
      | none => (.ok cwd.path, k)
    else (.ok cwd.path, k)

/-- Where a path starts: at the root if it is absolute. -/
def Kernel.pathBase : Except Int Bytes × Kernel σ :=
  if isAbsolute path then (.ok rootPath, k) else k.resolvedCwd pid

/-- `PathResolver::normalize`. -/
def Kernel.normalize (rawPath : Bytes) : Except Int Bytes × Kernel σ :=
  onPath .error (k.pathBase pid (procSelfRewrite pid rawPath))
    (fun cwd k => (normalizeLexicalPath cwd (procSelfRewrite pid rawPath), k))

/-! ### Canonical paths -/

/-- Where the walk over the components of a path ends. -/
inductive Walk where
  | done (resolved : List Bytes)
  | failed (errno : Int)
  | link (resolved : List Bytes) (target : Bytes) (pending : List Bytes)

/-- Components up to the first symbolic link, the end or an error. -/
def MountTable.walk (vfs : MountTable) : List Bytes → List Bytes → Walk
  | resolved, [] => .done resolved
  | resolved, c :: pending =>
    if c = dotName then vfs.walk resolved pending
    else if c = dotDotName then vfs.walk resolved.dropLast pending
    else
      let candidate := joinComponents (resolved ++ [c])
      match vfs.readlink candidate with
      | some target => .link resolved target pending
      | none =>
        let ty := vfs.entryType candidate
        if ty = unknownType then .failed ENOENT
        else if !pending.isEmpty && ty ≠ directoryType then .failed ENOTDIR
        else vfs.walk (resolved ++ [c]) pending

/-- Where a link found below `resolved` leads. -/
def linkTarget (resolved : List Bytes) (target : Bytes) : Bytes :=
  if isAbsolute target then target else appendRest (joinComponents resolved) [target]

/-- The loop of `resolve_realpath`, with the number of links that may still be followed. After a
    link the walk starts again at the root. -/
def MountTable.follow (vfs : MountTable) : Nat → List Bytes → Except Int Bytes
  | hops, pending =>
    match vfs.walk [] pending with
    | .failed errno => .error errno
    | .done resolved =>
      if vfs.entryType (joinComponents resolved) = unknownType then .error ENOENT
      else .ok (joinComponents resolved)
    | .link resolved target rest =>
      match hops with
      | 0 => .error ELOOP
      | hops + 1 => vfs.follow hops (splitComponents (appendRest (linkTarget resolved target) rest))

def symloopMax : Nat := 40

def MountTable.resolveRealpath (cwd path : Bytes) : Except Int Bytes :=
  if badPath path then .error EINVAL
  else vfs.follow symloopMax (splitComponents (absoluteFromCwd cwd path))

/-- `PathResolver::realpath`; errors are positive here. -/
def Kernel.realpathOf (rawPath : Bytes) : Except Int Bytes × Kernel σ :=
  onPath (fun _ => .error ENOENT) (k.pathBase pid (procSelfRewrite pid rawPath))
    (fun cwd k => (k.vfs.resolveRealpath cwd (procSelfRewrite pid rawPath), k))

/-! ### Snapshots and metadata -/

/-- Directory `/proc/<pid>/cwd` shows: the live path of the inode, else the cached one. -/
def Process.liveCwd (p : Process) : Bytes :=
  match p.cwd.dirInode with
  | some inode => (vfs.dirAbspathIn p.cwd.mountId inode).getD p.cwd.path
  | none => p.cwd.path

/-- What `/proc` shows of a process. -/
def Process.snapshot (p : Process) : ProcessSnapshot where
  pid := pid
  ppid := p.ppid
  uid := p.credentials.uid
  euid := p.credentials.euid
  gid := p.credentials.gid
  egid := p.credentials.egid
  pgid := if p.pgid = 0 then pid else p.pgid
  sid := if p.sid = 0 then pid else p.sid
  argv := p.argv
  cwd := p.liveCwd vfs

/-- Snapshots of the processes that are past their fork, by pid. -/
def Kernel.procSnapshots : List ProcessSnapshot :=
  (k.processes.toList.filter (fun e => e.2.forkState = .running)).map
    (fun e => e.2.snapshot k.vfs e.1)

def Kernel.publishProcSnapshots : Kernel σ := { k with vfs := k.vfs.refreshProcesses k.procSnapshots }

/-- `resolve_metadata`: the override, else what the backend says, else a root-owned plain file. -/
def Kernel.resolveMetadata (mountId : MountId) (inode : Inode) : Metadata :=
  match k.metadataOverrides.get? (toLex (mountId, inode)) with
  | some metadata => metadata
  | none => (k.vfs.defaultMetadata mountId inode).getD ⟨0, 0, 0o100644, 0⟩

def Kernel.setMetadataOverride (mountId : MountId) (inode : Inode)
    (metadata : Metadata) : Kernel σ :=
  { k with metadataOverrides := k.metadataOverrides.insert (toLex (mountId, inode)) metadata }

end Yurt
