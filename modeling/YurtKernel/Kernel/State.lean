import YurtKernel.Vfs.Types

/-! Kernel state (`kernel.rs`, `state.rs`, `abi.rs`).

    One record per process, and registries for pipes, open file descriptions and sockets that fd
    entries name by id. `σ` is the state of the host behind the `kh_*` imports: the kernel carries it
    along and only the calls that reach the host read or change it. -/

namespace Yurt

abbrev Pid := Nat
abbrev Tid := Nat

/-! ### Error numbers -/

def EPERM : Int := 1
def ENOENT : Int := 2
def ESRCH : Int := 3
def EIO : Int := 5
def E2BIG : Int := 7
def EBADF : Int := 9
def ECHILD : Int := 10
def EAGAIN : Int := 11
def EACCES : Int := 13
def EBUSY : Int := 16
def EEXIST : Int := 17
def EXDEV : Int := 18
def ENOTDIR : Int := 20
def EISDIR : Int := 21
def EINVAL : Int := 22
def EMFILE : Int := 24
def EFBIG : Int := 27
def ESPIPE : Int := 29
def EROFS : Int := 30
def EPIPE : Int := 32
def EDEADLK : Int := 35
def ENOSYS : Int := 38
def ENOTEMPTY : Int := 39
def ELOOP : Int := 40
def ENOTSOCK : Int := 88
def EPROTOTYPE : Int := 91
def EOPNOTSUPP : Int := 95
def EAFNOSUPPORT : Int := 97
def EADDRINUSE : Int := 98
def ENOTCONN : Int := 107
def ECONNREFUSED : Int := 111

/-! ### Constants -/

def u32Max : Nat := 2 ^ 32 - 1
def u64Max : Nat := 2 ^ 64 - 1
def mainThreadTid : Tid := 1
def firstWorkerTid : Tid := 2
def maxGuestThreadId : Tid := 2 ^ 31 - 1
def kernelBufferCap : Nat := 64 * 1024
def kernelRightsQueueCap : Nat := 1024
def kernelRtSignalQueueCap : Nat := 1024
def rlimitNofile : Fin 8 := 7

/-- `u32::saturating_add`. -/
def satAdd (a b : Nat) : Nat := min (a + b) u32Max

/-! ### Threads -/

inductive ThreadState where | runnable | blocked | exited
  deriving DecidableEq

inductive WaitReason where
  | hostBlock
  | threadJoin (targetTid : Tid)
  deriving DecidableEq

structure ThreadRecord where
  tid : Tid
  state : ThreadState
  detached : Bool
  exitValue : Option Nat
  hostThreadHandle : Option Int
  waitReason : Option WaitReason
  waiterTid : Option Tid
  cancelRequested : Bool
  deriving DecidableEq

/-- A fresh runnable thread. -/
def ThreadRecord.fresh (tid : Tid) (handle : Option Int) : ThreadRecord where
  tid := tid
  state := .runnable
  detached := false
  exitValue := none
  hostThreadHandle := handle
  waitReason := none
  waiterTid := none
  cancelRequested := false

def ThreadRecord.main (handle : Option Int) : ThreadRecord := .fresh mainThreadTid handle

/-! ### File descriptors -/

inductive PipeEnd where | read | write
  deriving DecidableEq

inductive FdEntry where
  | stdin
  | stdout
  | stderr
  | pipe (id : Nat) (side : PipeEnd)
  | file (ofdId : Nat)
  | directory (mountId : MountId) (dirInode : Option Inode) (path : Bytes)
  | socket (id : Nat)
  deriving DecidableEq

structure FdTable where
  entries : SortedMap Nat FdEntry
  descriptorFlags : SortedMap Nat Nat
  deriving DecidableEq

/-- Default table: the three standard streams on 0, 1 and 2. -/
def FdTable.new : FdTable where
  entries := ((SortedMap.empty.insert 0 .stdin).insert 1 .stdout).insert 2 .stderr
  descriptorFlags := .empty

/-! ### Processes -/

structure Credentials where
  uid : Nat
  euid : Nat
  suid : Nat
  gid : Nat
  egid : Nat
  sgid : Nat
  deriving DecidableEq

def Credentials.default : Credentials := ⟨1000, 1000, 1000, 1000, 1000, 1000⟩

structure RtSignal where
  signo : Nat
  value : Int
  senderPid : Pid
  deriving DecidableEq

/-- Working directory: inode-anchored when `dirInode` is set, a path snapshot otherwise. -/
structure Cwd where
  mountId : MountId
  dirInode : Option Inode
  path : Bytes
  deriving DecidableEq

inductive ProcessForkState where
  | running
  | forkPreparing (parentPid : Pid)
  deriving DecidableEq

abbrev ResourceLimit := Nat × Nat

def defaultRlimits : Fin 8 → Option ResourceLimit
  | 0 => some (u64Max, u64Max)
  | 1 => some (u64Max, u64Max)
  | 2 => some (64 * 1024 * 1024, 64 * 1024 * 1024)
  | 3 => some (1024 * 1024, 1024 * 1024)
  | 4 => some (0, 0)
  | 5 => some (64 * 1024 * 1024, 64 * 1024 * 1024)
  | 6 => some (1024, 1024)
  | 7 => some (1024, 1024)

structure Process where
  umask : Nat
  credentials : Credentials
  cwd : Cwd
  rlimits : Fin 8 → Option ResourceLimit
  fdTable : FdTable
  stdinBuffer : Bytes
  stdinEof : Bool
  stdoutBuffer : Bytes
  stderrBuffer : Bytes
  nice : Int
  schedulerPolicy : Int
  schedulerPriority : Int
  pgid : Pid
  sid : Pid
  pendingSignals : Nat
  pendingRt : List RtSignal
  signalDispositions : Fin 64 → Nat
  yieldCount : Nat
  lastNanosleepNs : Nat
  argv : List Bytes
  comm : Bytes
  ppid : Pid
  hasControllingTty : Bool
  children : List Pid
  exitStatus : Option Int
  hostInstanceHandle : Option Int
  threads : SortedMap Tid ThreadRecord
  nextTid : Tid
  forkState : ProcessForkState
  deriving DecidableEq

def Process.default : Process where
  umask := 18
  credentials := .default
  cwd := ⟨rootMount, none, ascii ['/']⟩
  rlimits := defaultRlimits
  fdTable := .new
  stdinBuffer := []
  stdinEof := false
  stdoutBuffer := []
  stderrBuffer := []
  nice := 0
  schedulerPolicy := 0
  schedulerPriority := 0
  pgid := 0
  sid := 0
  pendingSignals := 0
  pendingRt := []
  signalDispositions := fun _ => 0
  yieldCount := 0
  lastNanosleepNs := 0
  argv := []
  comm := List.replicate 16 0
  ppid := 0
  hasControllingTty := false
  children := []
  exitStatus := none
  hostInstanceHandle := none
  threads := .empty
  nextTid := 1
  forkState := .running

/-- Insert the main thread if it is missing, and keep worker ids above it. -/
def Process.ensureMainThread (p : Process) (handle : Option Int) : Process :=
  { p with
    threads := if p.threads.contains 1 then p.threads else p.threads.insert 1 (.main handle)
    nextTid := max p.nextTid 2 }

/-! ### Registries -/

structure PipeBuf where
  bytes : Bytes
  readEnds : Nat
  writeEnds : Nat
  deriving DecidableEq

structure OpenFileDescription where
  mountId : MountId
  inode : Inode
  offset : Nat
  refs : Nat
  writable : Bool
  statusFlags : Nat
  deriving DecidableEq

structure PeerCred where
  pid : Pid
  uid : Nat
  gid : Nat
  deriving DecidableEq

structure UnixDatagramPacket where
  data : Bytes
  sourcePath : Option Bytes
  deriving DecidableEq

inductive SocketKind where
  | opened (flags : Nat) (boundAddr : Option Bytes)
  | host (handle : Int)
  | unixListener (path : Bytes) (backlog : Nat) (pending : List Nat)
  | unixStream (peerId : Nat) (localPath peerPath : Option Bytes) (rx : Bytes)
      (rights : List (List FdEntry)) (peerOpen : Bool) (peerCred : PeerCred)
  | unixDatagram (peerId : Option Nat) (peerPath boundPath : Option Bytes)
      (rx : List UnixDatagramPacket) (rights : List (List FdEntry)) (peerOpen : Bool)
  deriving DecidableEq

structure SocketEntry where
  refs : Nat
  domain : Nat
  sockType : Nat
  noDelay : Bool
  kind : SocketKind
  deriving DecidableEq

inductive FlockState where
  | shared (holders : List Nat)
  | exclusive (owner : Nat)
  deriving DecidableEq

structure PendingSpawn where
  childPid : Pid
  wasm : Bytes
  argv : List Bytes
  deriving DecidableEq

/-! ### The kernel -/

structure Kernel (σ : Type) where
  processes : SortedMap Pid Process
  pipes : SortedMap Nat PipeBuf
  nextPipeId : Nat
  vfs : MountTable
  ofds : SortedMap Nat OpenFileDescription
  nextOfdId : Nat
  sockets : SortedMap Nat SocketEntry
  nextSocketId : Nat
  unixListeners : SortedMap Bytes Nat
  unixDatagrams : SortedMap Bytes Nat
  unixSocketInodes : SortedMap Bytes Unit
  socketShutdown : SortedMap Nat Nat
  metadataOverrides : SortedMap (MountId ×ₗ Inode) Metadata
  pendingSpawns : List PendingSpawn
  nextSpawnPid : Pid
  nextHostPid : Pid
  lastScheduled : Option (Pid × Tid)
  pendingThreadReleases : List Int
  ttyForegroundPgid : Pid
  flockLocks : SortedMap (MountId ×ₗ Inode) FlockState
  host : σ
  deriving DecidableEq

/-- The empty kernel: a ramfs root with `/dev` and `/proc` mounted. -/
def Kernel.new {σ : Type} (host : σ) : Kernel σ where
  processes := .empty
  pipes := .empty
  nextPipeId := 1
  vfs := ((MountTable.new (.leaf (.ramfs .new))).addMount (ascii ['/', 'd', 'e', 'v'])
    (.leaf .dev)).addMount (ascii ['/', 'p', 'r', 'o', 'c']) (.leaf (.proc .new))
  ofds := .empty
  nextOfdId := 1
  sockets := .empty
  nextSocketId := 1
  unixListeners := .empty
  unixDatagrams := .empty
  unixSocketInodes := .empty
  socketShutdown := .empty
  metadataOverrides := .empty
  pendingSpawns := []
  nextSpawnPid := 1000
  nextHostPid := 1
  lastScheduled := none
  pendingThreadReleases := []
  ttyForegroundPgid := 1
  flockLocks := .empty
  host := host

end Yurt
