import YurtKernel.Dispatch.FsAt
import YurtKernel.Dispatch.Socket

/-! The calls of a kernel as data, and what one of them does to the state.

    `SysCall` is what a process asks for, `KernelCall` adds what the host does to the process table.
    Runs of the kernel are lists of `KernelCall`. -/

namespace Yurt
variable {σ : Type}

inductive SysCall where
  | path (call : PathCall)
  | close (request : Bytes)
  | dup (request : Bytes)
  | dup2 (request : Bytes)
  | dup3 (request : Bytes)
  | dupMin (request : Bytes)
  | pipe (cap : Nat)
  | read (request : Bytes) (cap : Nat)
  | write (request : Bytes)
  | pread (request : Bytes) (cap : Nat)
  | pwrite (request : Bytes)
  | lseek (request : Bytes) (cap : Nat)
  | setFdFlags (request : Bytes)
  | getFdFlags (request : Bytes)
  | setStatusFlags (request : Bytes)
  | getStatusFlags (request : Bytes)
  | fchdir (request : Bytes)
  | getcwd (cap : Nat)
  | ftruncate (request : Bytes)
  | fchown (request : Bytes)
  | flock (request : Bytes)
  | socketOpen (request : Bytes)
  | bind (request : Bytes)
  | listen (request : Bytes)
  | accept (request : Bytes)
  | connect (request : Bytes)
  | socketpair (request : Bytes) (cap : Nat)
  | shutdown (request : Bytes)
  | socketClose (request : Bytes)
  | send (request : Bytes)
  | recv (request : Bytes) (cap : Nat)
  | sendto (request : Bytes)
  | recvfrom (request : Bytes) (cap : Nat)
  | sendmsg (request : Bytes)
  | recvmsg (request : Bytes) (cap : Nat)
  | wait (request : Bytes) (cap : Nat)
  deriving DecidableEq

/-- Run a call of process `pid`. -/
def SysCall.run (kh : Kh σ) (k : Kernel σ) (pid : Pid) : SysCall → Reply × Kernel σ
  | .path call => call.run kh k pid
  | .close request => onlyCode (k.closeFd kh pid request)
  | .dup request => onlyCode (k.dupFd kh pid request)
  | .dup2 request => onlyCode (k.dup2Fd kh pid request)
  | .dup3 request => onlyCode (k.dup3Fd kh pid request)
  | .dupMin request => onlyCode (k.dupMinFd pid request)
  | .pipe cap => k.pipe pid cap
  | .read request cap => k.readFd kh pid request cap
  | .write request => onlyCode (k.writeFd kh pid request)
  | .pread request cap => k.preadFd kh pid request cap
  | .pwrite request => onlyCode (k.pwriteFd kh pid request)
  | .lseek request cap => k.lseek pid request cap
  | .setFdFlags request => onlyCode (k.setFdDescriptorFlags pid request)
  | .getFdFlags request => onlyCode (k.getFdDescriptorFlags pid request)
  | .setStatusFlags request => onlyCode (k.setFileStatusFlags pid request)
  | .getStatusFlags request => onlyCode (k.getFileStatusFlags pid request)
  | .fchdir request => onlyCode (k.fchdir pid request)
  | .getcwd cap => k.getcwd pid cap
  | .ftruncate request => onlyCode (k.sysFtruncate pid request)
  | .fchown request => onlyCode (k.fchown pid request)
  | .flock request => onlyCode (k.sysFlock pid request)
  | .socketOpen request => onlyCode (k.sysSocketOpen kh pid request)
  | .bind request => onlyCode (k.sysSocketBind pid request)
  | .listen request => onlyCode (k.sysSocketListen kh pid request)
  | .accept request => onlyCode (k.sysSocketAccept kh pid request)
  | .connect request => onlyCode (k.sysSocketConnect kh pid request)
  | .socketpair request cap => k.sysSocketpair kh pid request cap
  | .shutdown request => onlyCode (k.sysSocketShutdown pid request)
  | .socketClose request => onlyCode (k.sysSocketClose kh pid request)
  | .send request => onlyCode (k.sysSocketSend kh pid request)
  | .recv request cap => k.sysSocketRecv kh pid request cap
  | .sendto request => onlyCode (k.sysSocketSendto pid request)
  | .recvfrom request cap => k.sysSocketRecvfrom pid request cap
  | .sendmsg request => onlyCode (k.sysSocketSendmsg pid request)
  | .recvmsg request cap => k.sysSocketRecvmsg kh pid request cap
  | .wait request cap => k.waitResponse pid request cap

inductive KernelCall where
  | sys (pid : Pid) (call : SysCall)
  | prepareFork (parentPid : Pid)
  | commitFork (parentPid childPid : Pid)
  | rollbackFork (parentPid childPid : Pid)
  | insertHostProcess (pid parentPid : Pid) (argv : List Bytes) (handle : Option Int)
  | spawnCached (parentPid : Pid) (moduleId argvRequest : Bytes)
  | recordExit (request : Bytes)
  deriving DecidableEq

/-- State after a call, whatever it returned. -/
def KernelCall.step (kh : Kh σ) (k : Kernel σ) : KernelCall → Kernel σ
  | .sys pid call => (call.run kh k pid).2
  | .prepareFork parentPid => (k.prepareFork parentPid).2
  | .commitFork parentPid childPid => (k.commitFork parentPid childPid).2
  | .rollbackFork parentPid childPid => (k.rollbackFork kh parentPid childPid).2
  | .insertHostProcess pid parentPid argv handle => k.insertHostProcess pid parentPid argv handle
  | .spawnCached parentPid moduleId argvRequest =>
    (k.spawnCachedProcess kh parentPid moduleId argvRequest).2
  | .recordExit request => (k.recordExit request).2

end Yurt
