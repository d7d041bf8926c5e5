import YurtKernel.Dispatch.Objects
import YurtKernel.Dispatch.Works

/-! The object tables under the calls on paths, and under every call.

    Resolving a path publishes new snapshots below `/proc`, which is a method of the mount table, and
    touches no other table. What a call then does to the storage is one method after the other; `open`
    makes a description of a file the mount table has just found. -/

namespace Yurt
open Kernel
variable {σ : Type} {K : Rule σ} {k k' : Kernel σ} {pid : Pid} {request : Bytes}

/-- A rule holds of what a call leaves that makes and drops no object. -/
theorem Kernel.Under.works {kh : Kh σ} {L N : Prop} (h : k.Under K) (hlocks : L → K.locks)
    (hworks : k.Works kh L N k') : k'.Under K := by
  induction hworks with
  | refl => exact h
  | storage _ op host host' ih => exact ih.storage kh op host host'
  | modifyOfd _ id hf ih => exact K.modifyOfd _ id _ hf ih
  | setLocks _ hset l ih => exact K.setLocks (hlocks hset) _ l ih
  | dropName _ _ path ih => exact K.dropName _ path ih
  | cwd _ _ _ ih | onHost _ _ ih | metadata _ _ _ _ ih => exact ih

namespace Kernel.Under
variable (kh : Kh σ) (h : k.Under K)
include h

omit h in
theorem onPath {ρ : Type} {fail : Int → ρ} {r : Except Int Bytes × Kernel σ}
    {f : Bytes → Kernel σ → ρ × Kernel σ} (hr : r.2.Under K)
    (hf : ∀ path k, k.Under K → (f path k).2.Under K) : (onPath fail r f).2.Under K :=
  onPath_keeps (P := Under K) hr hf

omit h in
theorem look (kh : Kh σ) (h : k.Under K) (hlook : k.Glances k') : k'.Under K := by
  have hworks : k.Works kh False False k := .refl
  exact h.works False.elim (hworks.look hlook)

/-! ### Opening and spawning -/

theorem installDirectory (path : Bytes) : (k.installDirectory pid path).2.Under K := by
  unfold Kernel.installDirectory
  dsimp only
  split <;> exact h

theorem installFile {mountId : MountId} {inode : Inode}
    (hknown : K.knows k.vfs mountId inode) (writable : Bool) :
    (k.installFile pid mountId inode writable).2.Under K := by
  have hnew := h.createOfd hknown writable
  have htouch : ((k.createOfd mountId inode writable).2.touch pid).Under K := hnew
  unfold Kernel.installFile
  dsimp only
  split
  · exact htouch.ofdDecRef _
  · exact hnew

theorem openResolved (flags : Nat) (path : Bytes) : (k.openResolved kh pid flags path).2.Under K := by
  unfold Kernel.openResolved
  refine .ite h (.ite h (.ite (.ite h (h.installDirectory path)) ?_))
  have hopened := fun id inode => K.opened kh k.host k.objects path flags id inode h
  have hstored := fun host => h.storage kh (.openResult path flags) k.host host
  dsimp only [VfsOp.run] at hstored
  change ∀ id inode, (k.vfs.openResult kh k.host path flags).1 = .ok (id, inode) →
    K.knows (k.vfs.openResult kh k.host path flags).2.1 id inode ∧
      K.knows ((k.vfs.openResult kh k.host path flags).2.1.truncate id inode) id inode at hopened
  generalize k.vfs.openResult kh k.host path flags = r at hopened hstored ⊢
  obtain ⟨err | ⟨mountId, inode⟩, vfs, host⟩ := r
  · exact .ite (hstored host) (.ite (hstored host) (hstored host))
  · obtain ⟨hknown, htruncated⟩ := hopened mountId inode rfl
    dsimp only
    split
    · exact ((hstored host).storage kh (.truncate mountId inode) host host).installFile htruncated _
    · exact (hstored host).installFile hknown _

theorem sysOpen (request : Bytes) : (k.sysOpen kh pid request).2.Under K :=
  .ite h (.ite h (.onPath (h.look kh (k.glances_resolveReadable pid _ true))
    (fun path _ h' => h'.openResolved kh _ path)))

theorem stageSpawn (wasm : Bytes) (argv : List Bytes) : (k.stageSpawn pid wasm argv).2.Under K := by
  have halloc : k.tryAllocSpawnPid.2.Under K := by
    unfold tryAllocSpawnPid
    dsimp only
    split <;> exact h
  unfold Kernel.stageSpawn
  generalize k.tryAllocSpawnPid = r at halloc ⊢
  obtain ⟨_ | child, k'⟩ := r
  · exact halloc
  · have htouch : (k'.touch pid).Under K := halloc
    exact List.foldlRecOn (motive := Under K) ((k'.touch pid).process pid).fdTable.inheritableEntries.values _
      htouch (fun _ hk e _ => hk.fds.incFdEntryRef e)

theorem sysSpawn (request : Bytes) : (k.sysSpawn kh pid request).2.Under K := by
  obtain hr | ⟨path, argv, hr⟩ := k.sysSpawn_cases kh pid request <;> rw [hr]
  · exact h
  · have hworks : k.Works kh False False k := .refl
    exact .onPath (h.works False.elim (hworks.loadImage _ _)) (fun wasm k' hk => hk.stageSpawn wasm _)

end Kernel.Under

/-! ### Every call -/

theorem PathCall.under (kh : Kh σ) (h : k.Under K) (call : PathCall) : (call.run kh k pid).2.Under K := by
  by_cases hopen : ∃ request, call = .openPath request
  · obtain ⟨request, rfl⟩ := hopen
    exact h.sysOpen kh request
  by_cases hopenat : ∃ request, call = .openat request
  · obtain ⟨request, rfl⟩ := hopenat
    exact .ite h (.ite h (.onPath (h.look kh (k.glances_resolveAt pid _ _))
      (fun path _ h' => h'.sysOpen kh _)))
  by_cases hspawn : ∃ request, call = .spawn request
  · obtain ⟨request, rfl⟩ := hspawn
    exact h.sysSpawn kh request
  exact h.works False.elim (call.works kh k pid (not_exists.mp hopen) (not_exists.mp hopenat)
    (not_exists.mp hspawn))

/-- What a call does beyond the elementary changes that every rule has. -/
def SysCall.Within (K : Rule σ) : SysCall → Prop
  | .flock _ => K.locks
  | .bind _ => K.binds
  | .listen _ => K.binds
  | _ => True

theorem SysCall.under (kh : Kh σ) (h : k.Under K) {call : SysCall} (hcall : call.Within K) :
    (call.run kh k pid).2.Under K := by
  have hworks : k.Works kh False False k := .refl
  cases call with
  | path call => exact call.under kh h
  | close | dup | dup2 | dup3 | dupMin | pipe | socketOpen | accept | connect | socketpair | socketClose =>
    exact SysCall.on kh h.sockets rfl
  | read request cap => exact h.readFd kh cap
  | write request => exact h.writeFd kh
  | pread request cap => exact h.works False.elim (hworks.preadFd cap)
  | pwrite request => exact h.works False.elim hworks.pwriteFd
  | lseek request cap => exact h.works False.elim (hworks.lseek cap)
  | setFdFlags request => exact h.setFdDescriptorFlags
  | getFdFlags request => exact h.works False.elim hworks.getFdDescriptorFlags
  | setStatusFlags request => exact h.works False.elim hworks.setFileStatusFlags
  | getStatusFlags request => exact h.works False.elim hworks.getFileStatusFlags
  | fchdir request => exact h.works False.elim hworks.fchdir
  | getcwd cap => exact h.works False.elim (hworks.getcwd cap)
  | ftruncate request => exact h.works False.elim hworks.sysFtruncate
  | fchown request => exact h.works False.elim hworks.fchown
  | flock request =>
    have hworks : k.Works kh K.locks False k := .refl
    exact h.works (fun hlocks => hlocks) (hworks.sysFlock hcall)
  | bind request => exact h.sockets.sysSocketBind hcall
  | listen request => exact h.sockets.sysSocketListen kh hcall
  | shutdown request => exact h.sysSocketShutdown
  | send request => exact h.sysSocketSend kh
  | recv request cap => exact h.sysSocketRecv kh cap
  | sendto request => exact h.sysSocketSendto
  | recvfrom request cap => exact h.sysSocketRecvfrom kh cap
  | sendmsg request => exact h.sysSocketSendmsg
  | recvmsg request cap => exact h.sysSocketRecvmsg kh cap
  | wait request cap => exact h.waitResponse cap

/-- What a call of the kernel does beyond the elementary changes that every rule has. -/
def KernelCall.Within (K : Rule σ) : KernelCall → Prop
  | .sys _ call => call.Within K
  | _ => True

theorem KernelCall.under (kh : Kh σ) (h : k.Under K) {call : KernelCall} (hcall : call.Within K) :
    (call.step kh k).Under K := by
  cases call with
  | sys pid call => exact call.under kh h hcall
  | _ => exact KernelCall.on kh h.fds (by simp)

end Yurt
