import YurtKernel.Vfs.Ops
import YurtKernel.Dispatch.Call
import YurtKernel.Dispatch.Lookup

/-! Calls that make and drop nothing.

    Most calls on paths, and those that look at an open file or set its cursor, flags, length or lock,
    change the kernel in a few ways: a working directory is written, the mount table runs a method, the
    name of a socket goes, metadata or locks are set. `Kernel.Works` is what such a call can leave, so
    that what these calls keep is shown once for each way. -/

namespace Yurt
open Kernel
variable {σ : Type}

/-- What a call that makes and drops no object leaves of `k`; it sets locks only if `locks`, and takes
    names of sockets away only if `names`. -/
inductive Kernel.Works (k : Kernel σ) (kh : Kh σ) (locks names : Prop) : Kernel σ → Prop
  | refl : Works k kh locks names k
  | cwd {k' : Kernel σ} (h : Works k kh locks names k') (pid : Pid) {f : Process → Process}
      (hf : ∀ p, ∃ cwd, f p = { p with cwd := cwd }) : Works k kh locks names (k'.updProcess pid f)
  | storage {k' : Kernel σ} (h : Works k kh locks names k') (op : VfsOp) (host host' : σ) :
      Works k kh locks names { k' with vfs := op.run kh host k'.vfs, host := host' }
  | onHost {k' : Kernel σ} (h : Works k kh locks names k') (host : σ) :
      Works k kh locks names { k' with host := host }
  | metadata {k' : Kernel σ} (h : Works k kh locks names k') (mountId : MountId) (inode : Inode)
      (m : Metadata) : Works k kh locks names (k'.setMetadataOverride mountId inode m)
  | modifyOfd {k' : Kernel σ} (h : Works k kh locks names k') (id : Nat)
      {f : OpenFileDescription → OpenFileDescription}
      (hf : ∀ o, (f o).refs = o.refs ∧ (f o).mountId = o.mountId ∧ (f o).inode = o.inode) :
      Works k kh locks names (k'.modifyOfd id f)
  | setLocks {k' : Kernel σ} (h : Works k kh locks names k') (hlocks : locks)
      (l : SortedMap (MountId ×ₗ Inode) FlockState) : Works k kh locks names { k' with flockLocks := l }
  | dropName {k' : Kernel σ} (h : Works k kh locks names k') (hnames : names) (path : Bytes) :
      Works k kh locks names (k'.unlinkUnixSocketInode path).2

variable {kh : Kh σ} {L N : Prop} {k k₁ k₂ : Kernel σ} {pid : Pid} {request : Bytes}

namespace Kernel.Works
variable (h : k.Works kh L N k₁)
include h

theorem look (hlook : k₁.Glances k₂) : k.Works kh L N k₂ := by
  induction hlook with
  | refl => exact h
  | cwd _ pid hf ih => exact ih.cwd pid hf
  | @refresh k' _ snapshots ih => exact ih.storage (.refresh snapshots) k'.host k'.host

theorem touch (pid : Pid) : k.Works kh L N (k₁.touch pid) := h.cwd pid (fun _ => ⟨_, rfl⟩)

theorem probe (path : Bytes) : k.Works kh L N (k₁.probe kh path).2 := h.storage (.openPath path 0) k₁.host _

theorem atPath {ρ : Type} {fail : Int → ρ} {dirfd : Nat} {path : Bytes}
    {f : Bytes → Kernel σ → ρ × Kernel σ}
    (hf : ∀ path k', k.Works kh L N k' → k.Works kh L N (f path k').2) :
    k.Works kh L N (k₁.atPath fail pid dirfd path f).2 := by
  unfold Kernel.atPath
  exact ite_keeps h (onPath_keeps (h.look (k₁.glances_resolveAt pid dirfd path)) hf)

/-! ### Names -/

theorem mkdir : k.Works kh L N (k₁.mkdir kh pid request).2 :=
  ite_keeps h (onPath_keeps (h.look (k₁.glances_normalizeReadablePath pid request))
    (fun path k' h' => h'.storage (.mkdir path) k'.host _))

theorem rmdir : k.Works kh L N (k₁.rmdir pid request).2 :=
  ite_keeps h (onPath_keeps (h.look (k₁.glances_normalizeReadablePath pid request))
    (fun path k' h' => h'.storage (.rmdir path) k'.host _))

theorem unlink (hnames : N) : k.Works kh L N (k₁.unlink kh pid request).2 :=
  ite_keeps h (onPath_keeps (h.look (k₁.glances_normalizeReadablePath pid request))
    (fun path k' h' => (h'.dropName hnames path).storage (.unlink path) k'.host _))

theorem symlink : k.Works kh L N (k₁.symlink kh pid request).2 := by
  unfold Kernel.symlink
  split
  · exact h
  · exact onPath_keeps (h.look (k₁.glances_normalize pid _))
      (fun path k' h' => h'.storage (.symlink _ path) k'.host _)

theorem onTwoPaths {f : Kernel σ → Bytes → Bytes → Int × MountTable × σ} (op : Bytes → Bytes → VfsOp)
    (hf : ∀ k first second, (f k first second).2.1 = (op first second).run kh k.host k.vfs) :
    k.Works kh L N (k₁.onTwoPaths pid request f).2 := by
  unfold Kernel.onTwoPaths
  split
  · exact h
  · refine onPath_keeps (h.look (k₁.glances_normalize pid _)) (fun first k₂ h₂ => ?_)
    refine onPath_keeps (h₂.look (k₂.glances_normalize pid _)) (fun second k₃ h₃ => ?_)
    have hop := h₃.storage (op first second) k₃.host (f k₃ first second).2.2
    rw [← hf] at hop
    exact hop

theorem readlink (cap : Nat) : k.Works kh L N (k₁.readlink pid request cap).2 := by
  refine ite_keeps h (onPath_keeps (h.look (k₁.glances_normalizeReadablePath pid request))
    (fun path k' h' => ?_))
  split <;> exact h'

theorem realpath (cap : Nat) : k.Works kh L N (k₁.realpath pid request cap).2 := by
  refine onPath_keeps (h.look (k₁.glances_realpathOf pid request)) (fun path k' h' => ?_)
  have hgate := h'.look (k'.glances_gate pid path)
  generalize k'.publishProcSnapshots.procPathReachable pid path = g at hgate ⊢
  obtain ⟨_ | _, k''⟩ := g <;> exact hgate

omit h in
theorem visibleNames (caller : Pid) : ∀ (names : List Bytes) {k₁ : Kernel σ},
    k.Works kh L N k₁ → k.Works kh L N (Kernel.visibleNames caller names k₁).2
  | [], _, h => h
  | name :: names, k₁, h => by
    unfold Kernel.visibleNames
    cases parseU32 name with
    | none => exact visibleNames caller names h
    | some target =>
      refine visibleNames caller names ?_
      have hcontrol := h.look (k₁.glances_mayControlPid caller target)
      unfold procPidVisible
      generalize k₁.mayControlPid caller target = r at hcontrol ⊢
      obtain ⟨_ | _, k'⟩ := r <;> exact hcontrol

theorem readdir (cap : Nat) : k.Works kh L N (k₁.readdir pid request cap).2 := by
  refine ite_keeps h (ite_keeps h (onPath_keeps
    (h.look (k₁.glances_normalizeReadablePath pid request)) (fun path k' h' => ?_)))
  split
  · exact h'
  · exact ite_keeps (r := Kernel.visibleNames pid _ k') (Works.visibleNames pid _ h') h'

/-! ### Attributes -/

theorem writeStatRecord (path : Bytes) : k.Works kh L N (k₁.writeStatRecord kh path).2 := by
  have hprobe := h.probe path
  refine ite_keeps h (ite_keeps h (ite_keeps ?_ (ite_keeps h h)))
  generalize k₁.probe kh path = r at hprobe ⊢
  obtain ⟨_ | ⟨_, _⟩, k'⟩ := r <;> exact hprobe

theorem statWith (cap : Nat) (follow : Bool) : k.Works kh L N (k₁.statWith kh pid request cap follow).2 :=
  ite_keeps h (ite_keeps h (onPath_keeps (h.look (k₁.glances_resolveReadable pid request follow))
    (fun path _ h' => ite_keeps h' (ite_keeps h' (h'.writeStatRecord path)))))

theorem sysStatvfs (cap : Nat) : k.Works kh L N (k₁.sysStatvfs kh pid request cap).2 := by
  refine ite_keeps h (ite_keeps h (onPath_keeps (h.look (k₁.glances_resolveReadable pid request true))
    (fun path k' h' => ite_keeps h' ?_)))
  have hprobe := h'.probe path
  unfold writeStatvfsRecord
  generalize k'.probe kh path = r at hprobe ⊢
  obtain ⟨_ | _, k''⟩ := r
  · exact hprobe
  · exact hprobe.storage (.openResult path 1) k''.host _

theorem chdir : k.Works kh L N (k₁.chdir pid request).2 :=
  ite_keeps h (onPath_keeps (h.look (k₁.glances_normalizeReadablePath pid request))
    (fun _ _ h' => ite_keeps (h'.cwd pid (fun _ => ⟨_, rfl⟩)) (ite_keeps h' h')))

theorem changeMetadata (raw : Bytes) (allowed : Credentials → Metadata → Bool)
    (change : Metadata → Metadata) :
    k.Works kh L N (k₁.changeMetadata kh pid raw allowed change).2 := by
  refine ite_keeps h (onPath_keeps (h.look (k₁.glances_normalize pid raw)) (fun path k' h' => ?_))
  have hprobe := h'.probe path
  generalize k'.probe kh path = r at hprobe ⊢
  obtain ⟨_ | ⟨_, _⟩, k''⟩ := r
  · exact hprobe
  · exact ite_keeps ((hprobe.touch pid).metadata _ _ _) (hprobe.touch pid)

omit h in
theorem truncateTarget (caller : Pid) : ∀ (hops : Nat) (path : Bytes) {k₁ : Kernel σ},
    k.Works kh L N k₁ → k.Works kh L N (Kernel.truncateTarget caller hops path k₁).2
  | hops, path, k₁, h => by
    unfold Kernel.truncateTarget
    split
    · exact h
    · cases hops with
      | zero => exact h
      | succ hops =>
        exact onPath_keeps (h.look (k₁.glances_normalizeReadablePath caller _))
          (fun path k' h' => truncateTarget caller hops path h')

theorem sysTruncate : k.Works kh L N (k₁.sysTruncate kh pid request).2 := by
  refine ite_keeps h (ite_keeps h (ite_keeps h (onPath_keeps
    (h.look (k₁.glances_normalizeReadablePath pid _)) (fun path k₂ h₂ => onPath_keeps
      (Works.truncateTarget pid _ path h₂) (fun path k₃ h₃ => ite_keeps h₃ ?_)))))
  have hprobe := h₃.probe path
  generalize k₃.probe kh path = r at hprobe ⊢
  obtain ⟨_ | ⟨mountId, inode⟩, k₄⟩ := r
  · exact hprobe
  · exact hprobe.storage (.setLen mountId inode _) k₄.host _

theorem accessCheck (raw : Bytes) (mode flag : Nat) :
    k.Works kh L N (k₁.accessCheck kh pid raw mode flag).2 := by
  have hpath : ∀ nofollow, k.Works kh L N (k₁.accessPath pid raw nofollow).2 := fun nofollow =>
    ite_keeps (h.look (k₁.glances_normalizeReadablePath pid raw))
      (h.look (k₁.glances_resolveReadable pid raw true))
  refine onPath_keeps (hpath _) (fun path k' h' => ?_)
  have hprobe := h'.probe path
  generalize k'.probe kh path = r at hprobe ⊢
  obtain ⟨_ | ⟨_, _⟩, k''⟩ := r
  · exact hprobe
  · exact ite_keeps hprobe (ite_keeps (hprobe.touch pid) (hprobe.touch pid))

theorem loadImage (pid : Pid) (raw : Bytes) : k.Works kh L N (k₁.loadImage kh pid raw).2 := by
  refine onPath_keeps (h.look (k₁.glances_normalize pid raw)) (fun path k' h' => ?_)
  cases k'.followSymlinksLiteral path with
  | error => exact h'
  | ok execPath =>
    have hprobe := h'.probe execPath
    dsimp only
    generalize k'.probe kh execPath = r at hprobe ⊢
    obtain ⟨_ | ⟨mountId, inode⟩, k''⟩ := r
    · exact hprobe
    · exact ite_keeps (hprobe.onHost _) (hprobe.onHost _)

/-! ### Open files -/

theorem lseek (cap : Nat) : k.Works kh L N (k₁.lseek pid request cap).2 := by
  have htouch := h.touch pid
  unfold Kernel.lseek
  refine ite_keeps h ?_
  split
  · exact htouch
  · split
    · exact htouch
    · dsimp only
      split
      · exact htouch
      · exact ite_keeps htouch (htouch.modifyOfd _ (fun _ => ⟨rfl, rfl, rfl⟩))
  · exact htouch

theorem setFileStatusFlags : k.Works kh L N (k₁.setFileStatusFlags pid request).2 := by
  have htouch := h.touch pid
  unfold Kernel.setFileStatusFlags
  split
  · split
    · exact htouch
    · exact ite_keeps (htouch.modifyOfd _ (fun _ => ⟨rfl, rfl, rfl⟩)) htouch
    · exact htouch
  · exact h

theorem getFileStatusFlags : k.Works kh L N (k₁.getFileStatusFlags pid request).2 := by
  have htouch := h.touch pid
  unfold Kernel.getFileStatusFlags
  split
  · split
    · exact htouch
    · split <;> exact htouch
    · exact htouch
  · exact h

theorem getFdDescriptorFlags : k.Works kh L N (k₁.getFdDescriptorFlags pid request).2 := by
  unfold Kernel.getFdDescriptorFlags
  split
  · split <;> exact h.touch pid
  · exact h

theorem preadFd (cap : Nat) : k.Works kh L N (k₁.preadFd kh pid request cap).2 := by
  have htouch := h.touch pid
  unfold Kernel.preadFd
  refine ite_keeps h ?_
  split
  · exact htouch
  · split
    · exact htouch
    · exact htouch.onHost _
  · exact htouch
  · exact htouch

theorem pwriteFd : k.Works kh L N (k₁.pwriteFd kh pid request).2 := by
  have htouch := h.touch pid
  unfold Kernel.pwriteFd
  refine ite_keeps h ?_
  dsimp only
  split
  · exact htouch
  · split
    · exact htouch
    · exact ite_keeps htouch (ite_keeps htouch (htouch.storage (.write _ _ _ _) k₁.host _))
  · exact htouch
  · exact htouch

theorem fchdir : k.Works kh L N (k₁.fchdir pid request).2 := by
  have htouch := h.touch pid
  unfold Kernel.fchdir
  refine ite_keeps h ?_
  split
  · exact htouch
  · split
    · exact htouch
    · exact h.cwd pid (fun _ => ⟨_, rfl⟩)
  · exact ite_keeps htouch (h.cwd pid (fun _ => ⟨_, rfl⟩))
  · exact htouch

theorem getcwd (cap : Nat) : k.Works kh L N (k₁.getcwd pid cap).2 := by
  have hrefresh := h.look (k₁.glances_refreshAnchoredCwd pid)
  unfold Kernel.getcwd
  generalize k₁.refreshAnchoredCwd pid = r at hrefresh ⊢
  obtain ⟨_ | _ | cwd, k'⟩ := r <;> exact hrefresh

theorem sysFtruncate : k.Works kh L N (k₁.sysFtruncate pid request).2 := by
  have htouch := h.touch pid
  unfold Kernel.sysFtruncate
  refine ite_keeps h (ite_keeps h ?_)
  split
  · exact htouch
  · split
    · exact htouch
    · exact ite_keeps htouch (htouch.storage (.setLen _ _ _) k₁.host _)
  · exact htouch
  · exact htouch

theorem fchown : k.Works kh L N (k₁.fchown pid request).2 := by
  have htouch := h.touch pid
  unfold Kernel.fchown
  refine ite_keeps h ?_
  split
  · split
    · exact htouch
    · exact ite_keeps htouch (htouch.metadata _ _ _)
  · exact htouch

theorem sysFlock (hlocks : L) : k.Works kh L N (k₁.sysFlock pid request).2 := by
  have htouch := h.touch pid
  have hset := htouch.setLocks hlocks
  have hrelease : ∀ id mountId inode, k.Works kh L N ((k₁.touch pid).flockRelease id mountId inode) := by
    intro id mountId inode
    unfold flockRelease
    dsimp only
    split
    · exact htouch
    · split_ifs <;> exact hset _
  have hacquire : ∀ id mountId inode exclusive k',
      (k₁.touch pid).flockTryAcquire id mountId inode exclusive = some k' → k.Works kh L N k' := by
    intro id mountId inode exclusive k' hk'
    unfold flockTryAcquire at hk'
    dsimp only at hk'
    split at hk'
    · exact Option.some.inj hk' ▸ hset _
    · split_ifs at hk' <;> exact Option.some.inj hk' ▸ hset _
    · split_ifs at hk' <;> exact Option.some.inj hk' ▸ hset _
  unfold Kernel.sysFlock
  refine ite_keeps h (ite_keeps h (ite_keeps h ?_))
  split
  · split
    · exact htouch
    · refine ite_keeps (hrelease _ _ _) ?_
      split
      · next hk' => exact hacquire _ _ _ _ _ hk'
      · exact htouch
  · exact htouch

end Kernel.Works

/-- Every call on paths but `open` and `spawn`. -/
theorem PathCall.works (kh : Kh σ) (k : Kernel σ) (caller : Pid) (call : PathCall)
    (hopen : ∀ request, call ≠ .openPath request) (hopenat : ∀ request, call ≠ .openat request)
    (hspawn : ∀ request, call ≠ .spawn request) : k.Works kh L True (call.run kh k caller).2 := by
  have h : k.Works kh L True k := .refl
  cases call with
  | openPath request => exact absurd rfl (hopen request)
  | openat request => exact absurd rfl (hopenat request)
  | spawn request => exact absurd rfl (hspawn request)
  | stat request cap => exact h.statWith cap true
  | lstat request cap => exact h.statWith cap _
  | fstatat request cap =>
    exact ite_keeps h (ite_keeps h (h.atPath
      (fun _ _ h' => ite_keeps (h'.statWith cap _) (h'.statWith cap _))))
  | readlink request cap => exact h.readlink cap
  | readlinkat request cap => exact ite_keeps h (h.atPath (fun _ _ h' => h'.readlink cap))
  | realpath request cap => exact h.realpath cap
  | access request => exact ite_keeps h (ite_keeps h (ite_keeps h (h.accessCheck _ _ _)))
  | faccessat request => exact ite_keeps h (ite_keeps h (h.atPath (fun _ _ h' => h'.accessCheck _ _ _)))
  | chdir request => exact h.chdir
  | readdir request cap => exact h.readdir cap
  | statvfs request cap => exact h.sysStatvfs cap
  | chmod | chown | utimens => exact ite_keeps h (h.changeMetadata _ _ _)
  | truncate request => exact h.sysTruncate
  | mkdir request => exact h.mkdir
  | mkdirat request => exact ite_keeps h (h.atPath (fun _ _ h' => h'.mkdir))
  | rmdir request => exact h.rmdir
  | unlink request => exact h.unlink trivial
  | unlinkat request =>
    exact ite_keeps (r := (-EINVAL, k)) h (ite_keeps (r := (-EINVAL, k)) h
      (h.atPath (fun _ _ h' => ite_keeps h'.rmdir (h'.unlink trivial))))
  | rename request => exact h.onTwoPaths .rename (fun _ _ _ => rfl)
  | link request => exact h.onTwoPaths .link (fun _ _ _ => rfl)
  | symlink request => exact h.symlink

/-- A spawn that is refused for its request, or gets as far as its image. -/
theorem Kernel.sysSpawn_cases (kh : Kh σ) (k : Kernel σ) (caller : Pid) (request : Bytes) :
    k.sysSpawn kh caller request = (-EINVAL, k) ∨ ∃ path argv, k.sysSpawn kh caller request =
      onPath id (k.loadImage kh caller path) (fun wasm k => k.stageSpawn caller wasm argv) := by
  unfold sysSpawn
  split_ifs
  · exact .inl rfl
  · split
    · exact .inl rfl
    · split_ifs
      · exact .inl rfl
      · split
        · exact .inl rfl
        · exact .inr ⟨_, _, rfl⟩

end Yurt
