import YurtKernel.Dispatch.MessageLedger
import YurtKernel.Dispatch.ProcessLedger

/-! Reference counts over whole runs.

    Every call keeps the ledger, as long as it does not lose a reference. There are two ways to lose
    one. A `sendmsg` on a socket whose write half is shut down returns before it queues or drops the
    references it took. And a socket that goes away takes its queued `SCM_RIGHTS` lists with it
    without dropping what they name. `KernelCall.Tidy` is the absence of both. -/

namespace Yurt
open Kernel SortedMap
variable {σ : Type} {k : Kernel σ} {es : List FdEntry} {pid : Pid} {request : Bytes}
variable {e : FdEntry}

/-! ### Calls that move no reference -/

/-- Bytes of a pipe are not counted. -/
theorem Kernel.refView_setPipeBytes {id : Nat} {b : PipeBuf} (hb : k.pipes.get? id = some b)
    (bytes : Bytes) :
    { k with pipes := k.pipes.insert id { b with bytes := bytes } }.refView = k.refView := by
  have hpipes : (k.pipes.insert id { b with bytes := bytes }).mapValues
      (fun _ b => (b.readEnds, b.writeEnds)) =
        k.pipes.mapValues (fun _ b => (b.readEnds, b.writeEnds)) := by
    rw [mapValues_insert]
    refine insert_eq_self ?_
    rw [get?_mapValues, hb]
    rfl
  simp only [refView, hpipes]
  rfl

theorem Kernel.refView_advance (k : Kernel σ) (id : Nat) (n : Int) :
    (k.advance id n).refView = k.refView := by
  unfold advance
  split_ifs
  · rw [refView_modifyOfd]
    exact fun _ => rfl
  · rfl

theorem Kernel.Ledger.readFd (kh : Kh σ) (h : k.Ledger es) (cap : Nat) :
    (k.readFd kh pid request cap).2.Ledger es := by
  have htouch := h.sameRefs (k.sameRefs_touch pid)
  unfold Kernel.readFd
  split
  · cases k.fdEntry pid _ with
    | none => exact htouch
    | some e =>
      cases e with
      | stdin =>
        refine Ledger.ite htouch (h.sameRefs ?_)
        dsimp only
        exact k.sameRefs_updProcess pid (fun _ => rfl)
      | stdout | stderr | directory => exact htouch
      | socket id => exact htouch.socketRecvId kh id cap 0
      | pipe id side =>
        cases side with
        | write => exact htouch
        | read =>
          simp only
          cases hb : k.pipes.get? id with
          | none => exact htouch
          | some b =>
            have hb' : (k.touch pid).pipes.get? id = some b := hb
            exact Ledger.ite htouch (htouch.frame (refView_setPipeBytes hb' _))
      | file id =>
        simp only
        cases k.ofds.get? id with
        | none => exact htouch
        | some o =>
          exact (htouch.sameRefs ((k.touch pid).sameRefs_vfs _ _)).frame (refView_advance _ id _)
  · exact h

theorem Kernel.Ledger.writeFd (kh : Kh σ) (h : k.Ledger es) : (k.writeFd kh pid request).2.Ledger es := by
  have htouch := h.sameRefs (k.sameRefs_touch pid)
  rcases k.writeFd_cases kh pid request with ⟨-, hidle⟩ | ⟨-, ⟨f, buffer, hf, hr⟩ | ⟨id, b, -, hb, -, hr⟩ |
    ⟨id, o, -, -, -, n, vfs, host, -, hr⟩ | ⟨id, -, hr⟩⟩
  · exact hidle.keeps (P := fun k => k.Ledger es) h htouch
  · rw [hr]
    refine h.sameRefs (k.sameRefs_updProcess pid ?_)
    rcases hf with ⟨-, rfl⟩ | ⟨-, rfl⟩ <;> exact fun _ => rfl
  · rw [hr]
    exact htouch.frame (refView_setPipeBytes (k := k.touch pid) hb _)
  · rw [hr]
    exact (htouch.sameRefs ((k.touch pid).sameRefs_vfs _ _)).frame (refView_advance _ id _)
  · rw [hr]
    exact htouch.socketSendId kh id _

/-! ### What a call takes and gives up -/

section
variable (k : Kernel σ)

/-- What the first descriptor of a request names. -/
def Kernel.firstEntry (pid : Pid) : Option (List Nat) → List FdEntry
  | some (fd :: _) => (k.fdEntry pid fd).toList
  | _ => []

/-- Entries a call takes references for. -/
def SysCall.taken (pid : Pid) : SysCall → List FdEntry
  | .dup request => k.firstEntry pid (readU32Args 1 request)
  | .dup2 request | .dupMin request =>
    k.firstEntry pid (readU32Args 2 request)
  | .dup3 request => k.firstEntry pid (readU32Args 3 request)
  | .sendmsg request => (messageFds request).filterMap (k.fdEntry pid)
  | .path (.spawn _) => (k.process pid).fdTable.inheritableEntries.values
  | _ => []

def KernelCall.taken : KernelCall → List FdEntry
  | .sys pid call => call.taken k pid
  | .prepareFork parentPid => (k.process parentPid).fdTable.entries.values
  | _ => []

/-- What `dup2` and `dup3` find at their target and close. -/
def Kernel.displaced (pid : Pid) (oldfd newfd : Nat) : List FdEntry :=
  if (k.fdEntry pid oldfd).isSome ∧ newfd < (k.process pid).nofileSoft ∧ oldfd ≠ newfd then
    (k.fdEntry pid newfd).toList
  else []

/-- Entries a call drops the references of. -/
def SysCall.released (pid : Pid) : SysCall → List FdEntry
  | .close request => k.firstEntry pid (readU32Args 1 request)
  | .socketClose request =>
    if request.length < 4 then [] else (k.fdEntry pid (u32At request 0)).toList
  | .dup2 request =>
    match readU32Args 2 request with
    | some [oldfd, newfd] => k.displaced pid oldfd newfd
    | _ => []
  | .dup3 request =>
    match readU32Args 3 request with
    | some [oldfd, newfd, flags] => if flags = flags &&& 1 then k.displaced pid oldfd newfd else []
    | _ => []
  | .recvmsg request cap => k.droppedRights pid request cap
  | _ => []

def KernelCall.released : KernelCall → List FdEntry
  | .sys pid call => call.released k pid
  | .rollbackFork parentPid childPid => k.rolledBack parentPid childPid
  | _ => []

/-- Entries a call takes references for and then neither stores nor drops. -/
def KernelCall.forgotten : KernelCall → List FdEntry
  | .sys pid (.sendmsg request) => k.forgottenRights pid request
  | _ => []

/-- The counts the call raises stay below `u32::MAX`. -/
def KernelCall.Room (call : KernelCall) : Prop :=
  ∀ e ∈ call.taken k, k.counter e + (call.taken k).count e ≤ u32Max

/-- The call does not drop the last reference of a socket with counted rights in its queue, or of a
    listener with such a socket waiting, and it sends no counted rights through a socket whose write
    half is shut down. -/
def KernelCall.Tidy (call : KernelCall) : Prop :=
  k.SafeDrop (call.released k) ∧ ∀ e ∈ call.forgotten k, e.counted = false

end

/-! ### One call -/

theorem Kernel.Ledger.sysSocketClose (kh : Kh σ) (h : k.Ledger es)
    (hsafe : k.SafeDrop (SysCall.released k pid (.socketClose request))) :
    (k.sysSocketClose kh pid request).2.Ledger es := by
  unfold Kernel.sysSocketClose
  split
  · exact h
  rename_i hlen
  rw [SysCall.released, if_neg hlen] at hsafe
  split
  · exact h.closeFdNumber kh hsafe
  · exact h.sameRefs (k.sameRefs_touch pid)

theorem Kernel.Ledger.closeFd (kh : Kh σ) (h : k.Ledger es)
    (hsafe : k.SafeDrop (SysCall.released k pid (.close request))) :
    (k.closeFd kh pid request).2.Ledger es := by
  unfold Kernel.closeFd
  split
  · next fd hargs =>
    rw [SysCall.released, hargs] at hsafe
    exact h.closeFdNumber kh hsafe
  · exact h

/-- Room for one more reference to what the first descriptor names. -/
theorem Kernel.room_firstEntry {args : Option (List Nat)} {fd : Nat} {fds : List Nat}
    (hroom : ∀ e ∈ k.firstEntry pid args, k.counter e + (k.firstEntry pid args).count e ≤ u32Max)
    (hargs : args = some (fd :: fds)) (hfd : k.fdEntry pid fd = some e) : k.counter e < u32Max := by
  have he := hroom e
  simp only [hargs, firstEntry, hfd, Option.toList_some, List.mem_singleton,
    List.count_singleton_self, true_imp_iff] at he
  omega

theorem Kernel.displaced_eq {oldfd newfd : Nat} (hfd : k.fdEntry pid oldfd = some e)
    (hlimit : newfd < (k.process pid).nofileSoft) (hne : oldfd ≠ newfd) :
    k.displaced pid oldfd newfd = (k.fdEntry pid newfd).toList := by
  rw [displaced, if_pos ⟨by rw [hfd]; rfl, hlimit, hne⟩]

theorem PathCall.ledger (kh : Kh σ) (h : k.Ledger es) (call : PathCall)
    (hroom : ∀ e ∈ SysCall.taken k pid (.path call),
      k.counter e + (SysCall.taken k pid (.path call)).count e ≤ u32Max) :
    (call.run kh k pid).2.Ledger es := by
  by_cases hopen : ∃ request, call = .openPath request
  · obtain ⟨request, rfl⟩ := hopen
    exact h.sysOpen kh request
  by_cases hopenat : ∃ request, call = .openat request
  · obtain ⟨request, rfl⟩ := hopenat
    exact h.sysOpenat kh request
  by_cases hspawn : ∃ request, call = .spawn request
  · obtain ⟨request, rfl⟩ := hspawn
    exact h.sysSpawn kh request hroom
  · push Not at hopen hopenat hspawn
    exact h.sameRefs (call.works (L := True) kh k pid hopen hopenat hspawn).minor.refs

theorem SysCall.ledger (kh : Kh σ) (h : k.Ledger es) (call : SysCall)
    (hroom : ∀ e ∈ call.taken k pid, k.counter e + (call.taken k pid).count e ≤ u32Max)
    (hsafe : k.SafeDrop (call.released k pid))
    (hkept : ∀ e ∈ KernelCall.forgotten k (.sys pid call), e.counted = false) :
    (call.run kh k pid).2.Ledger es := by
  have hworks : k.Works kh True True k := .refl
  cases call with
  | path call => exact call.ledger kh h hroom
  | close request => exact h.closeFd kh hsafe
  | dup request => exact h.dupFd kh (fun fd e hargs hfd => room_firstEntry hroom hargs hfd)
  | dup2 request =>
    refine h.dup2Fd kh (fun fd fd' e hargs hfd => room_firstEntry hroom hargs hfd) ?_
    intro fd fd' e hargs hfd hlimit hne
    rw [SysCall.released, hargs] at hsafe
    rwa [← displaced_eq hfd hlimit hne]
  | dup3 request =>
    refine h.dup3Fd kh (fun fd fd' flags e hargs hfd => room_firstEntry hroom hargs hfd) ?_
    intro fd fd' flags e hargs hflags hfd hlimit hne
    rw [SysCall.released, hargs] at hsafe
    simp only [if_pos hflags] at hsafe
    rwa [← displaced_eq hfd hlimit hne]
  | dupMin request =>
    exact h.dupMinFd (fun fd fd' e hargs hfd => room_firstEntry hroom hargs hfd)
  | pipe cap => exact h.pipe cap
  | read request cap => exact h.readFd kh cap
  | write request => exact h.writeFd kh
  | pread request cap => exact h.sameRefs (hworks.preadFd cap).minor.refs
  | pwrite request => exact h.sameRefs hworks.pwriteFd.minor.refs
  | lseek request cap => exact h.sameRefs (hworks.lseek cap).minor.refs
  | setFdFlags request => exact h.frame (k.refView_setFdDescriptorFlags pid request)
  | getFdFlags request => exact h.sameRefs hworks.getFdDescriptorFlags.minor.refs
  | setStatusFlags request => exact h.sameRefs hworks.setFileStatusFlags.minor.refs
  | getStatusFlags request => exact h.sameRefs hworks.getFileStatusFlags.minor.refs
  | fchdir request => exact h.sameRefs hworks.fchdir.minor.refs
  | getcwd cap => exact h.sameRefs (hworks.getcwd cap).minor.refs
  | ftruncate request => exact h.sameRefs hworks.sysFtruncate.minor.refs
  | fchown request => exact h.sameRefs hworks.fchown.minor.refs
  | flock request => exact h.sameRefs (hworks.sysFlock trivial).minor.refs
  | socketOpen request => exact h.sysSocketOpen kh
  | bind request => exact h.sysSocketBind
  | listen request => exact h.sysSocketListen kh
  | accept request => exact h.sysSocketAccept kh
  | connect request => exact h.sysSocketConnect kh
  | socketpair request cap => exact h.sysSocketpair kh cap
  | shutdown request => exact h.frame (k.refView_sysSocketShutdown pid request)
  | socketClose request => exact h.sysSocketClose kh hsafe
  | send request => exact h.sysSocketSend kh
  | recv request cap => exact h.sysSocketRecv kh cap
  | sendto request => exact h.sysSocketSendto
  | recvfrom request cap => exact h.sysSocketRecvfrom kh cap
  | sendmsg request => exact h.sysSocketSendmsg hroom hkept
  | recvmsg request cap => exact h.sysSocketRecvmsg kh hsafe
  | wait request cap => exact h.sameRefs (k.minor_waitResponse pid request cap).refs

/-- One call keeps the ledger, if there is room for what it takes and it loses nothing. -/
theorem KernelCall.ledger (kh : Kh σ) (h : k.Ledger es) (call : KernelCall) (hroom : call.Room k)
    (htidy : call.Tidy k) : (call.step kh k).Ledger es := by
  cases call with
  | sys pid call => exact call.ledger kh h hroom htidy.1 htidy.2
  | prepareFork parentPid => exact h.prepareFork hroom
  | commitFork parentPid childPid => exact h.sameRefs (k.minor_commitFork parentPid childPid).refs
  | rollbackFork parentPid childPid => exact h.rollbackFork kh htidy.1
  | insertHostProcess pid parentPid argv handle =>
    exact h.sameRefs (k.minor_insertHostProcess pid parentPid argv handle).refs
  | spawnCached parentPid moduleId argvRequest =>
    exact h.sameRefs (k.minor_spawnCachedProcess kh parentPid moduleId argvRequest).refs
  | recordExit request => exact h.sameRefs (k.minor_recordExit request).refs

/-! ### Whole runs -/

namespace Kernel

/-- Table entries and entries of queued rights equal to `e`. -/
def references (k : Kernel σ) (e : FdEntry) : Nat :=
  k.tableCount e + k.sockets.sum (fun _ s => s.kind.rights.count e)

/-- Places of listener queues that hold socket `id`. -/
def waiting (k : Kernel σ) (id : Nat) : Nat := k.sockets.sum (fun _ s => s.kind.pending.count id)

/-- Every count is the number of references, and what has none is gone. -/
structure CountsExact (k : Kernel σ) : Prop where
  readEnds : ∀ id b, k.pipes.get? id = some b → b.readEnds = k.references (.pipe id .read)
  writeEnds : ∀ id b, k.pipes.get? id = some b → b.writeEnds = k.references (.pipe id .write)
  ofds : ∀ id o, k.ofds.get? id = some o → o.refs = k.references (.file id)
  sockets : ∀ id s, k.sockets.get? id = some s → s.refs = k.references (.socket id) + k.waiting id
  pipe_present : ∀ id, k.pipes.contains id = true ↔
    0 < k.references (.pipe id .read) + k.references (.pipe id .write)
  ofd_present : ∀ id, k.ofds.contains id = true ↔ 0 < k.references (.file id)
  socket_present : ∀ id, k.sockets.contains id = true ↔ 0 < k.references (.socket id) + k.waiting id

theorem holders_eq (k : Kernel σ) (he : e.counted = true) : k.refView.holders e = k.references e +
      k.sockets.sum (fun _ s => (s.kind.pending.map FdEntry.socket).count e) := by
  have hqueued : k.refView.queued e =
      k.sockets.sum (fun _ s => (s.kind.pending.map FdEntry.socket).count e) +
        k.sockets.sum (fun _ s => s.kind.rights.count e) := by
    rw [← sum_add, RefView.queued, refView, sum_mapValues]
    simp only [SocketRefs.queued, SocketEntry.refsView, List.count_append]
  rw [RefView.holders, hqueued, references]
  simp only [refView, if_pos he]
  omega

theorem holders_of_not_socket (k : Kernel σ) (he : e.counted = true)
    (hsocket : ∀ id, e ≠ .socket id) : k.refView.holders e = k.references e := by
  rw [k.holders_eq he, sum_eq_zero_iff.mpr, Nat.add_zero]
  intro _ s _
  rw [List.count_eq_zero, List.mem_map]
  rintro ⟨id, -, rfl⟩
  exact hsocket id rfl

theorem holders_socket (k : Kernel σ) (id : Nat) :
    k.refView.holders (.socket id) = k.references (.socket id) + k.waiting id := by
  rw [k.holders_eq rfl, waiting]
  congr 1
  refine sum_congr (fun _ s _ => ?_)
  exact List.count_map_of_injective _ _ (fun _ _ h => FdEntry.socket.inj h) _

theorem Ledger.countsExact (h : k.Ledger []) : k.CountsExact := by
  have hexact : ∀ e, e.counted = true → k.counter e = k.refView.holders e := fun e he => h.exact e he
  have hside : ∀ id side, k.counter (.pipe id side) = k.references (.pipe id side) := fun id side =>
    (hexact _ rfl).trans (k.holders_of_not_socket rfl (fun _ => by simp))
  have hfile : ∀ id, k.counter (.file id) = k.references (.file id) := fun id =>
    (hexact _ rfl).trans (k.holders_of_not_socket rfl (fun _ => by simp))
  have hsocket : ∀ id, k.counter (.socket id) = k.references (.socket id) + k.waiting id := fun id =>
    (hexact _ rfl).trans (k.holders_socket id)
  refine ⟨fun id b hb => ?_, fun id b hb => ?_, fun id o ho => ?_, fun id s hs => ?_,
    fun id => ?_, fun id => ?_, fun id => ?_⟩
  · rw [← hside, k.counter_pipe, hb]
    rfl
  · rw [← hside, k.counter_pipe, hb]
    rfl
  · rw [← hfile, k.counter_file, ho]
    rfl
  · rw [← hsocket, k.counter_socket, hs]
    rfl
  · rw [← hside, ← hside, k.counter_pipe, k.counter_pipe, contains_iff]
    cases hb : k.pipes.get? id with
    | none => simp [endCount]
    | some b =>
      have hpos := h.pipe_pos id (b.readEnds, b.writeEnds) (by rw [k.refView_pipes_get?, hb]; rfl)
      simpa [endCount] using hpos
  · rw [← hfile, k.counter_file, contains_iff]
    cases ho : k.ofds.get? id with
    | none => simp
    | some o =>
      have hpos := h.ofd_pos id o.refs (by rw [k.refView_ofds_get?, ho]; rfl)
      simpa using hpos
  · rw [← hsocket, k.counter_socket, contains_iff]
    cases hs : k.sockets.get? id with
    | none => simp
    | some s =>
      have hpos : 0 < s.refs := h.socket_pos id s.refsView (by rw [k.refView_sockets_get?, hs]; rfl)
      simpa using hpos

end Kernel

instance (k : Kernel σ) (call : KernelCall) : Decidable (call.Room k) := by
  unfold KernelCall.Room
  infer_instance

instance (k : Kernel σ) (call : KernelCall) : Decidable (call.Tidy k) := by
  unfold KernelCall.Tidy Kernel.SafeDrop
  infer_instance

theorem Kernel.ledger_new (host : σ) : (Kernel.new host).Ledger [] := by
  refine ⟨fun e _ => ?_, ?_, ?_, ?_, fun _ _ => rfl, fun _ _ => rfl, fun _ _ => rfl, ?_⟩
  · cases e <;> rfl
  · intro id p hp
    cases hp
  · intro id n hn
    cases hn
  · intro id s hs
    cases hs
  · intro l s p q hs
    cases hs

/-- In every run from the empty kernel whose calls all have room and lose nothing, the counts of the
    state reached are exact. -/
theorem counts_exact_of_tidy (kh : Kh σ) (host : σ) (calls : List KernelCall)
    (hrun : Run.Along (KernelCall.step kh) (fun k call => call.Room k ∧ call.Tidy k)
      (Kernel.new host) calls) :
    (Run.run (KernelCall.step kh) (Kernel.new host) calls).CountsExact := by
  refine Ledger.countsExact (Run.Along.invariant (KernelCall.step kh)
    (I := fun k => k.Ledger []) (fun k call hcall h => ?_) hrun (ledger_new host))
  exact call.ledger kh h hcall.1 hcall.2

/-- A pipe and a socket pair; the read end goes through the pair, the process forks, and the child
    is rolled back. -/
def passAndFork : List KernelCall :=
  [.insertHostProcess 1 0 [] none, .sys 1 (.pipe 8), .sys 1 (.socketpair ([1, 1, 0, 0] ++ leBytes 4 0) 8),
    .sys 1 (.sendmsg (leBytes 4 5 ++ leBytes 4 1 ++ leBytes 4 1 ++ [65] ++ leBytes 4 3)),
    .sys 1 (.recvmsg (leBytes 4 6 ++ leBytes 4 0 ++ leBytes 4 4) 16),
    .sys 1 (.dup (leBytes 4 4)), .prepareFork 1, .rollbackFork 1 2, .sys 1 (.close (leBytes 4 5))]

theorem counts_exact_of_tidy_passAndFork :
    (Run.run (KernelCall.step Kh.absent) (Kernel.new ()) passAndFork).CountsExact :=
  counts_exact_of_tidy Kh.absent () passAndFork (by decide)

/-- A message for a socket whose write half is shut down, with the read end of a pipe in it. -/
def sendAfterShutdown : List KernelCall :=
  [.sys 1 (.pipe 8), .sys 1 (.socketpair ([1, 1, 0, 0] ++ leBytes 4 0) 8),
    .sys 1 (.shutdown (leBytes 4 5 ++ leBytes 4 1)),
    .sys 1 (.sendmsg (leBytes 4 5 ++ leBytes 4 1 ++ leBytes 4 1 ++ [65] ++ leBytes 4 3))]

/-- A message with the read end of a pipe in it, never received before both sockets are closed. -/
def closeWithQueuedRights : List KernelCall :=
  [.sys 1 (.pipe 8), .sys 1 (.socketpair ([1, 1, 0, 0] ++ leBytes 4 0) 8),
    .sys 1 (.sendmsg (leBytes 4 5 ++ leBytes 4 1 ++ leBytes 4 1 ++ [65] ++ leBytes 4 3)),
    .sys 1 (.close (leBytes 4 6)), .sys 1 (.close (leBytes 4 5))]

/-- Both leave the pipe with two read ends, of which a single one is in a table. -/
theorem lost_right_keeps_read_end :
    ¬ (Run.run (KernelCall.step Kh.absent) (Kernel.new ()) sendAfterShutdown).CountsExact ∧
    ¬ (Run.run (KernelCall.step Kh.absent) (Kernel.new ()) closeWithQueuedRights).CountsExact := by
  constructor
  · intro h
    exact absurd (h.readEnds 1 ⟨[], 2, 1⟩ (by decide)) (by decide)
  · intro h
    exact absurd (h.readEnds 1 ⟨[], 2, 1⟩ (by decide)) (by decide)

end Yurt
