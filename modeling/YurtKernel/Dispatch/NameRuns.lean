import YurtKernel.Dispatch.DatagramClients
import YurtKernel.Dispatch.SocketNames
import YurtKernel.Kernel.HostPids

/-! Names of `AF_UNIX` sockets over whole runs.

    The run is followed together with a log of what was registered and what was given up, from which
    the right owner of a path can be read. Names go astray when a socket that lost its path to another
    one is closed or bound again, and when a name is unlinked in another spelling. -/

namespace Yurt
open Kernel SortedMap
variable {σ : Type} {k k' : Kernel σ} {pid : Pid} {id : Nat} {s : SocketEntry}
variable {bound : Option Bytes} {call : KernelCall} {request path : Bytes}

/-! ### The log -/

/-- The registry in which a `connect` through a descriptor looks its address up. -/
def Kernel.registryOf (k : Kernel σ) (pid : Pid) (fd : Nat) : Registry :=
  match k.socketIdForFd pid fd with
  | .ok id =>
    match (k.sockets.get? id).map SocketEntry.kind with
    | some (.unixDatagram _ _ _ _ _ _) => .datagrams
    | _ => .listeners
  | .error _ => .listeners

inductive NameEvent where
  | registered (r : Registry) (path : Bytes) (id : Nat)
  | left (r : Registry) (path : Bytes)
  deriving DecidableEq

/-- What an event says about a path: that a socket was registered there, or that it was given up. -/
def NameEvent.about (r : Registry) (path : Bytes) : NameEvent → Option (Option Nat)
  | .registered r' path' id => if r' = r ∧ path' = path then some (some id) else none
  | .left r' path' => if r' = r ∧ path' = path then some none else none

/-- The latest event about a path; the newest event comes first. -/
def latest (r : Registry) (path : Bytes) (events : List NameEvent) : Option (Option Nat) :=
  events.findSome? (NameEvent.about r path)

section
variable (k : Kernel σ) (pid : Pid) (request : Bytes)

/-- The datagram socket that a `bind` is for, the path and the path it had. -/
def Kernel.bindTarget : Option (Nat × Bytes × Option Bytes) :=
  match k.socketIdForFd pid (u32At request 0) with
  | .ok id =>
    match (k.sockets.get? id).map SocketEntry.kind, unixPathFromAddr (request.drop 4) with
    | some (.unixDatagram _ _ bound _ _ _), some path => some (id, path, bound)
    | _, _ => none
  | .error _ => none

/-- The path that a socket about to listen was bound to. -/
def Kernel.listenTarget : Option Bytes :=
  match k.socketIdForFd pid (u32At request 0) with
  | .ok id =>
    match (k.sockets.get? id).map SocketEntry.kind with
    | some (.opened _ (some addr)) => unixPathFromAddr addr
    | _ => none
  | .error _ => none

/-- The path an `unlink` was asked for and the one it resolves to. -/
def Kernel.unlinkedPaths : List Bytes :=
  request :: (k.normalizeReadablePath pid request).1.toOption.toList

end

/-- What a call does to names, as far as its caller can tell from the result. -/
def SysCall.nameEvents (kh : Kh σ) (k : Kernel σ) (pid : Pid) : SysCall → List NameEvent
  | .bind request =>
    if (k.sysSocketBind pid request).1 = 0 then
      match k.bindTarget pid request with
      | some (id, name, old) =>
        .registered .datagrams name id :: old.toList.map (NameEvent.left .datagrams)
      | none => []
    else []
  | .listen request =>
    let r := k.sysSocketListen kh pid request
    if r.1 = 0 then
      match k.listenTarget pid request, r.2.socketIdForFd pid (u32At request 0) with
      | some name, .ok id => [.registered .listeners name id]
      | _, _ => []
    else []
  | .path (.unlink request) =>
    if (k.unlink kh pid request).1 = 0 then
      (k.unlinkedPaths pid request).flatMap (fun name => [.left .listeners name, .left .datagrams name])
    else []
  | _ => []

def KernelCall.nameEvents (kh : Kh σ) (k : Kernel σ) : KernelCall → List NameEvent
  | .sys pid call => call.nameEvents kh k pid
  | _ => []

structure NameWorld (σ : Type) where
  kernel : Kernel σ
  events : List NameEvent

def NameWorld.step (kh : Kh σ) (w : NameWorld σ) (call : KernelCall) : NameWorld σ :=
  ⟨call.step kh w.kernel, call.nameEvents kh w.kernel ++ w.events⟩

/-- `socket`, `bind`, `listen`, `connect`, `sendto`, `unlink`, `dup`, `close`, `fork` and
    `sys_spawn`. -/
def KernelCall.isNameCall : KernelCall → Bool
  | .sys _ call =>
    match call with
    | .socketOpen _ | .bind _ | .listen _ | .connect _ | .sendto _ | .dup _ | .close _
    | .socketClose _ | .path (.unlink _) | .path (.spawn _) => true
    | _ => false
  | .prepareFork _ | .commitFork _ _ => true
  | _ => false

/-! ### Conditions -/

/-- What is registered at a path is the given socket, or nothing. -/
def Kernel.OwnName (k : Kernel σ) (r : Registry) (path : Bytes) (id : Nat) : Prop :=
  (k.names r).get? path = none ∨ (k.names r).get? path = some id

/-- A socket that a close would take away is not one that lost its path to another. -/
def Kernel.OwnsLast (k : Kernel σ) (id : Nat) : Prop := ∀ s, k.sockets.get? id = some s → s.refs = 1 →
    ∀ r path, s.kind.nameIn r = some path → k.OwnName r path id

/-- A call that takes no name from a socket other than its own, and unlinks a registered name in the
    spelling it was registered in. -/
def KernelCall.Owns (k : Kernel σ) : KernelCall → Prop
  | .sys pid (.bind request) => ∀ id path old, k.bindTarget pid request = some (id, path, some old) →
      k.OwnName .datagrams old id
  | .sys pid (.close request) | .sys pid (.socketClose request) =>
    ∀ id, k.fdEntry pid (u32At request 0) = some (.socket id) → k.OwnsLast id
  | .sys pid (.path (.unlink request)) => (k.normalizeReadablePath pid request).1 = .ok request ∨
      ∀ r, (k.names r).get? request = none
  | _ => True

/-! ### What should hold -/

/-- Every entry leads to a live socket that was bound to exactly its path and is the latest one
    registered there; a path that was given up is refused. -/
structure NameWorld.Lawful (kh : Kh σ) (w : NameWorld σ) : Prop where
  live : ∀ r path id, (w.kernel.names r).get? path = some id →
    ∃ s, w.kernel.sockets.get? id = some s ∧ s.kind.nameIn r = some path
  recent : ∀ r path id, (w.kernel.names r).get? path = some id → latest r path w.events = some (some id)
  connect : ∀ pid request path, unixPathFromAddr (request.drop 4) = some path →
    latest (w.kernel.registryOf pid (u32At request 0)) path w.events = some none →
      (w.kernel.sysSocketConnect kh pid request).1 < 0
  sendto : ∀ pid request path, unixPathFromAddr ((request.drop 12).take (u32At request 8)) = some path →
    latest .datagrams path w.events = some none → (w.kernel.sysSocketSendto pid request).1 < 0

/-- The call is an `unlink` that resolves to the path. -/
def KernelCall.unlinks (k : Kernel σ) (path : Bytes) : KernelCall → Prop
  | .sys pid (.path (.unlink request)) => (k.normalizeReadablePath pid request).1 = .ok path
  | _ => False

/-- The call binds the socket. -/
def KernelCall.rebinds (k : Kernel σ) (id : Nat) : KernelCall → Prop
  | .sys pid (.bind request) => k.socketIdForFd pid (u32At request 0) = .ok id
  | _ => False

/-- An entry goes only with its own socket, by an `unlink` of its path or because its own socket is
    bound elsewhere. -/
def KernelCall.SparesNames (k k' : Kernel σ) (call : KernelCall) : Prop :=
  ∀ r path id, (k.names r).get? path = some id →
    (k'.names r).get? path = some id ∨ k'.sockets.get? id = none ∨ call.unlinks k path ∨ call.rebinds k id

/-! ### Calls that leave names alone -/

namespace Kernel

theorem Named.steady_socketOpen (h : k.Named) (kh : Kh σ) (pid : Pid) (request : Bytes) :
    k.Steady (k.sysSocketOpen kh pid request).2 := by
  have hopen : ∀ domain sockType (kind : SocketKind), kind.pending = [] → (∀ r, kind.nameIn r = none) →
      k.Steady ((k.addSocket domain sockType kind).2.installSocketIdFd kh pid
        (k.addSocket domain sockType kind).1).2 := by
    intro domain sockType kind hpending hname
    have hadd := k.steady_addSocket domain sockType hpending
    refine hadd.trans ((hadd.named h).steady_installSocketIdFd kh pid (fun s hs => ?_))
    simp only [Kernel.addSocket, get?_insert, if_true] at hs
    cases hs
    exact hname
  unfold Kernel.sysSocketOpen
  refine ite_keeps (.refl k) ?_
  refine ite_keeps (.refl k) (ite_keeps (.refl k) (ite_keeps (ite_keeps (.refl k) ?_) ?_))
  · exact hopen 1 2 (.unixDatagram none none none [] [] true) rfl (fun r => by cases r <;> rfl)
  · exact hopen _ _ (.opened (u32At request 4) none) rfl (fun r => by cases r <;> rfl)

theorem steady_connectUnixDatagram (k : Kernel σ) (id : Nat) (path : Bytes) :
    k.Steady (k.connectUnixDatagram id path).2 := by
  unfold connectUnixDatagram
  split
  · exact .refl k
  · split
    · exact .refl k
    · next peer _ _ _ bound rx rights _ hkind =>
      refine steady_setKind (fun s hs => ?_)
      rw [hs] at hkind
      rw [Option.some.inj hkind]
      exact ⟨fun r => by cases r <;> rfl, rfl, List.Subset.refl _⟩
    · exact .refl k

theorem steady_deliverPacket (k : Kernel σ) (gone : Int) (peer : Nat)
    (packet : UnixDatagramPacket) (rights : List FdEntry) :
    k.Steady (k.deliverPacket gone peer packet rights).2 := by
  unfold deliverPacket
  split
  · next hkind =>
    refine ite_keeps (.refl k) (steady_setKind (fun s hs => ?_))
    rw [hs] at hkind
    rw [Option.some.inj hkind]
    exact ⟨fun r => by cases r <;> rfl, rfl, List.Subset.refl _⟩
  · exact .refl k

theorem steady_sendto (k : Kernel σ) (pid : Pid) (request : Bytes) :
    k.Steady (k.sysSocketSendto pid request).2 := by
  have htouch : k.Steady (k.touch pid) := .of_view rfl
  rcases k.sendto_cases pid request with ⟨-, hidle⟩ |
    ⟨-, id, s, p, pp, bound, rx, q, isOpen, path, target, -, -, -, -, -, hr⟩
  · exact hidle.keeps (.refl k) htouch
  · rw [hr]
    exact htouch.trans (steady_deliverPacket _ _ _ _ _)

/-- The server end waits in the queue of the listener; the client end takes the place of a socket
    without a name. -/
theorem Named.connectUnixStream (h : k.Named) (path : Bytes) (cred : PeerCred) :
    k.Steady (k.connectUnixStream path cred).2 ∧
      ∀ i s, k.sockets.get? i = some s → (∀ r, s.kind.nameIn r = none) →
        (k.connectUnixStream path cred).2.sockets.get? i = some s := by
  obtain hr | ⟨listener, s, lpath, backlog, pending, hs, hk, hr⟩ := k.connectUnixStream_cases path cred
  · rw [hr]
    exact ⟨.refl k, fun i s hs _ => hs⟩
  have hlt := h.fresh listener s hs
  rw [hr hlt]
  have hpair : k.Steady (k.pairAt path cred) :=
    (k.steady_addSocket 1 1 rfl).trans (steady_addSocket _ 1 1 rfl)
  have hget := get?_pairAt path cred k
  have hold : ∀ i, i < k.nextSocketId → (k.pairAt path cred).sockets.get? i = k.sockets.get? i :=
    fun i => get?_pairAt_of_lt path cred
  have hnext : (k.pairAt path cred).nextSocketId = k.nextSocketId + 2 := rfl
  generalize k.pairAt path cred = k₁ at hpair hget hold hnext ⊢
  refine ⟨hpair.trans ⟨fun h₁ => h₁.setKind (fun t ht r => .inl ?_) (fun t ht => ?_) (fun p hp => ?_),
    fun r p => by rw [names_setKind]⟩, fun i t ht hname => ?_⟩
  · rw [hold listener hlt, hs] at ht
    cases ht
    rw [hk]
    cases r <;> rfl
  · rw [hold listener hlt, hs] at ht
    cases ht
    rw [hk]
    rfl
  · rcases List.mem_append.mp hp with hmem | hmem
    · obtain ⟨hplt, hstream⟩ := h.waiting listener s p hs (by rw [hk]; exact hmem)
      exact ⟨hnext ▸ Nat.lt_add_right 2 hplt, fun q hq => hstream q (hold p hplt ▸ hq)⟩
    · obtain rfl := List.mem_singleton.mp hmem
      refine ⟨hnext ▸ Nat.lt_succ_self _, fun q hq => ?_⟩
      rw [hget, if_pos rfl] at hq
      cases hq
      rfl
  · have hne : i ≠ listener := by
      rintro rfl
      obtain rfl := Option.mem_unique ht hs
      have hnone := hname .listeners
      rw [hk] at hnone
      cases hnone
    rw [get?_setKind, if_neg hne, hold i (h.fresh i t ht)]
    exact ht

theorem Named.steady_connect (h : k.Named) (kh : Kh σ) (pid : Pid) (request : Bytes) :
    k.Steady (k.sysSocketConnect kh pid request).2 := by
  have htouch : k.Steady (k.touch pid) := .of_view rfl
  obtain ⟨-, hidle⟩ | ⟨id, s, -, hs, ⟨flags, bound, hk, ⟨path, -, hr⟩ | ⟨-, handle, host, hr⟩⟩ |
    ⟨_, _, _, _, _, _, path, -, -, hr⟩⟩ := k.connect_cases kh pid request
  · exact hidle.keeps (.refl k) htouch
  · have hnameless : ∀ r, s.kind.nameIn r = none := fun r => by
      rw [hk]
      cases r <;> rfl
    obtain ⟨hsteady, hsame⟩ := (htouch.named h).connectUnixStream path (k.peerCredFor pid)
    have hold := hsame id s hs hnameless
    rw [hr]
    generalize (k.touch pid).connectUnixStream path (k.peerCredFor pid) = r at hsteady hold ⊢
    obtain ⟨_ | newId, k₁⟩ := r
    · exact htouch.trans hsteady
    · refine (htouch.trans hsteady).trans
        ((hsteady.named (htouch.named h)).steady_replaceSocketFd kh pid _ newId (fun t ht => ?_))
      obtain rfl := Option.mem_unique hold ht
      exact hnameless
  · have hhost : k.Steady { k.touch pid with host := host } := .of_view rfl
    rw [hr]
    refine ite_keeps hhost (hhost.trans ((steady_setKind (fun t ht => ?_)).trans (.of_view rfl)))
    obtain rfl := Option.mem_unique hs ht
    rw [hk]
    exact ⟨fun r => by cases r <;> rfl, rfl, List.Subset.refl _⟩
  · rw [hr]
    exact htouch.trans (steady_connectUnixDatagram _ _ _)

theorem Named.steady_dup (h : k.Named) (kh : Kh σ) (pid : Pid) (request : Bytes) :
    k.Steady (k.dupFd kh pid request).2 := by
  unfold dupFd
  split
  · split
    · exact .of_view rfl
    · next e _ =>
      have htouch : k.Steady (k.touch pid) := .of_view rfl
      have hinc := htouch.trans ((k.touch pid).steady_incFdEntryRef e)
      dsimp only
      split
      · refine hinc.trans ((hinc.named h).steady_decFdEntryRef kh (fun id s he hs hone => ?_))
        subst he
        exact absurd hone ((htouch.named h).refs_incFdEntryRef hs)
      · exact hinc.trans (.of_view rfl)
  · exact .refl k

theorem Looked.nameView (h : k.Looked k') : k'.nameView = k.nameView := by
  rw [h.rest]
  rfl

end Kernel

section
variable (kh : Kh σ) (k : Kernel σ) (caller : Pid)

namespace Kernel

theorem nameView_loadImage (raw : Bytes) : (k.loadImage kh caller raw).2.nameView = k.nameView := by
  have hworks : k.Works kh False False k := .refl
  have hload := hworks.loadImage caller raw
  generalize (k.loadImage kh caller raw).2 = k' at hload ⊢
  induction hload with
  | refl => rfl
  | dropName _ hnames => exact hnames.elim
  | cwd _ _ _ ih | storage _ _ _ _ ih | onHost _ _ ih | metadata _ _ _ _ ih | modifyOfd _ _ _ ih
  | setLocks _ _ _ ih => exact ih

theorem nameView_tryAllocSpawnPid : k.tryAllocSpawnPid.2.nameView = k.nameView := by
  unfold tryAllocSpawnPid
  simp only
  split <;> rfl

theorem steady_stageSpawn (wasm : Bytes) (argv : List Bytes) :
    k.Steady (k.stageSpawn caller wasm argv).2 := by
  have halloc := k.nameView_tryAllocSpawnPid
  unfold stageSpawn
  generalize k.tryAllocSpawnPid = r at halloc ⊢
  obtain ⟨_ | child, k₁⟩ := r
  · exact .of_view halloc
  · have htouch : k.Steady (k₁.touch caller) := .of_view halloc
    exact (htouch.trans (steady_incRefs _ _)).trans (.of_view rfl)

theorem steady_spawn (request : Bytes) : k.Steady (k.sysSpawn kh caller request).2 := by
  obtain hr | ⟨path, argv, hr⟩ := k.sysSpawn_cases kh caller request <;> rw [hr]
  · exact .refl k
  · exact onPath_keeps (.of_view (k.nameView_loadImage kh caller path))
      (fun _ k' h => h.trans (k'.steady_stageSpawn caller _ argv))

theorem nameView_tryAllocHostPid : k.tryAllocHostPid.2.nameView = k.nameView := rfl

theorem steady_prepareFork (parentPid : Pid) : k.Steady (k.prepareFork parentPid).2 := by
  have halloc := k.nameView_tryAllocHostPid
  unfold prepareFork
  split
  · exact .refl k
  · refine ite_keeps (.refl k) (ite_keeps (.refl k) ?_)
    generalize k.tryAllocHostPid = r at halloc ⊢
    obtain ⟨_ | child, k₁⟩ := r
    · exact .of_view halloc
    · have hstart : k.Steady k₁ := .of_view halloc
      exact (hstart.trans (steady_incRefs _ _)).trans (.of_view rfl)

theorem steady_commitFork (parentPid childPid : Pid) : k.Steady (k.commitFork parentPid childPid).2 := by
  unfold commitFork
  split
  · exact .refl k
  · refine ite_keeps (.refl k) ?_
    dsimp only
    split <;> exact .of_view rfl

end Kernel

end

/-! ### Calls that change names -/

/-- A close through a descriptor gives one reference back. -/
theorem Kernel.Named.closeFdNumber (h : k.Named) (kh : Kh σ) (pid : Pid) (fd : Nat) :
    k.Steady (k.closeFdNumber kh pid fd).2 ∨
      ∃ id, k.fdEntry pid fd = some (.socket id) ∧ k.Gives id (k.closeFdNumber kh pid fd).2 := by
  unfold Kernel.closeFdNumber
  split
  · exact .inl (.of_view rfl)
  · next e he =>
    cases e with
    | socket id =>
      have hview : (k.removeFd pid fd).nameView = k.nameView := rfl
      have hgives := (h.of_view hview).socketDecRef id
      have hclose : (k.removeFd pid fd).closeEntry (.socket id) = (k.removeFd pid fd).socketDecRef id := rfl
      rw [hclose]
      generalize (k.removeFd pid fd).socketDecRef id = r at hgives ⊢
      have hsame : k.Gives id r.2 := ⟨hgives.named, hgives.names, hgives.spares⟩
      refine .inr ⟨id, he, ?_⟩
      obtain ⟨_ | handle, k₁⟩ := r
      · exact hsame
      · have hhost : ({ k₁ with host := (kh.socketClose k₁.host handle).2 } : Kernel σ).nameView =
            k₁.nameView := rfl
        exact ⟨hsame.named.of_view hhost, hsame.names, hsame.spares⟩
    | pipe id side => exact .inl (.of_view ((k.removeFd pid fd).nameView_pipeDecRef id side))
    | file id => exact .inl (.of_view ((k.removeFd pid fd).nameView_ofdDecRef id))
    | _ => exact .inl (.of_view rfl)

/-- The any-addresses of the host's families are no paths of the kernel. -/
theorem unixPathFromAddr_any :
    unixPathFromAddr anyAddrIpv4Sockaddr = none ∧ unixPathFromAddr anyAddrIpv6Sockaddr = none := by
  decide

namespace Kernel

/-- A new listener is registered at its path. -/
theorem Named.createUnixListener (h : k.Named) (path : Bytes) (backlog : Nat) :
    k.createUnixListener path backlog = (.error EADDRINUSE, k) ∨
    ∃ k₁, k.createUnixListener path backlog = (.ok k.nextSocketId, k₁) ∧ k₁.Named ∧
      (∀ r p, (k₁.names r).get? p =
        if r = .listeners ∧ p = path then some k.nextSocketId else (k.names r).get? p) ∧
      ∀ i, i < k.nextSocketId → k₁.sockets.get? i = k.sockets.get? i := by
  by_cases hused : k.unixListeners.contains path = true
  · exact .inl (if_pos hused)
  · let kind : SocketKind := .unixListener path (if backlog = 0 then 128 else backlog) []
    let made : Kernel σ := { (k.addSocket 3 6 kind).2 with
      unixListeners := k.unixListeners.insert path k.nextSocketId }
    refine .inr ⟨noteSocketInode made path, if_neg hused, ?_⟩
    have hadd : (k.addSocket 3 6 kind).2.Named := h.addSocket 3 6 rfl
    have hget : ∀ i, (k.addSocket 3 6 kind).2.sockets.get? i =
        if i = k.nextSocketId then some ⟨1, 3, 6, false, kind⟩ else k.sockets.get? i :=
      fun i => get?_insert _ _ _ _
    have hview := nameView_noteSocketInode made path
    have hentries : ∀ r p, ((noteSocketInode made path).names r).get? p =
        if r = .listeners ∧ p = path then some k.nextSocketId else (k.names r).get? p := by
      intro r p
      rw [names_of_view hview]
      cases r
      · simp [names, made]
      · rfl
    generalize noteSocketInode made path = k₁ at hview hentries ⊢
    have hsockets : k₁.sockets = (k.addSocket 3 6 kind).2.sockets := congrArg Prod.fst hview
    refine ⟨hadd.renames hsockets (congrArg (fun v => v.2.1) hview) (fun r p i hentry => ?_), hentries,
      fun i hi => ?_⟩
    · rw [hentries] at hentry
      split_ifs at hentry with hnew
      · cases hentry
        refine .inr ⟨_, (hget _).trans (if_pos rfl), ?_⟩
        rw [hnew.1, hnew.2]
        rfl
      · refine .inl ?_
        cases r <;> exact hentry
    · rw [hsockets, hget, if_neg (Nat.ne_of_lt hi)]

theorem fdEntry_replaceSocketFd (kh : Kh σ) (k : Kernel σ) (pid : Pid) (fd oldId newId : Nat) :
    (k.replaceSocketFd kh pid fd oldId newId).fdEntry pid fd = some (.socket newId) := by
  have hprocs := congrArg ProcView.processes (procView_decFdEntryRef kh
    (k.installFd pid fd (.socket newId)) (.socket oldId))
  rw [← k.fdEntry_installFd_self pid fd (.socket newId)]
  exact congrArg (fun ps : SortedMap Pid Process =>
    ((ps.get? pid).getD .default).fdTable.entry fd) hprocs

/-- No name is taken, or `target` was free and is the name of the socket of `fd`. -/
def Listens (k : Kernel σ) (pid : Pid) (fd : Nat) (target : Option Bytes) (r : Int × Kernel σ) : Prop :=
  (k.Steady r.2 ∧ (r.1 = 0 → target = none)) ∨
  ∃ path newId, target = some path ∧ r.1 = 0 ∧ r.2.socketIdForFd pid fd = .ok newId ∧ r.2.Named ∧
    (k.names .listeners).get? path = none ∧ ∀ reg p, (r.2.names reg).get? p =
      if reg = .listeners ∧ p = path then some newId else (k.names reg).get? p

/-- What listening at an address does to names. -/
theorem Named.listenAt (h : k.Named) (kh : Kh σ) (pid : Pid) (fd backlog : Nat)
    (addr : Bytes) (hs : k.sockets.get? id = some s) {flags : Nat}
    (hk : s.kind = .opened flags bound) :
    k.Listens pid fd (unixPathFromAddr addr) (k.listenAt kh pid fd id backlog addr) := by
  have hnameless : ∀ r, s.kind.nameIn r = none := fun r => by
    rw [hk]
    cases r <;> rfl
  unfold Kernel.listenAt
  cases unixPathFromAddr addr with
  | none =>
    refine .inl ⟨?_, fun _ => rfl⟩
    dsimp only
    split_ifs
    · exact .of_view rfl
    · have hhost : k.Steady { k with host := (kh.socketListenAt k.host addr backlog).2 } := .of_view rfl
      refine hhost.trans ((steady_setKind (fun t ht => ?_)).trans (.of_view rfl))
      obtain rfl := Option.mem_unique hs ht
      rw [hk]
      exact ⟨fun r => by cases r <;> rfl, rfl, List.Subset.refl _⟩
  | some path =>
    dsimp only
    have hused : k.createUnixListener path backlog ≠ (.error EADDRINUSE, k) →
        (k.names .listeners).get? path = none := by
      intro hmade
      by_contra hsome
      obtain ⟨i, hi⟩ := Option.ne_none_iff_exists'.mp hsome
      exact hmade (if_pos (contains_iff.mpr ⟨i, hi⟩))
    rcases h.createUnixListener path backlog with hmade | ⟨k₁, hmade, hnamed, hentries, hget⟩
    · rw [hmade]
      have hnz : -EADDRINUSE ≠ 0 := by decide
      exact .inl ⟨.refl k, fun hzero => absurd hzero hnz⟩
    · have hfree := hused (by rw [hmade]; simp)
      rw [hmade]
      have hold : k₁.sockets.get? id = some s := (hget id (h.fresh id s hs)).trans hs
      have hreplace := hnamed.steady_replaceSocketFd kh pid fd k.nextSocketId (fun t ht => by
        obtain rfl := Option.mem_unique hold ht
        exact hnameless)
      have hnames : ∀ r p, ((k₁.replaceSocketFd kh pid fd id k.nextSocketId).names r).get? p =
          if r = .listeners ∧ p = path then some k.nextSocketId else (k.names r).get? p :=
        fun r p => by rw [hreplace.names, hentries]
      obtain ⟨t, ht, -⟩ := (hreplace.named hnamed).live .listeners path k.nextSocketId
        ((hnames _ _).trans (if_pos ⟨rfl, rfl⟩))
      refine .inr ⟨path, k.nextSocketId, rfl, rfl, ?_, hreplace.named hnamed, hfree, hnames⟩
      simp only [socketIdForFd, fdEntry_replaceSocketFd]
      exact if_pos (contains_iff.mpr ⟨t, ht⟩)

theorem Named.listen (h : k.Named) (kh : Kh σ) (pid : Pid) (request : Bytes) :
    k.Listens pid (u32At request 0) (k.listenTarget pid request) (k.sysSocketListen kh pid request) := by
  have hinval : -EINVAL ≠ 0 := by decide
  have hnotsup : -EOPNOTSUPP ≠ 0 := by decide
  have htouch : k.Steady (k.touch pid) := .of_view rfl
  unfold sysSocketListen listenTarget
  by_cases hlen : request.length < 8
  · rw [if_pos hlen]
    exact .inl ⟨.refl k, fun hzero => absurd hzero hinval⟩
  · rw [if_neg hlen]
    dsimp only
    cases hid : k.socketIdForFd pid (u32At request 0) with
    | error rc => exact .inl ⟨htouch, fun _ => rfl⟩
    | ok id =>
      obtain ⟨-, s, hs⟩ := socketIdForFd_ok hid
      simp only [hs, Option.map_some]
      cases hk : s.kind with
      | opened flags bound =>
        dsimp only
        by_cases htype : s.sockType ≠ 1 ∧ s.sockType ≠ 6
        · rw [if_pos htype]
          exact .inl ⟨htouch, fun hzero => absurd hzero hnotsup⟩
        · rw [if_neg htype]
          have hat := fun addr => (htouch.named h).listenAt kh pid (u32At request 0) (u32At request 4)
            addr hs hk
          cases bound with
          | none =>
            refine .inl ⟨?_, fun _ => rfl⟩
            split
            · rcases hat anyAddrIpv4Sockaddr with ⟨hsteady, -⟩ | ⟨path, _, hpath, -⟩
              · exact htouch.trans hsteady
              · rw [unixPathFromAddr_any.1] at hpath
                cases hpath
            · rcases hat anyAddrIpv6Sockaddr with ⟨hsteady, -⟩ | ⟨path, _, hpath, -⟩
              · exact htouch.trans hsteady
              · rw [unixPathFromAddr_any.2] at hpath
                cases hpath
            · exact htouch
            · next hsome => cases hsome
          | some addr =>
            rcases hat addr with ⟨hsteady, hzero⟩ | hnew
            · exact .inl ⟨htouch.trans hsteady, hzero⟩
            · exact .inr hnew
      | _ => exact .inl ⟨htouch, fun _ => rfl⟩

/-- A datagram socket is registered at its new path and no longer at its old one. -/
theorem Named.bindUnixDatagram (h : k.Named) (hs : k.sockets.get? id = some s)
    {peer : Option Nat} {peerPath : Option Bytes} {rx : List UnixDatagramPacket}
    {rights : List (List FdEntry)} {isOpen : Bool}
    (hk : s.kind = .unixDatagram peer peerPath bound rx rights isOpen) (path : Bytes) :
    k.bindUnixDatagram id path = (-EADDRINUSE, k) ∨
    ((k.bindUnixDatagram id path).1 = 0 ∧ (k.bindUnixDatagram id path).2.Named ∧
      (k.names .datagrams).get? path = none ∧
      ∀ r p, ((k.bindUnixDatagram id path).2.names r).get? p =
        if r = .datagrams ∧ p = path then some id
        else if r = .datagrams ∧ bound = some p then none else (k.names r).get? p) := by
  by_cases hused : k.unixDatagrams.contains path = true
  · exact .inl (if_pos hused)
  · have hfree : (k.names .datagrams).get? path = none := contains_eq_false.mp (Bool.eq_false_iff.mpr hused)
    have hold : ∀ p, (bound.elim k.unixDatagrams k.unixDatagrams.erase).get? p =
        if bound = some p then none else (k.names .datagrams).get? p := by
      intro p
      have hforget := k.names_forgetName (.unixDatagram peer peerPath bound rx rights isOpen) .datagrams p
      cases bound <;> exact hforget
    let kind : SocketKind := .unixDatagram peer peerPath (some path) rx rights isOpen
    have hmade : k.bindUnixDatagram id path = (0, noteSocketInode ({ k.setKind id kind with
        unixDatagrams := (bound.elim k.unixDatagrams k.unixDatagrams.erase).insert path id }) path) := by
      unfold Kernel.bindUnixDatagram
      rw [if_neg hused]
      simp only [hs, Option.map_some, hk, kind]
    rw [hmade]
    generalize bound.elim k.unixDatagrams k.unixDatagrams.erase = old at hold ⊢
    let k₁ : Kernel σ := { k.setKind id kind with unixDatagrams := old.insert path id }
    have hview := nameView_noteSocketInode k₁ path
    have hentries : ∀ r p, ((noteSocketInode k₁ path).names r).get? p =
        if r = .datagrams ∧ p = path then some id
        else if r = .datagrams ∧ bound = some p then none else (k.names r).get? p := by
      intro r p
      rw [names_of_view hview]
      cases r
      · simp only [reduceCtorEq, false_and, if_false]
        rfl
      · simp only [true_and, ← hold]
        split
        · rename_i hp
          exact (get?_insert _ _ _ _).trans (if_pos hp)
        · rename_i hp
          exact (get?_insert _ _ _ _).trans (if_neg hp)
    refine .inr ⟨rfl, ?_, hfree, hentries⟩
    -- the old name goes, the socket gets its path, the new name comes
    have hforget : ({ k with unixDatagrams := old } : Kernel σ).Named := by
      refine h.renames rfl rfl (fun r p i hentry => .inl ?_)
      cases r
      · exact hentry
      · have hentry' := (hold p).symm.trans hentry
        split_ifs at hentry'
        exact hentry'
    have hmoved : (Kernel.setKind { k with unixDatagrams := old } id kind).Named := hforget.setKind
      (fun t ht r => by
        obtain rfl := Option.mem_unique hs ht
        cases r
        · rw [hk]
          exact .inl rfl
        · refine .inr (fun p hp => ?_)
          have hp' := (hold p).symm.trans hp
          split_ifs at hp' with hown
          obtain ⟨t, ht, hname⟩ := h.live .datagrams p id hp'
          obtain rfl := Option.mem_unique hs ht
          rw [hk] at hname
          exact hown hname)
      (fun t ht => by
        obtain rfl := Option.mem_unique hs ht
        rw [hk]
        rfl)
      (fun p hp => nomatch hp)
    refine hmoved.renames (congrArg Prod.fst hview) (congrArg (fun v => v.2.1) hview)
      (fun r p i hentry => ?_)
    rw [hentries] at hentry
    split_ifs at hentry with hnew hown
    · cases hentry
      refine .inr ⟨{ s with kind := kind }, ?_, ?_⟩
      · rw [get?_setKind, if_pos rfl]
        exact congrArg _ hs
      · rw [hnew.1, hnew.2]
        rfl
    · refine .inl ?_
      cases r
      · exact hentry
      · exact (hold p).trans ((if_neg (fun hb => hown ⟨rfl, hb⟩)).trans hentry)

/-- What a `bind` does to names. -/
theorem Named.bind (h : k.Named) (pid : Pid) (request : Bytes) :
    (k.Steady (k.sysSocketBind pid request).2 ∧
      ((k.sysSocketBind pid request).1 = 0 → k.bindTarget pid request = none)) ∨
    ∃ id path old, k.bindTarget pid request = some (id, path, old) ∧
      k.socketIdForFd pid (u32At request 0) = .ok id ∧
      (k.sysSocketBind pid request).1 = 0 ∧ (k.sysSocketBind pid request).2.Named ∧
      (k.names .datagrams).get? path = none ∧
      ∀ r p, ((k.sysSocketBind pid request).2.names r).get? p =
        if r = .datagrams ∧ p = path then some id
        else if r = .datagrams ∧ old = some p then none else (k.names r).get? p := by
  have hinval : -EINVAL ≠ 0 := by decide
  have hused : -EADDRINUSE ≠ 0 := by decide
  have htouch : k.Steady (k.touch pid) := .of_view rfl
  unfold sysSocketBind bindTarget
  split
  · exact .inl ⟨.refl k, fun hzero => absurd hzero hinval⟩
  · cases hid : k.socketIdForFd pid (u32At request 0) with
    | error rc => exact .inl ⟨htouch, fun _ => rfl⟩
    | ok id =>
      obtain ⟨-, s, hs⟩ := socketIdForFd_ok hid
      simp only [hs, Option.map_some]
      cases hk : s.kind with
      | unixDatagram peer peerPath bound rx rights isOpen =>
        cases hpath : unixPathFromAddr (request.drop 4) with
        | none => exact .inl ⟨htouch, fun _ => rfl⟩
        | some path =>
          dsimp only
          rcases (htouch.named h).bindUnixDatagram hs hk path with hmade | ⟨hzero, hnamed, hfree, hnames⟩
          · rw [hmade]
            exact .inl ⟨htouch, fun hzero => absurd hzero hused⟩
          · exact .inr ⟨id, path, bound, rfl, rfl, hzero, hnamed, hfree, hnames⟩
      | opened flags bound =>
        refine .inl ⟨?_, fun _ => rfl⟩
        dsimp only
        split_ifs
        · exact htouch
        · exact htouch
        · refine htouch.trans (steady_setKind (fun t ht => ?_))
          obtain rfl := Option.mem_unique hs ht
          rw [hk]
          exact ⟨fun r => by cases r <;> rfl, rfl, List.Subset.refl _⟩
      | _ =>
        refine .inl ⟨?_, fun _ => rfl⟩
        dsimp only
        split_ifs <;> exact htouch

/-- What an `unlink` does to names: whatever is registered at the path it resolves to goes. -/
theorem Named.unlink (h : k.Named) (kh : Kh σ) (pid : Pid) (request : Bytes) :
    (k.Steady (k.unlink kh pid request).2 ∧ ((k.unlink kh pid request).1 = 0 →
      (k.normalizeReadablePath pid request).1.toOption = none)) ∨
    ∃ path, (k.normalizeReadablePath pid request).1 = .ok path ∧ (k.unlink kh pid request).2.Named ∧
      ∀ r p, ((k.unlink kh pid request).2.names r).get? p =
        if p = path then none else (k.names r).get? p := by
  have hinval : -EINVAL ≠ 0 := by decide
  unfold Kernel.unlink
  split
  · exact .inl ⟨.refl k, fun hzero => absurd hzero hinval⟩
  · have hview := (k.glances_normalizeReadablePath pid request).looked.nameView
    generalize k.normalizeReadablePath pid request = r at hview ⊢
    obtain ⟨rc | path, k₁⟩ := r
    · exact .inl ⟨.of_view hview, fun _ => rfl⟩
    · have hentries : ∀ r p, ((k₁.unlinkUnixSocketInode path).2.names r).get? p =
          if p = path then none else (k.names r).get? p := by
        intro r p
        rw [← names_of_view hview r]
        split
        · rename_i hp
          cases r <;> exact (get?_erase _ _ _).trans (if_pos hp)
        · rename_i hp
          cases r <;> exact (get?_erase _ _ _).trans (if_neg hp)
      have hgone : (k₁.unlinkUnixSocketInode path).2.Named := by
        refine (h.of_view hview).renames rfl rfl (fun r p i hentry => .inl ?_)
        rw [hentries] at hentry
        split_ifs at hentry
        rw [names_of_view hview]
        exact hentry
      -- the rest of the call is the file system's
      refine .inr ⟨path, rfl, hgone.of_view ?_, hentries⟩
      rfl

end Kernel

/-! ### One call -/

theorem latest_append (r : Registry) (path : Bytes) (new old : List NameEvent) :
    latest r path (new ++ old) = (latest r path new).or (latest r path old) :=
  List.findSome?_append

namespace Kernel

/-- One call, with what it adds to the log: entries are as they were and not mentioned, or as the log
    has them. -/
structure NameStep (k : Kernel σ) (call : KernelCall) (k' : Kernel σ) (new : List NameEvent) : Prop where
  named : k'.Named
  entries : ∀ r path id, (k'.names r).get? path = some id → latest r path new = some (some id) ∨
    (latest r path new = none ∧ (k.names r).get? path = some id)
  spares : call.SparesNames k k'

theorem Steady.nameStep (h : k.Steady k') (hk : k.Named) (call : KernelCall) : k.NameStep call k' [] where
  named := h.named hk
  entries r path _ hentry := .inr ⟨rfl, (h.names r path).symm.trans hentry⟩
  spares r path _ hentry := .inl ((h.names r path).trans hentry)

/-- A close keeps every entry but the closed socket's own. -/
theorem Named.nameStep_close (h : k.Named) (kh : Kh σ) (pid : Pid) (fd : Nat)
    (howns : ∀ id, k.fdEntry pid fd = some (.socket id) → k.OwnsLast id) (call : KernelCall) :
    k.NameStep call (k.closeFdNumber kh pid fd).2 [] := by
  rcases h.closeFdNumber kh pid fd with hsteady | ⟨id, hfd, hgives⟩
  · exact hsteady.nameStep h call
  · refine ⟨hgives.named, fun r path i hentry => .inr ⟨rfl, hgives.names r path i hentry⟩,
      fun r path i hentry => ?_⟩
    rcases hgives.spares r path i hentry with hkept | ⟨s, hs, hone, hname, hdead⟩
    · exact .inl hkept
    · rcases howns id hfd s hs hone r path hname with hnone | hown
      · rw [hnone] at hentry
        cases hentry
      · obtain rfl := Option.mem_unique hown hentry
        exact .inr (.inl hdead)

theorem Named.nameStep_bind (h : k.Named) (kh : Kh σ) (pid : Pid) (request : Bytes)
    (howns : (KernelCall.sys pid (.bind request)).Owns k) :
    k.NameStep (.sys pid (.bind request)) (k.sysSocketBind pid request).2
      (SysCall.nameEvents kh k pid (.bind request)) := by
  rcases h.bind pid request with ⟨hsteady, hnone⟩ |
    ⟨id, path, old, htarget, hid, hzero, hnamed, hfree, hnames⟩
  · have hevents : SysCall.nameEvents kh k pid (.bind request) = [] := by
      rw [SysCall.nameEvents]
      split_ifs with hzero
      · rw [hnone hzero]
      · rfl
    rw [hevents]
    exact hsteady.nameStep h _
  · have hevents : SysCall.nameEvents kh k pid (.bind request) =
        .registered .datagrams path id :: old.toList.map (NameEvent.left .datagrams) := by
      rw [SysCall.nameEvents, if_pos hzero, htarget]
    rw [hevents]
    have hother : ∀ r p, ¬(r = .datagrams ∧ p = path) → ¬(r = .datagrams ∧ old = some p) →
        latest r p (.registered .datagrams path id :: old.toList.map (NameEvent.left .datagrams)) =
          none := by
      intro r p hnew hold
      refine List.findSome?_eq_none_iff.mpr (fun event hevent => ?_)
      rcases List.mem_cons.mp hevent with rfl | hleft
      · exact if_neg (fun heq => hnew ⟨heq.1.symm, heq.2.symm⟩)
      · obtain ⟨q, hq, rfl⟩ := List.mem_map.mp hleft
        exact if_neg (fun heq : Registry.datagrams = r ∧ q = p =>
          hold ⟨heq.1.symm, heq.2 ▸ Option.mem_toList.mp hq⟩)
    refine ⟨hnamed, fun r p i hentry => ?_, fun r p i hentry => ?_⟩
    · rw [hnames] at hentry
      split_ifs at hentry with hnew hold
      · refine .inl ?_
        rw [latest, List.findSome?_cons, NameEvent.about, if_pos ⟨hnew.1.symm, hnew.2.symm⟩, ← hentry]
      · exact .inr ⟨hother r p hnew hold, hentry⟩
    · rw [hnames]
      split_ifs with hnew hold
      · rw [hnew.1, hnew.2, hfree] at hentry
        cases hentry
      · -- the old path is given up by its own socket
        rw [hold.1] at hentry
        rcases howns id path p (hold.2 ▸ htarget) with hgone | hown
        · rw [hgone] at hentry
          cases hentry
        · obtain rfl := Option.mem_unique hown hentry
          exact .inr (.inr (.inr hid))
      · exact .inl hentry

theorem Named.nameStep_listen (h : k.Named) (kh : Kh σ) (pid : Pid) (request : Bytes) :
    k.NameStep (.sys pid (.listen request)) (k.sysSocketListen kh pid request).2
      (SysCall.nameEvents kh k pid (.listen request)) := by
  rcases h.listen kh pid request with ⟨hsteady, hnone⟩ |
    ⟨path, id, htarget, hzero, hid, hnamed, hfree, hnames⟩
  · have hevents : SysCall.nameEvents kh k pid (.listen request) = [] := by
      rw [SysCall.nameEvents]
      split_ifs with hzero
      · rw [hnone hzero]
      · rfl
    rw [hevents]
    exact hsteady.nameStep h _
  · have hevents : SysCall.nameEvents kh k pid (.listen request) = [.registered .listeners path id] := by
      rw [SysCall.nameEvents, if_pos hzero, htarget, hid]
    rw [hevents]
    refine ⟨hnamed, fun r p i hentry => ?_, fun r p i hentry => ?_⟩
    · rw [hnames] at hentry
      split_ifs at hentry with hnew
      · refine .inl ?_
        rw [latest, List.findSome?_cons, NameEvent.about, if_pos ⟨hnew.1.symm, hnew.2.symm⟩, ← hentry]
      · refine .inr ⟨?_, hentry⟩
        rw [latest, List.findSome?_cons, NameEvent.about, if_neg (fun heq => hnew ⟨heq.1.symm, heq.2.symm⟩)]
        rfl
    · rw [hnames]
      split_ifs with hnew
      · rw [hnew.1, hnew.2, hfree] at hentry
        cases hentry
      · exact .inl hentry

theorem Named.nameStep_unlink (h : k.Named) (kh : Kh σ) (pid : Pid) (request : Bytes)
    (howns : (KernelCall.sys pid (.path (.unlink request))).Owns k) :
    k.NameStep (.sys pid (.path (.unlink request))) (k.unlink kh pid request).2
      (SysCall.nameEvents kh k pid (.path (.unlink request))) := by
  -- a path that is still registered is none of those that were given up
  have hother : ∀ r p i, (k.names r).get? p = some i →
      ((k.unlink kh pid request).1 = 0 → (k.normalizeReadablePath pid request).1.toOption ≠ some p) →
      latest r p (SysCall.nameEvents kh k pid (.path (.unlink request))) = none := by
    intro r p i hentry hpath
    rw [SysCall.nameEvents]
    split_ifs with hzero
    · refine List.findSome?_eq_none_iff.mpr (fun event hevent => ?_)
      obtain ⟨q, hq, hleft⟩ := List.mem_flatMap.mp hevent
      have hne : q ≠ p := by
        rintro rfl
        rcases List.mem_cons.mp hq with rfl | hres
        · rcases howns with hsame | hnone
          · rw [hsame] at hpath
            exact hpath hzero rfl
          · rw [hnone] at hentry
            cases hentry
        · exact hpath hzero (Option.mem_toList.mp hres)
      simp only [List.mem_cons, List.not_mem_nil, or_false] at hleft
      rcases hleft with rfl | rfl <;> exact if_neg (fun heq => hne heq.2)
    · rfl
  rcases h.unlink kh pid request with ⟨hsteady, hnone⟩ | ⟨path, hpath, hnamed, hnames⟩
  · refine ⟨hsteady.named h, fun r p i hentry => ?_, fun r p i hentry => ?_⟩
    · rw [hsteady.names] at hentry
      refine .inr ⟨hother r p i hentry (fun hzero => ?_), hentry⟩
      rw [hnone hzero]
      exact fun hsome => nomatch hsome
    · exact .inl ((hsteady.names r p).trans hentry)
  · refine ⟨hnamed, fun r p i hentry => ?_, fun r p i hentry => ?_⟩
    · rw [hnames] at hentry
      split_ifs at hentry with hp
      refine .inr ⟨hother r p i hentry (fun _ => ?_), hentry⟩
      rw [hpath]
      exact fun hsome => hp (Option.some.inj hsome).symm
    · rw [hnames]
      split_ifs with hp
      · exact .inr (.inr (.inl (hp ▸ hpath)))
      · exact .inl hentry

theorem Named.nameStep (h : k.Named) (kh : Kh σ) (hcall : call.isNameCall = true)
    (howns : call.Owns k) :
    k.NameStep call (call.step kh k) (call.nameEvents kh k) := by
  cases call with
  | prepareFork parentPid => exact (k.steady_prepareFork parentPid).nameStep h _
  | commitFork parentPid childPid => exact (k.steady_commitFork parentPid childPid).nameStep h _
  | rollbackFork | insertHostProcess | spawnCached | recordExit => cases hcall
  | sys pid call =>
    cases call with
    | socketOpen request => exact (h.steady_socketOpen kh pid request).nameStep h _
    | connect request => exact (h.steady_connect kh pid request).nameStep h _
    | sendto request => exact (k.steady_sendto pid request).nameStep h _
    | dup request => exact (h.steady_dup kh pid request).nameStep h _
    | bind request => exact h.nameStep_bind kh pid request howns
    | listen request => exact h.nameStep_listen kh pid request
    | close request =>
      change k.NameStep _ (k.closeFd kh pid request).2 []
      unfold closeFd
      rw [readU32Args_one]
      by_cases hlen : request.length < 4
      · rw [if_pos hlen]
        exact (Steady.refl k).nameStep h _
      · rw [if_neg hlen]
        exact h.nameStep_close kh pid _ howns _
    | socketClose request =>
      change k.NameStep _ (k.sysSocketClose kh pid request).2 []
      unfold sysSocketClose
      split_ifs
      · exact (Steady.refl k).nameStep h _
      · split
        · exact h.nameStep_close kh pid _ howns _
        · have htouch : k.Steady (k.touch pid) := .of_view rfl
          exact htouch.nameStep h _
    | path call =>
      cases call with
      | unlink request => exact h.nameStep_unlink kh pid request howns
      | spawn request => exact (k.steady_spawn kh pid request).nameStep h _
      | _ => cases hcall
    | _ => cases hcall

/-! ### Refusals -/

theorem sendto_refused
    (hpath : unixPathFromAddr ((request.drop 12).take (u32At request 8)) = some path)
    (hnone : (k.names .datagrams).get? path = none) : (k.sysSocketSendto pid request).1 < 0 := by
  rcases k.sendto_cases pid request with ⟨hneg, -⟩ |
    ⟨-, id, s, p, pp, bound, rx, q, isOpen, path', target, -, -, -, hpath', htarget, -⟩
  · exact hneg
  · obtain rfl := Option.mem_unique hpath hpath'
    exact absurd (htarget.symm.trans hnone) (by simp)

theorem connect_refused (kh : Kh σ) (hpath : unixPathFromAddr (request.drop 4) = some path)
    (hnone : (k.names (k.registryOf pid (u32At request 0))).get? path = none) :
    (k.sysSocketConnect kh pid request).1 < 0 := by
  have hrefused : -ECONNREFUSED < 0 := by decide
  obtain ⟨hneg, -⟩ | ⟨id, s, hid, hs, ⟨flags, bound, hk, ⟨path', hpath', hr⟩ | ⟨hnopath, -⟩⟩ |
    ⟨_, _, _, _, _, _, path', hk, hpath', hr⟩⟩ := k.connect_cases kh pid request
  · exact hneg
  · obtain rfl := Option.mem_unique hpath hpath'
    simp only [registryOf, hid, hs, Option.map_some, hk] at hnone
    rw [hr, connectUnixStream, show (k.touch pid).unixListeners.get? path = none from hnone]
    exact hrefused
  · cases hnopath.symm.trans hpath
  · obtain rfl := Option.mem_unique hpath hpath'
    simp only [registryOf, hid, hs, Option.map_some, hk] at hnone
    rw [hr, connectUnixDatagram, show (k.touch pid).unixDatagrams.get? path = none from hnone]
    exact hrefused

end Kernel

/-! ### Runs -/

/-- Sound registries whose entries are the latest ones of the log. -/
def NameWorld.Sound (w : NameWorld σ) : Prop :=
  w.kernel.Named ∧ ∀ r path id, (w.kernel.names r).get? path = some id →
    latest r path w.events = some (some id)

theorem NameWorld.Sound.lawful {w : NameWorld σ} (h : w.Sound) (kh : Kh σ) : w.Lawful kh := by
  -- a path that was given up is not registered
  have hleft : ∀ r path, latest r path w.events = some none → (w.kernel.names r).get? path = none := by
    intro r path hgone
    by_contra hsome
    obtain ⟨id, hid⟩ := Option.ne_none_iff_exists'.mp hsome
    rw [h.2 r path id hid] at hgone
    cases hgone
  exact ⟨h.1.live, h.2, fun pid request path hpath hgone =>
      connect_refused kh hpath (hleft _ path hgone),
    fun pid request path hpath hgone => sendto_refused hpath (hleft _ path hgone)⟩

theorem NameWorld.Sound.step {w : NameWorld σ} (h : w.Sound) (kh : Kh σ)
    (hcall : call.isNameCall = true) (howns : call.Owns w.kernel) : (w.step kh call).Sound := by
  have hstep := h.1.nameStep kh hcall howns
  refine ⟨hstep.named, fun r path id hentry => ?_⟩
  rw [NameWorld.step, latest_append]
  rcases hstep.entries r path id hentry with hnew | ⟨hnone, hold⟩
  · rw [hnew]
    rfl
  · rw [hnone, h.2 r path id hold]
    rfl

/-- Names of `AF_UNIX` sockets lead to the right live socket as long as no call takes away a name
    that another socket has taken over. -/
theorem socket_names_lawful (kh : Kh σ) (k : Kernel σ) (hsockets : ∀ id, k.sockets.get? id = none)
    (hnames : ∀ r path, (k.names r).get? path = none) (calls : List KernelCall)
    (hcalls : ∀ call ∈ calls, call.isNameCall = true)
    (hrun : Run.Along (NameWorld.step kh) (fun w call => call.Owns w.kernel) ⟨k, []⟩ calls) :
    (Run.run (NameWorld.step kh) ⟨k, []⟩ calls).Lawful kh ∧ Run.Along (NameWorld.step kh)
        (fun w call => call.SparesNames w.kernel (call.step kh w.kernel)) ⟨k, []⟩ calls := by
  have hstart : (⟨k, []⟩ : NameWorld σ).Sound := by
    refine ⟨⟨?_, ?_, ?_, ?_⟩, ?_⟩
    · intro id s hs
      rw [hsockets] at hs
      cases hs
    · intro id s hs
      rw [hsockets] at hs
      cases hs
    · intro r path id hentry
      rw [hnames] at hentry
      cases hentry
    · intro id s p hs
      rw [hsockets] at hs
      cases hs
    · intro r path id hentry
      rw [hnames] at hentry
      cases hentry
  have hspares := Run.Along.promise (NameWorld.step kh) (I := NameWorld.Sound)
    (P := fun w call => call.SparesNames w.kernel (call.step kh w.kernel))
    (C := fun call => call.isNameCall = true)
    (fun w call hw hcall howns => (hw.1.nameStep kh hcall howns).spares)
    (fun w call hw hcall howns => hw.step kh hcall howns) hstart hcalls hrun
  refine ⟨NameWorld.Sound.lawful ?_ kh, hspares⟩
  clear hspares
  generalize (⟨k, []⟩ : NameWorld σ) = w at hstart hrun
  induction calls generalizing w with
  | nil => exact hstart
  | cons call calls ih =>
    exact ih (fun c hc => hcalls c (List.mem_cons_of_mem call hc)) _
      (hstart.step kh (hcalls call List.mem_cons_self) hrun.1) hrun.2

/-- `socket(AF_UNIX, SOCK_DGRAM)` by process 1. -/
def openDatagram : KernelCall := .sys 1 (.socketOpen ([1, 2] ++ leBytes 2 0 ++ leBytes 4 0))

/-- `bind(fd, "/a")` by process 1. -/
def bindToA (fd : Nat) : KernelCall := .sys 1 (.bind (leBytes 4 fd ++ (leBytes 2 1 ++ ascii ['/', 'a'])))

/-- Two sockets; the first is bound to `/a`, which is then unlinked. -/
def unlinkedName : List KernelCall :=
  [openDatagram, openDatagram, bindToA 3, .sys 1 (.path (.unlink (ascii ['/', 'a'])))]

/-- `close(3)` by process 1. -/
def closeFirst : KernelCall := .sys 1 (.close (leBytes 4 3))

theorem socket_names_lawful_unlinkedName :
    (Run.run (NameWorld.step Kh.absent) ⟨Kernel.new (), []⟩ (unlinkedName ++ [closeFirst])).Lawful
      Kh.absent ∧
    latest .datagrams (ascii ['/', 'a']) (Run.run (NameWorld.step Kh.absent) ⟨Kernel.new (), []⟩
      (unlinkedName ++ [closeFirst])).events = some none := by
  refine ⟨(socket_names_lawful Kh.absent (new ()) (fun _ => rfl) (fun r _ => by cases r <;> rfl)
    (unlinkedName ++ [closeFirst]) (by decide) ⟨trivial, trivial, fun id path old h => ?_,
      .inl (by decide), fun id hid s hs hone r path hname => .inl ?_, trivial⟩).1, by decide⟩
  · have hnone : (Run.run (KernelCall.step Kh.absent) (new ())
        [openDatagram, openDatagram]).bindTarget 1 (leBytes 4 3 ++ (leBytes 2 1 ++ ascii ['/', 'a'])) =
          some (1, ascii ['/', 'a'], none) := by decide
    cases hnone.symm.trans h
  · cases r <;> rfl

/-- A socket whose path was unlinked and taken over by another one is closed: the other one, alive and
    the latest at that path, can no longer be reached. -/
theorem closing_unregisters_successor :
    let w := Run.run (NameWorld.step Kh.absent) ⟨new (), []⟩ (unlinkedName ++ [bindToA 4])
    let w' := w.step Kh.absent closeFirst
    let send : Bytes := leBytes 4 4 ++ leBytes 4 0 ++ leBytes 4 4 ++
      (leBytes 2 1 ++ ascii ['/', 'a']) ++ [7]
    (w.kernel.names .datagrams).get? (ascii ['/', 'a']) = some 2 ∧
    (w'.kernel.names .datagrams).get? (ascii ['/', 'a']) = none ∧
    w'.kernel.boundPathOf 2 = some (ascii ['/', 'a']) ∧
    latest .datagrams (ascii ['/', 'a']) w'.events = some (some 2) ∧
    (w.kernel.sysSocketSendto 1 send).1 = 1 ∧
    (w'.kernel.sysSocketSendto 1 send).1 = -ECONNREFUSED := by
  decide

end Yurt
