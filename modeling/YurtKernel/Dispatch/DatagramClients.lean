import YurtKernel.Dispatch.Delivery
import YurtKernel.Dispatch.Poll

/-! A datagram server and a client that connected to it.

    The link from a client to its server goes one way, but a half-close and the last close write
    through it as if the server were connected to the client. The run of both is compared with a run
    in which the client does nothing but put its datagrams into the server's queue. -/

namespace Yurt
open Kernel SortedMap
variable {σ : Type} {k k' k'' k₀ : Kernel σ} {pid : Pid} {fd b c x : Nat}
variable {request : Bytes} {kind : SocketKind} {s : SocketEntry}

/-! ### Client and server -/

/-- What a datagram socket has to receive. -/
def SocketKind.mailbox : SocketKind → Option (List UnixDatagramPacket × List (List FdEntry))
  | .unixDatagram _ _ _ rx rights _ => some (rx, rights)
  | _ => none

def SocketKind.boundPath : SocketKind → Option Bytes
  | .unixDatagram _ _ bound _ _ _ => bound
  | _ => none

def Kernel.mailbox (k : Kernel σ) (id : Nat) : Option (List UnixDatagramPacket × List (List FdEntry)) :=
  (k.sockets.get? id).bind (fun s => s.kind.mailbox)

def Kernel.peerOf (k : Kernel σ) (id : Nat) : Option Nat := (k.sockets.get? id).bind (fun s => s.kind.peer?)

def Kernel.boundPathOf (k : Kernel σ) (id : Nat) : Option Bytes :=
  (k.sockets.get? id).bind (fun s => s.kind.boundPath)

/-- Descriptor of a call that a client makes. -/
def SysCall.clientFd : SysCall → Option Nat
  | .connect request | .send request | .shutdown request | .close request
  | .socketClose request => some (u32At request 0)
  | _ => none

/-- Descriptor of a call that a server makes. -/
def SysCall.serverFd : SysCall → Option Nat
  | .send request | .sendto request | .recv request _ | .recvfrom request _ => some (u32At request 0)
  | _ => none

/-- The datagram that a call of client `c` has for socket `b`. -/
def Kernel.clientPacket (k : Kernel σ) (b c : Nat) : SysCall → Option UnixDatagramPacket
  | .send request =>
    match (k.sockets.get? c).map SocketEntry.kind with
    | some (.unixDatagram (some peer) _ bound _ _ true) =>
      if peer = b ∧ 4 ≤ request.length ∧ !k.writeShut c then some ⟨request.drop 4, bound⟩ else none
    | _ => none
  | _ => none

inductive DatagramCall where
  | client (pid : Pid) (call : SysCall)
  | server (pid : Pid) (call : SysCall)

/-- One step of two kernels: the first runs every call, the second the server's calls, with the
    client's datagrams for the server put into its queue. -/
def DatagramCall.step (kh : Kh σ) (b c : Nat) (s : Kernel σ × Kernel σ) : DatagramCall → Kernel σ × Kernel σ
  | .client pid call =>
    ((call.run kh s.1 pid).2,
      match s.1.clientPacket b c call with
      | some packet => (s.2.deliverPacket EPIPE b packet []).2
      | none => s.2)
  | .server pid call => ((call.run kh s.1 pid).2, (call.run kh s.2 pid).2)

/-- No name leads to the socket, and its own name, if it has one, leads nowhere. -/
def Kernel.Unlisted (k : Kernel σ) (c : Nat) : Prop := (∀ path, k.unixDatagrams.get? path ≠ some c) ∧
    ∀ path, k.boundPathOf c = some path → k.unixDatagrams.get? path = none

/-- A call of client `c` that does not write through the link to server `b`, fills no queue but the
    server's and takes no name away. -/
def SysCall.SparesServer (k : Kernel σ) (b c : Nat) : SysCall → Prop
  | .send _ => k.peerOf c = none ∨ k.peerOf c = some b
  | .shutdown request => u32At request 4 = 0 ∨ k.peerOf c ≠ some b
  | .close _ | .socketClose _ =>
    (∃ s, k.sockets.get? c = some s ∧ 1 < s.refs) ∨ k.peerOf c ≠ some b ∧ k.Unlisted c
  | _ => True

/-- Calls go through descriptors of client and server, and the client's spare the server. -/
def DatagramCall.Meets (b c : Nat) (s : Kernel σ × Kernel σ) : DatagramCall → Prop
  | .client pid call => (∃ fd, call.clientFd = some fd ∧ s.1.fdEntry pid fd = some (.socket c)) ∧
      call.SparesServer s.1 b c
  | .server pid call => ∃ fd, call.serverFd = some fd ∧ s.1.fdEntry pid fd = some (.socket b)

namespace Kernel

/-- What the server gets from its calls, and from `poll`, is the same in both kernels. -/
def Undisturbed (kh : Kh σ) (b : Nat) (k k₀ : Kernel σ) : Prop :=
  ∀ pid fd, k.fdEntry pid fd = some (.socket b) →
    (∀ call : SysCall, call.serverFd = some fd → (call.run kh k pid).1 = (call.run kh k₀ pid).1) ∧
    ∀ events, (k.pollReventsForFd pid fd events).1 = (k₀.pollReventsForFd pid fd events).1

/-! ### Two kernels alike to the server -/

/-- What the server's calls can see. -/
structure Alike (b c : Nat) (k k₀ : Kernel σ) : Prop where
  fds : ∀ p fd, k.fdEntry p fd = some (.socket b) ↔ k₀.fdEntry p fd = some (.socket b)
  entry : k.sockets.get? b = k₀.sockets.get? b
  server : k.mailbox b ≠ none ∧ k.peerOf b ≠ some c
  client : ∀ s, k.sockets.get? c = some s → s.kind.mailbox ≠ none
  boxes : ∀ x, x ≠ c → k.mailbox x = k₀.mailbox x
  box : k.mailbox c = k₀.mailbox c ∨ ∀ path, k.unixDatagrams.get? path ≠ some c
  bits : k.socketShutdownBits b = k₀.socketShutdownBits b
  names : ∀ path, k.unixDatagrams.get? path = k₀.unixDatagrams.get? path

/-- A step of the client that its server cannot see. -/
structure Aside (b c : Nat) (k k' : Kernel σ) : Prop where
  fds : ∀ p fd, k'.fdEntry p fd = some (.socket b) ↔ k.fdEntry p fd = some (.socket b)
  entry : k'.sockets.get? b = k.sockets.get? b
  client : (∀ s, k.sockets.get? c = some s → s.kind.mailbox ≠ none) →
    ∀ s, k'.sockets.get? c = some s → s.kind.mailbox ≠ none
  boxes : ∀ x, x ≠ c → k'.mailbox x = k.mailbox x
  box : k'.mailbox c = k.mailbox c ∨ ∀ path, k.unixDatagrams.get? path ≠ some c
  bits : k'.socketShutdownBits b = k.socketShutdownBits b
  names : ∀ path, k'.unixDatagrams.get? path = k.unixDatagrams.get? path

theorem Alike.aside (h : k.Alike b c k₀) (hs : k.Aside b c k') : k'.Alike b c k₀ where
  fds p fd := (hs.fds p fd).trans (h.fds p fd)
  entry := hs.entry.trans h.entry
  server := by
    rw [mailbox, peerOf, hs.entry]
    exact h.server
  client := hs.client h.client
  boxes x hx := (hs.boxes x hx).trans (h.boxes x hx)
  box := by
    have hnames : (∀ path, k.unixDatagrams.get? path ≠ some c) →
        ∀ path, k'.unixDatagrams.get? path ≠ some c := fun hnone path => by
      rw [hs.names]
      exact hnone path
    rcases hs.box with hbox | hnone
    · exact h.box.imp hbox.trans hnames
    · exact .inr (hnames hnone)
  bits := hs.bits.trans h.bits
  names path := (hs.names path).trans (h.names path)

theorem Aside.trans (h : k.Aside b c k') (h' : k'.Aside b c k'') : k.Aside b c k'' where
  fds p fd := (h'.fds p fd).trans (h.fds p fd)
  entry := h'.entry.trans h.entry
  client hk := h'.client (h.client hk)
  boxes x hx := (h'.boxes x hx).trans (h.boxes x hx)
  box := by
    rcases h'.box with hbox | hnone
    · exact h.box.imp_left hbox.trans
    · exact .inr fun path => by
        rw [← h.names]
        exact hnone path
  bits := h'.bits.trans h.bits
  names path := (h'.names path).trans (h.names path)

/-- Nothing but process records changes, and no descriptor. -/
theorem Aside.of_records (hfds : ∀ p fd, k'.fdEntry p fd = some (.socket b) ↔
    k.fdEntry p fd = some (.socket b)) (hsockets : k'.sockets = k.sockets)
    (hbits : k'.socketShutdown = k.socketShutdown) (hnames : k'.unixDatagrams = k.unixDatagrams) :
    k.Aside b c k' where
  fds := hfds
  entry := by rw [hsockets]
  client hk := by rwa [hsockets]
  boxes x _ := by rw [mailbox, mailbox, hsockets]
  box := .inl (by rw [mailbox, mailbox, hsockets])
  bits := by rw [socketShutdownBits, socketShutdownBits, hbits]
  names path := by rw [hnames]

section
variable (k : Kernel σ)

theorem fdEntry_touch_any (pid q : Pid) (fd : Nat) :
    (k.touch pid).fdEntry q fd = k.fdEntry q fd := by
  rw [fdEntry, fdEntry, k.process_touch_any]

theorem aside_touch (pid : Pid) : k.Aside b c (k.touch pid) :=
  .of_records (fun p fd => by rw [k.fdEntry_touch_any]) rfl rfl rfl

theorem Aside.refl : k.Aside b c k := .of_records (fun _ _ => Iff.rfl) rfl rfl rfl

theorem mailbox_setKind (id : Nat) (kind : SocketKind) (x : Nat) :
    (k.setKind id kind).mailbox x =
      if x = id then (k.sockets.get? id).bind (fun _ => kind.mailbox) else k.mailbox x := by
  rw [mailbox, get?_setKind]
  split_ifs
  · cases k.sockets.get? id <;> rfl
  · rfl

end

/-- The client's own entry is rewritten, with its queues as they were. -/
theorem aside_setKind (hne : b ≠ c) (hs : k.sockets.get? c = some s)
    (hbox : kind.mailbox = s.kind.mailbox) :
    k.Aside b c (k.setKind c kind) where
  fds _ _ := Iff.rfl
  entry := by rw [get?_setKind, if_neg hne]
  client hk s' hs' := by
    rw [get?_setKind, if_pos rfl, hs] at hs'
    cases hs'
    rw [hbox]
    exact hk s hs
  boxes x hx := by rw [mailbox_setKind, if_neg hx]
  box := .inl (by rw [mailbox_setKind, if_pos rfl, mailbox, hs]; exact hbox)
  bits := rfl
  names _ := rfl

end Kernel

/-! ### The client's calls -/

theorem SocketKind.mailbox_eq (h : kind.mailbox ≠ none) :
    ∃ peer pp bp rx rights isOpen, kind = .unixDatagram peer pp bp rx rights isOpen := by
  cases kind with
  | unixDatagram peer pp bp rx rights isOpen => exact ⟨peer, pp, bp, rx, rights, isOpen, rfl⟩
  | _ => exact absurd rfl h

namespace Kernel

theorem aside_connect (kh : Kh σ) (hne : b ≠ c)
    (hclient : ∀ s, k.sockets.get? c = some s → s.kind.mailbox ≠ none)
    (hfd : k.fdEntry pid (u32At request 0) = some (.socket c)) :
    k.Aside b c (k.sysSocketConnect kh pid request).2 := by
  have htouch := k.aside_touch (b := b) (c := c) pid
  obtain ⟨-, hidle⟩ | ⟨id, s, hid, hs, ⟨_, _, hk, -⟩ | ⟨peer, pp, bp, rx, q, isOpen, path, hk, -, hr⟩⟩ :=
    k.connect_cases kh pid request
  · exact hidle.keeps (.refl k) htouch
  · cases hfd.symm.trans (socketIdForFd_ok hid).1
    exact absurd (congrArg SocketKind.mailbox hk) (hclient s hs)
  · cases hfd.symm.trans (socketIdForFd_ok hid).1
    have hs' : (k.touch pid).sockets.get? c = some s := hs
    rw [hr, connectUnixDatagram]
    split
    · exact htouch
    · simp only [hs', Option.map_some, hk]
      exact htouch.trans (aside_setKind hne hs' (by rw [hk]; rfl))

theorem socketShutdownBits_orShutdown (k : Kernel σ) (id bits x : Nat) :
    (k.orShutdown id bits).socketShutdownBits x =
      if x = id then k.socketShutdownBits x ||| bits else k.socketShutdownBits x := by
  rw [orShutdown, socketShutdownBits, get?_insert]
  split_ifs with hx
  · rw [hx]
    rfl
  · rfl

theorem aside_orShutdown (k : Kernel σ) {id : Nat} (bits : Nat) (hid : b ≠ id) :
    k.Aside b c (k.orShutdown id bits) where
  fds _ _ := Iff.rfl
  entry := rfl
  client hk := hk
  boxes _ _ := rfl
  box := .inl rfl
  bits := by rw [socketShutdownBits_orShutdown, if_neg hid]
  names _ := rfl

theorem aside_socketShutdownApply (k : Kernel σ) {how : Nat} (hne : b ≠ c)
    (hspares : how = 0 ∨ k.peerOf c ≠ some b) : k.Aside b c (k.socketShutdownApply c how) := by
  unfold socketShutdownApply
  dsimp only
  generalize hbits : (if how = 0 then 1 else if how = 1 then 2 else 3) = bits
  have hown := k.aside_orShutdown (c := c) bits hne
  split
  · exact hown
  · rename_i hread
    have hpeerOf : k.peerOf c ≠ some b := by
      refine hspares.resolve_left fun hzero => hread ?_
      rw [← hbits, if_pos hzero]
      rfl
    split
    · next peer hpeer =>
      have hother : b ≠ peer := by
        rintro rfl
        exact hpeerOf hpeer
      split_ifs
      · exact hown.trans (aside_orShutdown _ 4 hother)
      · exact hown
    · exact hown

theorem aside_shutdown (hne : b ≠ c)
    (hfd : k.fdEntry pid (u32At request 0) = some (.socket c))
    (hspares : u32At request 4 = 0 ∨ k.peerOf c ≠ some b) :
    k.Aside b c (k.sysSocketShutdown pid request).2 := by
  unfold sysSocketShutdown
  split_ifs
  · exact .refl k
  · exact .refl k
  · rw [hfd]
    exact (k.aside_touch pid).trans ((k.touch pid).aside_socketShutdownApply hne hspares)

/-! ### Closing the client -/

theorem fdEntry_removeFd (k : Kernel σ) (pid q : Pid) (fd fd' : Nat) : (k.removeFd pid fd).fdEntry q fd' =
      if q = pid ∧ fd' = fd then none else k.fdEntry q fd' := by
  by_cases hq : q = pid
  · rw [fdEntry, hq, removeFd, process_updProcess]
    simp only [true_and]
    change ((k.process pid).fdTable.entries.erase fd).get? fd' = _
    rw [get?_erase]
    rfl
  · rw [if_neg (fun h => hq h.1), fdEntry, removeFd, process,
      get?_updProcess_ne hq, fdEntry, process]

theorem aside_removeFd (hne : b ≠ c) (hfd : k.fdEntry pid fd = some (.socket c)) :
    k.Aside b c (k.removeFd pid fd) := by
  refine .of_records (fun p fd' => ?_) rfl rfl rfl
  rw [fdEntry_removeFd]
  split_ifs with hsame
  · rw [hsame.1, hsame.2, hfd]
    simpa using Ne.symm hne
  · exact Iff.rfl

/-- A reference less, but not the last. -/
theorem aside_lowered (hne : b ≠ c) (hs : k.sockets.get? c = some s) : k.Aside b c (k.lowered c s) where
  fds _ _ := Iff.rfl
  entry := get?_insert_ne _ _ hne
  client hk s' hs' := by
    rw [lowered, get?_insert_self] at hs'
    cases hs'
    exact hk s hs
  boxes x hx := by rw [mailbox, lowered, get?_insert_ne _ _ hx, mailbox]
  box := .inl (by rw [mailbox, lowered, get?_insert_self, mailbox, hs]; rfl)
  bits := rfl
  names _ := rfl

end Kernel

theorem SocketKind.mailbox_closePeer (kind : SocketKind) : kind.closePeer.mailbox = kind.mailbox := by
  cases kind <;> rfl

namespace Kernel

theorem aside_closePeer (k : Kernel σ) {peer : Option Nat} (hpeer : peer ≠ some b) :
    k.Aside b c (k.closePeer peer) := by
  cases peer with
  | none => exact .refl k
  | some id =>
    have hid : b ≠ id := fun h => hpeer (congrArg some h.symm)
    have hget : ∀ x, (k.closePeer (some id)).sockets.get? x =
        if x = id then (k.sockets.get? id).map (fun s => { s with kind := s.kind.closePeer })
        else k.sockets.get? x := fun x => by
      rw [closePeer, get?_modify]
    have hbox : ∀ x, (k.closePeer (some id)).mailbox x = k.mailbox x := by
      intro x
      rw [mailbox, hget, mailbox]
      split_ifs with hx
      · rw [hx]
        cases k.sockets.get? id with
        | none => rfl
        | some s => exact s.kind.mailbox_closePeer
      · rfl
    refine ⟨fun _ _ => Iff.rfl, ?_, fun hk s hs => ?_, fun x _ => hbox x, .inl (hbox c), rfl, fun _ => rfl⟩
    · rw [hget, if_neg hid]
    · rw [hget] at hs
      split_ifs at hs with hc
      · cases hold : k.sockets.get? id with
        | none =>
          rw [hold] at hs
          cases hs
        | some old =>
          rw [hold] at hs
          cases hs
          rw [SocketKind.mailbox_closePeer]
          exact hk old (by rw [hc, hold])
      · exact hk s hs

/-- The client is gone, and no name led to it. -/
theorem aside_dropSocket (hne : b ≠ c) (hlisted : ∀ path, k.unixDatagrams.get? path ≠ some c) :
    k.Aside b c (k.dropSocket c) where
  fds _ _ := Iff.rfl
  entry := by
    rw [dropSocket, get?_erase, if_neg hne]
  client _ s hs := by
    rw [dropSocket, get?_erase, if_pos rfl] at hs
    cases hs
  boxes x hx := by
    rw [mailbox, dropSocket, get?_erase, if_neg hx, mailbox]
  box := .inr hlisted
  bits := by
    rw [socketShutdownBits, dropSocket, get?_erase, if_neg hne, socketShutdownBits]
  names _ := rfl

/-- A name that leads nowhere is taken out of the registry. -/
theorem aside_eraseName {path : Bytes} (hpath : k.unixDatagrams.get? path = none) :
    k.Aside b c { k with unixDatagrams := k.unixDatagrams.erase path } where
  fds _ _ := Iff.rfl
  entry := rfl
  client hk := hk
  boxes _ _ := rfl
  box := .inl rfl
  bits := rfl
  names p := by
    rw [get?_erase]
    split_ifs with hp
    · rw [hp, hpath]
    · rfl

theorem aside_socketDecRef (hne : b ≠ c)
    (hclient : ∀ s, k.sockets.get? c = some s → s.kind.mailbox ≠ none)
    (hspares : (∃ s, k.sockets.get? c = some s ∧ 1 < s.refs) ∨ k.peerOf c ≠ some b ∧ k.Unlisted c) :
    k.Aside b c (k.socketDecRef c).2 ∧ (k.socketDecRef c).1 = none := by
  cases hs : k.sockets.get? c with
  | none =>
    simp only [socketDecRef, socketDecRefAux, hs]
    exact ⟨.refl k, trivial⟩
  | some s =>
    obtain ⟨peer, pp, bp, rx, rights, isOpen, hkind⟩ := SocketKind.mailbox_eq (hclient s hs)
    have hlowered := aside_lowered (k := k) hne hs
    rw [socketDecRef, socketDecRefAux_some hs]
    by_cases hmore : s.refs - 1 ≠ 0
    · rw [if_pos hmore]
      exact ⟨hlowered, rfl⟩
    · rw [if_neg hmore, hkind]
      obtain ⟨hpeer, hlisted, hbound⟩ := hspares.resolve_left (by
        rintro ⟨s', hs', hrefs⟩
        rw [hs] at hs'
        cases hs'
        omega)
      have hpeer' : peer ≠ some b := by
        rw [peerOf, hs, Option.bind_some, hkind] at hpeer
        exact hpeer
      have hdrop : ∀ k1 : Kernel σ, (∀ path, k1.unixDatagrams.get? path ≠ some c) →
          k1.Aside b c ((k1.closePeer peer).dropSocket c) := fun k1 hk1 => by
        have hclosed := k1.aside_closePeer (c := c) hpeer'
        exact hclosed.trans (aside_dropSocket hne fun path => by
          rw [hclosed.names]
          exact hk1 path)
      cases bp with
      | none => exact ⟨hlowered.trans (hdrop _ hlisted), rfl⟩
      | some path =>
        have hnone : k.unixDatagrams.get? path = none := hbound path (by
          rw [boundPathOf, hs, Option.bind_some, hkind]
          rfl)
        have herased := aside_eraseName (b := b) (c := c) (k := k.lowered c s) hnone
        exact ⟨(hlowered.trans herased).trans (hdrop _ fun p => by
          rw [herased.names]
          exact hlisted p), rfl⟩

theorem aside_closeFdNumber (kh : Kh σ) (hne : b ≠ c)
    (hclient : ∀ s, k.sockets.get? c = some s → s.kind.mailbox ≠ none)
    (hfd : k.fdEntry pid fd = some (.socket c))
    (hspares : (∃ s, k.sockets.get? c = some s ∧ 1 < s.refs) ∨ k.peerOf c ≠ some b ∧ k.Unlisted c) :
    k.Aside b c (k.closeFdNumber kh pid fd).2 := by
  have hremoved := aside_removeFd (k := k) hne hfd
  obtain ⟨hclosed, hhandle⟩ := aside_socketDecRef (k := k.removeFd pid fd) hne hclient hspares
  unfold closeFdNumber
  rw [hfd]
  simp only [closeEntry]
  generalize (k.removeFd pid fd).socketDecRef c = r at hclosed hhandle ⊢
  obtain ⟨handle, k'⟩ := r
  obtain rfl : handle = none := hhandle
  exact hremoved.trans hclosed

/-! ### Datagrams -/

theorem deliverPacket_none (gone : Int) {packet : UnixDatagramPacket} {rights : List FdEntry}
    (h : k.mailbox x = none) : k.deliverPacket gone x packet rights = (-gone, k) := by
  unfold deliverPacket
  cases hs : k.sockets.get? x with
  | none => rfl
  | some s =>
    rw [mailbox, hs, Option.bind_some] at h
    obtain ⟨refs, domain, sockType, noDelay, kind⟩ := s
    cases kind with
    | unixDatagram peer pp bp rx q isOpen => cases h
    | _ => rfl

theorem deliverPacket_some (gone : Int) (packet : UnixDatagramPacket) (rights : List FdEntry)
    {rx : List UnixDatagramPacket} {q : List (List FdEntry)} (h : k.mailbox x = some (rx, q)) :
    ∃ s peer pp bp isOpen, k.sockets.get? x = some s ∧ s.kind = .unixDatagram peer pp bp rx q isOpen ∧
      k.deliverPacket gone x packet rights =
        if !hasBufferCapacity (datagramQueueBytes rx) packet.data.length ||
          rightsQueueFull rights q.length then (-EAGAIN, k)
        else (packet.data.length,
          k.setKind x (.unixDatagram peer pp bp (rx ++ [packet]) (pushRights q rights) isOpen)) := by
  cases hs : k.sockets.get? x with
  | none =>
    rw [mailbox, hs] at h
    cases h
  | some s =>
    rw [mailbox, hs, Option.bind_some] at h
    obtain ⟨peer, pp, bp, rx', q', isOpen, hkind⟩ := SocketKind.mailbox_eq (show s.kind.mailbox ≠ none by
      rw [h]
      exact Option.some_ne_none _)
    rw [hkind] at h
    obtain ⟨rfl, rfl⟩ := Prod.mk.inj (Option.some.inj h)
    refine ⟨s, peer, pp, bp, isOpen, rfl, hkind, ?_⟩
    unfold deliverPacket
    rw [hs, Option.map_some, hkind]

end Kernel

namespace Kernel.Alike
variable (kh : Kh σ) (h : k.Alike b c k₀)
include h

/-- The same packet delivered in both kernels. -/
theorem deliverPacket (gone : Int) (packet : UnixDatagramPacket)
    (rights : List FdEntry) (hx : k.mailbox x = k₀.mailbox x) :
    (k.deliverPacket gone x packet rights).1 = (k₀.deliverPacket gone x packet rights).1 ∧
    (k.deliverPacket gone x packet rights).2.Alike b c (k₀.deliverPacket gone x packet rights).2 := by
  cases hbox : k.mailbox x with
  | none =>
    rw [deliverPacket_none gone hbox, deliverPacket_none gone (hx.symm.trans hbox)]
    exact ⟨rfl, h⟩
  | some box =>
    obtain ⟨rx, q⟩ := box
    obtain ⟨s, peer, pp, bp, isOpen, hs, hkind, heq⟩ := deliverPacket_some gone packet rights hbox
    obtain ⟨s₀, peer₀, pp₀, bp₀, isOpen₀, hs₀, hkind₀, heq₀⟩ :=
      deliverPacket_some gone packet rights (hx.symm.trans hbox)
    rw [heq, heq₀]
    split_ifs
    · exact ⟨rfl, h⟩
    · have hboxes : ∀ y, k.mailbox y = k₀.mailbox y →
          (k.setKind x (.unixDatagram peer pp bp (rx ++ [packet]) (pushRights q rights) isOpen)).mailbox y =
          (k₀.setKind x (.unixDatagram peer₀ pp₀ bp₀ (rx ++ [packet]) (pushRights q rights)
            isOpen₀)).mailbox y := by
        intro y hy
        rw [mailbox_setKind, mailbox_setKind, hs, hs₀]
        split_ifs
        · rfl
        · exact hy
      refine ⟨rfl, h.fds, ?_, ⟨?_, ?_⟩, fun s' hs' => ?_, fun y hy => hboxes y (h.boxes y hy),
        h.box.imp_left (hboxes c), h.bits, h.names⟩
      · rw [get?_setKind, get?_setKind]
        split_ifs with hbx
        · -- the packet is for the server, whose entries are the same
          rw [← hbx] at hs hs₀ ⊢
          obtain rfl : s = s₀ := Option.some.inj (hs.symm.trans (h.entry.trans hs₀))
          rw [hkind] at hkind₀
          obtain ⟨rfl, rfl, rfl, -, -, rfl⟩ := SocketKind.unixDatagram.inj hkind₀
          rw [hs, hs₀]
        · exact h.entry
      · rw [mailbox_setKind, hs]
        split_ifs
        · exact Option.some_ne_none _
        · exact h.server.1
      · rw [peerOf, get?_setKind]
        split_ifs with hbx
        · rw [hs]
          have hpeer := h.server.2
          rw [peerOf, hbx, hs, Option.bind_some, hkind] at hpeer
          exact hpeer
        · exact h.server.2
      · rw [get?_setKind] at hs'
        split_ifs at hs' with hcx
        · rw [hs] at hs'
          cases hs'
          exact Option.some_ne_none _
        · exact h.client s' hs'

/-- The datagram of a client's send reaches the server in both kernels. -/
theorem clientSend (hne : b ≠ c) (hfd : k.fdEntry pid (u32At request 0) = some (.socket c))
    (hspares : k.peerOf c = none ∨ k.peerOf c = some b) :
    (k.sysSocketSend kh pid request).2.Alike b c
      (match k.clientPacket b c (.send request) with
        | some packet => (k₀.deliverPacket EPIPE b packet []).2
        | none => k₀) := by
  have htouch := h.aside (k.aside_touch pid)
  unfold sysSocketSend clientPacket
  cases hs : k.sockets.get? c with
  | none =>
    by_cases hlen : request.length < 4
    · rw [if_pos hlen]
      exact h
    · rw [if_neg hlen, socketIdForFd, hfd]
      dsimp only
      rw [if_neg (by simp [contains_iff, hs])]
      exact htouch
  | some s =>
    obtain ⟨peer, pp, bp, rx, rights, isOpen, hkind⟩ := SocketKind.mailbox_eq (h.client s hs)
    have hs' : (k.touch pid).sockets.get? c = some s := hs
    have hshut : (k.touch pid).writeShut c = k.writeShut c := rfl
    by_cases hlen : request.length < 4
    · rw [if_pos hlen, Option.map_some, hkind]
      have hnone : ¬ (4 ≤ request.length) := not_le.mpr hlen
      cases peer with
      | none => exact h
      | some peer =>
        cases isOpen with
        | false => exact h
        | true =>
          simp only [hnone, false_and, and_false, if_false]
          exact h
    · rw [if_neg hlen, socketIdForFd, hfd]
      dsimp only
      rw [if_pos (contains_iff.mpr ⟨s, hs⟩)]
      simp only [socketSendId, hs', hshut, Option.map_some, hkind]
      cases peer with
      | none =>
        split_ifs
        · exact htouch
        · exact htouch
      | some peer =>
        obtain rfl : peer = b := by
          rw [peerOf, hs, Option.bind_some, hkind] at hspares
          exact Option.some.inj (hspares.resolve_left (Option.some_ne_none _))
        cases isOpen with
        | false =>
          split_ifs
          · exact htouch
          · exact htouch
        | true =>
          by_cases hw : k.writeShut c = true
          · simp only [hw, if_true, Bool.not_true, Bool.false_eq_true, and_false, if_false]
            exact htouch
          · rw [Bool.not_eq_true] at hw
            simp only [hw, Bool.false_eq_true, if_false, Bool.not_false, and_true, true_and, if_true,
              if_pos (not_lt.mp hlen)]
            exact (htouch.deliverPacket EPIPE _ [] (htouch.boxes peer hne)).2

/-! ### The server's calls -/

theorem touch (pid : Pid) : (k.touch pid).Alike b c (k₀.touch pid) := by
  have hleft := h.aside (k.aside_touch pid)
  exact ⟨fun p fd => by rw [hleft.fds, k₀.fdEntry_touch_any], hleft.entry, hleft.server, hleft.client,
    hleft.boxes, hleft.box, hleft.bits, hleft.names⟩

/-- The server's entry is rewritten in both kernels. -/
theorem setKind (hne : b ≠ c) (hbox : kind.mailbox ≠ none) (hpeer : kind.peer? ≠ some c) :
    (k.setKind b kind).Alike b c (k₀.setKind b kind) := by
  have hentry : (k.setKind b kind).sockets.get? b = (k₀.setKind b kind).sockets.get? b := by
    rw [get?_setKind, get?_setKind, h.entry]
  have hboxes : ∀ x, k.mailbox x = k₀.mailbox x →
      (k.setKind b kind).mailbox x = (k₀.setKind b kind).mailbox x := by
    intro x hx
    rw [mailbox_setKind, mailbox_setKind, h.entry, hx]
  cases hs : k.sockets.get? b with
  | none =>
    have hserver := h.server.1
    rw [mailbox, hs] at hserver
    exact absurd rfl hserver
  | some s =>
    refine ⟨h.fds, hentry, ⟨?_, ?_⟩, fun s' hs' => ?_, fun x hx => hboxes x (h.boxes x hx),
      h.box.imp_left (hboxes c), h.bits, h.names⟩
    · rw [mailbox_setKind, if_pos rfl, hs]
      exact hbox
    · rw [peerOf, get?_setKind, if_pos rfl, hs]
      exact hpeer
    · rw [get?_setKind, if_neg (Ne.symm hne)] at hs'
      exact h.client s' hs'

/-- The server's socket. -/
theorem socket : ∃ s peer pp bp rx rights isOpen, k.sockets.get? b = some s ∧ k₀.sockets.get? b = some s ∧
      s.kind = .unixDatagram peer pp bp rx rights isOpen ∧ peer ≠ some c := by
  obtain ⟨hbox, hpeer⟩ := h.server
  cases hs : k.sockets.get? b with
  | none =>
    rw [mailbox, hs] at hbox
    exact absurd rfl hbox
  | some s =>
    rw [mailbox, hs, Option.bind_some] at hbox
    rw [peerOf, hs, Option.bind_some] at hpeer
    obtain ⟨peer, pp, bp, rx, rights, isOpen, hkind⟩ := SocketKind.mailbox_eq hbox
    rw [hkind] at hpeer
    exact ⟨s, peer, pp, bp, rx, rights, isOpen, rfl, h.entry.symm.trans hs, hkind, hpeer⟩

theorem socketIdForFd (hfd : k.fdEntry pid fd = some (.socket b)) :
    k.socketIdForFd pid fd = .ok b ∧ k₀.socketIdForFd pid fd = .ok b := by
  obtain ⟨s, -, -, -, -, -, -, hs, hs₀, -, -⟩ := h.socket
  rw [Kernel.socketIdForFd, Kernel.socketIdForFd, hfd, (h.fds pid fd).mp hfd]
  exact ⟨if_pos (contains_iff.mpr ⟨s, hs⟩), if_pos (contains_iff.mpr ⟨s, hs₀⟩)⟩

theorem readShut : k.readShut b = k₀.readShut b := by rw [Kernel.readShut, Kernel.readShut, h.bits]

theorem writeShut : k.writeShut b = k₀.writeShut b := by rw [Kernel.writeShut, Kernel.writeShut, h.bits]

theorem socketPeerWriteClosed : k.socketPeerWriteClosed b = k₀.socketPeerWriteClosed b := by
  rw [Kernel.socketPeerWriteClosed, Kernel.socketPeerWriteClosed, h.bits]

end Kernel.Alike

/-- A call of the server has the same answer in both kernels and leaves them alike. -/
def Kernel.SameCall {ρ : Type} (b c : Nat) (r r₀ : ρ × Kernel σ) : Prop := r.1 = r₀.1 ∧ r.2.Alike b c r₀.2

namespace Kernel.Alike
variable (kh : Kh σ) (h : k.Alike b c k₀)
include h

theorem serverSend (hfd : k.fdEntry pid (u32At request 0) = some (.socket b)) :
    SameCall b c (k.sysSocketSend kh pid request) (k₀.sysSocketSend kh pid request) := by
  obtain ⟨hid, hid₀⟩ := h.socketIdForFd hfd
  obtain ⟨s, peer, pp, bp, rx, rights, isOpen, hs, hs₀, hkind, hpeer⟩ := (h.touch pid).socket
  unfold sysSocketSend
  split_ifs
  · exact ⟨rfl, h⟩
  · rw [hid, hid₀]
    simp only [socketSendId, hs, hs₀, (h.touch pid).writeShut, Option.map_some, hkind]
    split_ifs
    · exact ⟨rfl, h.touch pid⟩
    · cases peer with
      | none => exact ⟨rfl, h.touch pid⟩
      | some peer =>
        have hother : peer ≠ c := fun hc => hpeer (congrArg some hc)
        cases isOpen with
        | false => exact ⟨rfl, h.touch pid⟩
        | true => exact (h.touch pid).deliverPacket EPIPE _ [] ((h.touch pid).boxes peer hother)

theorem serverSendto (hfd : k.fdEntry pid (u32At request 0) = some (.socket b)) :
    SameCall b c (k.sysSocketSendto pid request) (k₀.sysSocketSendto pid request) := by
  obtain ⟨hid, hid₀⟩ := h.socketIdForFd hfd
  have htouch := h.touch pid
  obtain ⟨s, peer, pp, bp, rx, rights, isOpen, hs, hs₀, hkind, -⟩ := htouch.socket
  unfold sysSocketSendto
  dsimp only
  split_ifs
  · exact ⟨rfl, h⟩
  · exact ⟨rfl, h⟩
  · exact ⟨rfl, h⟩
  · rw [hid, hid₀]
    simp only [socketSendtoId, hs, hs₀, htouch.writeShut, Option.map_some, hkind, ← htouch.names]
    split_ifs
    · exact ⟨rfl, htouch⟩
    · split
      · exact ⟨rfl, htouch⟩
      · split
        · exact ⟨rfl, htouch⟩
        · next target htarget =>
          refine htouch.deliverPacket ECONNREFUSED _ [] ?_
          by_cases hc : target = c
          · rw [hc] at htarget ⊢
            exact htouch.box.resolve_right fun hnone => hnone _ htarget
          · exact htouch.boxes target hc

theorem serverRecv (hne : b ≠ c) (hfd : k.fdEntry pid (u32At request 0) = some (.socket b))
    (cap : Nat) :
    SameCall b c (k.sysSocketRecv kh pid request cap) (k₀.sysSocketRecv kh pid request cap) := by
  obtain ⟨hid, hid₀⟩ := h.socketIdForFd hfd
  have htouch := h.touch pid
  obtain ⟨s, peer, pp, bp, rx, rights, isOpen, hs, hs₀, hkind, hpeer⟩ := htouch.socket
  unfold sysSocketRecv
  split_ifs
  · exact ⟨rfl, h⟩
  · exact ⟨rfl, h⟩
  · rw [hid, hid₀]
    simp only [socketRecvId, hs, hs₀, htouch.readShut, hkind, htouch.socketPeerWriteClosed]
    split_ifs
    · exact ⟨rfl, htouch⟩
    · exact ⟨rfl, htouch⟩
    · cases rx with
      | nil | cons => exact ⟨rfl, htouch⟩
    · cases rx with
      | nil => exact ⟨rfl, htouch⟩
      | cons packet rest => exact ⟨rfl, htouch.setKind hne (Option.some_ne_none _) hpeer⟩

theorem serverRecvfrom (hne : b ≠ c) (hfd : k.fdEntry pid (u32At request 0) = some (.socket b))
    (cap : Nat) :
    SameCall b c (k.sysSocketRecvfrom pid request cap) (k₀.sysSocketRecvfrom pid request cap) := by
  obtain ⟨hid, hid₀⟩ := h.socketIdForFd hfd
  have htouch := h.touch pid
  obtain ⟨s, peer, pp, bp, rx, rights, isOpen, hs, hs₀, hkind, hpeer⟩ := h.socket
  unfold sysSocketRecvfrom
  split
  · exact ⟨rfl, h⟩
  dsimp only
  by_cases hcap : cap < u32At request 8 + 8
  · rw [if_pos hcap, if_pos hcap]
    exact ⟨rfl, h⟩
  · rw [if_neg hcap, if_neg hcap, hid, hid₀]
    simp only [hs, hs₀, h.readShut, h.socketPeerWriteClosed, Option.map_some, hkind]
    split_ifs
    · exact ⟨rfl, htouch⟩
    · exact ⟨rfl, htouch⟩
    · cases rx with
      | nil | cons => exact ⟨rfl, htouch⟩
    · cases rx with
      | nil => exact ⟨rfl, htouch⟩
      | cons packet rest => exact ⟨rfl, htouch.setKind hne (Option.some_ne_none _) hpeer⟩

end Kernel.Alike

/-! ### Runs -/

theorem Kernel.SameCall.onlyCode {r r₀ : Int × Kernel σ} (h : SameCall b c r r₀) :
    SameCall b c (Yurt.onlyCode r) (Yurt.onlyCode r₀) :=
  ⟨congrArg Reply.code h.1, h.2⟩

theorem Kernel.Alike.serverCall (kh : Kh σ) (h : k.Alike b c k₀) (hne : b ≠ c) {call : SysCall}
    (hcall : call.serverFd = some fd) (hfd : k.fdEntry pid fd = some (.socket b)) :
    SameCall b c (call.run kh k pid) (call.run kh k₀ pid) := by
  cases call <;> cases hcall
  case send request => exact (h.serverSend kh hfd).onlyCode
  case sendto request => exact (h.serverSendto hfd).onlyCode
  case recv request cap => exact h.serverRecv kh hne hfd cap
  case recvfrom request cap => exact h.serverRecvfrom hne hfd cap

theorem Kernel.Alike.undisturbed (kh : Kh σ) (h : k.Alike b c k₀) (hne : b ≠ c) :
    Undisturbed kh b k k₀ := by
  refine fun pid fd hfd => ⟨fun call hcall => (h.serverCall kh hne hcall hfd).1, fun events => ?_⟩
  simp only [pollReventsForFd, hfd, (h.fds pid fd).mp hfd, entryRevents, h.entry]

/-- One step of either side leaves the kernels alike. -/
theorem Kernel.Alike.step (kh : Kh σ) {s : Kernel σ × Kernel σ} (h : s.1.Alike b c s.2) (hne : b ≠ c)
    {call : DatagramCall} (hmeets : call.Meets b c s) :
    (call.step kh b c s).1.Alike b c (call.step kh b c s).2 := by
  cases call with
  | server pid call =>
    obtain ⟨fd, hcall, hfd⟩ := hmeets
    exact (h.serverCall kh hne hcall hfd).2
  | client pid call =>
    obtain ⟨⟨fd, hcall, hfd⟩, hspares⟩ := hmeets
    cases call <;> cases hcall
    case client.connect.refl request => exact h.aside (aside_connect kh hne h.client hfd)
    case client.send.refl request => exact h.clientSend kh hne hfd hspares
    case client.shutdown.refl request => exact h.aside (aside_shutdown hne hfd hspares)
    case client.close.refl request =>
      refine h.aside ?_
      change s.1.Aside b c (s.1.closeFd kh pid request).2
      rw [closeFd, readU32Args_one]
      split_ifs
      · exact .refl _
      · exact aside_closeFdNumber kh hne h.client hfd hspares
    case client.socketClose.refl request =>
      refine h.aside ?_
      change s.1.Aside b c (s.1.sysSocketClose kh pid request).2
      rw [sysSocketClose, hfd]
      split_ifs
      · exact .refl _
      · exact aside_closeFdNumber kh hne h.client hfd hspares

/-- In every run in which the client's calls write through its link to the server by sending only,
    fill no other queue and take no name away, what the server gets is what it gets without the
    client, but for the client's datagrams in its queue. -/
theorem datagram_client_undisturbing (kh : Kh σ) (k : Kernel σ) {b c : Nat} (hne : b ≠ c)
    (hb : k.mailbox b ≠ none) (hc : k.mailbox c ≠ none) (happart : k.peerOf b ≠ some c)
    (calls : List DatagramCall)
    (hrun : Run.Along (DatagramCall.step kh b c) (fun s call => call.Meets b c s) (k, k) calls) :
    Undisturbed kh b (Run.run (DatagramCall.step kh b c) (k, k) calls).1
      (Run.run (DatagramCall.step kh b c) (k, k) calls).2 := by
  have hstart : k.Alike b c k := ⟨fun _ _ => Iff.rfl, rfl, ⟨hb, happart⟩, fun s hs => by
    rw [mailbox, hs] at hc
    exact hc, fun _ _ => rfl, .inl rfl, rfl, fun _ => rfl⟩
  have hend := Run.Along.invariant (DatagramCall.step kh b c)
    (I := fun s : Kernel σ × Kernel σ => s.1.Alike b c s.2)
    (fun s call hmeets h => h.step kh hne hmeets) hrun hstart
  exact hend.undisturbed kh hne

/-- A server bound to `/s` behind descriptor 3 and a client behind descriptor 4, both of process 1. -/
def serverAndClient : Kernel Unit := Run.run (KernelCall.step Kh.absent) (Kernel.new ())
    [.sys 1 (.socketOpen ([1, 2] ++ leBytes 2 0 ++ leBytes 4 0)),
      .sys 1 (.bind (leBytes 4 3 ++ (leBytes 2 1 ++ ascii ['/', 's']))),
      .sys 1 (.socketOpen ([1, 2] ++ leBytes 2 0 ++ leBytes 4 0))]

/-- The client connects to the server. -/
def clientConnects : DatagramCall := .client 1 (.connect (leBytes 4 4 ++ (leBytes 2 1 ++ ascii ['/', 's'])))

/-- The client sends one byte, and shuts its own reading down. -/
def clientSends : List DatagramCall :=
  [clientConnects, .client 1 (.send (leBytes 4 4 ++ [7])),
    .client 1 (.shutdown (leBytes 4 4 ++ leBytes 4 0))]

theorem datagram_client_undisturbing_clientSends : Undisturbed Kh.absent 1
      (Run.run (DatagramCall.step Kh.absent 1 2) (serverAndClient, serverAndClient) clientSends).1
      (Run.run (DatagramCall.step Kh.absent 1 2) (serverAndClient, serverAndClient) clientSends).2 :=
  datagram_client_undisturbing Kh.absent serverAndClient (by decide) (by decide) (by decide) (by decide)
    clientSends ⟨⟨⟨4, by decide, by decide⟩, trivial⟩,
      ⟨⟨4, by decide, by decide⟩, .inr (by decide)⟩,
      ⟨⟨4, by decide, by decide⟩, .inl (by decide)⟩, trivial⟩

/-- The server waits for datagrams; once its client has shut down writing, or is closed, it reads end
    of file, and `poll` says that it was hung up on. -/
theorem datagram_client_ends_server :
    let before := Run.run (DatagramCall.step Kh.absent 1 2) (serverAndClient, serverAndClient)
      [clientConnects]
    let shut := Run.run (DatagramCall.step Kh.absent 1 2) (serverAndClient, serverAndClient)
      [clientConnects, .client 1 (.shutdown (leBytes 4 4 ++ leBytes 4 1))]
    let closed := Run.run (DatagramCall.step Kh.absent 1 2) (serverAndClient, serverAndClient)
      [clientConnects, .client 1 (.close (leBytes 4 4))]
    let recv : SysCall := .recv (leBytes 4 3 ++ leBytes 4 0) 8
    (recv.run Kh.absent before.1 1).1 = .code (-EAGAIN) ∧
    (recv.run Kh.absent shut.1 1).1 = .code 0 ∧ (recv.run Kh.absent shut.2 1).1 = .code (-EAGAIN) ∧
    (recv.run Kh.absent closed.1 1).1 = .code 0 ∧ (recv.run Kh.absent closed.2 1).1 = .code (-EAGAIN) ∧
    (closed.1.pollReventsForFd 1 3 pollin).1 = pollhup ∧
    (closed.2.pollReventsForFd 1 3 pollin).1 = 0 := by
  decide

end Yurt
