import YurtKernel.Kernel.FdVacancy
import YurtKernel.Kernel.Mail
import YurtKernel.Dispatch.Channels

/-! Calls that move messages between sockets.

    Each sending call is the arrival of one message in one box, if it succeeds. Each receiving call
    takes from the front of one box, and a `recvmsg` also takes the front list of descriptors there,
    whether or not it came with the data. -/

namespace Yurt
open Kernel SortedMap
variable {σ : Type} {k : Kernel σ} {pid : Pid}
variable {r : Int × Kernel σ} {rights : List FdEntry} {id fd flags peer t dataCap cap : Nat}
  {k₁ : Kernel σ} {data : Bytes} {received : Reply} {v v' : Ipc} {rc : Int}

/-! ### Sending calls -/

section
variable (k : Kernel σ) (pid : Pid) (fd : Nat)

/-- The socket that the socket behind a descriptor is connected to. -/
def Kernel.peerBehind : Option Nat :=
  match k.fdEntry pid fd with
  | some (.socket id) => k.ipc.peerOf id
  | _ => none

/-- The socket a packet with an address goes to. -/
def Kernel.addressee (addr : Bytes) : Option Nat :=
  match k.fdEntry pid fd with
  | some (.socket _) => (unixPathFromAddr addr).bind k.unixDatagrams.get?
  | _ => none

/-- The message of a call and the socket it is for. -/
def SysCall.post : SysCall → Option (Nat × Message)
  | .write request =>
    if request.length < 4 then none
    else (k.peerBehind pid (u32At request 0)).map (fun t => (t, ⟨request.drop 4, []⟩))
  | .send request =>
    if request.length < 4 then none
    else (k.peerBehind pid (u32At request 0)).map (fun t => (t, ⟨request.drop 4, []⟩))
  | .sendto request =>
    if request.length < 12 ∨ request.length < 12 + u32At request 8 then none
    else (k.addressee pid (u32At request 0) ((request.drop 12).take (u32At request 8))).map
      (fun t => (t, ⟨request.drop (12 + u32At request 8), []⟩))
  | .sendmsg request =>
    if request.length < 12 ∨ request.length < 12 + u32At request 4 + 4 * u32At request 8 then none
    else
      match k.named pid (messageFds request) with
      | some rights => (k.peerBehind pid (u32At request 0)).map
          (fun t => (t, ⟨(request.drop 12).take (u32At request 4), rights⟩))
      | none => none
  | _ => none

/-- The message arrived. -/
def arrived (rc : Int) (dest : Option (Nat × Message)) : Option (Nat × Message) :=
  if 0 ≤ rc then dest else none

/-- What a sending call does to the boxes: its message arrives if the call succeeds. -/
def Kernel.Mails (r : Int × Kernel σ) (dest : Option (Nat × Message)) : Prop :=
  match arrived r.1 dest with
  | some (t, m) => t < k.nextSocketId ∧ k.ipc.Moves r.2.ipc (Ipc.onlyAt t (Box.push m))
  | none => k.ipc.Moves r.2.ipc Ipc.still

end

theorem Kernel.mails_failed (hrc : r.1 < 0) (hquiet : k.ipc.Quiet r.2.ipc)
    (dest : Option (Nat × Message)) : k.Mails r dest := by
  rw [Mails, arrived, if_neg (not_le.mpr hrc)]
  exact hquiet.moves

theorem Kernel.mails_refused (h : k.ipc.Wired) (hr : k.Refuses pid r)
    (dest : Option (Nat × Message)) : k.Mails r dest :=
  mails_failed hr.1 (hr.2.keeps (P := fun k' => k.ipc.Quiet k'.ipc) (h.same rfl) (h.same rfl)) dest

theorem Kernel.mails_none (hmoves : k.ipc.Moves r.2.ipc Ipc.still) : k.Mails r none := by
  rw [Mails, arrived, ite_self]
  exact hmoves

theorem Ipc.Delivers.nonneg (h : v.Delivers v' rc peer data rights) : 0 ≤ rc := by
  rw [h.1]
  exact Int.natCast_nonneg _

theorem Ipc.Delivers.lt (h : v.Delivers v' rc peer data rights) (hw : v.Wired) : peer < v.nextSocket := by
  rcases h.2 with ⟨rx, q, hbox, -⟩ | ⟨rx, q, packet, hbox, -⟩
  · exact hw.lt_of_box (b := .stream rx q) (by rw [Ipc.box, hbox]; rfl)
  · exact hw.lt_of_box (b := .datagram (rx.map UnixDatagramPacket.data) q) (by rw [Ipc.box, hbox]; rfl)

theorem Kernel.mails_delivered (h : k.ipc.Wired) {m : Message}
    (hdelivers : k.ipc.Delivers r.2.ipc r.1 t m.data m.rights) : k.Mails r (some (t, m)) := by
  rw [Mails, arrived, if_pos hdelivers.nonneg]
  exact ⟨hdelivers.lt h, hdelivers.moves h⟩

theorem Ipc.Wired.mails_socketSendId (h : k.ipc.Wired) (kh : Kh σ) (id : Nat) (data : Bytes) :
    k.Mails (k.socketSendId kh id data) ((k.ipc.peerOf id).map (fun t => (t, ⟨data, []⟩))) := by
  rcases h.socketSendId kh id data with ⟨hsame, hneg⟩ | ⟨t, ht, hdelivers⟩
  · have hquiet : k.ipc.Quiet (k.socketSendId kh id data).2.ipc := h.same hsame
    cases hp : k.ipc.peerOf id with
    | none => exact mails_none hquiet.moves
    | some t => exact mails_failed (hneg (by rw [hp]; simp)) hquiet _
  · rw [ht]
    exact mails_delivered h hdelivers

/-- Sending calls that look a socket up. -/
theorem Kernel.mails_socketFd (h : k.ipc.Wired) {dest : Option (Nat × Message)}
    {send : Nat → Int × Kernel σ}
    (hsend : ∀ id, k.fdEntry pid fd = some (.socket id) → k.Mails (send id) dest) :
    k.Mails (match k.socketIdForFd pid fd with
      | .error rc => (rc, k.touch pid)
      | .ok id => send id) dest := by
  cases hid : k.socketIdForFd pid fd with
  | error rc => exact mails_failed (socketIdForFd_neg hid) (h.same rfl) dest
  | ok id => exact hsend id (socketIdForFd_ok hid).1

theorem SysCall.mails_write (h : k.ipc.Wired) (kh : Kh σ) (request : Bytes) :
    k.Mails (k.writeFd kh pid request) (SysCall.post k pid (.write request)) := by
  have hstill : k.ipc.Moves k.ipc Ipc.still := (Ipc.Quiet.refl h).moves
  rcases k.writeFd_cases kh pid request with hrefuses | ⟨hlen, hdone⟩
  · exact mails_refused h hrefuses _
  rw [SysCall.post, if_neg hlen, peerBehind]
  rcases hdone with ⟨f, buffer, ⟨hfd, -⟩ | ⟨hfd, -⟩, hr⟩ | ⟨id, b, hfd, hb, -, hr⟩ |
    ⟨id, o, hfd, -, -, n, vfs, host, -, hr⟩ | ⟨id, hfd, hr⟩
  · rw [hfd, hr]
    exact mails_none hstill
  · rw [hfd, hr]
    exact mails_none hstill
  · rw [hfd, hr]
    exact mails_none (h.moves_putPipe hb _)
  · rw [hfd, hr]
    refine mails_none ?_
    simp only [advance]
    split_ifs <;> exact hstill
  · rw [hfd, hr]
    exact h.mails_socketSendId (k := k.touch pid) kh id _

theorem SysCall.mails_send (h : k.ipc.Wired) (kh : Kh σ) (request : Bytes) :
    k.Mails (k.sysSocketSend kh pid request) (SysCall.post k pid (.send request)) := by
  unfold sysSocketSend
  rw [SysCall.post]
  split
  · exact mails_failed (by decide : -EINVAL < 0) (h.same rfl) _
  refine mails_socketFd h (fun id hfd => ?_)
  rw [peerBehind, hfd]
  exact h.mails_socketSendId (k := k.touch pid) kh id _

theorem SysCall.mails_sendto (h : k.ipc.Wired) (request : Bytes) :
    k.Mails (k.sysSocketSendto pid request) (SysCall.post k pid (.sendto request)) := by
  rcases k.sendto_cases pid request with hrefuses |
    ⟨hlen, id, s, p, pp, bound, rx, q, isOpen, path, target, hfd, -, -, hpath, htarget, hr⟩
  · exact mails_refused h hrefuses _
  rw [SysCall.post, if_neg hlen, addressee, hfd, hr]
  simp only [hpath, Option.bind_some, htarget, Option.map_some]
  rcases Ipc.Wired.deliverPacket (k := k.touch pid) h (by decide : 0 < ECONNREFUSED) target
    ⟨request.drop (12 + u32At request 8), bound⟩ [] with ⟨hrc, hsame⟩ | hdelivers
  · exact mails_failed hrc (by rw [hsame]; exact h.same rfl) _
  · exact mails_delivered h hdelivers

/-! ### Messages with descriptors -/

theorem Kernel.peerOf_incFdEntryRef (k : Kernel σ) (e : FdEntry) (id : Nat) :
    (k.incFdEntryRef e).ipc.peerOf id = k.ipc.peerOf id := by
  cases e with
  | socket x =>
    simp only [incFdEntryRef, socketIncRef, Ipc.peerOf, ipc, get?_modify]
    split_ifs with hx
    · rw [hx]
      cases k.sockets.get? x <;> rfl
    · rfl
  | _ => rfl

/-- Taking references for the descriptors of a message moves no data. -/
theorem Ipc.Wired.cloneFdRights (h : k.ipc.Wired) (pid : Pid) (fds : List Nat)
    (rights : List FdEntry) :
    k.ipc.Quiet (Kernel.cloneFdRights pid fds rights k).2.ipc ∧
      ((Kernel.cloneFdRights pid fds rights k).1 = .error (-EBADF) ∨ ∃ xs, k.named pid fds = some xs ∧
          (Kernel.cloneFdRights pid fds rights k).1 = .ok (rights ++ xs) ∧
          (∀ fd, (Kernel.cloneFdRights pid fds rights k).2.fdEntry pid fd = k.fdEntry pid fd) ∧
          ∀ id, (Kernel.cloneFdRights pid fds rights k).2.ipc.peerOf id = k.ipc.peerOf id) := by
  induction fds generalizing k rights with
  | nil => exact ⟨Ipc.Quiet.refl h, .inr ⟨[], rfl, by simp [Kernel.cloneFdRights], fun _ => rfl,
      fun _ => rfl⟩⟩
  | cons fd fds ih =>
    rw [Kernel.cloneFdRights]
    cases hfd : k.fdEntry pid fd with
    | none => exact ⟨Ipc.Wired.closeEntries (k := k.touch pid) h rights, .inl rfl⟩
    | some e =>
      have hinc := Ipc.Wired.incFdEntryRef (k := k.touch pid) h e
      obtain ⟨hquiet, hresult⟩ := ih hinc.wired (rights ++ [e])
      refine ⟨hinc.trans hquiet, hresult.imp_right ?_⟩
      rintro ⟨xs, hxs, hok, htable, hpeer⟩
      have hsame : ∀ fd', ((k.touch pid).incFdEntryRef e).fdEntry pid fd' = k.fdEntry pid fd' :=
        k.fdEntry_incTouch pid e
      refine ⟨e :: xs, ?_, ?_, fun fd' => (htable fd').trans (hsame fd'), fun id => ?_⟩
      · rw [Kernel.named, funext hsame] at hxs
        rw [Kernel.named, List.mapM_cons, hfd, hxs]
        rfl
      · simpa using hok
      · rw [hpeer, peerOf_incFdEntryRef]
        rfl

theorem Ipc.Wired.peerOf_lt (h : v.Wired) (ht : v.peerOf id = some t) : t < v.nextSocket := by
  rw [Ipc.peerOf, Option.bind_eq_some_iff] at ht
  obtain ⟨s, hs, ht⟩ := ht
  cases hkind : s.kind with
  | unixStream => exact h.peer_lt id s t hs (by rw [hkind] at ht ⊢; exact ht)
  | unixDatagram => exact (h.datagram id s t hs (by rw [hkind] at ht ⊢; exact ht)).1
  | _ =>
    rw [hkind] at ht
    cases ht

theorem SysCall.mails_sendmsg (h : k.ipc.Wired) (request : Bytes) :
    k.Mails (k.sysSocketSendmsg pid request) (SysCall.post k pid (.sendmsg request)) := by
  unfold sysSocketSendmsg
  rw [SysCall.post]
  by_cases hlen : request.length < 12
  · rw [if_pos hlen]
    exact mails_failed (by decide : -EINVAL < 0) (h.same rfl) _
  by_cases hall : request.length < 12 + u32At request 4 + 4 * u32At request 8
  · simp only [if_neg hlen, if_pos hall]
    exact mails_failed (by decide : -EINVAL < 0) (h.same rfl) _
  simp only [if_neg hlen, if_neg hall, if_neg (not_or.mpr ⟨hlen, hall⟩)]
  obtain ⟨hquiet, hresult⟩ := h.cloneFdRights pid (messageFds request) []
  rw [messageFds] at hquiet hresult ⊢
  generalize cloneFdRights pid (words (u32At request 8) (request.drop (12 + u32At request 4)))
    [] k = r at hquiet hresult ⊢
  obtain ⟨result, k'⟩ := r
  rcases hresult with hfailed | ⟨xs, hxs, hok, htable, hpeer⟩
  · obtain rfl : result = .error (-EBADF) := hfailed
    exact mails_failed (by decide : -EBADF < 0) hquiet _
  · obtain rfl : result = .ok xs := hok
    rw [hxs]
    simp only
    have hquiet : k.ipc.Quiet (k'.touch pid).ipc := hquiet
    have hw' : (k'.touch pid).ipc.Wired := hquiet.wired
    have hclose := hquiet.trans (Ipc.Wired.closeEntries hw' xs)
    cases hid : k'.socketIdForFd pid (u32At request 0) with
    | error rc =>
      have hneg : rc < 0 := socketIdForFd_neg hid
      exact mails_failed hneg hclose _
    | ok id =>
      have hfd : k.fdEntry pid (u32At request 0) = some (.socket id) :=
        (htable _).symm.trans (socketIdForFd_ok hid).1
      have hdest : k.peerBehind pid (u32At request 0) = (k'.touch pid).ipc.peerOf id := by
        rw [peerBehind, hfd]
        exact (hpeer id).symm
      rw [hdest]
      rcases hw'.socketSendmsgId id ((request.drop 12).take (u32At request 4)) xs with
        ⟨hneg, hfailed⟩ | ⟨t, ht, hdelivers⟩
      · refine mails_failed hneg ?_ _
        rcases hfailed with hsame | hclosed
        · rw [hsame]
          exact hquiet
        · rw [hclosed]
          exact hclose
      · rw [ht, Option.map_some, Mails, arrived, if_pos hdelivers.nonneg]
        have hlt : t < k.nextSocketId := h.peerOf_lt ((hpeer id).symm.trans ht)
        exact ⟨hlt, hquiet.movesAt (hdelivers.moves hw') hlt⟩

/-! ### Receiving calls -/

/-- A receive that looks at what a socket has; `message` if it takes descriptors. -/
structure Receive where
  id : Nat
  cap : Nat
  peek : Bool
  message : Bool

def Kernel.receiveAt (k : Kernel σ) (pid : Pid) (fd cap flags : Nat) (message : Bool) : Option Receive :=
  match k.fdEntry pid fd with
  | some (.socket id) =>
    if k.readShut id = true ∨ (flags ≠ 0 ∧ flags ≠ msgPeek) then none
    else some ⟨id, cap, flags = msgPeek, message⟩
  | _ => none

def Kernel.hasPackets (k : Kernel σ) (r : Receive) : Bool :=
  match k.ipc.box r.id with
  | some (.datagram _ _) => true
  | _ => false

/-- The receive a call makes; `recvfrom` is for datagrams. -/
def SysCall.receives (k : Kernel σ) (pid : Pid) : SysCall → Option Receive
  | .read request cap =>
    if request.length < 4 then none else k.receiveAt pid (u32At request 0) cap 0 false
  | .recv request cap =>
    if request.length < 8 ∨ cap = 0 then none
    else k.receiveAt pid (u32At request 0) cap (u32At request 4) false
  | .recvfrom request cap =>
    if request.length < 16 ∨ cap < u32At request 8 + 8 then none
    else (k.receiveAt pid (u32At request 0) (u32At request 8) (u32At request 4) false).filter
      k.hasPackets
  | .recvmsg request cap =>
    if request.length < 12 ∨ cap < u32At request 8 + 4 then none
    else k.receiveAt pid (u32At request 0) (u32At request 8) (u32At request 4) true
  | _ => none

namespace Kernel

/-- What a receive without descriptors does: the front of the box is returned, and taken unless it is
    a peek. -/
def Receives (k : Kernel σ) (r : Reply × Kernel σ) (receive : Option Receive) : Prop :=
  match receive with
  | none => k.ipc.Moves r.2.ipc Ipc.still
  | some x => k.ipc.Moves r.2.ipc (Ipc.onlyAt x.id (Box.receive x.cap x.peek)) ∧
      ∀ b, k.ipc.box x.id = some b → r.1.received = (b.front x.cap).getD []

theorem Receives.reply {reply reply' : Reply} {receive : Option Receive}
    (h : k.Receives (reply, k₁) receive) (hreceived : reply'.received = reply.received) :
    k.Receives (reply', k₁) receive := by
  cases receive with
  | none => exact h
  | some x => exact ⟨h.1, fun b hb => hreceived.trans (h.2 b hb)⟩

theorem receiveAt_socket (hfd : k.fdEntry pid fd = some (.socket id)) (cap flags : Nat)
    (message : Bool) : k.receiveAt pid fd cap flags message =
      if k.readShut id = true ∨ (flags ≠ 0 ∧ flags ≠ msgPeek) then none
      else some ⟨id, cap, flags = msgPeek, message⟩ := by
  rw [receiveAt, hfd]

/-- A descriptor that is refused receives nothing. -/
theorem receiveAt_refused (h : k.socketIdForFd pid fd = .error rc) (cap flags : Nat)
    (message : Bool) :
    k.receiveAt pid fd cap flags message = none ∨
      ∃ x, k.receiveAt pid fd cap flags message = some x ∧ k.ipc.box x.id = none := by
  unfold socketIdForFd at h
  rw [receiveAt]
  cases hfd : k.fdEntry pid fd with
  | none => exact .inl rfl
  | some e =>
    cases e with
    | socket id =>
      rw [hfd] at h
      simp only at h ⊢
      split_ifs at h with hthere
      split_ifs
      · exact .inl rfl
      · refine .inr ⟨_, rfl, box_none ?_⟩
        by_contra hsome
        exact hthere (contains_iff.mpr (Option.ne_none_iff_exists'.mp hsome))
    | _ => exact .inl rfl

/-- Nothing happens to boxes that are not there. -/
theorem receives_nothing (h : k.ipc.Wired) {r : Reply × Kernel σ} (hsame : r.2.ipc = k.ipc)
    {receive : Option Receive}
    (hnone : receive = none ∨ ∃ x, receive = some x ∧ k.ipc.box x.id = none) :
    k.Receives r receive := by
  rcases hnone with rfl | ⟨x, rfl, hbox⟩
  · rw [Receives, hsame]
    exact (Ipc.Quiet.refl h).moves
  · refine ⟨?_, fun b hb => by rw [hbox] at hb; cases hb⟩
    rw [hsame]
    refine h.movesAt_same (fun b hb => ?_)
    rw [hbox] at hb
    cases hb

theorem receives_socket (h : k.ipc.Wired) (kh : Kh σ)
    (hfd : k.fdEntry pid fd = some (.socket id)) (cap flags : Nat) (message : Bool) :
    k.Receives ((k.touch pid).socketRecvId kh id cap flags)
      (k.receiveAt pid fd cap flags message) := by
  rw [receiveAt_socket hfd]
  split_ifs with hwhy
  · exact receives_nothing h ((k.touch pid).ipc_socketRecvId_refused kh id cap hwhy)
      (.inl rfl)
  · rw [not_or] at hwhy
    have hflags : flags = 0 ∨ flags = msgPeek := by
      by_contra hno
      exact hwhy.2 (not_or.mp hno)
    obtain ⟨hmoves, hdata⟩ := Ipc.Wired.receive (k := k.touch pid) h kh
      (show k.readShut id = false by simpa using hwhy.1) cap hflags
    refine ⟨hmoves.moves, fun b hb => ?_⟩
    obtain ⟨hsome, hnone⟩ := hdata b hb
    cases hfront : b.front cap with
    | none =>
      rw [hnone hfront]
      rfl
    | some data =>
      rw [hsome data hfront, Reply.received_data]
      rfl

end Kernel

theorem SysCall.receives_read (h : k.ipc.Wired) (kh : Kh σ) (request : Bytes) (cap : Nat) :
    k.Receives (k.readFd kh pid request cap) (SysCall.receives k pid (.read request cap)) := by
  unfold readFd
  rw [SysCall.receives, readU32Args_one]
  by_cases hlen : request.length < 4
  · rw [if_pos hlen, if_pos hlen]
    exact receives_nothing h rfl (.inl rfl)
  rw [if_neg hlen, if_neg hlen]
  simp only
  have hstill : ∀ e, k.fdEntry pid (u32At request 0) = e → (∀ id, e ≠ some (.socket id)) →
      ∀ r : Reply × Kernel σ, k.ipc.Moves r.2.ipc Ipc.still →
      k.Receives r (k.receiveAt pid (u32At request 0) cap 0 false) := by
    intro e he hne r hmoves
    have hnone : k.receiveAt pid (u32At request 0) cap 0 false = none := by
      rw [receiveAt, he]
      cases e with
      | none => rfl
      | some e =>
        cases e with
        | socket id => exact absurd rfl (hne id)
        | _ => rfl
    rw [hnone]
    exact hmoves
  have hsame : k.ipc.Moves k.ipc Ipc.still := (Ipc.Quiet.refl h).moves
  cases hfd : k.fdEntry pid (u32At request 0) with
  | none => exact hstill _ hfd (by simp) _ hsame
  | some e =>
    cases e with
    | stdin =>
      refine hstill _ hfd (by simp) _ ?_
      split_ifs <;> exact hsame
    | stdout | stderr | directory => exact hstill _ hfd (by simp) _ hsame
    | file id =>
      refine hstill _ hfd (by simp) _ ?_
      simp only
      cases k.ofds.get? id with
      | none => exact hsame
      | some o =>
        simp only [advance]
        split_ifs <;> exact hsame
    | socket id => exact receives_socket h kh hfd cap 0 false
    | pipe id side =>
      refine hstill _ hfd (by simp) _ ?_
      cases side with
      | write => exact hsame
      | read =>
        simp only
        cases hb : k.pipes.get? id with
        | none => exact hsame
        | some b =>
          simp only
          split
          · exact hsame
          · exact h.moves_putPipe hb _

theorem SysCall.receives_recv (h : k.ipc.Wired) (kh : Kh σ) (request : Bytes) (cap : Nat) :
    k.Receives (k.sysSocketRecv kh pid request cap) (SysCall.receives k pid (.recv request cap)) := by
  unfold sysSocketRecv
  rw [SysCall.receives]
  by_cases hlen : request.length < 8
  · rw [if_pos hlen, if_pos (.inl hlen)]
    exact receives_nothing h rfl (.inl rfl)
  by_cases hcap : cap = 0
  · rw [if_neg hlen, if_pos hcap, if_pos (.inr hcap)]
    exact receives_nothing h rfl (.inl rfl)
  rw [if_neg hlen, if_neg hcap, if_neg (not_or.mpr ⟨hlen, hcap⟩)]
  cases hid : k.socketIdForFd pid (u32At request 0) with
  | error rc => exact receives_nothing h rfl (receiveAt_refused hid _ _ _)
  | ok id => exact receives_socket h kh (socketIdForFd_ok hid).1 cap _ false

theorem SysCall.receives_recvfrom (h : k.ipc.Wired) (kh : Kh σ) (request : Bytes) (cap : Nat) :
    k.Receives (k.sysSocketRecvfrom pid request cap)
      (SysCall.receives k pid (.recvfrom request cap)) := by
  rw [SysCall.receives]
  rcases k.recvfrom_cases kh pid request cap with ⟨rc, k', hr, hidle, hwhy⟩ | ⟨id, s, hlen, hid, hs, hdone⟩
  · rw [hr]
    refine receives_nothing h (hidle.keeps (P := fun k' => k'.ipc = k.ipc) rfl rfl) (.inl ?_)
    rcases hwhy with hlen | ⟨e, hid⟩
    · rw [if_pos hlen]
    · rcases receiveAt_refused hid (u32At request 8) (u32At request 4) false with hnone | ⟨x, hx, hbox⟩
      · rw [hnone, Option.filter_none, ite_self]
      · rw [hx, Option.filter_some_neg (by simp [hasPackets, hbox]), ite_self]
  -- only a socket with packets is received from
  have hpackets : ∀ x, k.receiveAt pid (u32At request 0) (u32At request 8) (u32At request 4) false = some x →
      k.hasPackets x = s.kind.isDatagram := by
    intro x hx
    rw [receiveAt_socket (socketIdForFd_ok hid).1] at hx
    split_ifs at hx
    cases hx
    rw [hasPackets, box_eq hs]
    cases s.kind <;> rfl
  rw [if_neg hlen]
  rcases hdone with ⟨hkind, hr⟩ | ⟨hkind, reply, k', more, hrecv, hr, hmore⟩ <;> rw [hkind] at hpackets <;> rw [hr]
  · refine receives_nothing h rfl (.inl (Option.filter_eq_none_iff.mpr (fun x hx => ?_)))
    simp [hpackets x hx]
  · have hreceives := receives_socket h kh (socketIdForFd_ok hid).1 (u32At request 8) (u32At request 4) false
    rw [hrecv] at hreceives
    cases hx : k.receiveAt pid (u32At request 0) (u32At request 8) (u32At request 4) false with
    | none =>
      rw [hx] at hreceives
      exact hreceives
    | some x =>
      rw [hx] at hreceives
      rw [Option.filter_some_pos (hpackets x hx)]
      exact hreceives.reply (Reply.received_more hmore)

/-! ### Descriptors handed over -/

/-- The reply, of `cap` bytes, names descriptors of `pid` for `rights`, in order: for all of them, or
    for the first ones and says so. It stops short only where the reply has no room for another number
    or the table has none left below the limit. -/
def Kernel.HandsOver (k : Kernel σ) (pid : Pid) (reply : Reply) (start cap : Nat)
    (rights : List FdEntry) : Prop :=
  ∃ data fds header,
    (reply.writes = data ++ [(start, leBytes 4 header), (start + 4, fds.flatMap (leBytes 4))] ∨
      reply.writes = data ++ [(start, leBytes 4 header)] ∧ fds = []) ∧
    fds.map (k.fdEntry pid) = (rights.take fds.length).map some ∧
    (header = fds.length ∧ fds.length = rights.length ∨
      header = fds.length ||| rightsTruncated ∧ fds.length < rights.length ∧
        (fds.length = (cap - start - 4) / 4 ∨ k.vacant pid 0 = ∅))

theorem Kernel.processes_closeEntries (es : List FdEntry) (k : Kernel σ) :
    (k.closeEntries es).processes = k.processes :=
  List.foldlRecOn (motive := fun k' : Kernel σ => k'.processes = _) es _ rfl
    (fun k' h e _ => (k'.processes_closeEntry e).trans h)

theorem Kernel.fdEntry_closeEntries (k : Kernel σ) (es : List FdEntry) (pid : Pid) (fd : Nat) :
    (k.closeEntries es).fdEntry pid fd = k.fdEntry pid fd := by
  rw [fdEntry, process, processes_closeEntries]
  rfl

namespace Kernel

/-- What the loop makes of the rights: the numbers given out, whether the table was full, and the
    kernel after. -/
structure Delivered (k : Kernel σ) (pid : Pid) (fit : Nat) (rights : List FdEntry)
    (fds : List Nat) (hit : Bool) (k' : Kernel σ) : Prop where
  lowest : FirstFit.Picks (k.vacant pid 0) fds
  refers : fds.map (k'.fdEntry pid) = (rights.take fds.length).map some
  fits : fds.length ≤ fit
  enough : fds.length ≤ rights.length
  cut_iff : fds.length < rights.length ↔ fit < rights.length ∨ hit = true
  full : fds.length < rights.length → fds.length = fit ∨ k'.vacant pid 0 = ∅
  kept : ∀ fd ∉ fds, k'.fdEntry pid fd = k.fdEntry pid fd ∧
    (k'.process pid).fdTable.getDescriptorFlags fd = (k.process pid).fdTable.getDescriptorFlags fd
  others : ∀ q, q ≠ pid → k'.processes.get? q = k.processes.get? q
  closed : k'.withProcesses k.processes = k.closeEntries (rights.drop fds.length)

theorem closeEntries_withProcesses (ps : SortedMap Pid Process) (es : List FdEntry) :
    ∀ k : Kernel σ, (k.withProcesses ps).closeEntries es = (k.closeEntries es).withProcesses ps := by
  induction es with
  | nil => exact fun _ => rfl
  | cons e es ih =>
    intro k
    have hstep := congrArg Prod.snd (k.closeEntry_withProcesses ps e)
    rw [show (k.withProcesses ps).closeEntries (e :: es) =
      ((k.withProcesses ps).closeEntry e).2.closeEntries es from rfl, hstep, ih]
    rfl

/-- Nothing is installed, with or without a look at the table. -/
theorem Delivered.none {fit : Nat} {hit : Bool}
    (hcut : 0 < rights.length ↔ fit < rights.length ∨ hit = true)
    (hfull : 0 < rights.length → 0 = fit ∨ k.vacant pid 0 = ∅) (h : k₁ = k ∨ k₁ = k.touch pid) :
    k.Delivered pid fit rights [] hit (k₁.closeEntries rights) := by
  have hsame : k₁.process pid = k.process pid ∧ (∀ q, q ≠ pid → k₁.processes.get? q = k.processes.get? q) ∧
      k₁.withProcesses k.processes = k := by
    rcases h with rfl | rfl
    · exact ⟨rfl, fun _ _ => rfl, rfl⟩
    · exact ⟨k.process_touch pid, fun q hq => get?_insert_ne _ _ hq, rfl⟩
  obtain ⟨hrecord, hothers, hback⟩ := hsame
  have hrecord' : (k₁.closeEntries rights).process pid = k.process pid := by
    rw [process, processes_closeEntries]
    exact hrecord
  refine ⟨trivial, rfl, Nat.zero_le _, Nat.zero_le _, hcut, ?_, fun fd _ => ?_, fun q hq => ?_, ?_⟩
  · rw [vacant, hrecord']
    exact hfull
  · rw [fdEntry, hrecord']
    exact ⟨rfl, rfl⟩
  · rw [processes_closeEntries]
    exact hothers q hq
  · rw [← closeEntries_withProcesses, hback]
    rfl

theorem delivered_deliverRights (pid : Pid) (rights : List FdEntry) :
    ∀ (fit : Nat) (k : Kernel σ), k.Delivered pid fit rights
      (Kernel.deliverRights pid fit false rights k).1.1
      (Kernel.deliverRights pid fit false rights k).1.2
      (Kernel.deliverRights pid fit false rights k).2 := by
  induction rights with
  | nil =>
    intro fit k
    have hdone : deliverRights pid fit false [] k = (([], false), k) := by cases fit <;> rfl
    rw [hdone]
    exact .none (by simp) (by simp) (.inl rfl)
  | cons e rights ih =>
    intro fit k
    cases fit with
    | zero =>
      rw [deliverRights_stopped pid (.inl rfl)]
      exact .none (by simp) (fun _ => .inl rfl) (.inl rfl)
    | succ fit =>
      cases hfree : k.freeFd pid with
      | none =>
        rw [deliverRights_full hfree]
        have htouch : k.touch pid = k ∨ k.touch pid = k.touch pid := .inr rfl
        exact .none (by simp) (fun _ => .inr (freeFd_none hfree)) htouch
      | some fd =>
        have hrest := ih fit (k.installFd pid fd e)
        rw [deliverRights_free hfree]
        generalize deliverRights pid fit false rights (k.installFd pid fd e) = r at hrest ⊢
        obtain ⟨⟨fds, hit⟩, k'⟩ := r
        obtain ⟨hlowest, hrefers, hfits, henough, hcut, hfull, hkept, hothers, hclosed⟩ := hrest
        rw [vacant_installFd] at hlowest
        refine ⟨⟨freeFd_some hfree, hlowest⟩, ?_, Nat.succ_le_succ hfits, Nat.succ_le_succ henough,
          ?_, ?_, fun fd' hfd' => ?_, fun q hq => ?_, ?_⟩
        · -- the number just given out is not given out again
          have hfd : fd ∉ fds := fun hmem => (hlowest.subset fd hmem).2 rfl
          rw [List.map_cons, hrefers, (hkept fd hfd).1, k.fdEntry_installFd_self]
          rfl
        · simpa using hcut
        · simpa using hfull
        · rw [List.mem_cons, not_or] at hfd'
          obtain ⟨hne, hfd'⟩ := hfd'
          obtain ⟨hentry, hflags⟩ := hkept fd' hfd'
          rw [hentry, hflags, k.fdEntry_installFd_ne pid e hne, process_installFd]
          exact ⟨rfl, FdTable.getDescriptorFlags_install_ne _ e hne⟩
        · exact (hothers q hq).trans (get?_insert_ne _ _ hq)
        · have hback := congrArg (fun k₁ : Kernel σ => k₁.withProcesses k.processes) hclosed
          rw [← closeEntries_withProcesses] at hback
          exact hback

end Kernel

/-- Installed rights are handed over. -/
theorem Kernel.handsOver_install (k : Kernel σ) (pid : Pid) (rights : List FdEntry) (start : Nat)
    (hroom : 4 ≤ cap - start) (rc : Int) (data : List (Nat × Bytes)) :
    (k.installFdRightsTruncated pid rights start (cap - start)).2.HandsOver pid
      ⟨rc, data ++ (k.installFdRightsTruncated pid rights start (cap - start)).1.writes⟩ start cap rights ∧
    0 ≤ (k.installFdRightsTruncated pid rights start (cap - start)).1.rc := by
  have hloop := delivered_deliverRights pid rights ((cap - start - 4) / 4) k
  unfold installFdRightsTruncated
  rw [if_neg (by omega)]
  simp only
  generalize deliverRights pid ((cap - start - 4) / 4) false rights k = r at hloop ⊢
  obtain ⟨⟨fds, hit⟩, k'⟩ := r
  refine ⟨⟨data, fds, _, .inl rfl, hloop.refers, ?_⟩, by simp only; omega⟩
  split_ifs with hcut
  · have hlt := hloop.cut_iff.mpr hcut
    exact .inr ⟨rfl, hlt, hloop.full hlt⟩
  · exact .inl ⟨rfl, hloop.enough.antisymm (not_lt.mp (fun hlt => hcut (hloop.cut_iff.mp hlt)))⟩

theorem Box.rights_receive (b : Box) (cap : Nat) (peek : Bool) :
    (b.receive cap peek).rights = b.rights := by
  cases peek <;> cases b <;> rfl

/-- What a `recvmsg` does to the box it receives from. -/
def Box.receiveMessage (cap : Nat) (peek : Bool) (rc : Int) : Box → Box :=
  if peek = true ∨ rc < 0 then Box.receive cap peek else Box.popRights ∘ Box.receive cap peek

/-- Code of a receive by what it returns. -/
def Kernel.recvCode (k : Kernel σ) (id : Nat) : Option Bytes → Int
  | some data => data.length
  | none => k.emptyCode id

/-- What a `recvmsg` does: bytes from the front of the box, and unless it is a peek the front
    descriptors too, whether or not they came together. -/
def Kernel.ReceivesMessage (k : Kernel σ) (pid : Pid) (r : Reply × Kernel σ) (start cap : Nat)
    (receive : Option Receive) : Prop :=
  match receive with
  | none => k.ipc.Moves r.2.ipc Ipc.still ∧ (0 ≤ r.1.rc → r.2.HandsOver pid r.1 start cap [])
  | some x =>
    k.ipc.Moves r.2.ipc (Ipc.onlyAt x.id (Box.receiveMessage x.cap x.peek r.1.rc)) ∧
    (k.ipc.box x.id = none → 0 ≤ r.1.rc → r.2.HandsOver pid r.1 start cap []) ∧
    ∀ b, k.ipc.box x.id = some b → r.1.received = (b.front x.cap).getD [] ∧
      r.1.rc = k.recvCode x.id (b.front x.cap) ∧
      (0 ≤ r.1.rc → r.2.HandsOver pid r.1 start cap (if x.peek then [] else b.frontRights))

theorem Kernel.readShut_socketRecvId (kh : Kh σ) (k : Kernel σ) (id cap flags id' : Nat) :
    (k.socketRecvId kh id cap flags).2.readShut id' = k.readShut id' := by
  rcases k.socketRecvId_cases kh id cap flags with ⟨host, hr⟩ | ⟨s, kind, -, hr, -⟩
  · rw [hr]
    rfl
  · rw [hr]
    rfl

/-- A socket that holds no descriptors, or is shut down for reading, gives none. -/
theorem Kernel.popRights_nothing (h : k.ipc.Wired)
    (hwhy : k.readShut id = true ∨ k.ipc.box id = none) :
    (k.popRights id).1 = [] ∧ (k.popRights id).2.ipc = k.ipc := by
  rcases h.popRights id with ⟨hnone, hsame, -⟩ | ⟨box, r, q, hopen, hbox, -⟩
  · exact ⟨hnone, hsame⟩
  · rcases hwhy with hshut | hempty
    · rw [hshut] at hopen
      cases hopen
    · rw [Ipc.box, hbox] at hempty
      cases hempty

/-- A receive that asks for what there is not may still succeed on a socket without a box. -/
theorem Kernel.box_of_refused (kh : Kh σ) (cap : Nat) (hshut : ¬ k.readShut id = true)
    (hflags : flags ≠ 0 ∧ flags ≠ msgPeek) (hrc : 0 ≤ (k.socketRecvId kh id cap flags).1.rc) :
    k.ipc.box id = none := by
  obtain ⟨-, -, -, -, hplain⟩ | ⟨s, box, -, -, hr⟩ := k.recv_cases kh id cap flags
  · exact box_plain hplain
  · rw [hr, if_neg hshut, if_pos hflags] at hrc
    exact absurd hrc (by decide : ¬ 0 ≤ -EOPNOTSUPP)

/-- A receive from a box: its code is the number of bytes it returns. -/
theorem Ipc.Wired.receive_rc (h : k.ipc.Wired) (kh : Kh σ) (hshut : k.readShut id = false)
    (cap : Nat) (hflags : flags = 0 ∨ flags = msgPeek) {b : Box} (hb : k.ipc.box id = some b) :
    (k.socketRecvId kh id cap flags).1.received = (b.front cap).getD [] ∧
      (k.socketRecvId kh id cap flags).1.rc = k.recvCode id (b.front cap) := by
  obtain ⟨hsome, hnone⟩ := (h.receive kh hshut cap hflags).2 b hb
  cases hfront : b.front cap with
  | none =>
    rw [hnone hfront]
    exact ⟨rfl, rfl⟩
  | some data =>
    rw [hsome data hfront, Reply.received_data]
    exact ⟨rfl, rfl⟩

/-- The end of a `recvmsg`, once the data was received. -/
def Kernel.finishMessage (pid : Pid) (id flags dataCap cap : Nat) (r : Reply × Kernel σ) :
    Reply × Kernel σ :=
  if r.1.rc < 0 then r
  else if flags = msgPeek then (⟨r.1.rc, r.1.writes ++ [(dataCap, leBytes 4 0)]⟩, r.2)
  else
    let installed := (r.2.popRights id).2.installFdRightsTruncated pid (r.2.popRights id).1 dataCap
      (cap - dataCap)
    (⟨if installed.1.rc < 0 then installed.1.rc else r.1.rc, r.1.writes ++ installed.1.writes⟩, installed.2)

/-- After a receive that gave no data to this call. -/
theorem Kernel.finishMessage_refused (h : k.ipc.Wired) (hroom : 4 ≤ cap - dataCap)
    (hsame : k₁.ipc = k.ipc)
    (hempty : 0 ≤ received.rc → k₁.readShut id = true ∨ k₁.ipc.box id = none) :
    k.ReceivesMessage pid (finishMessage pid id flags dataCap cap (received, k₁)) dataCap cap
      none := by
  have hw₁ : k₁.ipc.Wired := by
    rw [hsame]
    exact h
  have hquiet : k.ipc.Quiet k₁.ipc := h.same hsame
  unfold finishMessage
  split
  · rename_i hneg
    exact ⟨hquiet.moves, fun hpos => absurd hpos (not_le.mpr hneg)⟩
  rename_i hneg
  split
  · exact ⟨hquiet.moves,
      fun _ => ⟨received.writes, [], 0, .inr ⟨rfl, rfl⟩, rfl, .inl ⟨rfl, rfl⟩⟩⟩
  obtain ⟨hnone, hpop⟩ := popRights_nothing hw₁ (hempty (not_lt.mp hneg))
  have hw₂ : (k₁.popRights id).2.ipc.Wired := by
    rw [hpop]
    exact hw₁
  have hinstall := hw₂.fds.installFdRightsTruncated pid (k₁.popRights id).1 dataCap (cap - dataCap)
  rw [hpop, hsame] at hinstall
  refine ⟨hinstall.moves, fun _ => ?_⟩
  have hhands := fun rc => ((k₁.popRights id).2.handsOver_install pid (k₁.popRights id).1 dataCap hroom
    rc received.writes).1
  rw [hnone] at hhands ⊢
  exact hhands _

/-- After a receive from a box. -/
theorem Kernel.finishMessage_taken
    (hlt : id < k.ipc.nextSocket) (hroom : 4 ≤ cap - dataCap)
    (hshut : k₁.readShut id = false)
    (hchanges : k.ipc.Changes k₁.ipc id (Box.receive dataCap (flags = msgPeek)))
    (hwrites : received.writes ≠ [] ∨ received.rc ≤ 0)
    (hdata : ∀ b, k.ipc.box id = some b → received.received = (b.front dataCap).getD [] ∧
      received.rc = k.recvCode id (b.front dataCap)) :
    k.ReceivesMessage pid (finishMessage pid id flags dataCap cap (received, k₁)) dataCap cap
      (some ⟨id, dataCap, flags = msgPeek, true⟩) := by
  have hw₁ := hchanges.moves.wired
  unfold finishMessage
  split
  · rename_i hneg
    refine ⟨?_, fun _ hpos => absurd hpos (not_le.mpr hneg), fun b hb => ?_⟩
    · rw [Box.receiveMessage, if_pos (.inr hneg)]
      exact hchanges.moves
    · obtain ⟨hfront, hrc⟩ := hdata b hb
      exact ⟨hfront, hrc, fun hpos => absurd hpos (not_le.mpr hneg)⟩
  rename_i hneg
  have hpos : 0 ≤ received.rc := not_lt.mp hneg
  have hlater : ∀ more, (⟨received.rc, received.writes ++ more⟩ : Reply).received =
      received.received := fun more => Reply.received_append _ _ _ (hwrites.imp_right (fun hle => by omega))
  split
  · rename_i hpeek
    have hhands : k₁.HandsOver pid ⟨received.rc, received.writes ++ [(dataCap, leBytes 4 0)]⟩ dataCap
        cap [] := ⟨received.writes, [], 0, .inr ⟨rfl, rfl⟩, rfl, .inl ⟨rfl, rfl⟩⟩
    refine ⟨?_, fun _ _ => hhands, fun b hb => ?_⟩
    · rw [Box.receiveMessage, if_pos (.inl (by simpa using hpeek))]
      exact hchanges.moves
    · obtain ⟨hfront, hrc⟩ := hdata b hb
      simp only [hlater, hfront]
      refine ⟨trivial, hrc, fun _ => ?_⟩
      rw [if_pos (by simpa using hpeek)]
      exact hhands
  rename_i hpeek
  obtain ⟨hpop, hrights⟩ := hw₁.moves_popRights hshut
  have hinstall := hpop.wired.fds.installFdRightsTruncated pid (k₁.popRights id).1 dataCap (cap - dataCap)
  obtain ⟨hhands, hnonneg⟩ := (k₁.popRights id).2.handsOver_install pid (k₁.popRights id).1 dataCap
    hroom received.rc received.writes
  simp only [if_neg (not_lt.mpr hnonneg)]
  rw [hchanges.here] at hrights
  refine ⟨?_, fun hbox _ => ?_, fun b hb => ?_⟩
  · rw [Box.receiveMessage, if_neg (by simp [hpeek, hneg])]
    exact (hchanges.moves.atTwice hpop hlt).quiet hinstall
  · rw [hbox] at hrights
    rw [show (k₁.popRights id).1 = [] from hrights] at hhands ⊢
    exact hhands
  · obtain ⟨hfront, hrc⟩ := hdata b hb
    simp only [hlater, hfront]
    refine ⟨trivial, hrc, fun _ => ?_⟩
    rw [hb, Option.map_some, Option.bind_some, Box.rights_receive] at hrights
    rw [if_neg (by simpa using hpeek), Box.frontRights, ← hrights]
    exact hhands

theorem SysCall.receives_recvmsg (h : k.ipc.Wired) (kh : Kh σ) (pid : Pid) (request : Bytes)
    (cap : Nat) :
    k.ReceivesMessage pid (k.sysSocketRecvmsg kh pid request cap) (u32At request 8) cap
      (SysCall.receives k pid (.recvmsg request cap)) := by
  have hfailed : ∀ (rc : Int) (k' : Kernel σ), rc < 0 → k'.ipc = k.ipc → ∀ receive,
      (receive = none ∨ ∃ x, receive = some x ∧ k.ipc.box x.id = none) →
      k.ReceivesMessage pid (.code rc, k') (u32At request 8) cap receive := by
    intro rc k' hrc hsame receive hnone
    have habsurd : ¬ 0 ≤ (Reply.code rc).rc := not_le.mpr hrc
    rcases hnone with rfl | ⟨x, rfl, hbox⟩
    · refine ⟨?_, fun hpos => absurd hpos habsurd⟩
      simp only [hsame]
      exact (Ipc.Quiet.refl h).moves
    · refine ⟨?_, fun _ hpos => absurd hpos habsurd, fun b hb => by rw [hbox] at hb; cases hb⟩
      simp only [hsame]
      exact h.movesAt_same (fun b hb => by rw [hbox] at hb; cases hb)
  unfold sysSocketRecvmsg
  rw [SysCall.receives]
  by_cases hlen : request.length < 12
  · rw [if_pos hlen, if_pos (.inl hlen)]
    exact hfailed _ k (by decide : -EINVAL < 0) rfl _ (.inl rfl)
  by_cases hcap : cap < u32At request 8 + 4
  · simp only [if_neg hlen, if_pos hcap, if_pos (.inr hcap : request.length < 12 ∨ _)]
    exact hfailed _ k (by decide : -EINVAL < 0) rfl _ (.inl rfl)
  simp only [if_neg hlen, if_neg hcap, if_neg (not_or.mpr ⟨hlen, hcap⟩)]
  cases hid : k.socketIdForFd pid (u32At request 0) with
  | error rc =>
    have hneg : rc < 0 := socketIdForFd_neg hid
    exact hfailed rc (k.touch pid) hneg rfl _ (receiveAt_refused hid _ _ _)
  | ok id =>
    obtain ⟨hfd, s, hs⟩ := socketIdForFd_ok hid
    have hw : (k.touch pid).ipc.Wired := h
    have hroom : 4 ≤ cap - u32At request 8 := by omega
    have hshutdown := (k.touch pid).readShut_socketRecvId kh id (u32At request 8) (u32At request 4) id
    change k.ReceivesMessage pid (finishMessage pid id (u32At request 4) (u32At request 8) cap
      ((k.touch pid).socketRecvId kh id (u32At request 8) (u32At request 4))) _ _ _
    rw [receiveAt_socket hfd]
    split
    · rename_i hwhy
      have hsame := (k.touch pid).ipc_socketRecvId_refused kh id (u32At request 8) hwhy
      have hbox := fun hshut hpos => box_of_refused (k := k.touch pid) kh (u32At request 8)
        hshut (hwhy.resolve_left hshut) hpos
      generalize (k.touch pid).socketRecvId kh id (u32At request 8) (u32At request 4) = r
        at hshutdown hsame hbox ⊢
      refine finishMessage_refused h hroom hsame (fun hpos => ?_)
      by_cases hshut : k.readShut id = true
      · exact .inl (hshutdown.trans hshut)
      · rw [hsame]
        exact .inr (hbox hshut hpos)
    · rename_i hwhy
      rw [not_or] at hwhy
      have hshut : k.readShut id = false := by simpa using hwhy.1
      have hflags : u32At request 4 = 0 ∨ u32At request 4 = msgPeek := by
        by_contra hno
        exact hwhy.2 (not_or.mp hno)
      exact finishMessage_taken (h.lt hs) hroom (hshutdown.trans hshut)
        (hw.receive kh hshut (u32At request 8) hflags).1
        ((k.touch pid).socketRecvId_writes kh id (u32At request 8) (u32At request 4))
        (fun b hb => hw.receive_rc kh hshut (u32At request 8) hflags hb)

end Yurt
