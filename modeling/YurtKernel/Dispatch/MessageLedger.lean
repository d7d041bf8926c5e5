import YurtKernel.Dispatch.SocketLedger

/-! Messages keep the reference ledger: sending and receiving, with and without descriptors.

    Sending rights moves references from the sender's hands into the queue of the peer. Receiving
    hands the front list over as descriptors, as far as there are slots in the response and free
    numbers in the table, and drops the rest. The one path that neither queues nor drops is a send
    on a socket whose write half is shut down. -/

namespace Yurt
open Kernel
variable {σ : Type} {k : Kernel σ} {es : List FdEntry} {e : FdEntry} {pid : Pid} {id : Nat}
  {request : Bytes}
variable {rights xs : List FdEntry} {s : SocketEntry} {kind : SocketKind} {cap fit : Nat}

/-! ### Queueing rights -/

theorem flatten_pushRights (queue : List (List FdEntry)) (rights : List FdEntry) :
    (pushRights queue rights).flatten = queue.flatten ++ rights := by
  rw [pushRights]
  split_ifs with h
  · rw [List.isEmpty_iff.mp h, List.append_nil]
  · rw [List.flatten_append, List.flatten_singleton]

namespace Kernel

namespace Ledger

/-- Queueing the rights of a message takes them out of the sender's hands. -/
theorem queueRights {old : SocketKind} (h : k.Ledger (rights ++ es))
    (hold : (k.sockets.get? id).map SocketEntry.kind = some old)
    (hstream : kind.isStream = old.isStream) (hpending : kind.pending = old.pending)
    (hrights : kind.rights = old.rights ++ rights) : (k.setKind id kind).Ledger es := by
  obtain ⟨s, hs, rfl⟩ := kind_eq_some hold
  refine h.setKind hs hstream (fun p hp => .inl (hpending ▸ hp)) (fun e _ => ?_)
  rw [hpending, hrights]
  simp only [List.count_append]
  omega

/-! ### Sending -/

/-- Either the rights are queued, or the send fails and nothing has changed. -/
theorem deliverStream (h : k.Ledger (rights ++ es)) (peer : Nat) (data : Bytes) :
    (0 ≤ (k.deliverStream peer data rights).1 ∧ (k.deliverStream peer data rights).2.Ledger es) ∨
    ((k.deliverStream peer data rights).1 < 0 ∧ (k.deliverStream peer data rights).2 = k) := by
  unfold Kernel.deliverStream
  split
  · rename_i p lp pp rx q isOpen cred hk
    split_ifs
    · exact .inr ⟨(by decide : -EAGAIN < 0), rfl⟩
    · exact .inl ⟨Int.natCast_nonneg _, h.queueRights hk rfl rfl (flatten_pushRights q rights)⟩
  · exact .inr ⟨(by decide : -EPIPE < 0), rfl⟩

theorem deliverPacket (h : k.Ledger (rights ++ es)) (gone : Int) (hgone : 0 < gone)
    (peer : Nat) (packet : UnixDatagramPacket) :
    (0 ≤ (k.deliverPacket gone peer packet rights).1 ∧
      (k.deliverPacket gone peer packet rights).2.Ledger es) ∨
    ((k.deliverPacket gone peer packet rights).1 < 0 ∧
      (k.deliverPacket gone peer packet rights).2 = k) := by
  unfold Kernel.deliverPacket
  split
  · rename_i p pp bp rx q isOpen hk
    split_ifs
    · exact .inr ⟨(by decide : -EAGAIN < 0), rfl⟩
    · exact .inl ⟨Int.natCast_nonneg _, h.queueRights hk rfl rfl (flatten_pushRights q rights)⟩
  · exact .inr ⟨by simpa using hgone, rfl⟩

/-- A send without rights. -/
theorem of_delivery {r : Int × Kernel σ} (h : k.Ledger es)
    (hr : (0 ≤ r.1 ∧ r.2.Ledger es) ∨ (r.1 < 0 ∧ r.2 = k)) : r.2.Ledger es := by
  rcases hr with ⟨-, hr⟩ | ⟨-, hr⟩
  · exact hr
  · rw [hr]
    exact h

theorem socketSendId (kh : Kh σ) (h : k.Ledger es) (id : Nat) (data : Bytes) :
    (k.socketSendId kh id data).2.Ledger es := by
  have hnone : k.Ledger ([] ++ es) := h
  have hstream := fun peer => h.of_delivery (hnone.deliverStream peer data)
  have hpacket := fun peer packet => h.of_delivery
    (hnone.deliverPacket EPIPE (by decide) peer packet)
  unfold Kernel.socketSendId
  split_ifs
  · exact h
  · split
    · exact h
    · exact h
    · exact h
    · exact h
    · split_ifs
      · exact hstream _
      · exact h
    · exact h
    · split_ifs
      · exact hpacket _ _
      · exact h

/-- Rights that are not counted weigh nothing. -/
theorem forget (h : k.Ledger (rights ++ es))
    (hrights : ∀ e ∈ rights, e.counted = false) : k.Ledger es := by
  refine RefView.Ledger.congr h (fun e he => ?_)
  have hnone : rights.count e = 0 := by
    rw [List.count_eq_zero]
    intro hmem
    rw [hrights e hmem] at he
    cases he
  rw [List.count_append, hnone, Nat.zero_add]

/-- The rights of a message are queued, or dropped when the send fails. A shut-down write half does
    neither, so there they must not be counted. -/
theorem socketSendmsgId (h : k.Ledger (rights ++ es)) (hsafe : k.SafeDrop rights)
    (data : Bytes) (hshut : k.writeShut id = true → ∀ e ∈ rights, e.counted = false) :
    (k.socketSendmsgId id data rights).2.Ledger es := by
  have hdone : ∀ r : Int × Kernel σ, (0 ≤ r.1 ∧ r.2.Ledger es) ∨ (r.1 < 0 ∧ r.2 = k) →
      (if r.1 < 0 then (r.1, r.2.closeEntries rights) else (r.1, r.2)).2.Ledger es := by
    rintro ⟨rc, k'⟩ (⟨hrc, hk⟩ | ⟨hrc, rfl⟩)
    · rw [if_neg (not_lt.mpr hrc)]
      exact hk
    · rw [if_pos hrc]
      exact h.closeEntries hsafe
  have hfail : ∀ rc : Int, rc < 0 → (0 ≤ (rc, k).1 ∧ (rc, k).2.Ledger es) ∨ ((rc, k).1 < 0 ∧ (rc, k).2 = k) :=
    fun rc hrc => .inr ⟨hrc, rfl⟩
  unfold Kernel.socketSendmsgId
  split_ifs with hw
  · exact h.forget (hshut hw)
  · refine hdone _ ?_
    split
    · split_ifs
      · exact h.deliverStream _ data
      · exact hfail _ (by decide)
    · split_ifs
      · exact h.deliverPacket EPIPE (by decide) _ _
      · exact hfail _ (by decide)
    · exact hfail _ (by decide)
    · exact hfail _ (by decide)
    · exact hfail _ (by decide)

end Ledger

end Kernel

/-! ### Receiving -/

/-- Rights of the message that is received next. -/
def SocketKind.frontRights : SocketKind → List FdEntry
  | .unixStream _ _ _ _ (r :: _) _ _ => r
  | .unixDatagram _ _ _ _ (r :: _) _ => r
  | _ => []

/-- Nothing received yet, and the peer may still send. -/
def SocketKind.starved : SocketKind → Bool
  | .unixStream _ _ _ rx _ isOpen _ => rx.isEmpty && isOpen
  | .unixDatagram _ _ _ rx _ isOpen => rx.isEmpty && isOpen
  | _ => false

theorem SocketKind.takeFront_keeps {kind' : SocketKind} {data : Bytes}
    (h : kind.takeFront cap = some (data, kind')) : kind'.isStream = kind.isStream ∧
      kind'.pending = kind.pending ∧ kind'.rights = kind.rights ∧ kind'.frontRights = kind.frontRights := by
  cases kind with
  | unixStream p lp pp rx rights =>
    rw [takeFront] at h
    split_ifs at h
    cases h
    cases rights <;> exact ⟨rfl, rfl, rfl, rfl⟩
  | unixDatagram p pp bp rx rights =>
    cases rx with
    | nil => cases h
    | cons => cases h; cases rights <;> exact ⟨rfl, rfl, rfl, rfl⟩
  | _ => cases h

/-- What a receive does to the kernel: the host moves on, or one socket loses received bytes and
    keeps its queues. -/
theorem Kernel.socketRecvId_cases (kh : Kh σ) (k : Kernel σ) (id cap flags : Nat) :
    (∃ host, (k.socketRecvId kh id cap flags).2 = { k with host := host }) ∨
    ∃ s kind, k.sockets.get? id = some s ∧ (k.socketRecvId kh id cap flags).2 = k.setKind id kind ∧
      kind.isStream = s.kind.isStream ∧ kind.pending = s.kind.pending ∧
      kind.rights = s.kind.rights ∧ kind.frontRights = s.kind.frontRights := by
  obtain ⟨reply, host, hr, -⟩ | ⟨s, box, hs, -, hr⟩ := k.recv_cases kh id cap flags <;> rw [hr]
  · exact .inl ⟨host, rfl⟩
  cases htaken : s.kind.takeFront cap with
  | none => left; split_ifs <;> exact ⟨k.host, rfl⟩
  | some taken =>
    dsimp only
    split_ifs
    · exact .inl ⟨k.host, rfl⟩
    · exact .inl ⟨k.host, rfl⟩
    · exact .inl ⟨k.host, rfl⟩
    · exact .inr ⟨s, _, hs, rfl, SocketKind.takeFront_keeps htaken⟩

theorem Kernel.Ledger.socketRecvId (kh : Kh σ) (h : k.Ledger es) (id cap flags : Nat) :
    (k.socketRecvId kh id cap flags).2.Ledger es := by
  rcases k.socketRecvId_cases kh id cap flags with ⟨host, hr⟩ | ⟨s, kind, hs, hr, h1, h2, h3, -⟩
  · rw [hr]
    exact h
  · rw [hr]
    exact h.setKind_same hs h1 h2 h3

/-- The front list of rights comes into the receiver's hands. -/
theorem Kernel.Ledger.popRights (h : k.Ledger es) (id : Nat) :
    (k.popRights id).2.Ledger ((k.popRights id).1 ++ es) := by
  unfold Kernel.popRights
  split_ifs
  · exact h
  split
  pick_goal 3
  · exact h
  all_goals
    rename_i hk
    obtain ⟨s, hs, hkind⟩ := kind_eq_some hk
    refine h.setKind hs (by rw [hkind]; rfl) (fun p hp => by cases hp) (fun e _ => ?_)
    rw [hkind]
    simp only [SocketKind.pending, SocketKind.rights, List.flatten_cons, List.count_append]
    omega

/-- Code of a receive on an empty queue. -/
theorem emptyRecv_nonneg {isOpen closed : Bool} (h : 0 ≤ emptyRecv isOpen closed) :
    (isOpen && !closed) = false := by
  rw [emptyRecv] at h
  split_ifs at h with hc
  · exact absurd h (by decide)
  · simpa using hc

namespace Kernel

/-- A receive that succeeds without `MSG_PEEK` found a message, if there are rights to take. -/
theorem socketRecvId_nonneg (kh : Kh σ) {flags : Nat} (hs : k.sockets.get? id = some s)
    (hread : k.readShut id = false) (hrc : 0 ≤ (k.socketRecvId kh id cap flags).1.rc)
    (hflags : flags ≠ msgPeek) :
    s.kind.frontRights = [] ∨ flags = 0 ∧ (s.kind.starved && !k.socketPeerWriteClosed id) = false := by
  have hcode : ∀ e : Int, e < 0 → ¬ 0 ≤ (Reply.code e, k).1.rc := fun e he => not_le.mpr he
  simp only [socketRecvId, hs, hread, Bool.false_eq_true, if_false] at hrc
  cases hkind : s.kind with
  | opened | host | unixListener => exact .inl rfl
  | unixDatagram _ _ _ rx | unixStream _ _ _ rx =>
    simp only [hkind] at hrc
    by_cases hzero : flags = 0
    · refine .inr ⟨hzero, ?_⟩
      cases rx with
      | nil =>
        rw [if_neg (fun h => h.1 hzero)] at hrc
        exact emptyRecv_nonneg hrc
      | cons => rfl
    · rw [if_pos ⟨hzero, hflags⟩] at hrc
      exact absurd hrc (hcode _ (by decide))

/-- Rights that come with the next message, if the receive finds one. -/
def arrivingRights (k : Kernel σ) (id flags : Nat) : List FdEntry :=
  if k.readShut id || flags ≠ 0 then []
  else
    match k.sockets.get? id with
    | some s => if s.kind.starved && !k.socketPeerWriteClosed id then [] else s.kind.frontRights
    | none => []

theorem popRights_fst (k : Kernel σ) (id : Nat) : (k.popRights id).1 =
    if k.readShut id then [] else ((k.sockets.get? id).map (fun s => s.kind.frontRights)).getD [] := by
  unfold popRights
  split_ifs
  · rfl
  · cases hs : k.sockets.get? id with
    | none => rfl
    | some s =>
      simp only [Option.map_some, Option.getD_some]
      cases hkind : s.kind with
      | unixStream p lp pp rx rights => cases rights <;> rfl
      | unixDatagram p pp bp rx rights => cases rights <;> rfl
      | _ => rfl

/-- What is popped after a successful receive are the arriving rights. -/
theorem popRights_socketRecvId (kh : Kh σ) (cap flags : Nat)
    (hs : k.sockets.get? id = some s) (hrc : 0 ≤ (k.socketRecvId kh id cap flags).1.rc)
    (hflags : flags ≠ msgPeek) :
    ((k.socketRecvId kh id cap flags).2.popRights id).1 = k.arrivingRights id flags := by
  have hafter : (k.socketRecvId kh id cap flags).2.readShut id = k.readShut id ∧
      ((k.socketRecvId kh id cap flags).2.sockets.get? id).map (fun s => s.kind.frontRights) =
        some s.kind.frontRights := by
    rcases k.socketRecvId_cases kh id cap flags with ⟨host, hr⟩ | ⟨s', kind, hs', hr, -, -, -, hf⟩
    · rw [hr]
      exact ⟨rfl, by simp [hs]⟩
    · obtain rfl := Option.mem_unique hs hs'
      rw [hr]
      exact ⟨rfl, by simp [setKind, hs, hf]⟩
  rw [popRights_fst, hafter.1, hafter.2, Option.getD_some, arrivingRights, hs]
  by_cases hread : k.readShut id = true
  · simp [hread]
  · rw [Bool.not_eq_true] at hread
    rcases socketRecvId_nonneg kh hs hread hrc hflags with hnone | ⟨hzero, hfound⟩
    · simp [hread, hnone]
    · simp [hread, hzero, hfound]

/-! ### Calls without descriptors -/

theorem refView_socketShutdownApply (k : Kernel σ) (id how : Nat) :
    (k.socketShutdownApply id how).refView = k.refView := by
  unfold socketShutdownApply
  generalize (if how = 0 then 1 else if how = 1 then 2 else 3) = bits
  simp only
  cases ((k.orShutdown id bits).sockets.get? id).bind (fun s => s.kind.peer?) with
  | none => split_ifs <;> rfl
  | some peer =>
    simp only
    split_ifs <;> rfl

theorem refView_sysSocketShutdown (k : Kernel σ) (pid : Pid) (request : Bytes) :
    (k.sysSocketShutdown pid request).2.refView = k.refView := by
  unfold sysSocketShutdown
  split_ifs
  · rfl
  · rfl
  · split
    · exact k.refView_touch pid
    · exact (refView_socketShutdownApply _ _ _).trans (k.refView_touch pid)
    · exact k.refView_touch pid

theorem Ledger.sysSocketSend (kh : Kh σ) (h : k.Ledger es) :
    (k.sysSocketSend kh pid request).2.Ledger es := by
  have htouch := h.frame (k.refView_touch pid)
  unfold Kernel.sysSocketSend
  split_ifs
  · exact h
  · split
    · exact htouch
    · exact htouch.socketSendId kh _ _

theorem Ledger.sysSocketRecv (kh : Kh σ) (h : k.Ledger es) (cap : Nat) :
    (k.sysSocketRecv kh pid request cap).2.Ledger es := by
  have htouch := h.frame (k.refView_touch pid)
  unfold Kernel.sysSocketRecv
  split_ifs
  · exact h
  · exact h
  · split
    · exact htouch
    · exact htouch.socketRecvId kh _ _ _

theorem Ledger.sysSocketSendto (h : k.Ledger es) : (k.sysSocketSendto pid request).2.Ledger es := by
  have htouch : (k.touch pid).Ledger ([] ++ es) := h.frame (k.refView_touch pid)
  rcases k.sendto_cases pid request with ⟨-, hidle⟩ |
    ⟨-, id, s, p, pp, bound, rx, q, isOpen, path, target, -, -, -, -, -, hr⟩
  · exact hidle.keeps (P := fun k => k.Ledger es) h htouch
  · rw [hr]
    exact Ledger.of_delivery htouch (htouch.deliverPacket ECONNREFUSED (by decide) _ _)

theorem Ledger.sysSocketRecvfrom (kh : Kh σ) (h : k.Ledger es) (cap : Nat) :
    (k.sysSocketRecvfrom pid request cap).2.Ledger es := by
  have htouch := h.frame (k.refView_touch pid)
  rcases k.recvfrom_cases kh pid request cap with ⟨rc, k', hr, hidle, -⟩ |
    ⟨id, s, -, -, -, ⟨-, hr⟩ | ⟨-, reply, k', more, hrecv, hr, -⟩⟩ <;> rw [hr]
  · exact hidle.keeps (P := fun k' => k'.Ledger es) h htouch
  · exact htouch
  · have hkept := htouch.socketRecvId kh id (u32At request 8) (u32At request 4)
    rwa [hrecv] at hkept

end Kernel

/-! ### Delivery of rights -/

/-- Rights that find no descriptor when `fit` slots are left in the response. -/
def FdTable.undelivered (limit : Nat) : Nat → FdTable → List FdEntry → List FdEntry
  | _, _, [] => []
  | 0, _, e :: es => e :: es
  | fit + 1, t, e :: es =>
    match t.lowestFreeFdBelow 0 limit with
    | none => e :: es
    | some fd => undelivered limit fit (t.install fd e) es

namespace Kernel

/-- Rights that process `pid` could not take in now. -/
def undelivered (k : Kernel σ) (pid : Pid) (fit : Nat) (rights : List FdEntry) : List FdEntry :=
  FdTable.undelivered (k.process pid).nofileSoft fit (k.process pid).fdTable rights

/-- Without room, or once the limit was hit, the rest is dropped. -/
theorem deliverRights_stopped (pid : Pid) {hit : Bool} (hstop : fit = 0 ∨ hit = true) :
    ∀ (rights : List FdEntry) (k : Kernel σ),
      Kernel.deliverRights pid fit hit rights k = (([], hit), k.closeEntries rights)
  | [], _ => by cases fit <;> cases hit <;> rfl
  | e :: rights, k => by
    refine Eq.trans ?_ (deliverRights_stopped pid hstop rights (k.closeEntry e).2)
    cases fit with
    | zero => rfl
    | succ fit =>
      obtain rfl := hstop.resolve_left (Nat.succ_ne_zero fit)
      rfl

theorem deliverRights_full (hfree : k.freeFd pid = none) (e : FdEntry)
    (rights : List FdEntry) : Kernel.deliverRights pid (fit + 1) false (e :: rights) k =
      (([], true), (k.touch pid).closeEntries (e :: rights)) := by
  rw [deliverRights, hfree]
  exact deliverRights_stopped pid (.inr rfl) rights _

theorem deliverRights_free {fd : Nat} (hfree : k.freeFd pid = some fd) (e : FdEntry)
    (rights : List FdEntry) : Kernel.deliverRights pid (fit + 1) false (e :: rights) k =
      let r := deliverRights pid fit false rights (k.installFd pid fd e)
      ((fd :: r.1.1, r.1.2), r.2) := by
  rw [deliverRights, hfree]

/-- Installing the rights one by one: each entry goes from the receiver's hands into its table, or
    is dropped. -/
theorem Ledger.deliverRights (h : k.Ledger (rights ++ es)) (fit : Nat)
    (hsafe : k.SafeDrop (k.undelivered pid fit rights)) :
    (Kernel.deliverRights pid fit false rights k).2.Ledger es := by
  induction rights generalizing k fit with
  | nil =>
    cases fit <;> exact h
  | cons e rights ih =>
    cases fit with
    | zero =>
      rw [deliverRights_stopped pid (.inl rfl)]
      exact h.closeEntries hsafe
    | succ fit =>
      rw [undelivered, FdTable.undelivered] at hsafe
      cases hfree : k.freeFd pid with
      | none =>
        have hnone : (k.process pid).fdTable.lowestFreeFdBelow 0 (k.process pid).nofileSoft = none := hfree
        rw [hnone] at hsafe
        rw [deliverRights_full hfree]
        have htouch := h.frame (k.refView_touch pid)
        exact htouch.closeEntries (hsafe.congr (congrArg RefView.sockets (k.refView_touch pid)))
      | some fd =>
        have hsome : (k.process pid).fdTable.lowestFreeFdBelow 0 (k.process pid).nofileSoft =
          some fd := hfree
        rw [hsome] at hsafe
        have hinstall : (k.installFd pid fd e).Ledger (rights ++ es) :=
          Ledger.installFd_free h (freeFd_free hfree)
        rw [deliverRights_free hfree]
        refine ih hinstall fit ?_
        rw [undelivered, process_installFd]
        exact hsafe.congr rfl

/-! ### `recvmsg` -/

/-- A socket that keeps its count and waiting connections and loses rights at most stays safe to
    drop. -/
theorem SafeDrop.setKind (h : k.SafeDrop xs) (hs : k.sockets.get? id = some s)
    (hpending : kind.pending = s.kind.pending) (hrights : ∀ e ∈ kind.rights, e ∈ s.kind.rights) :
    (k.setKind id kind).SafeDrop xs := by
  have hold : ∀ i t', (k.setKind id kind).refView.sockets.get? i = some t' →
      ∃ t, k.refView.sockets.get? i = some t ∧ t'.refs = t.refs ∧ t'.pending = t.pending ∧
        ∀ e ∈ t'.rights, e ∈ t.rights := by
    intro i t' ht'
    rw [refView_sockets_get?] at ht'
    by_cases hi : i = id
    · subst hi
      refine ⟨s.refsView, by simp [hs], ?_⟩
      simp only [Kernel.setKind, SortedMap.get?_modify, hs, if_pos, Option.map_some,
        Option.some.injEq] at ht'
      subst ht'
      exact ⟨rfl, hpending, hrights⟩
    · refine ⟨t', ?_, rfl, rfl, fun e he => he⟩
      simpa [Kernel.setKind, hi] using ht'
  intro i t' ht' hle
  obtain ⟨t, ht, hrefs, hpend, hsub⟩ := hold i t' ht'
  obtain ⟨hown, hwait⟩ := h i t ht (hrefs ▸ hle) t ht
  intro t'' ht''
  obtain rfl := Option.mem_unique ht' ht''
  refine ⟨fun e he => hown e (hsub e he), fun p hp q' hq' => ?_⟩
  obtain ⟨q, hq, -, -, hqsub⟩ := hold p q' hq'
  exact fun e he => hwait p (hpend ▸ hp) q hq e (hqsub e he)

theorem SafeDrop.socketRecvId (h : k.SafeDrop xs) (kh : Kh σ) (id cap flags : Nat) :
    (k.socketRecvId kh id cap flags).2.SafeDrop xs := by
  rcases k.socketRecvId_cases kh id cap flags with ⟨host, hr⟩ | ⟨s, kind, hs, hr, -, h2, h3, -⟩
  · rw [hr]
    exact h
  · rw [hr]
    exact h.setKind hs h2 (fun e he => h3 ▸ he)

theorem SafeDrop.popRights (h : k.SafeDrop xs) (id : Nat) : (k.popRights id).2.SafeDrop xs := by
  unfold Kernel.popRights
  split_ifs
  · exact h
  split
  pick_goal 3
  · exact h
  all_goals
    rename_i hk
    obtain ⟨s, hs, hkind⟩ := kind_eq_some hk
    refine h.setKind hs (by rw [hkind]; rfl) (fun e he => ?_)
    rw [hkind]
    exact List.mem_append_right _ he

theorem processes_popRights (k : Kernel σ) (id : Nat) : (k.popRights id).2.processes = k.processes := by
  unfold popRights
  split_ifs
  · rfl
  · split <;> rfl

theorem processes_socketRecvId (kh : Kh σ) (k : Kernel σ) (id cap flags : Nat) :
    (k.socketRecvId kh id cap flags).2.processes = k.processes := by
  rcases k.socketRecvId_cases kh id cap flags with ⟨host, hr⟩ | ⟨s, kind, -, hr, -⟩
  · rw [hr]
  · rw [hr]
    rfl

theorem Ledger.installFdRightsTruncated (h : k.Ledger (rights ++ es)) (start : Nat)
    {room : Nat} (hroom : 4 ≤ room) (hsafe : k.SafeDrop (k.undelivered pid ((room - 4) / 4) rights)) :
    (k.installFdRightsTruncated pid rights start room).2.Ledger es := by
  unfold Kernel.installFdRightsTruncated
  rw [if_neg (by omega)]
  exact h.deliverRights _ hsafe

/-- Rights that a `recvmsg` drops. -/
def droppedRights (k : Kernel σ) (pid : Pid) (request : Bytes) (cap : Nat) : List FdEntry :=
  if request.length < 12 ∨ cap < u32At request 8 + 4 then []
  else
    match k.fdEntry pid (u32At request 0) with
    | some (.socket id) => k.undelivered pid ((cap - u32At request 8 - 4) / 4)
        (k.arrivingRights id (u32At request 4))
    | _ => []

theorem Ledger.sysSocketRecvmsg (kh : Kh σ) (h : k.Ledger es)
    (hsafe : k.SafeDrop (k.droppedRights pid request cap)) :
    (k.sysSocketRecvmsg kh pid request cap).2.Ledger es := by
  unfold Kernel.sysSocketRecvmsg
  rw [droppedRights] at hsafe
  split
  · exact h
  rename_i hlen
  by_cases hcap : cap < u32At request 8 + 4
  · simp only [if_pos hcap]
    exact h
  rw [if_neg (not_or.mpr ⟨hlen, hcap⟩)] at hsafe
  simp only [if_neg hcap]
  have htouch := h.frame (k.refView_touch pid)
  cases hid : k.socketIdForFd pid (u32At request 0) with
  | error => exact htouch
  | ok id =>
    obtain ⟨hfd, s, hs⟩ := socketIdForFd_ok hid
    have hs' : (k.touch pid).sockets.get? id = some s := hs
    rw [hfd] at hsafe
    have hrecv := htouch.socketRecvId kh id (u32At request 8) (u32At request 4)
    have hsafe' := SafeDrop.socketRecvId
      (hsafe.congr (congrArg RefView.sockets (k.refView_touch pid))) kh id
      (u32At request 8) (u32At request 4)
    have hpop := popRights_socketRecvId kh (u32At request 8) (u32At request 4) hs'
    have hproc := processes_socketRecvId kh (k.touch pid) id (u32At request 8) (u32At request 4)
    simp only
    generalize (k.touch pid).socketRecvId kh id (u32At request 8) (u32At request 4) = r at *
    obtain ⟨received, k₁⟩ := r
    simp only at hrecv hsafe' hpop hproc ⊢
    split
    · exact hrecv
    rename_i hneg
    split
    · exact hrecv
    rename_i hpeek
    have hrights := hpop (not_lt.mp hneg) hpeek
    have htable : (k₁.popRights id).2.process pid = k.process pid := by
      rw [process, k₁.processes_popRights id, hproc]
      exact k.process_touch pid
    refine (hrecv.popRights id).installFdRightsTruncated _ (by omega) ?_
    rw [hrights, undelivered, htable]
    exact hsafe'.popRights id

/-! ### `sendmsg` -/

/-- What the descriptors of a message name, if all of them name something. -/
def named (k : Kernel σ) (pid : Pid) (fds : List Nat) : Option (List FdEntry) := fds.mapM (k.fdEntry pid)

/-- Outcome of taking references for the descriptors of a message, `rights` being taken already. -/
structure Cloned (k : Kernel σ) (pid : Pid) (es rights xs : List FdEntry) (k' : Kernel σ) : Prop where
  ledger : k'.Ledger (rights ++ xs ++ es)
  held : ∀ e ∈ rights ++ xs, ∃ fd, k'.fdEntry pid fd = some e
  table : ∀ fd, k'.fdEntry pid fd = k.fdEntry pid fd
  shutdown : k'.socketShutdown = k.socketShutdown

theorem socketShutdown_incFdEntryRef (k : Kernel σ) (e : FdEntry) :
    (k.incFdEntryRef e).socketShutdown = k.socketShutdown := by
  cases e <;> rfl

theorem Ledger.cloneFdRights (fds : List Nat)
    (h : k.Ledger (rights ++ es)) (hheld : ∀ e ∈ rights, ∃ fd, k.fdEntry pid fd = some e)
    (hroom : ∀ e ∈ fds.filterMap (k.fdEntry pid),
      k.counter e + (fds.filterMap (k.fdEntry pid)).count e ≤ u32Max) :
    match Kernel.cloneFdRights pid fds rights k with
    | (.error _, k') => k'.Ledger es
    | (.ok rs, k') => ∃ xs, k.named pid fds = some xs ∧ rs = rights ++ xs ∧
        k.Cloned pid es rights xs k' := by
  induction fds generalizing k rights with
  | nil =>
    refine ⟨[], rfl, (List.append_nil _).symm, ?_⟩
    exact ⟨by rwa [List.append_nil], by rwa [List.append_nil], fun _ => rfl, rfl⟩
  | cons fd fds ih =>
    rw [Kernel.cloneFdRights]
    cases hfd : k.fdEntry pid fd with
    | none =>
      have htouch := h.frame (k.refView_touch pid)
      have hheld' : ∀ e ∈ rights, ∃ fd, (k.touch pid).fdEntry pid fd = some e := by
        simpa only [fdEntry_touch] using hheld
      exact htouch.closeEntries (htouch.safeDrop_of_table hheld')
    | some e =>
      -- one more reference, with room for those that follow
      have hcount : (fd :: fds).filterMap (k.fdEntry pid) = e :: fds.filterMap (k.fdEntry pid) := by
        simp [hfd]
      simp only [hcount] at hroom
      have htable : ∀ fd', ((k.touch pid).incFdEntryRef e).fdEntry pid fd' = k.fdEntry pid fd' :=
        k.fdEntry_incTouch pid e
      have hroom' : ∀ x ∈ fds.filterMap (((k.touch pid).incFdEntryRef e).fdEntry pid),
          ((k.touch pid).incFdEntryRef e).counter x +
            (fds.filterMap (((k.touch pid).incFdEntryRef e).fdEntry pid)).count x ≤ u32Max := by
        intro x hmem
        have htouch : ∀ y, (k.touch pid).counter y = k.counter y := fun y => by
          rw [counter, refView_touch, counter]
        have hle := (counter_incFdEntryRef (k.touch pid) e x
          (by rw [htouch]; exact le_trans (Nat.le_add_right _ _) (hroom e (List.mem_cons_self ..)))).2
        rw [funext htable] at hmem
        have hx := hroom x (List.mem_cons_of_mem _ hmem)
        have hcons : (e :: fds.filterMap (k.fdEntry pid)).count x =
            [e].count x + (fds.filterMap (k.fdEntry pid)).count x := by
          rw [← List.count_append, List.singleton_append]
        rw [htouch] at hle
        rw [funext htable]
        omega
      have he := hroom e (List.mem_cons_self ..)
      rw [List.count_cons_self] at he
      have hinc : ((k.touch pid).incFdEntryRef e).Ledger ((rights ++ [e]) ++ es) := by
        refine (h.incTableEntry hfd (by omega)).perm ?_
        rw [List.append_assoc, List.singleton_append]
        exact List.perm_middle.symm
      have hheld' : ∀ x ∈ rights ++ [e], ∃ fd', ((k.touch pid).incFdEntryRef e).fdEntry pid fd' =
          some x := by
        intro x hx
        simp only [htable]
        rcases List.mem_append.mp hx with hx | hx
        · exact hheld x hx
        · obtain rfl := List.mem_singleton.mp hx
          exact ⟨fd, hfd⟩
      have hnext := ih hinc hheld' hroom'
      simp only
      generalize Kernel.cloneFdRights pid fds (rights ++ [e]) ((k.touch pid).incFdEntryRef e) = r
        at hnext ⊢
      obtain ⟨rc | rs, k'⟩ := r
      · exact hnext
      · obtain ⟨xs, hxs, rfl, hcloned⟩ := hnext
        rw [named, funext htable] at hxs
        refine ⟨e :: xs, ?_, by rw [List.append_assoc, List.singleton_append], ?_⟩
        · rw [named, List.mapM_cons, hfd, hxs]
          rfl
        · have happend : rights ++ [e] ++ xs = rights ++ e :: xs := by
            rw [List.append_assoc, List.singleton_append]
          exact ⟨happend ▸ hcloned.ledger, happend ▸ hcloned.held,
            fun fd' => (hcloned.table fd').trans (htable fd'),
            hcloned.shutdown.trans (socketShutdown_incFdEntryRef _ e)⟩

end Kernel

/-- Descriptors a `sendmsg` names. -/
def messageFds (request : Bytes) : List Nat := words (u32At request 8) (request.drop (12 + u32At request 4))

/-- References a `sendmsg` takes and then forgets: those named by a message for a socket whose write
    half is shut down. -/
def Kernel.forgottenRights (k : Kernel σ) (pid : Pid) (request : Bytes) : List FdEntry :=
  if request.length < 12 ∨ request.length < 12 + u32At request 4 + 4 * u32At request 8 then []
  else
    match k.fdEntry pid (u32At request 0) with
    | some (.socket id) => if k.writeShut id then (k.named pid (messageFds request)).getD [] else []
    | _ => []

theorem Kernel.Ledger.sysSocketSendmsg (h : k.Ledger es)
    (hroom : ∀ e ∈ (messageFds request).filterMap (k.fdEntry pid),
      k.counter e + ((messageFds request).filterMap (k.fdEntry pid)).count e ≤ u32Max)
    (hkept : ∀ e ∈ k.forgottenRights pid request, e.counted = false) :
    (k.sysSocketSendmsg pid request).2.Ledger es := by
  unfold Kernel.sysSocketSendmsg
  rw [forgottenRights] at hkept
  split
  · exact h
  rename_i hlen
  by_cases hall : request.length < 12 + u32At request 4 + 4 * u32At request 8
  · simp only [if_pos hall]
    exact h
  rw [if_neg (not_or.mpr ⟨hlen, hall⟩)] at hkept
  simp only [if_neg hall]
  have hnone : k.Ledger ([] ++ es) := h
  have hcloned := hnone.cloneFdRights (messageFds request) (by simp) hroom
  rw [messageFds] at hcloned hkept
  generalize Kernel.cloneFdRights pid (words (u32At request 8) (request.drop (12 + u32At request 4)))
    [] k = r at hcloned ⊢
  obtain ⟨rc | rs, k'⟩ := r
  · exact hcloned
  · obtain ⟨xs, hxs, hrs, hc⟩ := hcloned
    obtain rfl : rs = xs := hrs
    have hledger : (k'.touch pid).Ledger (rs ++ es) := hc.ledger.frame (k'.refView_touch pid)
    have hheld : ∀ e ∈ rs, ∃ fd, (k'.touch pid).fdEntry pid fd = some e := by
      simpa only [fdEntry_touch, List.nil_append] using hc.held
    have hsafe := hledger.safeDrop_of_table hheld
    simp only
    cases hid : k'.socketIdForFd pid (u32At request 0) with
    | error => exact hledger.closeEntries hsafe
    | ok id =>
      obtain ⟨hfd, -⟩ := socketIdForFd_ok hid
      refine hledger.socketSendmsgId hsafe _ (fun hshut => ?_)
      have hshut' : k.writeShut id = true := by
        rw [← hshut, Kernel.writeShut, Kernel.writeShut, socketShutdownBits,
          socketShutdownBits, ← hc.shutdown]
        rfl
      rw [← hc.table, hfd] at hkept
      simpa only [hshut', if_true, hxs, Option.getD_some] using hkept

end Yurt
