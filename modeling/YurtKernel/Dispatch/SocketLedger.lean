import YurtKernel.Dispatch.FdLedger
import YurtKernel.Dispatch.IoCases

/-! Making, binding and connecting sockets keeps the reference ledger.

    A new socket's one reference goes to a descriptor or is dropped again. Connecting to a listener
    makes two: the client's end replaces the caller's descriptor, the server's end waits in the
    listener's queue until it is accepted. -/

namespace Yurt
open Kernel SortedMap
variable {σ : Type} {k : Kernel σ} {es : List FdEntry} {e : FdEntry} {pid : Pid} {id : Nat}
  {request : Bytes}
variable {s : SocketEntry} {bound : Option Bytes} {kind : SocketKind} {flags fd newId : Nat}

/-! ### Sockets whose queues stay -/

namespace Kernel

/-- A kind with the same queues is as good for the ledger. -/
theorem Ledger.setKind_same (h : k.Ledger es) (hs : k.sockets.get? id = some s)
    (hstream : kind.isStream = s.kind.isStream) (hpending : kind.pending = s.kind.pending)
    (hrights : kind.rights = s.kind.rights) :
    (k.setKind id kind).Ledger es := by
  refine h.setKind hs hstream (fun p hp => .inl (hpending ▸ hp)) (fun e _ => ?_)
  rw [hpending, hrights]

/-- The entry behind a socket's kind. -/
theorem kind_eq_some (h : (k.sockets.get? id).map SocketEntry.kind = some kind) :
    ∃ s, k.sockets.get? id = some s ∧ s.kind = kind := Option.map_eq_some_iff.mp h

/-! ### Making sockets -/

/-- A socket that was just made is clean. -/
theorem clean_addSocket (k : Kernel σ) (domain sockType : Nat) (hpending : kind.pending = [])
    (hrights : kind.rights = []) :
    (k.addSocket domain sockType kind).2.refView.Clean k.nextSocketId := by
  refine clean_of_idle (fun s hs => ?_)
  simp only [addSocket, get?_insert_self] at hs
  cases hs
  exact ⟨hpending, hrights⟩

/-- A socket reference goes into a descriptor, or is dropped when there is none: then the socket
    must be clean. -/
theorem Ledger.installSocketIdFd (kh : Kh σ) (h : k.Ledger (.socket id :: es))
    (hclean : k.freeFd pid = none → k.refView.Clean id) :
    (k.installSocketIdFd kh pid id).2.Ledger es := by
  unfold Kernel.installSocketIdFd
  cases hfree : k.freeFd pid with
  | none =>
    have htouch : (k.touch pid).Ledger ([.socket id] ++ es) := h.frame (k.refView_touch pid)
    refine Ledger.decFdEntryRef kh htouch (htouch.safeDrop (fun id' hid' => .inr ?_))
    cases List.mem_singleton.mp hid'
    rw [refView_touch]
    exact hclean hfree
  | some fd => exact h.installFd_free (freeFd_free hfree)

theorem Ledger.installNew (kh : Kh σ) (h : k.Ledger es) (domain sockType : Nat)
    (kind : SocketKind) (hpending : kind.pending = []) (hrights : kind.rights = []) :
    ((k.addSocket domain sockType kind).2.installSocketIdFd kh pid k.nextSocketId).2.Ledger es :=
  (h.addSocket domain sockType hpending hrights).installSocketIdFd kh
    (fun _ => k.clean_addSocket domain sockType hpending hrights)

theorem Ledger.installSocketFd (kh : Kh σ) (h : k.Ledger es) (handle : Int)
    (domain sockType : Nat) : (k.installSocketFd kh pid handle domain sockType).2.Ledger es :=
  h.installNew kh domain sockType (.host handle) rfl rfl

theorem Ledger.sysSocketOpen (kh : Kh σ) (h : k.Ledger es) :
    (k.sysSocketOpen kh pid request).2.Ledger es := by
  unfold Kernel.sysSocketOpen
  simp only
  split_ifs
  · exact h
  · exact h
  · exact h.installNew kh 1 2 (.unixDatagram none none none [] [] true) rfl rfl
  · exact h.installNew kh _ _ (.opened (u32At request 4) none) rfl rfl
  · exact h
  · exact h

/-- An entry's descriptor now names another socket, and the socket it named before loses that
    reference; it is clean, or it keeps another one. -/
theorem Ledger.replaceSocketFd (kh : Kh σ) {oldId : Nat} (h : k.Ledger (.socket newId :: es))
    (hfd : k.fdEntry pid fd = some (.socket oldId)) (hclean : k.refView.Clean oldId) :
    (k.replaceSocketFd kh pid fd oldId newId).Ledger es := by
  have hinstall : (k.installFd pid fd (.socket newId)).Ledger ((k.fdEntry pid fd).toList ++ es) :=
    h.installFd
  rw [hfd] at hinstall
  refine hinstall.decFdEntryRef kh (hinstall.safeDrop (fun id' hid' => .inr ?_))
  cases List.mem_singleton.mp hid'
  exact hclean

/-- A socket that is only opened has no queues. -/
theorem clean_of_opened (hs : k.sockets.get? id = some s)
    (hkind : s.kind = .opened flags bound) :
    k.refView.Clean id := by
  refine clean_of_idle (fun t ht => ?_)
  obtain rfl := Option.mem_unique hs ht
  rw [hkind]
  exact ⟨rfl, rfl⟩

theorem get?_addSocket_of_lt (k : Kernel σ) (domain sockType : Nat) (kind : SocketKind)
    (hid : id < k.nextSocketId) :
    (k.addSocket domain sockType kind).2.sockets.get? id = k.sockets.get? id :=
  get?_insert_ne _ _ (ne_of_lt hid)

theorem refView_noteSocketInode (k : Kernel σ) (path : Bytes) :
    (k.noteSocketInode path).refView = k.refView := by
  unfold noteSocketInode
  split_ifs <;> rfl

/-- A connection made or a listener set up: `newId` is in the call's hands, and what was there before
    is still there. -/
structure Made (k : Kernel σ) (es : List FdEntry) (newId : Nat) (k' : Kernel σ) : Prop where
  ledger : k'.Ledger (.socket newId :: es)
  table : k'.processes = k.processes
  opened : ∀ id s flags bound, k.sockets.get? id = some s → s.kind = .opened flags bound →
    k'.sockets.get? id = some s

theorem Ledger.createUnixListener (h : k.Ledger es) (path : Bytes) (backlog : Nat) :
    match k.createUnixListener path backlog with
    | (.error _, k') => k'.Ledger es
    | (.ok newId, k') => k.Made es newId k' := by
  unfold Kernel.createUnixListener
  by_cases hc : k.unixListeners.contains path = true
  · rw [if_pos hc]
    exact h
  · rw [if_neg hc]
    generalize (if backlog = 0 then 128 else backlog) = backlog
    have hnew : (k.addSocket 3 6 (.unixListener path backlog [])).2.Ledger
        (.socket k.nextSocketId :: es) := h.addSocket 3 6 rfl rfl
    refine ⟨hnew.frame (refView_noteSocketInode _ path), ?_, ?_⟩
    · unfold noteSocketInode
      split_ifs <;> rfl
    · intro id s flags bound hs _
      have hlook := k.get?_addSocket_of_lt 3 6 (.unixListener path backlog []) (h.socket_lt hs)
      unfold noteSocketInode
      split_ifs <;> exact hlook.trans hs

/-- An opened socket's descriptor is turned to what was made for it. -/
theorem Made.replace (kh : Kh σ) {k' : Kernel σ} (h : k.Made es newId k')
    (hfd : k.fdEntry pid fd = some (.socket id)) (hs : k.sockets.get? id = some s)
    (hkind : s.kind = .opened flags bound) : (k'.replaceSocketFd kh pid fd id newId).Ledger es := by
  refine h.ledger.replaceSocketFd kh ?_ (clean_of_opened (h.opened id s flags bound hs hkind) hkind)
  rw [fdEntry, process, h.table]
  exact hfd

end Kernel

namespace Kernel.Ledger
variable (kh : Kh σ) (h : k.Ledger es)
include h

omit h in
/-- An opened socket becomes a host socket. -/
theorem becomeHost (h : k.Ledger es) (hs : k.sockets.get? id = some s)
    (hkind : s.kind = .opened flags bound) (handle : Int) : (k.becomeHost id handle).Ledger es :=
  h.setKind_same hs (by rw [hkind]; rfl) (by rw [hkind]; rfl) (by rw [hkind]; rfl)

omit h in
theorem listenAt (kh : Kh σ) (h : k.Ledger es) (hfd : k.fdEntry pid fd = some (.socket id))
    (hs : k.sockets.get? id = some s) (hkind : s.kind = .opened flags bound) (backlog : Nat)
    (addr : Bytes) :
    (k.listenAt kh pid fd id backlog addr).2.Ledger es := by
  unfold Kernel.listenAt
  cases unixPathFromAddr addr with
  | some path =>
    have hmade := h.createUnixListener path backlog
    simp only
    generalize k.createUnixListener path backlog = r at hmade ⊢
    obtain ⟨e | newId, k'⟩ := r
    · exact hmade
    · exact Made.replace kh hmade hfd hs hkind
  | none =>
    simp only
    split_ifs
    · exact h
    · exact Ledger.becomeHost h hs hkind _

theorem sysSocketListen : (k.sysSocketListen kh pid request).2.Ledger es := by
  unfold Kernel.sysSocketListen
  split_ifs
  · exact h
  · have htouch := h.frame (k.refView_touch pid)
    cases hid : k.socketIdForFd pid (u32At request 0) with
    | error =>
      simp only [hid]
      exact htouch
    | ok id =>
      obtain ⟨hfd, s, hs⟩ := socketIdForFd_ok hid
      cases hkind : s.kind with
      | opened flags bound =>
        have hlisten : ∀ addr, ((k.touch pid).listenAt kh pid (u32At request 0) id
            (u32At request 4) addr).2.Ledger es := fun addr =>
          htouch.listenAt kh ((k.fdEntry_touch pid _).trans hfd) hs hkind _ addr
        simp only [hid, hs, hkind]
        split_ifs
        · exact htouch
        · split
          · exact hlisten _
          · exact hlisten _
          · exact htouch
          · exact hlisten _
      | _ =>
        simp only [hid, hs, hkind]
        exact htouch

/-! ### Binding and connecting -/

theorem bindUnixDatagram (id : Nat) (path : Bytes) : (k.bindUnixDatagram id path).2.Ledger es := by
  unfold Kernel.bindUnixDatagram
  split_ifs
  · exact h
  · split
    · exact h
    · rename_i hk
      obtain ⟨s, hs, hkind⟩ := kind_eq_some hk
      refine Ledger.frame ?_ (refView_noteSocketInode _ path)
      exact h.setKind_same hs (by rw [hkind]; rfl) (by rw [hkind]; rfl) (by rw [hkind]; rfl)
    · exact h

theorem sysSocketBind : (k.sysSocketBind pid request).2.Ledger es := by
  unfold Kernel.sysSocketBind
  split_ifs
  · exact h
  · have htouch := h.frame (k.refView_touch pid)
    cases hid : k.socketIdForFd pid (u32At request 0) with
    | error =>
      exact htouch
    | ok id =>
      obtain ⟨-, s, hs⟩ := socketIdForFd_ok hid
      cases hkind : s.kind with
      | opened flags bound =>
        simp only [hs, hkind]
        split_ifs
        · exact htouch
        · exact htouch
        · exact Ledger.setKind_same htouch hs (by rw [hkind]; rfl) (by rw [hkind]; rfl)
            (by rw [hkind]; rfl)
      | unixDatagram =>
        simp only [hs, hkind]
        cases unixPathFromAddr (request.drop 4) with
        | none => exact htouch
        | some path => exact htouch.bindUnixDatagram id path
      | _ =>
        simp only [hs, hkind]
        split_ifs <;> exact htouch

theorem connectUnixDatagram (id : Nat) (path : Bytes) : (k.connectUnixDatagram id path).2.Ledger es := by
  unfold Kernel.connectUnixDatagram
  split
  · exact h
  · split
    · exact h
    · rename_i hk
      obtain ⟨s, hs, hkind⟩ := kind_eq_some hk
      exact h.setKind_same hs (by rw [hkind]; rfl) (by rw [hkind]; rfl) (by rw [hkind]; rfl)
    · exact h

/-- Two sockets made together are both in the call's hands. -/
theorem addPair (sockType : Nat) {kind : Nat → SocketKind}
    (hpending : ∀ peer, (kind peer).pending = []) (hrights : ∀ peer, (kind peer).rights = []) :
    (k.addPair sockType kind).2.Ledger
      (.socket (k.nextSocketId + 1) :: .socket k.nextSocketId :: es) :=
  (h.addSocket 1 sockType (hpending _) (hrights _)).addSocket 1 sockType (hpending _) (hrights _)

end Kernel.Ledger

theorem Kernel.get?_addPair (k : Kernel σ) (sockType : Nat) (kind : Nat → SocketKind) (id : Nat) :
    (k.addPair sockType kind).2.sockets.get? id =
      if id = k.nextSocketId + 1 then some ⟨1, 1, sockType, false, kind k.nextSocketId⟩
      else if id = k.nextSocketId then some ⟨1, 1, sockType, false, kind (k.nextSocketId + 1)⟩
      else k.sockets.get? id := by
  simp [addPair, addSocket]

@[simp] theorem Kernel.get?_setKind (k : Kernel σ) (id : Nat) (kind : SocketKind) (id' : Nat) :
    (k.setKind id kind).sockets.get? id' =
      if id' = id then (k.sockets.get? id).map (fun s => { s with kind := kind })
      else k.sockets.get? id' := by
  simp [setKind]

namespace Kernel.Ledger
variable (kh : Kh σ) (h : k.Ledger es)
include h

/-- A stream connection: the server's end waits at the listener, the client's is in the call's
    hands. -/
theorem connectUnixStream (path : Bytes) (cred : PeerCred) :
    match k.connectUnixStream path cred with
    | (.error _, k') => k'.Ledger es
    | (.ok newId, k') => k.Made es newId k' := by
  obtain hr | ⟨listener, s, lpath, backlog, pending, hs, hkind, hr⟩ := k.connectUnixStream_cases path cred
  · rw [hr]
    exact h
  have hlt : listener < k.nextSocketId := h.socket_lt hs
  rw [hr hlt]
  have hpair : (k.pairAt path cred).Ledger (.socket (k.nextSocketId + 1) :: .socket k.nextSocketId :: es) :=
    (h.addSocket 1 1 rfl rfl).addSocket 1 1 rfl rfl
  have hs' := (get?_pairAt_of_lt path cred hlt).trans hs
  refine ⟨hpair.setKind hs' (by rw [hkind]; rfl) (fun p hp => ?_) (fun e _ => ?_), rfl,
    fun id t flags bound ht hopened => ?_⟩
  · rcases List.mem_append.mp hp with hp | hp
    · exact .inl (by rw [hkind]; exact hp)
    · refine .inr (fun q hq => ?_)
      obtain rfl := List.mem_singleton.mp hp
      rw [get?_pairAt, if_pos rfl] at hq
      cases hq
      rfl
  · rw [hkind]
    simp only [SocketKind.pending, SocketKind.rights, List.map_append, List.map_cons, List.map_nil,
      List.count_append, List.count_cons, List.count_nil]
    omega
  · have hne : id ≠ listener := by
      rintro rfl
      obtain rfl := Option.mem_unique hs ht
      rw [hkind] at hopened
      cases hopened
    rw [get?_setKind, if_neg hne, get?_pairAt_of_lt path cred (h.socket_lt ht), ht]

theorem sysSocketConnect : (k.sysSocketConnect kh pid request).2.Ledger es := by
  have htouch := h.frame (k.refView_touch pid)
  obtain ⟨-, hidle⟩ | ⟨id, s, hid, hs, ⟨flags, bound, hkind, ⟨path, -, hr⟩ | ⟨-, handle, host, hr⟩⟩ |
    ⟨peer, pp, bound, rx, q, isOpen, path, -, -, hr⟩⟩ := k.connect_cases kh pid request
  · exact hidle.keeps (P := fun k => k.Ledger es) h htouch
  · have hmade := htouch.connectUnixStream path (k.peerCredFor pid)
    rw [hr]
    generalize (k.touch pid).connectUnixStream path (k.peerCredFor pid) = r at hmade ⊢
    obtain ⟨e | newId, k'⟩ := r
    · exact hmade
    · exact Made.replace kh hmade ((k.fdEntry_touch pid _).trans (socketIdForFd_ok hid).1) hs hkind
  · rw [hr]
    split_ifs
    · exact htouch
    · exact Ledger.becomeHost htouch hs hkind _
  · rw [hr]
    exact htouch.connectUnixDatagram id path

/-- A connection taken off the listener's queue is in the call's hands. -/
theorem acceptUnixStream (listener : Nat) : match k.acceptUnixStream listener with
    | (.error _, k') => k'.Ledger es
    | (.ok newId, k') => k'.Ledger (.socket newId :: es) ∧ k'.processes = k.processes := by
  unfold Kernel.acceptUnixStream
  cases hs : k.sockets.get? listener with
  | none => exact h
  | some s =>
    simp only [Option.map_some]
    cases hkind : s.kind with
    | unixListener path backlog pending =>
      cases pending with
      | nil => exact h
      | cons id pending =>
        refine ⟨h.setKind hs (by rw [hkind]; rfl) ?_ ?_, rfl⟩
        · intro p hp
          exact .inl (by rw [hkind]; exact List.mem_cons_of_mem _ hp)
        · intro e _
          rw [hkind]
          simp only [SocketKind.pending, SocketKind.rights, List.map_cons, List.count_append,
            List.count_cons, List.count_nil]
          omega
    | _ => exact h

theorem sysSocketAccept : (k.sysSocketAccept kh pid request).2.Ledger es := by
  unfold Kernel.sysSocketAccept
  split
  · exact h
  have htouch := h.frame (k.refView_touch pid)
  split
  · exact htouch
  · rename_i id hfd
    cases hs : k.sockets.get? id with
    | none => exact htouch
    | some s =>
      simp only
      cases hkind : s.kind with
      | unixListener =>
        simp only
        split_ifs with hfree
        · exact htouch
        · have haccept := htouch.acceptUnixStream id
          generalize (k.touch pid).acceptUnixStream id = r at haccept ⊢
          obtain ⟨e | newId, k'⟩ := r
          · exact haccept
          · -- the limit was checked before the connection was taken
            refine haccept.1.installSocketIdFd kh (fun hnone => absurd ?_ hfree)
            have hsame : k'.freeFd pid = k.freeFd pid := by
              rw [freeFd, process, haccept.2]
              exact congrArg Process.lowestFreeFdInLimit (k.process_touch pid)
            rw [← hsame, hnone]
            rfl
      | host handle =>
        simp only
        split_ifs
        · exact htouch
        · exact htouch
        · refine Ledger.installSocketFd kh ?_ _ _ _
          exact htouch
      | _ => exact htouch
  · exact htouch

/-! ### Pairs -/

omit h in
/-- Both ends of a fresh pair are installed, or both are dropped. -/
theorem installSocketPair (kh : Kh σ) {left right : Nat}
    (h : k.Ledger (.socket left :: .socket right :: es))
    (hleft : k.refView.Clean left) (hright : k.refView.Clean right) :
    (k.installSocketPair kh pid left right).2.Ledger es := by
  have hdrop : ∀ k' : Kernel σ, k'.Ledger (.socket left :: .socket right :: es) →
      k'.refView.sockets = k.refView.sockets →
      ((k'.decFdEntryRef kh (.socket left)).decFdEntryRef kh (.socket right)).Ledger es := by
    intro k' h' hsame
    have hboth : k'.Ledger ([.socket left, .socket right] ++ es) := h'
    refine hboth.decFdEntryRefs kh (hboth.safeDrop (fun id hid => .inr ?_))
    unfold RefView.Clean at hleft hright ⊢
    rw [hsame]
    rcases List.mem_cons.mp hid with heq | heq
    · exact FdEntry.socket.inj heq ▸ hleft
    · exact FdEntry.socket.inj (List.mem_singleton.mp heq) ▸ hright
  unfold Kernel.installSocketPair
  cases hfree : k.freeFd pid with
  | none => exact hdrop k h rfl
  | some leftFd =>
    have hinstall := h.installFd_free (freeFd_free hfree)
    simp only
    cases hfree' : (k.installFd pid leftFd (.socket left)).freeFd pid with
    | none =>
      have hremove : ((k.installFd pid leftFd (.socket left)).removeFd pid leftFd).Ledger
          (((k.installFd pid leftFd (.socket left)).fdEntry pid leftFd).toList ++
            (.socket right :: es)) := hinstall.removeFd
      rw [fdEntry_installFd_self] at hremove
      exact hdrop _ hremove rfl
    | some rightFd => exact hinstall.installFd_free (freeFd_free hfree')

/-- A fresh pair, ready to be installed. -/
theorem pairReady (pid : Pid) (sockType : Nat)
    (kind : Nat → SocketKind) (hpending : ∀ peer, (kind peer).pending = [])
    (hrights : ∀ peer, (kind peer).rights = []) :
    ((k.addPair sockType kind).2.touch pid).Ledger
      (.socket k.nextSocketId :: .socket (k.nextSocketId + 1) :: es) ∧
    ((k.addPair sockType kind).2.touch pid).refView.Clean k.nextSocketId ∧
    ((k.addPair sockType kind).2.touch pid).refView.Clean (k.nextSocketId + 1) := by
  have hpair := (h.addPair sockType hpending hrights).perm (List.Perm.swap _ _ _)
  have hget := k.get?_addPair sockType kind
  rw [refView_touch]
  refine ⟨hpair.frame (refView_touch _ pid), ?_, ?_⟩
  · refine clean_of_idle (fun s hs => ?_)
    rw [hget, if_neg (by omega), if_pos rfl] at hs
    cases hs
    exact ⟨hpending _, hrights _⟩
  · refine clean_of_idle (fun s hs => ?_)
    rw [hget, if_pos rfl] at hs
    cases hs
    exact ⟨hpending _, hrights _⟩

theorem sysSocketpair (cap : Nat) : (k.sysSocketpair kh pid request cap).2.Ledger es := by
  unfold Kernel.sysSocketpair
  split
  · exact h
  simp only
  split
  · exact h
  split
  · exact h
  by_cases hdgram : leNat ((request.drop 1).take 1) = 2 ∨ leNat ((request.drop 1).take 1) = 5
  · obtain ⟨hpair, hleft, hright⟩ := h.pairReady pid 2
      (fun peer => .unixDatagram (some peer) none none [] [] true) (fun _ => rfl) (fun _ => rfl)
    rw [if_pos hdgram]
    exact hpair.installSocketPair kh hleft hright
  · have htouch := h.frame (k.refView_touch pid)
    obtain ⟨hpair, hleft, hright⟩ := Ledger.pairReady htouch pid 1
      (fun peer => .unixStream peer none none [] [] true (k.peerCredFor pid)) (fun _ => rfl)
      (fun _ => rfl)
    rw [if_neg hdgram]
    exact hpair.installSocketPair kh hleft hright

end Kernel.Ledger

end Yurt
