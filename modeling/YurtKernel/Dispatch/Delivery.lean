import YurtKernel.Dispatch.FdAlloc
import YurtKernel.Dispatch.Rights

/-! What `recvmsg` does with the descriptors that came with a message.

    The loop cuts the list at two points: the response has slots for so many numbers, and the table
    has so many free ones below the limit. Whichever comes first, a prefix is installed, the header
    counts it, and the rest is closed. Closing an entry lowers the count of its object by one; the
    only other counts that can move are those of connections waiting at a listener that goes. -/

namespace Yurt
open Kernel SortedMap
variable {σ : Type} {k k' : Kernel σ} {pid : Pid} {fd : Nat} {request : Bytes}
variable {e : FdEntry} {s : SocketEntry} {id : Nat}

/-! ### What closing an entry costs -/

namespace Kernel

/-- A connection waiting at some listener. -/
def Awaited (k : Kernel σ) (e : FdEntry) : Prop :=
  ∃ l s id, k.sockets.get? l = some s ∧ id ∈ s.kind.pending ∧ e = .socket id

theorem KeepsKinds.awaited (h : k.KeepsKinds k') (he : k'.Awaited e) : k.Awaited e := by
  obtain ⟨l, s', id, hs', hid, rfl⟩ := he
  obtain ⟨s, hs, hkind⟩ := h l s' hs'
  refine ⟨l, s, id, hs, ?_, rfl⟩
  rcases hkind with hkind | hkind
  · rwa [← hkind]
  · rw [hkind] at hid
    cases hs : s.kind <;> rw [hs] at hid <;> exact hid

/-- Counts stay, but for the one of `e` and those of connections that were waiting. -/
structure Spares (k : Kernel σ) (e : FdEntry) (k' : Kernel σ) : Prop where
  counter : ∀ e', e' ≠ e → ¬ k.Awaited e' → k'.counter e' = k.counter e'
  awaited : ∀ e', k'.Awaited e' → k.Awaited e'

theorem counter_congr (hview : k'.refView = k.refView) : k'.counter e = k.counter e := by
  rw [counter, hview, counter]

/-- Where pipes and descriptions are the same, and sockets other than `id`, so are their counts. -/
theorem counter_socket_ne (he : e ≠ .socket id)
    (hpipes : k'.pipes = k.pipes) (hofds : k'.ofds = k.ofds)
    (hsockets : ∀ x, x ≠ id → (k'.sockets.get? x).map SocketEntry.refs =
      (k.sockets.get? x).map SocketEntry.refs) : k'.counter e = k.counter e := by
  cases e with
  | pipe => rw [counter_pipe, counter_pipe, hpipes]
  | file => rw [counter_file, counter_file, hofds]
  | socket x =>
    have hx : x ≠ id := fun heq => he (heq ▸ rfl)
    rw [counter_socket, counter_socket, hsockets x hx]
  | _ => rfl

theorem counter_lowered (he : e ≠ .socket id) : (k.lowered id s).counter e = k.counter e :=
  counter_socket_ne he rfl rfl
    (fun x hx => by rw [lowered, get?_insert_ne _ _ hx])

theorem counter_dropSocket (he : e ≠ .socket id) : (k.dropSocket id).counter e = k.counter e :=
  counter_socket_ne he rfl rfl
    (fun x hx => by rw [dropSocket, get?_erase, if_neg hx])

theorem counter_dropSocket_self (k : Kernel σ) (id : Nat) : (k.dropSocket id).counter (.socket id) = 0 := by
  rw [counter_socket, dropSocket, get?_erase, if_pos rfl]
  rfl

theorem spares_lowered (hs : k.sockets.get? id = some s) : k.Spares (.socket id) (k.lowered id s) :=
  ⟨fun _ he _ => counter_lowered he, fun _ h => (keepsKinds_lowered hs).awaited h⟩

/-- Dropping a reference to a socket, with the connections of a listener that goes. -/
theorem spares_socketDecRefAux (fuel : Nat) : ∀ (k : Kernel σ) (id : Nat),
    k.Spares (.socket id) (Kernel.socketDecRefAux fuel k id).2 := by
  induction fuel with
  | zero => exact fun _ _ => ⟨fun _ _ _ => rfl, fun _ h => h⟩
  | succ fuel ih =>
    intro k id
    cases hs : k.sockets.get? id with
    | none =>
      simp only [socketDecRefAux, hs]
      exact ⟨fun _ _ _ => rfl, fun _ h => h⟩
    | some s =>
      rw [socketDecRefAux_some hs]
      split_ifs with hlast
      · exact spares_lowered hs
      · -- the connections dropped here were waiting at `id`, so no count that matters moves
        have hwaiting : ∀ p ∈ s.kind.pending, k.Awaited (.socket p) := fun p hp => ⟨id, s, p, hs, hp, rfl⟩
        have hstart : k.Spares (.socket id) ((k.lowered id s).forgetName s.kind) := by
          refine ⟨fun e he _ => ?_, fun e hw => (keepsKinds_lowered hs).awaited ?_⟩
          · rw [counter_congr (refView_forgetName _ _), counter_lowered he]
          · rwa [Awaited, sockets_forgetName] at hw
        have hend := List.foldlRecOn (motive := k.Spares (.socket id)) s.kind.pending
          (fun k p => (socketDecRefAux fuel k p).2) hstart (fun k₁ h p hp =>
            ⟨fun e he hnot => ?_, fun e hw => h.awaited e ((ih k₁ p).awaited e hw)⟩)
        · refine ⟨fun e he hnot => ?_, fun e hw => hend.awaited e ((keepsKinds_dropSocket _ _ id).awaited hw)⟩
          rw [counter_dropSocket he, counter_congr (refView_closePeer _ _), hend.counter e he hnot]
        · have hne : e ≠ .socket p := fun heq => hnot (heq ▸ hwaiting p hp)
          rw [(ih k₁ p).counter e hne (fun hw => hnot (h.awaited e hw)), h.counter e he hnot]

theorem counter_socketDecRef_self (k : Kernel σ) (id : Nat) :
    (k.socketDecRef id).2.counter (.socket id) = k.counter (.socket id) - 1 := by
  cases hs : k.sockets.get? id with
  | none =>
    have hzero : k.counter (.socket id) = 0 := by
      rw [counter_socket, hs]
      rfl
    simp only [socketDecRef, socketDecRefAux, hs, hzero]
  | some s =>
    have hrefs : k.counter (.socket id) = s.refs := by
      rw [counter_socket, hs]
      rfl
    rw [socketDecRef, socketDecRefAux_some hs, hrefs]
    split_ifs with hlast
    · rw [counter_socket, lowered, get?_insert_self]
      rfl
    · rw [not_not.mp hlast]
      exact counter_dropSocket_self _ id

end Kernel

theorem PipeBuf.endCount_decRef (b : PipeBuf) (side other : PipeEnd) :
    endCount (some ((b.decRef side).readEnds, (b.decRef side).writeEnds)) other =
      endCount (some (b.readEnds, b.writeEnds)) other - if other = side then 1 else 0 := by
  cases side <;> cases other <;> rfl

theorem endCount_zero (side : PipeEnd) : endCount (some (0, 0)) side = 0 := by
  cases side <;> rfl

namespace Kernel

section
variable (k : Kernel σ)

theorem counter_pipeDecRef (id : Nat) (side : PipeEnd) (e : FdEntry) :
    (k.pipeDecRef id side).counter e = k.counter e - if e = .pipe id side then 1 else 0 := by
  unfold pipeDecRef
  cases hb : k.pipes.get? id with
  | none =>
    split_ifs with he
    · rw [he, counter_pipe, hb]
      rfl
    · rfl
  | some b =>
    cases e with
    | pipe x other =>
      by_cases hx : x = id
      · subst hx
        have hcount : k.counter (.pipe x other) = endCount (some (b.readEnds, b.writeEnds)) other := by
          rw [counter_pipe, hb]
          rfl
        have hside : (FdEntry.pipe x other = .pipe x side) ↔ other = side := by simp
        simp only [hside, hcount, ← PipeBuf.endCount_decRef]
        split_ifs with hgone
        · rw [hgone.1, hgone.2, endCount_zero, counter_pipe, get?_erase, if_pos rfl]
          rfl
        · rw [counter_pipe, get?_insert_self]
          rfl
      · have hne : FdEntry.pipe x other ≠ .pipe id side := by simp [hx]
        rw [if_neg hne, Nat.sub_zero]
        dsimp only
        split_ifs
        · rw [counter_pipe, get?_erase, if_neg hx, counter_pipe]
        · rw [counter_pipe, get?_insert_ne _ _ hx, counter_pipe]
    | file => simp only [counter_file]; split_ifs <;> simp_all
    | socket => simp only [counter_socket]; split_ifs <;> simp_all
    | _ => simp [counter, RefView.counter]

theorem counter_ofdDecRef (id : Nat) (e : FdEntry) :
    (k.ofdDecRef id).counter e = k.counter e - if e = .file id then 1 else 0 := by
  unfold ofdDecRef
  cases ho : k.ofds.get? id with
  | none =>
    split_ifs with he
    · rw [he, counter_file, ho]
      rfl
    · rfl
  | some o =>
    cases e with
    | file x =>
      by_cases hx : x = id
      · subst hx
        have hcount : k.counter (.file x) = o.refs := by
          rw [counter_file, ho]
          rfl
        rw [if_pos rfl, hcount]
        dsimp only
        split_ifs with hgone
        · rw [hgone, counter_file, get?_erase, if_pos rfl]
          rfl
        · rw [counter_file, get?_insert_self]
          rfl
      · have hne : FdEntry.file x ≠ .file id := by simp [hx]
        rw [if_neg hne, Nat.sub_zero]
        dsimp only
        split_ifs
        · rw [counter_file, get?_erase, if_neg hx, counter_file]
          rfl
        · rw [counter_file, get?_insert_ne _ _ hx, counter_file]
    | pipe => simp only [counter_pipe]; split_ifs <;> first | rfl | simp_all
    | socket => simp only [counter_socket]; split_ifs <;> first | rfl | simp_all
    | _ => simp [counter, RefView.counter]

/-- Closing an entry takes one reference from its object. -/
theorem counter_closeEntry_self (e : FdEntry) :
    (k.closeEntry e).2.counter e = k.counter e - 1 := by
  cases e with
  | pipe id side => exact (k.counter_pipeDecRef id side _).trans (by rw [if_pos rfl])
  | file id => exact (k.counter_ofdDecRef id _).trans (by rw [if_pos rfl])
  | socket id => exact k.counter_socketDecRef_self id
  | _ => rfl

theorem spares_closeEntry (e : FdEntry) : k.Spares e (k.closeEntry e).2 := by
  cases e with
  | pipe id side =>
    refine ⟨fun e he _ => (k.counter_pipeDecRef id side e).trans (by rw [if_neg he]; rfl),
      fun e hw => ?_⟩
    obtain ⟨_, heq⟩ := k.pipeDecRef_only id side
    rwa [closeEntry, heq] at hw
  | file id =>
    refine ⟨fun e he _ => (k.counter_ofdDecRef id e).trans (by rw [if_neg he]; rfl), fun e hw => ?_⟩
    obtain ⟨_, _, heq⟩ := k.ofdDecRef_only id
    rwa [closeEntry, heq] at hw
  | socket id => exact spares_socketDecRefAux _ k id
  | _ => exact ⟨fun _ _ _ => rfl, fun _ h => h⟩

end

/-- An entry loses a reference for each time it is in the list. -/
theorem counter_closeEntries (es : List FdEntry) : ∀ (k : Kernel σ) {e : FdEntry},
    ¬ k.Awaited e → (k.closeEntries es).counter e = k.counter e - es.count e := by
  induction es with
  | nil => exact fun _ _ _ => rfl
  | cons c es ih =>
    intro k e hnot
    have hspares := k.spares_closeEntry c
    have hstep : (k.closeEntry c).2.counter e = k.counter e - if e = c then 1 else 0 := by
      split_ifs with he
      · rw [he, k.counter_closeEntry_self]
      · exact hspares.counter e he hnot
    have hrest := ih (k.closeEntry c).2 (fun hw => hnot (hspares.awaited e hw))
    rw [show k.closeEntries (c :: es) = (k.closeEntry c).2.closeEntries es from rfl, hrest, hstep,
      List.count_cons, Nat.sub_sub, Nat.add_comm]
    by_cases he : e = c
    · simp [he]
    · have hne : ¬ c = e := fun heq => he heq.symm
      simp [he, hne]

end Kernel

/-! ### The reply -/

/-- What is in the header: how many descriptors follow, and in its top bit whether some are missing. -/
structure RightsHeader (header delivered sent : Nat) : Prop where
  count : header % 2 ^ 31 = delivered
  truncated_iff : header.testBit 31 = true ↔ delivered < sent
  word : header < 2 ^ 32

theorem rightsHeader_of_lt {n sent : Nat} (hn : n < 2 ^ 31) {cut : Prop} [Decidable cut]
    (hcut : n < sent ↔ cut) : RightsHeader (if cut then n ||| rightsTruncated else n) n sent := by
  have hor : n ||| rightsTruncated = 2 ^ 31 + n := by
    rw [Nat.or_comm]
    exact (Nat.two_pow_add_eq_or_of_lt hn 1).symm
  split_ifs with h
  · rw [hor]
    refine ⟨?_, iff_of_true ?_ (hcut.mpr h), by omega⟩
    · rw [Nat.add_mod_left, Nat.mod_eq_of_lt hn]
    · rw [Nat.testBit_two_pow_add_eq, Nat.testBit_lt_two_pow hn]
      rfl
  · refine ⟨Nat.mod_eq_of_lt hn, iff_of_false ?_ (fun hlt => h (hcut.mp hlt)), by omega⟩
    rw [Nat.testBit_lt_two_pow hn]
    exact Bool.false_ne_true

namespace Kernel

/-- Exact delivery of `rights` to process `pid`: `k` is the kernel in which the message was taken
    off its queue, and the response, of `cap` bytes, has the header at `start`. -/
structure DeliversRights (k : Kernel σ) (pid : Pid) (rights : List FdEntry) (start cap : Nat)
    (reply : Reply) (k' : Kernel σ) (fds : List Nat) : Prop where
  lowest : FirstFit.Picks (k.vacant pid 0) fds
  fits : fds.length ≤ (cap - start - 4) / 4 ∧ fds.length ≤ rights.length
  /-- The list is cut only at the end of the response or where no number is free below the limit. -/
  full : fds.length < rights.length → fds.length = (cap - start - 4) / 4 ∨ k'.vacant pid 0 = ∅
  refers : fds.map (k'.fdEntry pid) = (rights.take fds.length).map some
  kept : ∀ fd ∉ fds, k'.fdEntry pid fd = k.fdEntry pid fd ∧
    (k'.process pid).fdTable.getDescriptorFlags fd = (k.process pid).fdTable.getDescriptorFlags fd
  others : ∀ q, q ≠ pid → k'.processes.get? q = k.processes.get? q
  header : ∃ header, RightsHeader header fds.length rights.length ∧ (start, leBytes 4 header) ∈ reply.writes
  listed : fds = [] ∨ (start + 4, fds.flatMap (leBytes 4)) ∈ reply.writes
  closed : k'.withProcesses k.processes = k.closeEntries (rights.drop fds.length)
  each : ∀ pre e post, rights.drop fds.length = pre ++ e :: post →
    (k.closeEntries (pre ++ [e])).counter e = (k.closeEntries pre).counter e - 1
  lost : ∀ e, ¬ k.Awaited e → k'.counter e = k.counter e - (rights.drop fds.length).count e

theorem counter_withProcesses (k : Kernel σ) (ps : SortedMap Pid Process) (e : FdEntry) :
    (k.withProcesses ps).counter e = k.counter e := by
  cases e <;> rfl

theorem delivers_install (k : Kernel σ) (pid : Pid) (rights : List FdEntry) (start : Nat)
    {cap : Nat} (hroom : 4 ≤ cap - start) (hword : cap ≤ u32Max) (rc : Int) (data : List (Nat × Bytes)) :
    ∃ fds, k.DeliversRights pid rights start cap
      ⟨rc, data ++ (k.installFdRightsTruncated pid rights start (cap - start)).1.writes⟩
      (k.installFdRightsTruncated pid rights start (cap - start)).2 fds := by
  have hloop := delivered_deliverRights pid rights ((cap - start - 4) / 4) k
  unfold installFdRightsTruncated
  rw [if_neg (by omega)]
  simp only
  generalize deliverRights pid ((cap - start - 4) / 4) false rights k = r at hloop ⊢
  obtain ⟨⟨fds, hit⟩, k'⟩ := r
  have hfits : fds.length < 2 ^ 31 := by
    have hle : fds.length ≤ (cap - start - 4) / 4 := hloop.fits
    rw [u32Max] at hword
    omega
  have hlost := fun e (hnot : ¬ k.Awaited e) => counter_closeEntries
    (rights.drop fds.length) k hnot
  refine ⟨fds, hloop.lowest, ⟨hloop.fits, hloop.enough⟩, hloop.full, hloop.refers, hloop.kept,
    hloop.others, ⟨_, rightsHeader_of_lt hfits hloop.cut_iff, ?_⟩, .inr ?_, hloop.closed,
    fun pre e post _ => ?_, fun e hnot => ?_⟩
  · exact List.mem_append_right _ (List.mem_cons_self ..)
  · exact List.mem_append_right _ (List.mem_cons_of_mem _ (List.mem_cons_self ..))
  · rw [closeEntries, List.foldl_append]
    exact (k.closeEntries pre).counter_closeEntry_self e
  · rw [← hlost e hnot, ← hloop.closed, counter_withProcesses]

/-- The rights a `recvmsg` takes off the queue of its socket, and the kernel after it took them; a
    peek takes none. -/
def takeMessage (kh : Kh σ) (k : Kernel σ) (pid : Pid) (request : Bytes) : List FdEntry × Kernel σ :=
  match k.socketIdForFd pid (u32At request 0) with
  | .error _ => ([], k.touch pid)
  | .ok id =>
    let (_, k) := (k.touch pid).socketRecvId kh id (u32At request 8) (u32At request 4)
    if u32At request 4 = msgPeek then ([], k) else k.popRights id

/-- Delivering nothing. -/
theorem DeliversRights.nothing {start cap : Nat} {rc : Int} (data : List (Nat × Bytes)) :
    k.DeliversRights pid [] start cap ⟨rc, data ++ [(start, leBytes 4 0)]⟩ k [] where
  lowest := trivial
  fits := ⟨Nat.zero_le _, Nat.zero_le _⟩
  full h := absurd h (lt_irrefl 0)
  refers := rfl
  kept _ _ := ⟨rfl, rfl⟩
  others _ _ := rfl
  header := ⟨0, show RightsHeader (if False then 0 ||| rightsTruncated else 0) 0 _ from
    rightsHeader_of_lt (by decide) (by decide),
    List.mem_append_right _ (List.mem_cons_self ..)⟩
  listed := .inl rfl
  closed := rfl
  each pre e post h := by cases pre <;> cases h
  lost _ _ := rfl

theorem process_touch_any (k : Kernel σ) (pid q : Pid) : (k.touch pid).process q = k.process q := by
  by_cases hq : q = pid
  · rw [hq, k.process_touch]
  · rw [process, touch, get?_updProcess_ne hq, process]

theorem counter_popRights (k : Kernel σ) (id : Nat) (e : FdEntry) :
    (k.popRights id).2.counter e = k.counter e := by
  unfold popRights
  split_ifs
  · rfl
  · split
    · exact k.counter_setKind id _ e
    · exact k.counter_setKind id _ e
    · rfl

section
variable (kh : Kh σ) (k : Kernel σ) (pid : Pid) (request : Bytes)

/-- Taking the message touches neither tables nor counts. -/
theorem takeMessage_frame :
    (∀ q, (k.takeMessage kh pid request).2.process q = k.process q) ∧
      ∀ e, (k.takeMessage kh pid request).2.counter e = k.counter e := by
  unfold takeMessage
  have htouch := fun q => k.process_touch_any pid q
  cases k.socketIdForFd pid (u32At request 0) with
  | error => exact ⟨htouch, k.counter_touch pid⟩
  | ok id =>
    have hrecords := (k.touch pid).processes_socketRecvId kh id (u32At request 8) (u32At request 4)
    have hcounts := (k.touch pid).counter_socketRecvId kh id (u32At request 8) (u32At request 4)
    split_ifs
    · exact ⟨fun q => (process_congr hrecords q).trans (htouch q),
        fun e => (hcounts e).trans (k.counter_touch pid e)⟩
    · refine ⟨fun q => ?_, fun e => ?_⟩
      · exact (process_congr ((processes_popRights _ id).trans hrecords) q).trans (htouch q)
      · rw [counter_popRights, hcounts, k.counter_touch]

theorem recvmsg_delivers (cap : Nat)
    (hcap : cap ≤ u32Max) (hok : 0 ≤ (k.sysSocketRecvmsg kh pid request cap).1.rc) :
    ∃ fds, (k.takeMessage kh pid request).2.DeliversRights pid (k.takeMessage kh pid request).1
      (u32At request 8) cap (k.sysSocketRecvmsg kh pid request cap).1
      (k.sysSocketRecvmsg kh pid request cap).2 fds := by
  have hneg : ¬ (0 : Int) ≤ -EINVAL := by decide
  unfold sysSocketRecvmsg at hok ⊢
  unfold takeMessage
  by_cases hlen : request.length < 12
  · rw [if_pos hlen] at hok
    exact absurd hok hneg
  by_cases hroom : cap < u32At request 8 + 4
  · simp only [if_neg hlen, if_pos hroom] at hok
    exact absurd hok hneg
  simp only [if_neg hlen, if_neg hroom] at hok ⊢
  cases hid : k.socketIdForFd pid (u32At request 0) with
  | error rc =>
    rw [hid] at hok
    exact absurd hok (not_le.mpr (socketIdForFd_neg hid))
  | ok id =>
    rw [hid] at hok
    dsimp only at hok ⊢
    generalize (k.touch pid).socketRecvId kh id (u32At request 8) (u32At request 4) = r at hok ⊢
    obtain ⟨received, k₁⟩ := r
    by_cases hrc : received.rc < 0
    · rw [if_pos hrc] at hok
      exact absurd hok (not_le.mpr hrc)
    · rw [if_neg hrc]
      split
      · exact ⟨[], .nothing received.writes⟩
      · exact (k₁.popRights id).2.delivers_install pid (k₁.popRights id).1 (u32At request 8)
          (by omega) hcap _ received.writes

end

end Kernel

/-- Every successful `recvmsg` delivers the rights of the message it takes exactly: the longest prefix
    that response and table have room for, in order, on the least free numbers, counted in the header,
    with the rest closed once each. -/
theorem recvmsg_delivers_exactly (kh : Kh σ) (k : Kernel σ) (pid : Pid) (request : Bytes) (cap : Nat)
    (hcap : cap ≤ u32Max) (hok : 0 ≤ (k.sysSocketRecvmsg kh pid request cap).1.rc) :
    (∀ q, (k.takeMessage kh pid request).2.process q = k.process q) ∧
      (∀ e, (k.takeMessage kh pid request).2.counter e = k.counter e) ∧
      ∃ fds, (k.takeMessage kh pid request).2.DeliversRights pid (k.takeMessage kh pid request).1
        (u32At request 8) cap (k.sysSocketRecvmsg kh pid request cap).1
        (k.sysSocketRecvmsg kh pid request cap).2 fds := by
  obtain ⟨hrecords, hcounts⟩ := k.takeMessage_frame kh pid request
  exact ⟨hrecords, hcounts, k.recvmsg_delivers kh pid request cap hcap hok⟩

/-- Two descriptors in one message, with room for one number in the response of the receiver. -/
def twoRightsOneSlot : Kernel Unit := Run.run (KernelCall.step Kh.absent) (Kernel.new ())
    [.sys 1 (.socketpair ([1, 2, 0, 0] ++ leBytes 4 0) 8), .sys 1 (.pipe 8),
      .sys 1 (.sendmsg (leBytes 4 3 ++ leBytes 4 1 ++ leBytes 4 2 ++ [97] ++ leBytes 4 5 ++ leBytes 4 6))]

theorem recvmsg_delivers_exactly_twoRightsOneSlot :
    let request := leBytes 4 4 ++ leBytes 4 0 ++ leBytes 4 4
    (twoRightsOneSlot.takeMessage Kh.absent 1 request).1 = [.pipe 1 .read, .pipe 1 .write] ∧
      (twoRightsOneSlot.takeMessage Kh.absent 1 request).2.DeliversRights 1
        [.pipe 1 .read, .pipe 1 .write] 4 12
        (twoRightsOneSlot.sysSocketRecvmsg Kh.absent 1 request 12).1
        (twoRightsOneSlot.sysSocketRecvmsg Kh.absent 1 request 12).2 [7] := by
  intro request
  have hrights : (twoRightsOneSlot.takeMessage Kh.absent 1 request).1 = [.pipe 1 .read, .pipe 1 .write] := by
    decide
  obtain ⟨-, -, fds, h⟩ := recvmsg_delivers_exactly Kh.absent twoRightsOneSlot 1 request 12 (by decide)
    (by decide)
  rw [hrights, (by decide : u32At request 8 = 4)] at h
  refine ⟨hrights, ?_⟩
  have hone : fds.length = 1 := by
    have hle : fds.length ≤ 1 := h.fits.1
    rcases h.full (Nat.lt_succ_of_le hle) with hlen | hnone
    · exact hlen
    · have hfree := (freeFd_some (by decide :
        (twoRightsOneSlot.sysSocketRecvmsg Kh.absent 1 request 12).2.freeFd 1 = some 8)).1
      rw [hnone] at hfree
      cases hfree
  obtain ⟨fd, rfl⟩ := List.length_eq_one_iff.mp hone
  have hseven : (twoRightsOneSlot.takeMessage Kh.absent 1 request).2.freeFd 1 = some 7 := by decide
  rwa [h.lowest.1.unique (freeFd_some hseven)] at h

end Yurt
