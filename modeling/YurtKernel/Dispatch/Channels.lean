import YurtKernel.Lib.Fifo
import YurtKernel.Kernel.Channel
import YurtKernel.Dispatch.Counts
import YurtKernel.Dispatch.IpcCalls

/-! Byte channels over whole runs.

    A run leaves two logs for each channel: the payloads of the writes that returned success, and the
    bytes that reads returned and consumed. Every call moves the channels as `Flow` says, with what
    it adds to the logs, so the second log and the queue together always make up the first. -/

namespace Yurt
open Kernel
variable {σ : Type} {k : Kernel σ} {pid : Pid}
variable {r : Reply × Kernel σ} {call : SysCall} {ch : Channel} {taking : Option Taking} {v v' : Ipc}
  {id fd : Nat} {t : Taking} {data q : Bytes}

/-! ### The calls -/

/-- Calls on pipes and sockets that carry no descriptors. -/
def SysCall.onChannels : SysCall → Bool
  | .close _ | .dup _ | .dup2 _ | .dup3 _ | .dupMin _ | .pipe _ | .read _ _ | .write _
  | .socketOpen _ | .bind _ | .listen _ | .accept _ | .connect _ | .socketpair _ _ | .shutdown _
  | .socketClose _ | .send _ | .recv _ _ | .sendto _ | .recvfrom _ _ | .recvmsg _ _ => true
  | .sendmsg request => u32At request 8 = 0
  | _ => false

def KernelCall.onChannels : KernelCall → Bool
  | .sys _ call => call.onChannels
  | _ => true

/-- The channel if it is there. -/
def Ipc.live (v : Ipc) (ch : Channel) : Option Channel :=
  if (v.queued ch).isSome then some ch else none

section
variable (k : Kernel σ) (pid : Pid)

/-- The channel a stream socket behind a descriptor reads from. -/
def Kernel.streamAt (fd : Nat) : Option Channel :=
  match k.fdEntry pid fd with
  | some (.socket id) => k.ipc.live (.stream id)
  | _ => none

/-- The channel a stream socket behind a descriptor writes to. -/
def Kernel.peerAt (fd : Nat) : Option Channel :=
  match k.fdEntry pid fd with
  | some (.socket id) => (k.ipc.streamPeerOf id).map .stream
  | _ => none

/-- The channel a call writes to, and its payload. -/
def SysCall.sends : SysCall → Option (Channel × Bytes)
  | .write request =>
    if request.length < 4 then none
    else
      (match k.fdEntry pid (u32At request 0) with
        | some (.pipe id .write) => some (Channel.pipe id)
        | _ => k.peerAt pid (u32At request 0)).map (fun c => (c, request.drop 4))
  | .send request =>
    if request.length < 4 then none
    else (k.peerAt pid (u32At request 0)).map (fun c => (c, request.drop 4))
  | .sendto request =>
    if request.length < 12 ∨ request.length < 12 + u32At request 8 then none
    else (k.peerAt pid (u32At request 0)).map (fun c => (c, request.drop (12 + u32At request 8)))
  | .sendmsg request =>
    if request.length < 12 ∨ request.length < 12 + u32At request 4 + 4 * u32At request 8 then none
    else (k.peerAt pid (u32At request 0)).map
      (fun c => (c, (request.drop 12).take (u32At request 4)))
  | _ => none

/-- The read a call makes; `recvfrom` is refused on a stream. -/
def SysCall.takes : SysCall → Option Taking
  | .read request cap =>
    if request.length < 4 then none
    else
      (match k.fdEntry pid (u32At request 0) with
        | some (.pipe id .read) => k.ipc.live (.pipe id)
        | _ => k.streamAt pid (u32At request 0)).map (fun c => ⟨c, cap, .take⟩)
  | .recv request cap =>
    if request.length < 8 ∨ cap = 0 then none
    else (k.streamAt pid (u32At request 0)).map (fun c => ⟨c, cap, readMode (u32At request 4)⟩)
  | .recvfrom request cap =>
    if request.length < 16 ∨ cap < u32At request 8 + 8 then none
    else (k.streamAt pid (u32At request 0)).map (fun c => ⟨c, u32At request 8, .refused⟩)
  | .recvmsg request cap =>
    if request.length < 12 ∨ cap < u32At request 8 + 4 then none
    else (k.streamAt pid (u32At request 0)).map
      (fun c => ⟨c, u32At request 8, readMode (u32At request 4)⟩)
  | _ => none

end

theorem Ipc.live_eq_some {c : Channel} (h : v.live ch = some c) : c = ch ∧ ∃ q, v.queued ch = some q := by
  rw [Ipc.live] at h
  split_ifs at h with hsome
  exact ⟨(Option.some.inj h).symm, Option.isSome_iff_exists.mp hsome⟩

theorem Ipc.live_eq_none (h : v.live ch = none) : v.queued ch = none := by
  rw [Ipc.live] at h
  split_ifs at h with hsome
  simpa using hsome

/-! ### Sending calls -/

/-- A sending call in a state where it writes to a channel, and in one where it does not. -/
def Kernel.SendsTo (k : Kernel σ) (r : Int × Kernel σ) (dest : Option (Channel × Bytes)) : Prop :=
  match dest with
  | none => k.ipc.Flow r.2.ipc Ipc.nothing Ipc.nothing
  | some (c, payload) => k.ipc.Sent r.2.ipc r.1 c payload

theorem Kernel.sendsTo_failed (h : k.ipc.Wired) {r : Int × Kernel σ} (hrc : r.1 < 0)
    (hsame : r.2.ipc = k.ipc) (dest : Option (Channel × Bytes)) : k.SendsTo r dest := by
  cases dest with
  | none =>
    rw [SendsTo, hsame]
    exact h.flow_same
  | some x => exact .inl ⟨hrc, hsame⟩

theorem Kernel.sendsTo_refused (h : k.ipc.Wired) {r : Int × Kernel σ} (hr : k.Refuses pid r)
    (dest : Option (Channel × Bytes)) : k.SendsTo r dest :=
  sendsTo_failed h hr.1 (hr.2.keeps (P := fun k' => k'.ipc = k.ipc) rfl rfl) dest

/-- The two ways a call comes to send through a socket. -/
theorem Kernel.sendsTo_socket {r : Int × Kernel σ}
    (h : (k.ipc.streamPeerOf id = none → k.ipc.Flow r.2.ipc Ipc.nothing Ipc.nothing) ∧
      ∀ p, k.ipc.streamPeerOf id = some p → k.ipc.Sent r.2.ipc r.1 (.stream p) data) :
    k.SendsTo r (((k.ipc.streamPeerOf id).map Channel.stream).map (fun c => (c, data))) := by
  cases hp : k.ipc.streamPeerOf id with
  | none => exact h.1 hp
  | some p => exact h.2 p hp

theorem Kernel.peerAt_socket (h : k.fdEntry pid fd = some (.socket id)) :
    k.peerAt pid fd = (k.ipc.streamPeerOf id).map .stream := by rw [peerAt, h]

theorem SysCall.sendsTo_write (h : k.ipc.Wired) (kh : Kh σ) (request : Bytes) :
    k.SendsTo (k.writeFd kh pid request) (SysCall.sends k pid (.write request)) := by
  rcases k.writeFd_cases kh pid request with hrefuses | ⟨hlen, hdone⟩
  · exact sendsTo_refused h hrefuses _
  rw [SysCall.sends, if_neg hlen, peerAt]
  rcases hdone with ⟨f, buffer, ⟨hfd, -⟩ | ⟨hfd, -⟩, hr⟩ | ⟨id, b, hfd, hb, hfits, hr⟩ |
    ⟨id, o, hfd, -, -, n, vfs, host, -, hr⟩ | ⟨id, hfd, hr⟩
  · rw [hfd, hr]
    exact h.flow_same
  · rw [hfd, hr]
    exact h.flow_same
  · rw [hfd, hr]
    have hset := h.setsPipe hb (b.bytes ++ request.drop 4)
    have hq : k.ipc.queued (.pipe id) = some b.bytes := by
      simp only [Ipc.queued, Ipc.pipeBytes, ipc, hb, Option.map_some]
    refine .inr ⟨rfl, b.bytes, hq, hset.self, ?_⟩
    rw [← Ipc.only_nil (.pipe id)]
    refine Ipc.Sets.flow hset (by simpa using hq) (fun _ => ?_)
    simp only [hasBufferCapacity, decide_eq_true_eq] at hfits
    rw [List.length_append]
    omega
  · rw [hfd, hr]
    simp only [SendsTo, Option.map_none, advance]
    split_ifs <;> exact h.flow_same
  · rw [hfd, hr]
    exact sendsTo_socket (h.flow_socketSendId (k := k.touch pid) kh id _)

/-- Sending calls that look a socket up. -/
theorem Kernel.sendsTo_socketFd (h : k.ipc.Wired)
    {send : Nat → Int × Kernel σ} (hsend : ∀ id,
      (k.ipc.streamPeerOf id = none → k.ipc.Flow (send id).2.ipc Ipc.nothing Ipc.nothing) ∧
      ∀ p, k.ipc.streamPeerOf id = some p → k.ipc.Sent (send id).2.ipc (send id).1 (.stream p) data) :
    k.SendsTo (match k.socketIdForFd pid fd with
      | .error rc => (rc, k.touch pid)
      | .ok id => send id) ((k.peerAt pid fd).map (fun c => (c, data))) := by
  cases hid : k.socketIdForFd pid fd with
  | error rc => exact sendsTo_failed h (socketIdForFd_neg hid) rfl _
  | ok id =>
    rw [peerAt_socket (socketIdForFd_ok hid).1]
    exact sendsTo_socket (hsend id)

theorem SysCall.sendsTo_send (h : k.ipc.Wired) (kh : Kh σ) (request : Bytes) :
    k.SendsTo (k.sysSocketSend kh pid request) (SysCall.sends k pid (.send request)) := by
  unfold sysSocketSend
  rw [SysCall.sends]
  split
  · exact sendsTo_failed h (by decide : -EINVAL < 0) rfl _
  exact sendsTo_socketFd h (fun id => h.flow_socketSendId (k := k.touch pid) kh id _)

/-- A packet to an address reaches no stream. -/
theorem SysCall.sendsTo_sendto (h : k.ipc.Wired) (request : Bytes) :
    k.SendsTo (k.sysSocketSendto pid request) (SysCall.sends k pid (.sendto request)) := by
  rcases k.sendto_cases pid request with hrefuses |
    ⟨hlen, id, s, p, pp, bound, rx, q, isOpen, path, target, hfd, hs, hkind, -, htarget, hr⟩
  · exact sendsTo_refused h hrefuses _
  have hnone : k.ipc.streamPeerOf id = none := by
    rw [Ipc.streamPeerOf, show k.ipc.sockets.get? id = some s from hs, Option.bind_some, hkind]
    rfl
  rw [SysCall.sends, if_neg hlen, peerAt_socket hfd, hnone, hr]
  change k.ipc.Flow (deliverPacket _ _ _ _ _).2.ipc Ipc.nothing Ipc.nothing
  rcases Ipc.Wired.deliverPacket (k := k.touch pid) h (by decide : 0 < ECONNREFUSED) target
    ⟨request.drop (12 + u32At request 8), bound⟩ [] with ⟨-, hsame⟩ | hdelivers
  · rw [hsame]
    exact h.flow_same
  rcases hdelivers.flow with ⟨hflow, -⟩ | ⟨q, hq, -⟩
  · exact hflow
  · -- names lead to datagram sockets only
    have hgram := (h.named path target htarget).2
    have hq : k.ipc.queued (.stream target) = some q := hq
    simp only [Ipc.queued, Ipc.inbox] at hq
    cases hs' : k.ipc.sockets.get? target with
    | none => simp [hs'] at hq
    | some s' =>
      have := hgram s' hs'
      cases hkind' : s'.kind <;> simp [hs', hkind', SocketKind.inbox, SocketKind.isDatagram] at hq this

theorem SysCall.sendsTo_sendmsg (h : k.ipc.Wired) {request : Bytes} (hfds : u32At request 8 = 0) :
    k.SendsTo (k.sysSocketSendmsg pid request) (SysCall.sends k pid (.sendmsg request)) := by
  unfold sysSocketSendmsg
  rw [SysCall.sends]
  by_cases hlen : request.length < 12
  · rw [if_pos hlen]
    exact sendsTo_failed h (by decide : -EINVAL < 0) rfl _
  by_cases hdata : request.length < 12 + u32At request 4 + 4 * u32At request 8
  · simp only [if_neg hlen, if_pos hdata]
    exact sendsTo_failed h (by decide : -EINVAL < 0) rfl _
  simp only [if_neg hlen, if_neg hdata, if_neg (not_or.mpr ⟨hlen, hdata⟩)]
  rw [hfds, words, cloneFdRights]
  exact sendsTo_socketFd h (fun id => h.flow_socketSendmsgId (k := k.touch pid) id _)

/-! ### Reading calls -/

def Kernel.TakesFrom (k : Kernel σ) (r : Reply × Kernel σ) (taking : Option Taking) : Prop :=
  match taking with
  | none => k.ipc.Flow r.2.ipc Ipc.nothing Ipc.nothing
  | some t => ∃ q, k.ipc.Took r.2.ipc r.1 t q

/-- A call that fails before it looks at a channel. -/
theorem Kernel.takesFrom_none (h : k.ipc.Wired) (hsame : r.2.ipc = k.ipc) : k.TakesFrom r none := by
  rw [TakesFrom, hsame]
  exact h.flow_same

/-- A receive through a socket descriptor. -/
theorem Kernel.takesFrom_socket (h : k.ipc.Wired) (kh : Kh σ) (id cap flags : Nat) :
    k.TakesFrom (k.socketRecvId kh id cap flags)
      ((k.ipc.live (.stream id)).map (fun c => ⟨c, cap, readMode flags⟩)) := by
  cases hlive : k.ipc.live (.stream id) with
  | none => exact h.flow_socketRecvId kh (Ipc.live_eq_none hlive) cap flags
  | some c =>
    obtain ⟨rfl, q, hq⟩ := Ipc.live_eq_some hlive
    exact ⟨q, h.took kh hq cap flags⟩

theorem Kernel.takesFrom_pipe (h : k.ipc.Wired) {b : PipeBuf} (hb : k.pipes.get? id = some b)
    (cap : Nat) :
    k.ipc.Took (if b.bytes.isEmpty then k.ipc
        else { k.ipc with pipes := k.ipc.pipes.insert id { b with bytes := b.bytes.drop cap } })
      (if b.bytes.isEmpty then .code (if b.writeEnds = 0 then 0 else -EAGAIN)
        else .data (b.bytes.take cap)) ⟨.pipe id, cap, .take⟩ b.bytes := by
  have hq : k.ipc.queued (.pipe id) = some b.bytes := by
    simp only [Ipc.queued, Ipc.pipeBytes, ipc, hb, Option.map_some]
  split
  · rename_i hempty
    have hnil : b.bytes = [] := by simpa using hempty
    refine h.took_nothing hq (.inr (.inr hnil)) (fun hzero => .inr ⟨hnil, fun b' hb' => ?_⟩)
    obtain rfl := Option.mem_unique hb hb'
    by_contra hends
    rw [if_neg hends] at hzero
    exact absurd hzero (by decide)
  · rename_i hempty
    have hset := h.setsPipe hb (b.bytes.drop cap)
    refine ⟨hq, ?_, fun hpeek => ?_, ?_, fun hzero hcap => ?_⟩
    · simp [Ipc.readClosed]
    · cases hpeek
    · rw [if_neg (by simp), Reply.received_data, ← Ipc.only_nil (.pipe id)]
      refine Ipc.Sets.flow (by rwa [List.append_nil]) ?_ (fun hbounded => ?_)
      · rw [List.take_append_drop]
        exact hq
      · have := hbounded _ _ hq
        rw [List.append_nil, List.length_drop]
        omega
    · exact absurd hzero (take_length_ne_zero hempty hcap)

theorem SysCall.takesFrom_read (h : k.ipc.Wired) (kh : Kh σ) (request : Bytes) (cap : Nat) :
    k.TakesFrom (k.readFd kh pid request cap) (SysCall.takes k pid (.read request cap)) := by
  unfold readFd
  rw [SysCall.takes, readU32Args_one]
  by_cases hlen : request.length < 4
  · rw [if_pos hlen, if_pos hlen]
    exact takesFrom_none h rfl
  rw [if_neg hlen, if_neg hlen]
  simp only [streamAt]
  cases hfd : k.fdEntry pid (u32At request 0) with
  | none => exact h.flow_same
  | some e =>
    cases e with
    | stdin =>
      split_ifs <;> exact h.flow_same
    | stdout | stderr | directory => exact h.flow_same
    | file id =>
      simp only
      cases k.ofds.get? id with
      | none => exact h.flow_same
      | some o =>
        refine takesFrom_none h ?_
        simp only [advance]
        split_ifs <;> rfl
    | socket id => exact takesFrom_socket (k := k.touch pid) h kh id cap 0
    | pipe id side =>
      cases side with
      | write => exact h.flow_same
      | read =>
        simp only
        cases hb : k.pipes.get? id with
        | none =>
          have hnone : k.ipc.live (.pipe id) = none := by
            simp [Ipc.live, Ipc.queued, Ipc.pipeBytes, ipc, hb]
          rw [hnone]
          exact h.flow_same
        | some b =>
          have hlive : k.ipc.live (.pipe id) = some (.pipe id) := by
            simp [Ipc.live, Ipc.queued, Ipc.pipeBytes, ipc, hb]
          rw [hlive]
          have htook := takesFrom_pipe h hb cap
          simp only
          by_cases hempty : b.bytes.isEmpty = true
          · rw [if_pos hempty, if_pos hempty] at htook
            rw [if_pos hempty]
            exact ⟨_, htook⟩
          · rw [if_neg hempty, if_neg hempty] at htook
            rw [if_neg hempty]
            exact ⟨_, htook⟩

theorem Kernel.streamAt_socket (h : k.fdEntry pid fd = some (.socket id)) :
    k.streamAt pid fd = k.ipc.live (.stream id) := by rw [streamAt, h]

/-- A descriptor that is refused reads from no channel. -/
theorem Kernel.streamAt_refused {rc : Int} (h : k.socketIdForFd pid fd = .error rc) :
    k.streamAt pid fd = none := by
  unfold socketIdForFd at h
  rw [streamAt]
  cases hfd : k.fdEntry pid fd with
  | none => rfl
  | some e =>
    cases e with
    | socket id =>
      rw [hfd] at h
      simp only at h
      split_ifs at h with hthere
      have hnone : k.sockets.get? id = none := by
        by_contra hsome
        exact hthere (SortedMap.contains_iff.mpr (Option.ne_none_iff_exists'.mp hsome))
      simp [Ipc.live, Ipc.queued, Ipc.inbox, ipc, hnone]
    | _ => rfl

theorem SysCall.takesFrom_recv (h : k.ipc.Wired) (kh : Kh σ) (request : Bytes) (cap : Nat) :
    k.TakesFrom (k.sysSocketRecv kh pid request cap) (SysCall.takes k pid (.recv request cap)) := by
  unfold sysSocketRecv
  rw [SysCall.takes]
  by_cases hlen : request.length < 8
  · rw [if_pos hlen, if_pos (.inl hlen)]
    exact takesFrom_none h rfl
  by_cases hcap : cap = 0
  · rw [if_neg hlen, if_pos hcap, if_pos (.inr hcap)]
    exact takesFrom_none h rfl
  rw [if_neg hlen, if_neg hcap, if_neg (not_or.mpr ⟨hlen, hcap⟩)]
  cases hid : k.socketIdForFd pid (u32At request 0) with
  | error rc =>
    rw [streamAt_refused hid]
    exact takesFrom_none h rfl
  | ok id =>
    rw [streamAt_socket (socketIdForFd_ok hid).1]
    exact takesFrom_socket (k := k.touch pid) h kh id cap _

/-- What comes behind the data of a reply is not received as data. -/
theorem Reply.received_append (rc : Int) (writes more : List (Nat × Bytes))
    (h : writes ≠ [] ∨ rc = 0) : (⟨rc, writes ++ more⟩ : Reply).received =
      (⟨rc, writes⟩ : Reply).received := by
  cases writes with
  | nil =>
    obtain rfl : rc = 0 := h.resolve_left (by simp)
    simp only [Reply.received, List.nil_append, Int.toNat_zero, List.take_zero]
    split <;> rfl
  | cons w ws =>
    obtain ⟨off, bytes⟩ := w
    cases off <;> rfl

theorem Reply.received_more {reply : Reply} {more : List (Nat × Bytes)} (h : reply.writes = [] → more = []) :
    (⟨reply.rc, reply.writes ++ more⟩ : Reply).received = reply.received := by
  by_cases hwrites : reply.writes = []
  · rw [h hwrites, List.append_nil]
  · exact received_append _ _ _ (.inl hwrites)

/-- A receive without a write returns no length. -/
theorem Kernel.socketRecvId_writes (kh : Kh σ) (k : Kernel σ) (id cap flags : Nat) :
    (k.socketRecvId kh id cap flags).1.writes ≠ [] ∨ (k.socketRecvId kh id cap flags).1.rc ≤ 0 := by
  have hempty : ∀ isOpen closed, emptyRecv isOpen closed ≤ 0 := by decide
  have hrefused : -EOPNOTSUPP ≤ 0 := by decide
  obtain ⟨reply, host, hr, hwrites, -⟩ | ⟨s, box, -, -, hr⟩ := k.recv_cases kh id cap flags <;> rw [hr]
  · exact hwrites
  cases s.kind.takeFront cap with
  | none =>
    dsimp only
    split_ifs
    · exact .inr le_rfl
    · exact .inr hrefused
    · exact .inr (hempty _ _)
  | some taken =>
    split_ifs
    · exact .inr le_rfl
    · exact .inr hrefused
    · exact .inl (List.cons_ne_nil _ _)
    · exact .inl (List.cons_ne_nil _ _)

/-- The same data in another reply. -/
theorem Ipc.Took.reply {reply reply' : Reply} (h : v.Took v' reply t q) (hrc : reply'.rc = reply.rc)
    (hreceived : reply'.received = reply.received) : v.Took v' reply' t q :=
  ⟨h.queued, hreceived.trans h.received, h.peek, by rw [hreceived]; exact h.flow,
    fun hzero => h.eof (hrc ▸ hzero)⟩

theorem Kernel.TakesFrom.reply {r' : Reply × Kernel σ} (h : k.TakesFrom r taking)
    (hrc : r'.1.rc = r.1.rc) (hreceived : r'.1.received = r.1.received) (hsame : r'.2.ipc = r.2.ipc) :
    k.TakesFrom r' taking := by
  cases taking with
  | none =>
    rw [TakesFrom, hsame]
    exact h
  | some t =>
    obtain ⟨q, htook⟩ := h
    refine ⟨q, ?_⟩
    rw [hsame]
    exact htook.reply hrc hreceived

theorem Kernel.TakesFrom.kept (h : k.TakesFrom r taking) (hrights : k.ipc.NoRights) :
    r.2.ipc.Wired ∧ r.2.ipc.NoRights := by
  cases taking with
  | none => exact ⟨Ipc.Flow.wired h, Ipc.Flow.noRights h hrights⟩
  | some t =>
    obtain ⟨q, htook⟩ := h
    exact ⟨htook.flow.wired, htook.flow.noRights hrights⟩

theorem Kernel.popRights_none (h : k.ipc.Wired) (hrights : k.ipc.NoRights) (id : Nat) :
    (k.popRights id).1 = [] ∧ (k.popRights id).2.ipc = k.ipc := by
  rcases h.popRights id with ⟨hnone, hsame, -⟩ | ⟨box, r, q, -, hbox, hqueue, -⟩
  · exact ⟨hnone, hsame⟩
  · rw [hrights id box hbox] at hqueue
    cases hqueue

theorem SysCall.takesFrom_recvfrom (h : k.ipc.Wired) (kh : Kh σ) (request : Bytes) (cap : Nat) :
    k.TakesFrom (k.sysSocketRecvfrom pid request cap)
      (SysCall.takes k pid (.recvfrom request cap)) := by
  rw [SysCall.takes]
  rcases k.recvfrom_cases kh pid request cap with ⟨rc, k', hr, hidle, hwhy⟩ |
    ⟨id, s, hlen, hid, hs, ⟨hkind, hr⟩ | ⟨hkind, reply, k', more, hrecv, hr, hmore⟩⟩ <;> rw [hr]
  · have hsame : k'.ipc = k.ipc := hidle.keeps (P := fun k' => k'.ipc = k.ipc) rfl rfl
    rcases hwhy with hlen | ⟨e, hid⟩
    · rw [if_pos hlen]
      exact takesFrom_none h hsame
    · rw [streamAt_refused hid, Option.map_none, ite_self]
      exact takesFrom_none h hsame
  · rw [if_neg hlen, streamAt_socket (socketIdForFd_ok hid).1]
    cases hlive : k.ipc.live (.stream id) with
    | none => exact takesFrom_none h rfl
    | some c =>
      obtain ⟨rfl, q, hq⟩ := Ipc.live_eq_some hlive
      refine ⟨q, h.took_nothing hq (.inr (.inl rfl)) (fun hzero => .inl ?_)⟩
      by_contra hclosed
      have hopen : ¬ k.readShut id = true := hclosed
      rw [if_neg hopen] at hzero
      exact absurd hzero (by decide)
  · have htakes := takesFrom_socket (k := k.touch pid) h kh id (u32At request 8) (u32At request 4)
    have hnone : k.ipc.live (.stream id) = none := by
      have hbox : k.ipc.inbox id = s.kind.inbox := Ipc.inbox_eq hs
      cases hk : s.kind <;> simp [hk, SocketKind.isDatagram, Ipc.live, Ipc.queued, hbox, SocketKind.inbox] at hkind ⊢
    rw [hrecv] at htakes
    rw [if_neg hlen, streamAt_socket (socketIdForFd_ok hid).1]
    rw [show (k.touch pid).ipc.live (.stream id) = none from hnone] at htakes
    rw [hnone]
    exact htakes.reply rfl (Reply.received_more hmore) rfl

theorem SysCall.takesFrom_recvmsg (h : k.ipc.Wired) (hrights : k.ipc.NoRights) (kh : Kh σ)
    (request : Bytes) (cap : Nat) :
    k.TakesFrom (k.sysSocketRecvmsg kh pid request cap)
      (SysCall.takes k pid (.recvmsg request cap)) := by
  unfold sysSocketRecvmsg
  rw [SysCall.takes]
  by_cases hlen : request.length < 12
  · rw [if_pos hlen, if_pos (.inl hlen)]
    exact takesFrom_none h rfl
  by_cases hcap : cap < u32At request 8 + 4
  · simp only [if_neg hlen, if_pos hcap, if_pos (.inr hcap : request.length < 12 ∨ _)]
    exact takesFrom_none h rfl
  simp only [if_neg hlen, if_neg hcap, if_neg (not_or.mpr ⟨hlen, hcap⟩)]
  cases hid : k.socketIdForFd pid (u32At request 0) with
  | error rc =>
    rw [streamAt_refused hid]
    exact takesFrom_none h rfl
  | ok id =>
    rw [streamAt_socket (socketIdForFd_ok hid).1]
    have hrecv := takesFrom_socket (k := k.touch pid) h kh id (u32At request 8)
      (u32At request 4)
    have hwrites := (k.touch pid).socketRecvId_writes kh id (u32At request 8) (u32At request 4)
    simp only
    generalize (k.touch pid).socketRecvId kh id (u32At request 8) (u32At request 4) = r
      at hrecv hwrites ⊢
    obtain ⟨received, k'⟩ := r
    simp only at hwrites ⊢
    split
    · exact hrecv
    have hdata : received.writes ≠ [] ∨ received.rc = 0 := hwrites.imp_right (fun hle => by omega)
    split
    · exact hrecv.reply rfl (Reply.received_append _ _ _ hdata) rfl
    obtain ⟨hwired, hnone⟩ := hrecv.kept hrights
    obtain ⟨hempty, hsame⟩ := popRights_none hwired hnone id
    generalize k'.popRights id = popped at hempty hsame ⊢
    obtain ⟨rights, k''⟩ := popped
    obtain rfl : rights = [] := hempty
    have hroom : ¬ cap - u32At request 8 < 4 := by omega
    simp only [installFdRightsTruncated, if_neg hroom, deliverRights]
    refine hrecv.reply ?_ (Reply.received_append _ _ _ ?_) hsame
    · rfl
    · exact hdata

/-! ### One call -/

section
variable (kh : Kh σ) (k : Kernel σ)

/-- What a call adds to the log of written bytes. -/
def SysCall.accepted (pid : Pid) (call : SysCall) : Channel → Bytes :=
  match call.sends k pid with
  | some (c, payload) => if (call.run kh k pid).1.rc < 0 then Ipc.nothing else Ipc.only c payload
  | none => Ipc.nothing

/-- What a call adds to the log of bytes read. -/
def SysCall.returned (pid : Pid) (call : SysCall) : Channel → Bytes :=
  match call.takes k pid with
  | some t => Ipc.only t.channel (if t.mode = .peek then [] else (call.run kh k pid).1.received)
  | none => Ipc.nothing

def KernelCall.accepted : KernelCall → Channel → Bytes
  | .sys pid call => call.accepted kh k pid
  | _ => Ipc.nothing

def KernelCall.returned : KernelCall → Channel → Bytes
  | .sys pid call => call.returned kh k pid
  | _ => Ipc.nothing

end

/-- What holds of the channels between calls. -/
structure Kernel.Plumbed (k : Kernel σ) : Prop where
  wired : k.ipc.Wired
  bounded : k.ipc.Bounded
  noRights : k.ipc.NoRights
  ledger : k.Ledger []

theorem SysCall.sendsTo (h : k.ipc.Wired) (kh : Kh σ) (hcall : call.onChannels = true)
    {x : Channel × Bytes} (hx : call.sends k pid = some x) :
    k.SendsTo ((call.run kh k pid).1.rc, (call.run kh k pid).2) (some x) := by
  rw [← hx]
  cases call with
  | write request => exact SysCall.sendsTo_write h kh request
  | send request => exact SysCall.sendsTo_send h kh request
  | sendto request => exact SysCall.sendsTo_sendto h request
  | sendmsg request => exact SysCall.sendsTo_sendmsg h (by simpa [SysCall.onChannels] using hcall)
  | _ => cases hx

theorem SysCall.takesFrom (h : k.ipc.Wired) (hrights : k.ipc.NoRights) (kh : Kh σ)
    (ht : call.takes k pid = some t) : k.TakesFrom (call.run kh k pid) (some t) := by
  rw [← ht]
  cases call with
  | read request cap => exact SysCall.takesFrom_read h kh request cap
  | recv request cap => exact SysCall.takesFrom_recv h kh request cap
  | recvfrom request cap => exact SysCall.takesFrom_recvfrom h kh request cap
  | recvmsg request cap => exact SysCall.takesFrom_recvmsg h hrights kh request cap
  | _ => cases ht

/-- A call moves the channels by what it adds to the logs. -/
theorem Kernel.SendsTo.flow (kh : Kh σ)
    (h : k.SendsTo ((call.run kh k pid).1.rc, (call.run kh k pid).2) (call.sends k pid))
    (hwired : k.ipc.Wired) (htakes : call.takes k pid = none) :
    k.ipc.Flow (call.run kh k pid).2.ipc (call.accepted kh k pid) (call.returned kh k pid) := by
  rw [SysCall.accepted, SysCall.returned, htakes]
  cases hx : call.sends k pid with
  | none =>
    rw [hx] at h
    exact h
  | some x =>
    rw [hx] at h
    rcases h with ⟨hneg, hsame⟩ | ⟨hrc, q, -, -, hflow⟩
    · simp only [if_pos hneg, hsame]
      exact hwired.flow_same
    · simp only at hrc
      simp only [hrc, if_neg (by omega : ¬ (x.2.length : Int) < 0)]
      exact hflow

theorem Kernel.TakesFrom.flow (kh : Kh σ) (h : k.TakesFrom (call.run kh k pid) (call.takes k pid))
    (hsends : call.sends k pid = none) :
    k.ipc.Flow (call.run kh k pid).2.ipc (call.accepted kh k pid) (call.returned kh k pid) := by
  rw [SysCall.accepted, SysCall.returned, hsends]
  cases ht : call.takes k pid with
  | none =>
    rw [ht] at h
    exact h
  | some t =>
    rw [ht] at h
    obtain ⟨q, htook⟩ := h
    exact htook.flow

theorem SysCall.flow (kh : Kh σ) (h : k.Plumbed) (hcall : call.onChannels = true) :
    k.ipc.Flow (call.run kh k pid).2.ipc (call.accepted kh k pid) (call.returned kh k pid) := by
  have hw := h.wired
  cases call with
  | close | dup | dup2 | dup3 | dupMin | pipe | socketOpen | accept | connect | socketpair | socketClose =>
    exact Ipc.Quiet.flow (SysCall.on kh hw.calls rfl) hw
  | read request cap => exact (SysCall.takesFrom_read hw kh request cap).flow kh rfl
  | write request => exact SendsTo.flow kh (SysCall.sendsTo_write hw kh request) hw rfl
  | bind request => exact Ipc.Quiet.flow (hw.calls.sysSocketBind trivial) hw
  | listen request => exact Ipc.Quiet.flow (hw.calls.sysSocketListen kh trivial) hw
  | shutdown request =>
    refine (hw.sysSocketShutdown pid request (fun id hfd => ?_)).flow hw
    have hlive : 0 < k.counter (.socket id) := Ledger.live_of_fdEntry h.ledger hfd rfl
    rw [k.counter_socket] at hlive
    cases hs : k.sockets.get? id with
    | none => simp [hs] at hlive
    | some s => exact hw.lt hs
  | send request => exact SendsTo.flow kh (SysCall.sendsTo_send hw kh request) hw rfl
  | recv request cap => exact (SysCall.takesFrom_recv hw kh request cap).flow kh rfl
  | sendto request => exact SendsTo.flow kh (SysCall.sendsTo_sendto hw request) hw rfl
  | recvfrom request cap => exact (SysCall.takesFrom_recvfrom hw kh request cap).flow kh rfl
  | sendmsg request =>
    have hfds : u32At request 8 = 0 := by simpa [SysCall.onChannels] using hcall
    exact SendsTo.flow kh (SysCall.sendsTo_sendmsg hw hfds) hw rfl
  | recvmsg request cap =>
    exact (SysCall.takesFrom_recvmsg hw h.noRights kh request cap).flow kh rfl
  | _ => cases hcall

theorem KernelCall.flow (kh : Kh σ) (h : k.Plumbed) {call : KernelCall}
    (hcall : call.onChannels = true) :
    k.ipc.Flow (call.step kh k).ipc (call.accepted kh k) (call.returned kh k) := by
  have hw := h.wired
  cases call with
  | sys pid call => exact SysCall.flow kh h hcall
  | _ => exact Ipc.Quiet.flow (KernelCall.on kh hw.fds (by simp)) hw

/-- Without queued descriptors every drop is safe. -/
theorem Ipc.NoRights.safeDrop (h : k.ipc.NoRights) (es : List FdEntry) : k.SafeDrop es := by
  have hnone : ∀ id s, k.sockets.get? id = some s → s.kind.rights = [] := by
    intro id s hs
    have hbox := Ipc.inbox_eq (v := k.ipc) hs
    cases hkind : s.kind with
    | unixStream peer lp pp rx rights isOpen cred =>
      rw [hkind] at hbox
      have : rights = [] := h id _ hbox
      rw [SocketKind.rights, this]
      rfl
    | unixDatagram peer pp bound rx rights isOpen =>
      rw [hkind] at hbox
      have : rights = [] := h id _ hbox
      rw [SocketKind.rights, this]
      rfl
    | _ => rfl
  have hview : ∀ id s, k.refView.sockets.get? id = some s → s.rights = [] := by
    intro id s hs
    rw [refView_sockets_get?, Option.map_eq_some_iff] at hs
    obtain ⟨s', hs', rfl⟩ := hs
    exact hnone id s' hs'
  intro id s hs _ t ht
  refine ⟨fun e he => ?_, fun p _ q hq e he => ?_⟩
  · rw [hview id t ht] at he
    cases he
  · rw [hview p q hq] at he
    cases he

theorem KernelCall.plumbed (kh : Kh σ) (h : k.Plumbed) {call : KernelCall}
    (hcall : call.onChannels = true) (hroom : call.Room k) : (call.step kh k).Plumbed := by
  have hflow := KernelCall.flow kh h hcall
  refine ⟨hflow.wired, hflow.bounded h.bounded, hflow.noRights h.noRights,
    call.ledger kh h.ledger hroom ⟨h.noRights.safeDrop _, ?_⟩⟩
  intro e he
  exfalso
  cases call with
  | sys pid call =>
    cases call with
    | sendmsg request =>
      -- a message without descriptors forgets none
      have hfds : u32At request 8 = 0 := by simpa [KernelCall.onChannels, SysCall.onChannels] using hcall
      simp only [KernelCall.forgotten, forgottenRights, messageFds, hfds, words, named]
        at he
      split_ifs at he
      · cases he
      · split at he
        · split_ifs at he
          · cases he
          · cases he
        · cases he
    | _ => cases he
  | _ => cases he

/-! ### Whole runs -/

section
variable (kh : Kh σ) (k : Kernel σ) (calls : List KernelCall) (ch : Channel)

/-- Payloads of the successful writes to a channel, in order. -/
def writtenBytes : Bytes :=
  Run.log (KernelCall.step kh) (fun k call => call.accepted kh k ch) k calls

/-- Bytes that reads of a channel returned and consumed, in order. -/
def readBytes : Bytes :=
  Run.log (KernelCall.step kh) (fun k call => call.returned kh k ch) k calls

end

/-- The logs agree with a channel; one that was never made has none. -/
structure Ipc.Follows (v : Ipc) (ch : Channel) (written read : Bytes) : Prop where
  tracks : Fifo.Tracks written read (v.queued ch)
  unborn : ¬ v.Born ch → written = [] ∧ read = []

/-- One call keeps the logs and the channel in agreement. -/
theorem Ipc.Flow.follows {put got : Channel → Bytes} (hflow : v.Flow v' put got)
    {written read : Bytes} (h : v.Follows ch written read) (hwired : v.Wired) :
    v'.Follows ch (written ++ put ch) (read ++ got ch) := by
  have htracks := h.tracks
  cases hq : v.queued ch with
  | some q =>
    rw [hq] at htracks
    obtain ⟨rest, rfl, hafter⟩ := hflow.live ch q hq
    have htaken : Fifo.Tracks written (read ++ got ch) (some rest) := by
      simpa using htracks.take (got ch).length
    refine ⟨?_, fun hunborn => absurd (hflow.born ch (hwired.born hq)) hunborn⟩
    rcases hafter with hlive | ⟨hput, hgone⟩
    · rw [hlive]
      exact htaken.put (put ch)
    · rw [hgone, hput, List.append_nil]
      exact htaken.lose
  | none =>
    rw [hq] at htracks
    obtain ⟨hput, hgot, hdead, hnew⟩ := hflow.idle ch hq
    rw [hput, hgot, List.append_nil, List.append_nil]
    refine ⟨?_, fun hunborn => h.unborn (fun hborn => hunborn (hflow.born ch hborn))⟩
    by_cases hborn : v.Born ch
    · rw [hdead hborn]
      exact htracks
    · obtain ⟨rfl, rfl⟩ := h.unborn hborn
      cases hq' : v'.queued ch with
      | none => exact List.nil_prefix
      | some q =>
        obtain rfl := hnew q hq'
        exact Fifo.tracks_new

theorem Kernel.plumbed_new (host : σ) : (Kernel.new host).Plumbed := by
  have hnone : ∀ id, (new host).ipc.inbox id = none := fun _ => rfl
  refine ⟨⟨fun _ _ => rfl, fun _ _ => rfl, fun _ _ => rfl, ?_, ?_, ?_, ?_, ?_⟩, ?_, ?_,
    ledger_new host⟩
  · intro id s p hs
    cases hs
  · intro id s p s' hs
    cases hs
  · intro id s p hs
    cases hs
  · intro id s p hs
    cases hs
  · intro path p hp
    cases hp
  · intro ch q hq
    cases ch <;> cases hq
  · intro id box hbox
    rw [hnone] at hbox
    cases hbox

section
variable (kh : Kh σ) (host : σ)

/-- A state reached by calls on channels, with its logs. -/
theorem channels_follow {calls : List KernelCall} (hcalls : ∀ call ∈ calls, call.onChannels = true)
    (hroom : Run.Along (KernelCall.step kh) (fun k call => call.Room k) (Kernel.new host) calls) :
    (Run.run (KernelCall.step kh) (Kernel.new host) calls).Plumbed ∧
      ∀ ch, (Run.run (KernelCall.step kh) (Kernel.new host) calls).ipc.Follows ch
        (writtenBytes kh (Kernel.new host) calls ch) (readBytes kh (Kernel.new host) calls ch) := by
  induction calls using List.reverseRecOn with
  | nil =>
    refine ⟨plumbed_new host, fun ch => ⟨?_, fun _ => ⟨rfl, rfl⟩⟩⟩
    cases ch <;> exact List.nil_prefix
  | append_singleton pre call ih =>
    obtain ⟨hpre, hcall, -⟩ := (Run.along_append _).mp hroom
    obtain ⟨hplumbed, hfollows⟩ := ih (fun c hc => hcalls c (List.mem_append_left _ hc)) hpre
    have hon := hcalls call (by simp)
    rw [Run.run_append]
    refine ⟨KernelCall.plumbed kh hplumbed hon hcall, fun ch => ?_⟩
    rw [writtenBytes, readBytes, Run.log_concat, Run.log_concat]
    exact (KernelCall.flow kh hplumbed hon).follows (hfollows ch) hplumbed.wired

/-- No descriptor and no queue refers to a write end, or, for a stream, to the socket at the other
    end, unless that is shut down for writing. -/
def Kernel.NoWriter (k : Kernel σ) : Channel → Prop
  | .pipe id => k.references (.pipe id .write) = 0
  | .stream id => ∀ p, k.ipc.streamPeerOf id = some p →
    k.references (.socket p) + k.waiting p = 0 ∨ k.writeShut p = true

theorem Kernel.Plumbed.noWriter (h : k.Plumbed) (hq : k.ipc.queued ch = some q)
    (hunwritten : k.ipc.Unwritten ch) : k.NoWriter ch := by
  have hcounts := Ledger.countsExact h.ledger
  cases ch with
  | pipe id =>
    simp only [Ipc.queued, Ipc.pipeBytes, Option.map_eq_some_iff] at hq
    obtain ⟨b, hb, -⟩ := hq
    exact (hcounts.writeEnds id b hb).symm.trans (hunwritten b hb)
  | stream id =>
    intro p hp
    rcases hunwritten p hp with hgone | hshut
    · left
      have habsent : ¬ k.sockets.contains p = true := by
        rw [SortedMap.contains_iff]
        rintro ⟨s, hs⟩
        rw [show k.sockets.get? p = none from hgone] at hs
        cases hs
      have := mt (hcounts.socket_present p).mpr habsent
      omega
    · exact .inr ((k.writeShut_iff p).mpr hshut)

/-- What a channel promises in a state with these logs: to its past, and to any next call. -/
structure Kernel.FifoAt (kh : Kh σ) (k : Kernel σ) (ch : Channel) (written read : Bytes) : Prop where
  ordered : read <+: written
  lossless : ∀ q, k.ipc.queued ch = some q → written = read ++ q
  bounded : ∀ q, k.ipc.queued ch = some q → q.length ≤ 65536
  whole : ∀ pid call payload, SysCall.onChannels call = true → call.sends k pid = some (ch, payload) →
    ((call.run kh k pid).1.rc = payload.length ∧ ∃ q, k.ipc.queued ch = some q ∧
        (call.run kh k pid).2.ipc.queued ch = some (q ++ payload)) ∨
      ((call.run kh k pid).1.rc < 0 ∧ (call.run kh k pid).2.ipc = k.ipc)
  peek : ∀ pid call t, SysCall.takes k pid call = some t → t.channel = ch → t.mode = .peek →
    (call.run kh k pid).2.ipc = k.ipc ∧
      ∀ pid' call' t', SysCall.takes (call.run kh k pid).2 pid' call' = some t' → t'.channel = ch →
        t'.mode = .take → t.cap ≤ t'.cap → (call.run kh k pid).1.received <+:
          (call'.run kh (call.run kh k pid).2 pid').1.received
  eof : ∀ pid call t, SysCall.takes k pid call = some t → t.channel = ch → 0 < t.cap →
    (call.run kh k pid).1.rc = 0 → k.ipc.readClosed ch = true ∨ (written = read ∧ k.NoWriter ch)

/-- Every pipe, and every direction of every stream, is a lossless bounded queue after any run, and
    reads end only where they should. -/
theorem channel_is_lossless_fifo {calls : List KernelCall}
    (hcalls : ∀ call ∈ calls, call.onChannels = true)
    (hroom : Run.Along (KernelCall.step kh) (fun k call => call.Room k) (Kernel.new host) calls)
    (ch : Channel) :
    (Run.run (KernelCall.step kh) (Kernel.new host) calls).FifoAt kh ch
      (writtenBytes kh (Kernel.new host) calls ch) (readBytes kh (Kernel.new host) calls ch) := by
  obtain ⟨hplumbed, hfollows⟩ := channels_follow kh host hcalls hroom
  have htracks := (hfollows ch).tracks
  generalize Run.run (KernelCall.step kh) (new host) calls = k at hplumbed htracks
  have hw := hplumbed.wired
  refine ⟨htracks.got_prefix_sent, fun q hq => ?_, fun q hq => hplumbed.bounded ch q hq,
    fun pid call payload hcall hsends => ?_, fun pid call t ht hch hmode => ?_,
    fun pid call t ht hch hcap hzero => ?_⟩
  · rw [hq] at htracks
    exact htracks
  · rcases SysCall.sendsTo hw kh hcall hsends with hfailed | ⟨hrc, q, hq, hafter, -⟩
    · exact .inr hfailed
    · exact .inl ⟨hrc, q, hq, hafter⟩
  · obtain ⟨q, htook⟩ := SysCall.takesFrom hw hplumbed.noRights kh ht
    have hsame := htook.peek hmode
    refine ⟨hsame, fun pid' call' t' ht' hch' hmode' hcap => ?_⟩
    obtain ⟨q', htook'⟩ := SysCall.takesFrom (by rw [hsame]; exact hw)
      (by rw [hsame]; exact hplumbed.noRights) kh ht'
    rw [htook.received, htook'.received, hsame, hch, hch', hmode, hmode']
    -- both look at the same queue
    have hq : k.ipc.queued ch = some q := hch ▸ htook.queued
    have hq' : k.ipc.queued ch = some q' := by
      rw [← hch', ← hsame]
      exact htook'.queued
    obtain rfl := Option.mem_unique hq hq'
    by_cases hclosed : k.ipc.readClosed ch = true
    · rw [if_pos (.inl hclosed), if_pos (.inl hclosed)]
    · rw [if_neg (by simp [hclosed]), if_neg (by simp [hclosed])]
      exact List.take_prefix_take_left hcap
  · obtain ⟨q, htook⟩ := SysCall.takesFrom hw hplumbed.noRights kh ht
    have hq : k.ipc.queued ch = some q := hch ▸ htook.queued
    have heof := htook.eof hzero hcap
    rw [hch] at heof
    refine heof.imp_right (fun ⟨hempty, hunwritten⟩ => ⟨?_, hplumbed.noWriter hq hunwritten⟩)
    rw [hq, hempty] at htracks
    simpa using (show _ = _ from htracks)

/-- In every run on channels the ends of a stream name one another. -/
theorem channels_stay_wired {calls : List KernelCall} (hcalls : ∀ call ∈ calls, call.onChannels = true)
    (hroom : Run.Along (KernelCall.step kh) (fun k call => call.Room k) (Kernel.new host) calls) :
    (Run.run (KernelCall.step kh) (Kernel.new host) calls).ipc.Wired :=
  (channels_follow kh host hcalls hroom).1.wired

end

/-- Two bytes into a pipe and one out, by a parent and its child, and a stream that is peeked at,
    read and half-closed. -/
def pipeAndStream : List KernelCall :=
  [.insertHostProcess 1 0 [] none, .sys 1 (.pipe 8), .prepareFork 1, .commitFork 1 2,
    .sys 2 (.write (leBytes 4 4 ++ [97, 98])), .sys 1 (.read (leBytes 4 3) 1),
    .sys 2 (.close (leBytes 4 4)), .sys 1 (.socketpair ([1, 1, 0, 0] ++ leBytes 4 0) 8),
    .sys 1 (.send (leBytes 4 5 ++ [99, 100])), .sys 1 (.recv (leBytes 4 6 ++ leBytes 4 2) 8),
    .sys 1 (.recv (leBytes 4 6 ++ leBytes 4 0) 1), .sys 1 (.shutdown (leBytes 4 5 ++ leBytes 4 1))]

theorem channel_is_lossless_fifo_pipeAndStream :
    writtenBytes Kh.absent (Kernel.new ()) pipeAndStream (.pipe 1) = [97, 98] ∧
      readBytes Kh.absent (Kernel.new ()) pipeAndStream (.pipe 1) = [97] ∧
      (Run.run (KernelCall.step Kh.absent) (Kernel.new ()) pipeAndStream).FifoAt Kh.absent
        (.stream 2) [99, 100] [99] :=
  ⟨by decide, by decide, channel_is_lossless_fifo Kh.absent () (by decide) (by decide) (.stream 2)⟩

theorem channels_stay_wired_pipeAndStream :
    (Run.run (KernelCall.step Kh.absent) (Kernel.new ()) pipeAndStream).ipc.Wired :=
  channels_stay_wired Kh.absent () (by decide) (by decide)

end Yurt
