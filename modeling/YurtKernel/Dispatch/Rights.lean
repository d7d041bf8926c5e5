import YurtKernel.Kernel.Mailbox
import YurtKernel.Dispatch.Messages

/-! Descriptors in messages over whole runs.

    A history of every mailbox goes along with the run. The boxes hold the rest of their histories as
    long as no call takes a datagram and leaves its descriptors behind, or takes descriptors that
    came in a later datagram. -/

namespace Yurt
open Kernel
variable {σ : Type} {k : Kernel σ} {pid : Pid} {g : Nat → Mailbox} (kh : Kh σ) (x : Mailbox)
variable {r : Receive} {call : SysCall} {rights : List (List FdEntry)} {request : Bytes}
  {packets : List Bytes} {cap id fd flags : Nat} {v v' : Ipc} {b : Box} {message : Bool} {idle : Int}

/-! ### The calls -/

/-- Calls on pipes and sockets; half-close is part of the state a run starts from. -/
def SysCall.onMail : SysCall → Bool
  | .shutdown _ => false
  | .sendmsg _ => true
  | call => call.onChannels

def KernelCall.onMail : KernelCall → Bool
  | .sys _ call => call.onMail
  | _ => true

/-- A receive in the history. -/
def Mailbox.receive (cap : Nat) (handed : Bool) (b : Box) : Mailbox :=
  { x with
    taken := x.taken + b.taken cap
    lists := x.lists + if handed then min 1 b.rights.length else 0 }

section
variable (k : Kernel σ)

/-- The histories after a call. -/
def SysCall.observe (pid : Pid) (g : Nat → Mailbox) (call : SysCall) : Nat → Mailbox :=
  match arrived (call.run kh k pid).1.rc (call.post k pid) with
  | some (t, m) => Function.update g t ((g t).push m)
  | none =>
    match call.receives k pid with
    | some r =>
      match k.ipc.box r.id with
      | some b =>
        if r.peek then g
        else Function.update g r.id
          ((g r.id).receive r.cap (r.message && decide (0 ≤ (call.run kh k pid).1.rc)) b)
      | none => g
    | none => g

/-- One call, with the histories. -/
def KernelCall.observed (s : Kernel σ × (Nat → Mailbox)) (call : KernelCall) : Kernel σ × (Nat → Mailbox) :=
  (call.step kh s.1,
    match call with
    | .sys pid call => call.observe kh s.1 pid s.2
    | _ => s.2)

/-! ### What a receive promises -/

/-- The descriptors a `recvmsg` handed over came with the datagram it returned, or in a stream with a
    message of which, or after which, it returned a byte. -/
def Kernel.OwnRights (g : Nat → Mailbox) (reply : Reply) (receive : Option Receive)
    (rights : List FdEntry) : Prop :=
  match receive with
  | none => rights = []
  | some r =>
    match k.ipc.box r.id with
    | none => rights = []
    | some (.datagram _ _) => rights = ((g r.id).next.map Message.rights).getD []
    | some (.stream _ _) => rights = [] ∨ ∃ pos, (g r.id).nextCarrier = some (pos, rights) ∧
        0 < reply.received.length ∧ pos < (g r.id).taken + reply.received.length

/-- A receive returns what is next in the history. A datagram that is taken takes its descriptors off
    the queue and leaves those of the others, and if they are not handed over they are released. -/
def Kernel.Takes (k k' : Kernel σ) (x : Mailbox) (reply : Reply) (r : Receive) : Box → Prop
  | .stream _ _ => reply.received = (x.bytes.drop x.taken).take r.cap
  | .datagram _ _ => reply.received = (x.next.map (fun m => m.data.take r.cap)).getD [] ∧
      (r.peek = false → ∀ b, k'.ipc.box r.id = some b →
        b.rights = Mailbox.listsOf (x.sent.drop (x.taken + 1))) ∧
      (r.peek = false → r.message = false → ∀ m, x.next = some m → ∀ e, e.counted = true →
        k'.counter e + m.rights.count e = k.counter e)

/-- Descriptors travel with their own message in this call. -/
def SysCall.Proper (pid : Pid) (g : Nat → Mailbox) (call : SysCall) : Prop :=
  (∀ request cap, call = .recvmsg request cap → 0 ≤ (call.run kh k pid).1.rc →
    ∃ rights, (call.run kh k pid).2.HandsOver pid (call.run kh k pid).1 (u32At request 8) cap rights ∧
      k.OwnRights g (call.run kh k pid).1 (call.receives k pid) rights) ∧
  ∀ r b, call.receives k pid = some r → k.ipc.box r.id = some b →
    k.Takes (call.run kh k pid).2 (g r.id) (call.run kh k pid).1 r b

def KernelCall.Proper (kh : Kh σ) (s : Kernel σ × (Nat → Mailbox)) : KernelCall → Prop
  | .sys pid call => call.Proper kh s.1 pid s.2
  | _ => True

/-! ### When it keeps the promise -/

/-- What a receive takes together came together: a `recvmsg` that would take descriptors finds a
    datagram that has some, a datagram with descriptors is neither peeked at nor taken otherwise, and
    a stream hands descriptors over with a byte of their message or of a later one. `idle` is the
    code of a receive that finds nothing. -/
def Mailbox.Pairs (r : Receive) (idle : Int) : Box → Prop
  | .stream bytes _ => r.message = true → r.peek = false → ∀ c ∈ x.nextCarrier, (bytes = [] ∧ idle < 0) ∨
        (0 < min r.cap bytes.length ∧ c.1 < x.taken + min r.cap bytes.length)
  | .datagram _ rights => ∀ m ∈ x.next,
      match r.message, r.peek with
      | true, false => m.rights = [] → rights = []
      | false, true => True
      | _, _ => m.rights = []

def SysCall.Paired (pid : Pid) (g : Nat → Mailbox) (call : SysCall) : Prop :=
  ∀ r ∈ call.receives k pid, ∀ b ∈ k.ipc.box r.id, (g r.id).Pairs r (k.emptyCode r.id) b

end

def KernelCall.Paired (s : Kernel σ × (Nat → Mailbox)) : KernelCall → Prop
  | .sys pid call => call.Paired s.1 pid s.2
  | _ => True

/-! ### One call -/

/-- Every box holds the rest of its history, and names never used have none. -/
structure Ipc.Aligned (v : Ipc) (g : Nat → Mailbox) : Prop where
  wired : v.Wired
  boxes : ∀ id b, v.box id = some b → (g id).Matches b
  unborn : ∀ id, v.nextSocket ≤ id → g id = .new

theorem Ipc.Aligned.moves {g' : Nat → Mailbox} {f : Nat → Box → Box} (h : v.Aligned g)
    (hmoves : v.Moves v' f)
    (hboxes : ∀ id b, v.box id = some b → (g id).Matches b → (g' id).Matches (f id b))
    (hunborn : ∀ id, v.nextSocket ≤ id → g' id = g id) : v'.Aligned g' where
  wired := hmoves.wired
  boxes := fun id b hb => by
    rcases lt_or_ge id v.nextSocket with hlt | hge
    · rcases hmoves.old id hlt with hnone | hsame
      · rw [hnone] at hb
        cases hb
      · rw [hsame, Option.map_eq_some_iff] at hb
        obtain ⟨b₀, hb₀, rfl⟩ := hb
        exact hboxes id b₀ hb₀ (h.boxes id b₀ hb₀)
    · rw [hunborn id hge, h.unborn id hge]
      exact Mailbox.matches_new (hmoves.new id b hge hb)
  unborn := fun id hid =>
    (hunborn id (hmoves.nextSocket.trans hid)).trans (h.unborn id (hmoves.nextSocket.trans hid))

theorem Ipc.Aligned.quiet (h : v.Aligned g) (hquiet : v.Quiet v') : v'.Aligned g :=
  h.moves hquiet.moves (fun _ _ _ hmatch => hmatch) (fun _ _ => rfl)

/-- One history and its box change together. -/
theorem Ipc.Aligned.movesAt {f : Box → Box} {x : Mailbox} (h : v.Aligned g)
    (hid : id < v.nextSocket) (hmoves : v.Moves v' (Ipc.onlyAt id f))
    (hbox : ∀ b, v.box id = some b → (g id).Matches b → x.Matches (f b)) :
    v'.Aligned (Function.update g id x) := by
  refine h.moves hmoves (fun i b hb hmatch => ?_) (fun i hi => ?_)
  · by_cases hi : i = id
    · subst hi
      rw [Function.update_self, Ipc.onlyAt, if_pos rfl]
      exact hbox b hb hmatch
    · rw [Function.update_of_ne hi, Ipc.onlyAt, if_neg hi]
      exact hmatch
  · exact Function.update_of_ne (by omega) _ _

/-- A sending call. -/
theorem SysCall.aligned_mails (h : k.ipc.Aligned g)
    (hmails : k.Mails ((call.run kh k pid).1.rc, (call.run kh k pid).2) (call.post k pid))
    (hreceives : call.receives k pid = none) :
    (call.run kh k pid).2.ipc.Aligned (call.observe kh k pid g) := by
  rw [SysCall.observe, hreceives]
  rw [Mails] at hmails
  generalize arrived (call.run kh k pid).1.rc (call.post k pid) = o at hmails ⊢
  cases o with
  | none => exact h.moves hmails (fun _ _ _ hmatch => hmatch) (fun _ _ => rfl)
  | some dest =>
    obtain ⟨t, m⟩ := dest
    exact h.movesAt hmails.1 hmails.2 (fun b _ hmatch => hmatch.push m)

/-- A receive keeps a box and its history together, if what it takes came together. -/
theorem Mailbox.Matches.receive {x : Mailbox} (h : x.Matches b) {rc : Int}
    (hpairs : x.Pairs r idle b) (hpeek : r.peek = false)
    (hrc : r.message = true → b.front r.cap ≠ none → 0 ≤ rc) :
    (x.receive r.cap (r.message && decide (0 ≤ rc)) b).Matches
      (if r.message then b.receiveMessage r.cap r.peek rc else b.receive r.cap r.peek) := by
  have hbox : (if r.message then b.receiveMessage r.cap r.peek rc else b.receive r.cap r.peek) =
      if (r.message && decide (0 ≤ rc)) = true then (b.take r.cap).popRights else b.take r.cap := by
    cases hm : r.message with
    | false => simp [Box.receive, hpeek]
    | true =>
      by_cases hneg : rc < 0
      · simp [Box.receiveMessage, Box.receive, hpeek, hneg, not_le.mpr hneg]
      · simp [Box.receiveMessage, Box.receive, hpeek, hneg, not_lt.mp hneg]
  rw [hbox]
  cases b with
  | stream bytes rights =>
    have htake := h.take_stream r.cap
    split_ifs with hhanded
    · rw [Mailbox.receive, hhanded, if_pos rfl]
      exact htake.pop_stream
    · rw [Mailbox.receive, if_neg hhanded]
      exact htake
  | datagram packets rights =>
    rcases h.next_datagram with ⟨rfl, rfl, -⟩ | ⟨m, hm, hpackets, hrights⟩
    · -- nothing there
      have hsame : (if (r.message && decide (0 ≤ rc)) = true then
          ((Box.datagram [] []).take r.cap).popRights else (Box.datagram [] []).take r.cap) =
          .datagram [] [] := by split_ifs <;> rfl
      rw [hsame]
      exact h
    · have hlt : x.taken < x.sent.length := (List.getElem?_eq_some_iff.mp hm).1
      have hcount : min 1 packets.length = 1 := by
        rw [hpackets, List.length_cons]
        omega
      have hpair := hpairs m hm
      -- the descriptors left are those of the datagrams left
      have hleft : (if (r.message && decide (0 ≤ rc)) = true then rights.tail else rights) =
          listsOf (x.sent.drop (x.taken + 1)) := by
        cases hmessage : r.message with
        | false =>
          simp only [hmessage, hpeek] at hpair
          rw [hrights, hpair]
          rfl
        | true =>
          simp only [hmessage, hpeek] at hpair
          have hpos : 0 ≤ rc := hrc hmessage (by simp [Box.front, hpackets])
          rw [Bool.true_and, if_pos (by simpa using hpos)]
          cases hown : m.rights with
          | nil =>
            rw [hown] at hrights
            have hnone := hpair hown
            rw [hnone] at hrights ⊢
            exact hrights
          | cons e es =>
            rw [hown] at hrights
            rw [hrights]
            rfl
      refine (?_ : Mailbox.Matches _ (.datagram packets.tail
        (if (r.message && decide (0 ≤ rc)) = true then rights.tail else rights)) → _) ?_
      · intro hmatch
        split_ifs at hmatch ⊢ <;> exact hmatch
      · refine ⟨?_, ?_, ?_⟩
        · change x.taken + min 1 packets.length ≤ x.sent.length
          omega
        · change packets.tail = (x.sent.drop (x.taken + min 1 packets.length)).map Message.data
          rw [hcount, hpackets, List.tail_cons]
        · change _ = listsOf (x.sent.drop (x.taken + min 1 packets.length))
          rw [hcount, hleft]

/-- A call that receives nothing. -/
theorem SysCall.aligned_still (h : k.ipc.Aligned g) (hpost : call.post k pid = none)
    (hreceives : call.receives k pid = none)
    (hmoves : k.ipc.Moves (call.run kh k pid).2.ipc Ipc.still) :
    (call.run kh k pid).2.ipc.Aligned (call.observe kh k pid g) := by
  rw [SysCall.observe, hpost, arrived, ite_self, hreceives]
  exact h.moves hmoves (fun _ _ _ hmatch => hmatch) (fun _ _ => rfl)

/-- A receiving call. -/
theorem SysCall.aligned_receive (h : k.ipc.Aligned g)
    (hpost : call.post k pid = none) (hr : call.receives k pid = some r)
    (hmoves : k.ipc.Moves (call.run kh k pid).2.ipc (Ipc.onlyAt r.id
      (fun b => if r.message then b.receiveMessage r.cap r.peek (call.run kh k pid).1.rc
        else b.receive r.cap r.peek)))
    (hrc : r.message = true → ∀ b, k.ipc.box r.id = some b → b.front r.cap ≠ none →
      0 ≤ (call.run kh k pid).1.rc)
    (hpaired : call.Paired k pid g) :
    (call.run kh k pid).2.ipc.Aligned (call.observe kh k pid g) := by
  rw [SysCall.observe, hpost, arrived, ite_self, hr]
  cases hb : k.ipc.box r.id with
  | none =>
    simp only [hb]
    refine h.moves hmoves (fun i b hib hmatch => ?_) (fun _ _ => rfl)
    have hne : i ≠ r.id := by
      rintro rfl
      rw [hb] at hib
      cases hib
    rw [Ipc.onlyAt, if_neg hne]
    exact hmatch
  | some b =>
    simp only [hb]
    cases hpeek : r.peek with
    | true =>
      rw [if_pos rfl]
      refine h.moves hmoves (fun i b _ hmatch => ?_) (fun _ _ => rfl)
      simp only [Ipc.onlyAt, hpeek, Box.receiveMessage, Box.receive, true_or, if_true, ite_self]
      exact hmatch
    | false =>
      rw [if_neg (by simp)]
      refine h.movesAt (h.wired.lt_of_box hb) hmoves (fun b' hb' hmatch => ?_)
      obtain rfl := Option.mem_unique hb hb'
      exact hmatch.receive (hpaired r hr b hb) hpeek (fun hmessage => hrc hmessage b hb)

theorem SysCall.aligned_receives (h : k.ipc.Aligned g) (hpost : call.post k pid = none)
    (hplain : ∀ r, call.receives k pid = some r → r.message = false)
    (hreceives : k.Receives (call.run kh k pid) (call.receives k pid))
    (hpaired : call.Paired k pid g) :
    (call.run kh k pid).2.ipc.Aligned (call.observe kh k pid g) := by
  cases hr : call.receives k pid with
  | none =>
    rw [hr] at hreceives
    exact SysCall.aligned_still kh h hpost hr hreceives
  | some r =>
    rw [hr] at hreceives
    have hmessage := hplain r hr
    refine SysCall.aligned_receive kh h hpost hr ?_ (fun htrue => ?_) hpaired
    · simp only [hmessage, Bool.false_eq_true, if_false]
      exact hreceives.1
    · rw [hmessage] at htrue
      cases htrue

theorem Kernel.recvCode_nonneg {o : Option Bytes} (h : o ≠ none) : 0 ≤ k.recvCode id o := by
  cases o with
  | none => exact absurd rfl h
  | some data => exact Int.natCast_nonneg _

theorem Kernel.receiveAt_message (h : k.receiveAt pid fd cap flags message = some r) :
    r.message = message := by
  rw [receiveAt] at h
  split at h
  · split_ifs at h
    rw [← Option.some.inj h]
  · cases h

theorem SysCall.receives_recvmsg_message
    (hr : SysCall.receives k pid (.recvmsg request cap) = some r) : r.message = true := by
  rw [SysCall.receives] at hr
  split_ifs at hr
  exact receiveAt_message hr

/-- Only `recvmsg` takes descriptors. -/
theorem SysCall.receives_plain (hr : call.receives k pid = some r)
    (hcall : ∀ request cap, call ≠ .recvmsg request cap) : r.message = false := by
  cases call with
  | read | recv =>
    rw [SysCall.receives] at hr
    split_ifs at hr
    exact receiveAt_message hr
  | recvfrom request cap =>
    rw [SysCall.receives] at hr
    split_ifs at hr
    exact receiveAt_message (Option.filter_eq_some_iff.mp hr).1
  | recvmsg request cap => exact absurd rfl (hcall request cap)
  | _ => cases hr

theorem SysCall.aligned_recvmsg (h : k.ipc.Aligned g)
    (hpaired : SysCall.Paired k pid g (.recvmsg request cap)) :
    (SysCall.run kh k pid (.recvmsg request cap)).2.ipc.Aligned
      (SysCall.observe kh k pid g (.recvmsg request cap)) := by
  have hreceives := SysCall.receives_recvmsg h.wired kh pid request cap
  cases hr : SysCall.receives k pid (.recvmsg request cap) with
  | none =>
    rw [hr] at hreceives
    exact SysCall.aligned_still kh h rfl hr hreceives.1
  | some r =>
    rw [hr] at hreceives
    obtain ⟨hmoves, -, hdata⟩ := hreceives
    have hmessage := SysCall.receives_recvmsg_message hr
    refine SysCall.aligned_receive kh h rfl hr ?_ (fun _ b hb hfront => ?_) hpaired
    · simp only [hmessage, if_true]
      exact hmoves
    · rw [show (SysCall.run kh k pid (.recvmsg request cap)).1.rc = _ from (hdata b hb).2.1]
      exact recvCode_nonneg hfront

theorem SysCall.aligned (h : k.ipc.Aligned g) (hcall : call.onMail = true)
    (hpaired : call.Paired k pid g) :
    (call.run kh k pid).2.ipc.Aligned (call.observe kh k pid g) := by
  have hw := h.wired
  cases call with
  | close | dup | dup2 | dup3 | dupMin | pipe | socketOpen | accept | connect | socketpair | socketClose =>
    exact SysCall.aligned_still kh h rfl rfl (Ipc.Quiet.moves (SysCall.on kh hw.calls rfl))
  | write request => exact SysCall.aligned_mails kh h (SysCall.mails_write hw kh request) rfl
  | bind request => exact SysCall.aligned_still kh h rfl rfl (Ipc.Quiet.moves (hw.calls.sysSocketBind trivial))
  | listen request => exact SysCall.aligned_still kh h rfl rfl (Ipc.Quiet.moves (hw.calls.sysSocketListen kh trivial))
  | send request => exact SysCall.aligned_mails kh h (SysCall.mails_send hw kh request) rfl
  | sendto request => exact SysCall.aligned_mails kh h (SysCall.mails_sendto hw request) rfl
  | sendmsg request => exact SysCall.aligned_mails kh h (SysCall.mails_sendmsg hw request) rfl
  | read request cap =>
    exact SysCall.aligned_receives kh h rfl (fun r hr => SysCall.receives_plain hr (by simp))
      (SysCall.receives_read hw kh request cap) hpaired
  | recv request cap =>
    exact SysCall.aligned_receives kh h rfl (fun r hr => SysCall.receives_plain hr (by simp))
      (SysCall.receives_recv hw kh request cap) hpaired
  | recvfrom request cap =>
    exact SysCall.aligned_receives kh h rfl (fun r hr => SysCall.receives_plain hr (by simp))
      (SysCall.receives_recvfrom hw kh request cap) hpaired
  | recvmsg request cap => exact SysCall.aligned_recvmsg kh h hpaired
  | _ => cases hcall

theorem KernelCall.aligned (kh : Kh σ) (h : k.ipc.Aligned g) {call : KernelCall}
    (hcall : call.onMail = true) (hpaired : call.Paired (k, g)) :
    (call.observed kh (k, g)).1.ipc.Aligned (call.observed kh (k, g)).2 := by
  have hw := h.wired
  cases call with
  | sys pid call => exact SysCall.aligned kh h hcall hpaired
  | _ => exact h.quiet (KernelCall.on kh hw.fds (by simp))

/-! ### The promise kept -/

/-- What the front of a box of packets is in its history. -/
theorem Mailbox.Matches.front_datagram {x : Mailbox} (h : x.Matches (.datagram packets rights))
    (cap : Nat) :
    ((Box.datagram packets rights).front cap).getD [] =
      (x.next.map (fun m => m.data.take cap)).getD [] := by
  rcases h.next_datagram with ⟨rfl, -, hnext⟩ | ⟨m, hnext, rfl, -⟩
  · rw [hnext]
    rfl
  · rw [hnext]
    rfl

/-- The front descriptors of a box of packets are those of its front packet, if a `recvmsg` may take
    them. -/
theorem Mailbox.Matches.frontRights_datagram {x : Mailbox}
    (h : x.Matches (.datagram packets rights)) (hmessage : r.message = true)
    (hpairs : x.Pairs r idle (.datagram packets rights)) :
    (if r.peek then [] else (Box.datagram packets rights).frontRights) =
      (x.next.map Message.rights).getD [] := by
  rcases h.next_datagram with ⟨rfl, rfl, hnext⟩ | ⟨m, hnext, -, hrights⟩
  · rw [hnext]
    split_ifs <;> rfl
  · have hpair := hpairs m hnext
    rw [hnext]
    cases hpeek : r.peek with
    | true =>
      simp only [hmessage, hpeek] at hpair
      exact hpair.symm
    | false =>
      simp only [hmessage, hpeek] at hpair
      rw [if_neg (by simp)]
      cases hown : m.rights with
      | nil =>
        rw [hpair hown]
        exact hown.symm
      | cons e es =>
        rw [hown] at hrights
        rw [hrights]
        exact hown.symm

/-- A receive returns what is next, and leaves the rest. -/
theorem SysCall.takes_box (h : k.ipc.Aligned g)
    (hr : call.receives k pid = some r) (hb : k.ipc.box r.id = some b)
    (hpaired : call.Paired k pid g)
    (hdata : (call.run kh k pid).1.received = (b.front r.cap).getD [])
    (hmoves : k.ipc.Moves (call.run kh k pid).2.ipc (Ipc.onlyAt r.id
      (fun b => if r.message then b.receiveMessage r.cap r.peek (call.run kh k pid).1.rc
        else b.receive r.cap r.peek)))
    (hrc : r.message = true → b.front r.cap ≠ none → 0 ≤ (call.run kh k pid).1.rc)
    (hcounts : r.message = false → ∀ e, (call.run kh k pid).2.counter e = k.counter e) :
    k.Takes (call.run kh k pid).2 (g r.id) (call.run kh k pid).1 r b := by
  have hmatch := h.boxes r.id b hb
  have hpairs := hpaired r hr b hb
  cases b with
  | stream bytes rights => exact hdata.trans (hmatch.front_stream r.cap)
  | datagram packets rights =>
    refine ⟨hdata.trans (hmatch.front_datagram r.cap), fun hpeek b' hb' => ?_,
      fun hpeek hmessage m hm e _ => ?_⟩
    · have hafter := hmatch.receive hpairs hpeek hrc
      rcases hmoves.old r.id (h.wired.lt_of_box hb) with hnone | hsame
      · rw [hnone] at hb'
        cases hb'
      · rw [hsame, hb, Option.map_some, Ipc.onlyAt, if_pos rfl] at hb'
        rw [Option.some.inj hb'] at hafter
        have hpackets : ∃ ps ls, b' = .datagram ps ls := by
          rw [← Option.some.inj hb']
          simp only [Box.receiveMessage, Box.receive]
          split_ifs <;> exact ⟨_, _, rfl⟩
        obtain ⟨ps, ls, rfl⟩ := hpackets
        have hleft : ls = Mailbox.listsOf ((g r.id).sent.drop
            ((g r.id).taken + min 1 packets.length)) := hafter.2.2
        rcases hmatch.next_datagram with ⟨rfl, -, hnext⟩ | ⟨m, -, rfl, -⟩
        · have hlen : (g r.id).sent.length ≤ (g r.id).taken := List.getElem?_eq_none_iff.mp hnext
          rw [Box.rights, hleft, List.drop_eq_nil_of_le (by simpa using hlen),
            List.drop_eq_nil_of_le (by omega)]
        · rw [Box.rights, hleft]
          simp
    · have hown := hpairs m hm
      simp only [hmessage, hpeek] at hown
      rw [hcounts hmessage e, hown, List.count_nil, Nat.add_zero]

namespace Kernel

theorem counter_setKind (k : Kernel σ) (id : Nat) (kind : SocketKind) (e : FdEntry) :
    (k.setKind id kind).counter e = k.counter e := by
  cases e with
  | pipe => rw [counter_pipe, counter_pipe, setKind]
  | file => rw [counter_file, counter_file, setKind]
  | socket x =>
    rw [counter_socket, counter_socket, setKind, SortedMap.get?_modify]
    split_ifs with hx
    · rw [hx]
      cases k.sockets.get? id <;> rfl
    · rfl
  | _ => rfl

theorem counter_socketRecvId (k : Kernel σ) (id cap flags : Nat) (e : FdEntry) :
    (k.socketRecvId kh id cap flags).2.counter e = k.counter e := by
  rcases k.socketRecvId_cases kh id cap flags with ⟨host, hr⟩ | ⟨s, kind, -, hr, -⟩
  · rw [hr]
    rfl
  · rw [hr]
    exact k.counter_setKind id kind e

theorem counter_touch (k : Kernel σ) (pid : Pid) (e : FdEntry) :
    (k.touch pid).counter e = k.counter e := by
  rw [counter, refView_touch, counter]

/-- The descriptor a receive goes through. -/
theorem receiveAt_entry (h : k.receiveAt pid fd cap flags message = some r) :
    k.fdEntry pid fd = some (.socket r.id) := by
  rw [receiveAt] at h
  split at h
  · next id hfd =>
    split_ifs at h
    rw [← Option.some.inj h]
    exact hfd
  · cases h

theorem counter_readFd (hr : SysCall.receives k pid (.read request cap) = some r)
    (e : FdEntry) :
    (k.readFd kh pid request cap).2.counter e = k.counter e := by
  rw [SysCall.receives] at hr
  split_ifs at hr with hlen
  unfold readFd
  rw [readU32Args_one, if_neg hlen]
  simp only [receiveAt_entry hr]
  rw [counter_socketRecvId, counter_touch]

theorem counter_sysSocketRecv (k : Kernel σ) (pid : Pid) (request : Bytes)
    (cap : Nat) (e : FdEntry) : (k.sysSocketRecv kh pid request cap).2.counter e = k.counter e := by
  unfold sysSocketRecv
  split_ifs
  · rfl
  · rfl
  · cases k.socketIdForFd pid (u32At request 0) with
    | error => exact k.counter_touch pid e
    | ok id =>
      simp only
      rw [counter_socketRecvId, counter_touch]

theorem counter_sysSocketRecvfrom (kh : Kh σ) (k : Kernel σ) (pid : Pid) (request : Bytes) (cap : Nat)
    (e : FdEntry) : (k.sysSocketRecvfrom pid request cap).2.counter e = k.counter e := by
  have htouch := k.counter_touch pid e
  rcases k.recvfrom_cases kh pid request cap with ⟨rc, k', hr, hidle, -⟩ |
    ⟨id, s, -, -, -, ⟨-, hr⟩ | ⟨-, reply, k', more, hrecv, hr, -⟩⟩ <;> rw [hr]
  · exact hidle.keeps (P := fun k' => k'.counter e = k.counter e) rfl htouch
  · exact htouch
  · have hkept := (k.touch pid).counter_socketRecvId kh id (u32At request 8) (u32At request 4) e
    rw [hrecv] at hkept
    exact hkept.trans htouch

end Kernel

/-- A receive without descriptors keeps the promise. -/
theorem SysCall.takes_receives (h : k.ipc.Aligned g) (hr : call.receives k pid = some r)
    (hb : k.ipc.box r.id = some b) (hpaired : call.Paired k pid g) (hmessage : r.message = false)
    (hreceives : k.Receives (call.run kh k pid) (call.receives k pid))
    (hcounts : ∀ e, (call.run kh k pid).2.counter e = k.counter e) :
    k.Takes (call.run kh k pid).2 (g r.id) (call.run kh k pid).1 r b := by
  rw [hr] at hreceives
  obtain ⟨hmoves, hdata⟩ := hreceives
  refine SysCall.takes_box kh h hr hb hpaired (hdata b hb) ?_ (fun htrue => ?_) (fun _ => hcounts)
  · simp only [hmessage, Bool.false_eq_true, if_false]
    exact hmoves
  · rw [hmessage] at htrue
    cases htrue

/-- The descriptors a `recvmsg` hands over belong to what it returns. -/
theorem SysCall.ownRights_recvmsg (h : k.ipc.Aligned g)
    (hpaired : SysCall.Paired k pid g (.recvmsg request cap))
    (hpos : 0 ≤ (k.sysSocketRecvmsg kh pid request cap).1.rc) :
    ∃ rights, (k.sysSocketRecvmsg kh pid request cap).2.HandsOver pid
        (k.sysSocketRecvmsg kh pid request cap).1 (u32At request 8) cap rights ∧
      k.OwnRights g (k.sysSocketRecvmsg kh pid request cap).1
        (SysCall.receives k pid (.recvmsg request cap)) rights := by
  have hreceives := SysCall.receives_recvmsg h.wired kh pid request cap
  generalize k.sysSocketRecvmsg kh pid request cap = out at hreceives hpos ⊢
  cases hr : SysCall.receives k pid (.recvmsg request cap) with
  | none =>
    rw [hr] at hreceives
    exact ⟨[], hreceives.2 hpos, rfl⟩
  | some r =>
    rw [hr] at hreceives
    obtain ⟨-, hnone, hdata⟩ := hreceives
    have hmessage := SysCall.receives_recvmsg_message hr
    cases hb : k.ipc.box r.id with
    | none =>
      refine ⟨[], hnone hb hpos, ?_⟩
      rw [OwnRights]
      simp only [hb]
    | some b =>
      obtain ⟨hreceived, hrc, hhands⟩ := hdata b hb
      refine ⟨_, hhands hpos, ?_⟩
      have hmatch := h.boxes r.id b hb
      have hpairs := hpaired r hr b hb
      rw [OwnRights]
      simp only [hb]
      cases b with
      | datagram packets rights => exact hmatch.frontRights_datagram hmessage hpairs
      | stream bytes rights =>
        cases hpeek : r.peek with
        | true => exact .inl rfl
        | false =>
          rw [if_neg (by simp), hmatch.frontRights_stream]
          cases hcarrier : (g r.id).nextCarrier with
          | none => exact .inl rfl
          | some c =>
            rcases hpairs hmessage hpeek c hcarrier with ⟨rfl, hidle⟩ | ⟨hsome, hlt⟩
            · -- the receive would have failed
              rw [hrc] at hpos
              exact absurd hpos (not_le.mpr hidle)
            · have hlen : out.1.received.length = min r.cap bytes.length := by
                rw [hreceived, hmatch.front_stream, ← hmatch.2.1, List.length_take]
              rw [hlen]
              exact .inr ⟨c.1, rfl, hsome, hlt⟩

theorem SysCall.proper (h : k.ipc.Aligned g) (hpaired : call.Paired k pid g) : call.Proper kh k pid g := by
  refine ⟨?_, fun r b hr hb => ?_⟩
  · rintro request cap rfl hpos
    exact SysCall.ownRights_recvmsg kh h hpaired hpos
  · have hw := h.wired
    cases call with
    | read request cap =>
      have hmessage := SysCall.receives_plain hr (by simp)
      exact SysCall.takes_receives kh h hr hb hpaired hmessage (SysCall.receives_read hw kh request cap)
        (fun e => counter_readFd kh hr e)
    | recv request cap =>
      have hmessage := SysCall.receives_plain hr (by simp)
      exact SysCall.takes_receives kh h hr hb hpaired hmessage (SysCall.receives_recv hw kh request cap)
        (fun e => k.counter_sysSocketRecv kh pid request cap e)
    | recvfrom request cap =>
      have hmessage := SysCall.receives_plain hr (by simp)
      exact SysCall.takes_receives kh h hr hb hpaired hmessage
        (SysCall.receives_recvfrom hw kh request cap)
        (fun e => k.counter_sysSocketRecvfrom kh pid request cap e)
    | recvmsg request cap =>
      have hmessage := SysCall.receives_recvmsg_message hr
      have hreceives := SysCall.receives_recvmsg hw kh pid request cap
      rw [hr] at hreceives
      obtain ⟨hmoves, -, hdata⟩ := hreceives
      refine SysCall.takes_box kh h hr hb hpaired (hdata b hb).1 ?_ (fun _ hfront => ?_)
        (fun hfalse => ?_)
      · simp only [hmessage, if_true]
        exact hmoves
      · rw [show (SysCall.run kh k pid (.recvmsg request cap)).1.rc = _ from (hdata b hb).2.1]
        exact recvCode_nonneg hfront
      · rw [hmessage] at hfalse
        cases hfalse
    | _ => cases hr

theorem KernelCall.proper (kh : Kh σ) (h : k.ipc.Aligned g) {call : KernelCall}
    (hpaired : call.Paired (k, g)) : call.Proper kh (k, g) := by
  cases call with
  | sys pid call => exact SysCall.proper kh h hpaired
  | _ => trivial

/-! ### Whole runs -/

/-- In every run whose receives all take together what came together, descriptors travel with their
    own message at every call. The run starts from any state of the wiring with nothing queued. -/
theorem rights_travel_with_message {k : Kernel σ} (hwired : k.ipc.Wired)
    (hempty : ∀ id b, k.ipc.box id = some b → b.Empty) {calls : List KernelCall}
    (hcalls : ∀ call ∈ calls, call.onMail = true)
    (hpaired : Run.Along (KernelCall.observed kh) KernelCall.Paired (k, fun _ => .new) calls) :
    Run.Along (KernelCall.observed kh) (KernelCall.Proper kh) (k, fun _ => .new) calls := by
  have hstart : k.ipc.Aligned (fun _ => .new) :=
    ⟨hwired, fun id b hb => Mailbox.matches_new (hempty id b hb), fun _ _ => rfl⟩
  exact Run.Along.promise (KernelCall.observed kh)
    (I := fun s => s.1.ipc.Aligned s.2) (C := fun call => call.onMail = true)
    (fun s call h _ hpaired => KernelCall.proper kh h hpaired)
    (fun s call h hcall hpaired => KernelCall.aligned kh h hcall hpaired) hstart hcalls hpaired

instance Mailbox.decidablePairs (x : Mailbox) (r : Receive) (idle : Int) : ∀ b, Decidable (x.Pairs r idle b)
  | .stream bytes _ => inferInstanceAs (Decidable (r.message = true → r.peek = false →
      ∀ c ∈ x.nextCarrier, (bytes = [] ∧ idle < 0) ∨
        (0 < min r.cap bytes.length ∧ c.1 < x.taken + min r.cap bytes.length)))
  | .datagram _ rights =>
    have : ∀ m : Message, Decidable (match r.message, r.peek with
        | true, false => m.rights = [] → rights = []
        | false, true => True
        | _, _ => m.rights = []) := fun m => by
      cases r.message <;> cases r.peek <;> infer_instance
    inferInstanceAs (Decidable (∀ m ∈ x.next, match r.message, r.peek with
        | true, false => m.rights = [] → rights = []
        | false, true => True
        | _, _ => m.rights = []))

instance KernelCall.decidablePaired (s : Kernel σ × (Nat → Mailbox)) :
    ∀ call, Decidable (KernelCall.Paired s call)
  | .sys pid call => inferInstanceAs (Decidable (∀ r ∈ call.receives s.1 pid,
      ∀ b ∈ s.1.ipc.box r.id, (s.2 r.id).Pairs r (s.1.emptyCode r.id) b))
  | .prepareFork _ | .commitFork _ _ | .rollbackFork _ _ | .insertHostProcess _ _ _ _
  | .spawnCached _ _ _ | .recordExit _ => isTrue trivial

/-- A datagram with a descriptor and one without, and a stream message with one, all received the way
    they were sent. -/
def passInOrder : List KernelCall :=
  [.sys 1 (.socketpair ([1, 2, 0, 0] ++ leBytes 4 0) 8), .sys 1 (.pipe 8),
    .sys 1 (.sendmsg (leBytes 4 3 ++ leBytes 4 1 ++ leBytes 4 1 ++ [97] ++ leBytes 4 5)),
    .sys 1 (.send (leBytes 4 3 ++ [98])),
    .sys 1 (.recvmsg (leBytes 4 4 ++ leBytes 4 0 ++ leBytes 4 4) 16),
    .sys 1 (.recv (leBytes 4 4 ++ leBytes 4 0) 4),
    .sys 1 (.socketpair ([1, 1, 0, 0] ++ leBytes 4 0) 8),
    .sys 1 (.sendmsg (leBytes 4 8 ++ leBytes 4 1 ++ leBytes 4 1 ++ [99] ++ leBytes 4 5)),
    .sys 1 (.recvmsg (leBytes 4 9 ++ leBytes 4 0 ++ leBytes 4 4) 16)]

theorem rights_travel_with_message_passInOrder :
    Run.Along (KernelCall.observed Kh.absent) (KernelCall.Proper Kh.absent)
      (Kernel.new (), fun _ => .new) passInOrder :=
  rights_travel_with_message Kh.absent (plumbed_new ()).wired
    (fun id b hb => by cases hb) (by decide) (by decide)

/-- A datagram without descriptors and then one with the read end of a pipe. -/
def plainThenRights : List KernelCall :=
  [.sys 1 (.socketpair ([1, 2, 0, 0] ++ leBytes 4 0) 8), .sys 1 (.pipe 8),
    .sys 1 (.send (leBytes 4 3 ++ [97])),
    .sys 1 (.sendmsg (leBytes 4 3 ++ leBytes 4 1 ++ leBytes 4 1 ++ [98] ++ leBytes 4 5))]

/-- The first `recvmsg` returns the plain datagram and hands over the descriptor of the other. -/
theorem plain_datagram_gets_later_rights :
    ¬ Run.Along (KernelCall.observed Kh.absent) (KernelCall.Proper Kh.absent)
      (Kernel.new (), fun _ => .new)
      (plainThenRights ++ [.sys 1 (.recvmsg (leBytes 4 4 ++ leBytes 4 0 ++ leBytes 4 4) 16)]) := by
  intro h
  obtain ⟨-, ⟨hrights, -⟩, -⟩ := (Run.along_append _).mp h
  obtain ⟨rights, ⟨data, fds, header, hwrites, hfds, -⟩, hown⟩ := hrights _ 16 rfl (by decide)
  obtain rfl : rights = [] := hown
  have hnone : fds = [] := by simpa using hfds
  subst hnone
  -- the reply has four bytes of descriptors
  have hreply : (SysCall.run Kh.absent (Run.run (KernelCall.observed Kh.absent)
      (new (), fun _ => Mailbox.new) plainThenRights).1 1
      (.recvmsg (leBytes 4 4 ++ leBytes 4 0 ++ leBytes 4 4) 16)).1.writes =
      [(0, [97])] ++ [(4, leBytes 4 1), (8, leBytes 4 7)] := by decide
  rw [hreply] at hwrites
  rcases hwrites with hwrites | ⟨hwrites, -⟩
  · have htail := congrArg List.getLast? hwrites
    simp [leBytes] at htail
  · have htail := congrArg (fun ws => ws.getLast?.map Prod.fst) hwrites
    simp at htail
    exact absurd htail (by decide)

end Yurt
