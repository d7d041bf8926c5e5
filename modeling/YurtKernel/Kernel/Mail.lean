import YurtKernel.Kernel.IpcData

/-! Sockets as mailboxes.

    What a socket has to receive is a `Box`: bytes or packets, and beside them the lists of
    descriptors. `Moves` says how the boxes of all sockets change in one call, up to boxes that go
    with their socket and new empty ones. -/

namespace Yurt
open Kernel
variable {σ : Type}
variable {s : SocketEntry} {box' : Inbox} {b : Box} {flags : Nat}

/-- A message with the entries its descriptors named. -/
structure Message where
  data : Bytes
  rights : List FdEntry
  deriving DecidableEq

inductive Box where
  | stream (bytes : Bytes) (rights : List (List FdEntry))
  | datagram (packets : List Bytes) (rights : List (List FdEntry))
  deriving DecidableEq

namespace Box

def rights : Box → List (List FdEntry)
  | .stream _ rights => rights
  | .datagram _ rights => rights

def Empty : Box → Prop
  | .stream bytes rights => bytes = [] ∧ rights = []
  | .datagram packets rights => packets = [] ∧ rights = []

/-- Descriptors at the front. -/
def frontRights (b : Box) : List FdEntry := b.rights.head?.getD []

/-- A message arrives. -/
def push (m : Message) : Box → Box
  | .stream bytes rights => .stream (bytes ++ m.data) (pushRights rights m.rights)
  | .datagram packets rights => .datagram (packets ++ [m.data]) (pushRights rights m.rights)

/-- Up to `cap` bytes, or one packet, are taken. -/
def take (cap : Nat) : Box → Box
  | .stream bytes rights => .stream (bytes.drop cap) rights
  | .datagram packets rights => .datagram packets.tail rights

def popRights : Box → Box
  | .stream bytes rights => .stream bytes rights.tail
  | .datagram packets rights => .datagram packets rights.tail

end Box

def Inbox.box : Inbox → Box
  | .stream rx rights => .stream rx rights
  | .datagram rx rights => .datagram (rx.map UnixDatagramPacket.data) rights

namespace Ipc
variable {v v' v'' : Ipc} {id : Nat} {f g : Nat → Box → Box}

def box (v : Ipc) (id : Nat) : Option Box := (v.inbox id).map Inbox.box

structure Moves (v v' : Ipc) (f : Nat → Box → Box) : Prop where
  nextSocket : v.nextSocket ≤ v'.nextSocket
  old : ∀ id, id < v.nextSocket → v'.box id = none ∨ v'.box id = (v.box id).map (f id)
  new : ∀ id b, v.nextSocket ≤ id → v'.box id = some b → b.Empty
  wired : v'.Wired

/-- Every box stays. -/
def still : Nat → Box → Box := fun _ b => b

/-- One box changes. -/
def onlyAt (id : Nat) (f : Box → Box) : Nat → Box → Box := fun i b => if i = id then f b else b

theorem map_still (o : Option Box) : o.map (still id) = o := by cases o <;> rfl

theorem map_onlyAt_ne {i : Nat} (hi : i ≠ id) (f : Box → Box) (o : Option Box) :
    o.map (onlyAt id f i) = o := by
  cases o with
  | none => rfl
  | some b => rw [Option.map_some, onlyAt, if_neg hi]

theorem Quiet.moves (h : v.Quiet v') : v.Moves v' still where
  nextSocket := h.nextSocket
  old := fun id hid => by
    rcases h.inbox id hid with hnone | hsame
    · exact .inl (by rw [box, hnone, Option.map_none])
    · refine .inr ?_
      rw [map_still, box, hsame, box]
  new := fun id b hid hb => by
    rw [box, Option.map_eq_some_iff] at hb
    obtain ⟨i, hi, rfl⟩ := hb
    have hempty := h.newInbox id i hid hi
    cases i with
    | stream rx rights => exact hempty
    | datagram rx rights =>
      obtain ⟨hrx, hrights⟩ := hempty
      exact ⟨by rw [hrx, List.map_nil], hrights⟩
  wired := h.wired

/-- A change of one box, then whatever keeps the boxes that stay. -/
theorem Moves.quiet (h : v.Moves v' f) (h' : v'.Quiet v'') : v.Moves v'' f where
  nextSocket := h.nextSocket.trans h'.nextSocket
  old := fun id hid => by
    rcases h'.moves.old id (hid.trans_le h.nextSocket) with hnone | hsame
    · exact .inl hnone
    · rw [hsame, map_still]
      exact h.old id hid
  new := fun id b hid hb => by
    rcases lt_or_ge id v'.nextSocket with hlt | hge
    · rcases h'.moves.old id hlt with hnone | hsame
      · rw [hnone] at hb
        cases hb
      · rw [hsame, map_still] at hb
        exact h.new id b hid hb
    · exact h'.moves.new id b hge hb
  wired := h'.wired

/-- Setting an inbox changes one box. -/
theorem SetsBox.movesAt {f : Box → Box} (h : v.SetsBox v' id box') (hold : v.box id = some b)
    (hbox : box'.box = f b) (hwired : v.Wired) :
    v.Moves v' (onlyAt id f) where
  nextSocket := h.nextSocket.ge
  old := fun i _ => by
    right
    by_cases hi : i = id
    · subst hi
      rw [hold, Option.map_some, onlyAt, if_pos rfl, box, h.inbox, Option.map_some, hbox]
    · rw [map_onlyAt_ne hi, box, h.others i hi, box]
  new := fun i b' hi hb' => by
    have hne : i ≠ id := by
      rintro rfl
      simp [box, Ipc.inbox, hwired.fresh i hi] at hold
    rw [box, h.others i hne] at hb'
    simp [Ipc.inbox, hwired.fresh i hi] at hb'
  wired := h.wired

/-- One box changes, and does not go. -/
structure Changes (v v' : Ipc) (id : Nat) (f : Box → Box) : Prop where
  moves : v.Moves v' (onlyAt id f)
  here : v'.box id = (v.box id).map f

theorem SetsBox.changes {f : Box → Box} (h : v.SetsBox v' id box') (hold : v.box id = some b)
    (hbox : box'.box = f b) (hwired : v.Wired) : v.Changes v' id f :=
  ⟨h.movesAt hold hbox hwired, by rw [hold, Option.map_some, box, h.inbox, Option.map_some, hbox]⟩

/-- A second change of the same box. -/
theorem Moves.atTwice {f g : Box → Box} (h : v.Moves v' (onlyAt id f)) (h' : v'.Moves v'' (onlyAt id g))
    (hid : id < v.nextSocket) : v.Moves v'' (onlyAt id (g ∘ f)) where
  nextSocket := h.nextSocket.trans h'.nextSocket
  old := fun i hi => by
    rcases h'.old i (hi.trans_le h.nextSocket) with hnone | hsame
    · exact .inl hnone
    · rcases h.old i hi with hgone | hmoved
      · exact .inl (by rw [hsame, hgone, Option.map_none])
      · right
        rw [hsame, hmoved, Option.map_map]
        congr 1
        funext b
        simp only [onlyAt, Function.comp_apply]
        split_ifs <;> rfl
  new := fun i b hi hb => by
    rcases lt_or_ge i v'.nextSocket with hlt | hge
    · rcases h'.old i hlt with hnone | hsame
      · rw [hnone] at hb
        cases hb
      · have hne : i ≠ id := by omega
        rw [hsame, Option.map_eq_some_iff] at hb
        obtain ⟨b', hb', rfl⟩ := hb
        rw [onlyAt, if_neg hne]
        exact h.new i b' hi hb'
    · exact h'.new i b hge hb
  wired := h'.wired

/-- A change of one old box after something that keeps the boxes. -/
theorem Quiet.movesAt (h : v.Quiet v') {f : Box → Box} (h' : v'.Moves v'' (onlyAt id f))
    (hid : id < v.nextSocket) : v.Moves v'' (onlyAt id f) := by
  have hstill : onlyAt id (fun b => b) = still := by
    funext i b
    exact ite_self b
  exact Moves.atTwice (hstill ▸ h.moves) h' hid

/-- A change that does nothing to the box there is. -/
theorem Wired.movesAt_same (h : v.Wired) {f : Box → Box} (hf : ∀ b, v.box id = some b → f b = b) :
    v.Moves v (onlyAt id f) where
  nextSocket := le_rfl
  old := fun i _ => by
    right
    cases hb : v.box i with
    | none => rfl
    | some b =>
      rw [Option.map_some, onlyAt]
      split_ifs with hi
      · rw [hf b (hi ▸ hb)]
      · rfl
  new := fun i b hi hb => by simp [box, Ipc.inbox, h.fresh i hi] at hb
  wired := h

theorem Wired.changes_same (h : v.Wired) {f : Box → Box} (hf : ∀ b, v.box id = some b → f b = b) :
    v.Changes v id f := by
  refine ⟨h.movesAt_same hf, ?_⟩
  cases hb : v.box id with
  | none => rfl
  | some b => rw [Option.map_some, hf b hb]

/-- Boxes are not in pipes. -/
theorem Wired.moves_putPipe (h : v.Wired) {b : PipeBuf} (hb : v.pipes.get? id = some b)
    (bytes : Bytes) :
    v.Moves { v with pipes := v.pipes.insert id { b with bytes := bytes } } still where
  nextSocket := le_rfl
  old := fun _ _ => .inr (map_still _).symm
  new := (Quiet.refl h).moves.new
  wired := h.insertPipe hb

theorem Wired.lt_of_box (h : v.Wired) (hb : v.box id = some b) : id < v.nextSocket := by
  by_contra hle
  simp [box, Ipc.inbox, h.fresh id (not_lt.mp hle)] at hb

/-- A delivered message is in the box. -/
theorem Delivers.moves {rc : Int} {peer : Nat} {data : Bytes} {rights : List FdEntry}
    (h : v.Delivers v' rc peer data rights) (hwired : v.Wired) :
    v.Moves v' (onlyAt peer (Box.push ⟨data, rights⟩)) := by
  rcases h.2 with ⟨rx, q, hbox, -, hsets⟩ | ⟨rx, q, packet, hbox, hdata, hsets⟩
  · exact hsets.movesAt (b := .stream rx q) (by rw [box, hbox]; rfl) rfl hwired
  · refine hsets.movesAt (b := .datagram (rx.map UnixDatagramPacket.data) q)
      (by rw [box, hbox]; rfl) ?_ hwired
    simp only [Inbox.box, Box.push, List.map_append, List.map_cons, List.map_nil, hdata]

end Ipc

/-! ### Receiving -/

section
open Ipc
variable {k : Kernel σ} {id : Nat}

/-- What a receive does to a box. -/
def Box.receive (cap : Nat) (peek : Bool) : Box → Box := if peek then fun b => b else Box.take cap

/-- What a receive from a box returns, if it returns data. -/
def Box.front (cap : Nat) : Box → Option Bytes
  | .stream bytes _ => if bytes.isEmpty then none else some (bytes.take cap)
  | .datagram packets _ => packets.head?.map (fun data => data.take cap)

theorem Kernel.box_eq (hs : k.sockets.get? id = some s) : k.ipc.box id = s.kind.inbox.map Inbox.box := by
  rw [Ipc.box, Ipc.inbox_eq hs]

theorem Kernel.box_none (hs : k.sockets.get? id = none) : k.ipc.box id = none := by
  rw [Ipc.box, Ipc.inbox, show k.ipc.sockets.get? id = none from hs]
  rfl

theorem Kernel.box_plain (h : ∀ s, k.sockets.get? id = some s → s.kind.inbox = none) :
    k.ipc.box id = none := by
  cases hs : k.sockets.get? id with
  | none => exact box_none hs
  | some s => rw [box_eq hs, h s hs]; rfl

/-- Code of a receive that finds nothing. -/
def Kernel.emptyCode (k : Kernel σ) (id : Nat) : Int :=
  emptyRecv (((k.sockets.get? id).map (fun s => s.kind.peerOpen)).getD false)
    (k.socketPeerWriteClosed id)

theorem Kernel.emptyCode_eq (hs : k.sockets.get? id = some s) :
    k.emptyCode id = emptyRecv s.kind.peerOpen (k.socketPeerWriteClosed id) := by
  rw [emptyCode, hs]
  rfl

/-- What is taken off the queue is the front of the box. -/
theorem SocketKind.takeFront_box {kind : SocketKind} {box : Inbox} (h : kind.inbox = some box) (cap : Nat) :
    match kind.takeFront cap with
    | none => box.box.front cap = none ∧ box.box.take cap = box.box
    | some (data, kind') => box.box.front cap = some data ∧
        kind'.inbox.map Inbox.box = some (box.box.take cap) := by
  cases kind with
  | unixStream p lp pp rx q isOpen cred =>
    cases h
    cases rx <;> simp [takeFront, Inbox.box, Box.front, Box.take, inbox]
  | unixDatagram p pp bp rx q isOpen =>
    cases h
    cases rx <;> simp [takeFront, Inbox.box, Box.front, Box.take, inbox]
  | _ => cases h

/-- Data comes from the front of the box, and a receive without data leaves the box. -/
theorem Ipc.Wired.receive (h : k.ipc.Wired) (kh : Kh σ) (hshut : k.readShut id = false) (cap : Nat)
    (hflags : flags = 0 ∨ flags = msgPeek) :
    k.ipc.Changes (k.socketRecvId kh id cap flags).2.ipc id (Box.receive cap (flags = msgPeek)) ∧
      ∀ b, k.ipc.box id = some b → (∀ data, b.front cap = some data →
          (k.socketRecvId kh id cap flags).1 = .data data) ∧
        (b.front cap = none → (k.socketRecvId kh id cap flags).1 = .code (k.emptyCode id)) := by
  obtain ⟨reply, host, hr, -, hplain⟩ | ⟨s, box, hs, hinbox, hr⟩ := k.recv_cases kh id cap flags <;> rw [hr]
  · refine ⟨h.changes_same (fun b hb => ?_), fun b hb => ?_⟩ <;> rw [box_plain hplain] at hb <;> cases hb
  have hold : k.ipc.box id = some box.box := by rw [box_eq hs, hinbox]; rfl
  have hvalid : ¬ (flags ≠ 0 ∧ flags ≠ msgPeek) := by
    rintro ⟨hzero, hpeek⟩
    exact hflags.elim hzero hpeek
  have hbox' := SocketKind.takeFront_box hinbox cap
  rw [hshut, if_neg (by simp), if_neg hvalid]
  cases htaken : s.kind.takeFront cap with
  | none =>
    rw [htaken] at hbox'
    refine ⟨h.changes_same (fun b hb => ?_), fun b hb => ?_⟩ <;> obtain rfl := Option.mem_unique hold hb
    · rw [Box.receive]
      split_ifs
      · rfl
      · exact hbox'.2
    · rw [emptyCode_eq hs, hbox'.1]
      exact ⟨fun _ hdata => (nomatch hdata), fun _ => rfl⟩
  | some taken =>
    obtain ⟨data, kind⟩ := taken
    obtain ⟨box', hkind, hset⟩ := h.setTaken hs htaken
    rw [htaken] at hbox'
    obtain ⟨hfront, hrest⟩ := hbox'
    rw [hkind] at hrest
    refine ⟨?_, fun b hb => ?_⟩
    · by_cases hpeek : flags = msgPeek
      · simp only [if_pos hpeek]
        exact h.changes_same (fun b _ => by simp [Box.receive, hpeek])
      · simp only [if_neg hpeek]
        refine hset.changes hold ?_ h
        rw [Box.receive, if_neg (by simpa using hpeek)]
        exact Option.some.inj hrest
    · obtain rfl := Option.mem_unique hold hb
      rw [hfront]
      exact ⟨fun d hd => by rw [Option.some.inj hd], fun hnone => by cases hnone⟩

/-- A receive that is refused, or finds the socket shut down for reading. -/
theorem Kernel.ipc_socketRecvId_refused (kh : Kh σ) (k : Kernel σ) (id cap : Nat)
    (hwhy : k.readShut id = true ∨ (flags ≠ 0 ∧ flags ≠ msgPeek)) :
    (k.socketRecvId kh id cap flags).2.ipc = k.ipc := by
  obtain ⟨reply, host, hr, -⟩ | ⟨s, box, hs, -, hr⟩ := k.recv_cases kh id cap flags <;> rw [hr]
  · rfl
  by_cases hshut : k.readShut id = true
  · rw [if_pos hshut]
  · rw [if_neg hshut, if_pos (hwhy.resolve_left hshut)]

/-- The front list of descriptors leaves the box. -/
theorem Ipc.Wired.moves_popRights (h : k.ipc.Wired) (hshut : k.readShut id = false) :
    k.ipc.Moves (k.popRights id).2.ipc (onlyAt id Box.popRights) ∧
      (k.popRights id).1 = ((k.ipc.box id).bind (fun b => b.rights.head?)).getD [] := by
  rcases h.popRights id with ⟨hnone, hsame, hempty⟩ | ⟨box, r, q, -, hbox, hqueue, hpop, hset⟩
  · have hnil : ∀ b, k.ipc.box id = some b → b.rights = [] := fun b hb => by
      obtain ⟨box, hbox, rfl⟩ := Option.map_eq_some_iff.mp hb
      have hrights := hempty hshut box hbox
      cases box <;> exact hrights
    rw [hnone, hsame]
    refine ⟨h.movesAt_same (fun b hb => ?_), ?_⟩
    · have hrights := hnil b hb
      cases b <;> cases hrights <;> rfl
    · cases hb : k.ipc.box id with
      | none => rfl
      | some b => simp [hnil b hb]
  · have hold : k.ipc.box id = some box.box := by rw [Ipc.box, hbox]; rfl
    rw [hpop, hold]
    cases box <;> cases hqueue <;> exact ⟨hset.movesAt hold rfl h, rfl⟩

end

end Yurt
