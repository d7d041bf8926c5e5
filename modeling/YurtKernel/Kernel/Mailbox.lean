import YurtKernel.Kernel.Mail

/-! Histories of mailboxes.

    A history is kept beside the run and the kernel knows nothing of it: the messages that reached a
    socket and how much of them was taken. `Matches` says that a box holds the rest of its history,
    its descriptors paired with the messages they came in. -/

namespace Yurt

/-- What happened at a socket: the messages that reached it, how much was taken (bytes of a stream,
    or datagrams), and how many lists of descriptors a stream handed over. -/
structure Mailbox where
  sent : List Message
  taken : Nat
  lists : Nat
  deriving DecidableEq

namespace Mailbox

def new : Mailbox := ⟨[], 0, 0⟩

/-- All bytes that reached a stream. -/
def bytes (x : Mailbox) : Bytes := x.sent.flatMap Message.data

/-- The lists of descriptors in messages. -/
def listsOf (ms : List Message) : List (List FdEntry) :=
  (ms.map Message.rights).filter (fun rights => !rights.isEmpty)

/-- The lists of descriptors in messages of a stream, each with the position of the first byte of its
    message, the messages starting at `start`. -/
def carriers (start : Nat) : List Message → List (Nat × List FdEntry)
  | [] => []
  | m :: ms => (if m.rights.isEmpty then [] else [(start, m.rights)]) ++ carriers (start + m.data.length) ms

/-- The datagram at the front. -/
def next (x : Mailbox) : Option Message := x.sent[x.taken]?

/-- The list of descriptors at the front of a stream. -/
def nextCarrier (x : Mailbox) : Option (Nat × List FdEntry) := (carriers 0 x.sent)[x.lists]?

/-- A box holds the rest of its history. -/
def Matches (x : Mailbox) : Box → Prop
  | .stream bytes rights => x.taken ≤ x.bytes.length ∧ bytes = x.bytes.drop x.taken ∧
      x.lists ≤ (carriers 0 x.sent).length ∧
      rights = ((carriers 0 x.sent).drop x.lists).map Prod.snd
  | .datagram packets rights => x.taken ≤ x.sent.length ∧
      packets = (x.sent.drop x.taken).map Message.data ∧ rights = listsOf (x.sent.drop x.taken)

section
variable (start : Nat) (ms : List Message) (m : Message)

theorem carriers_append :
    carriers start (ms ++ [m]) = carriers start ms ++
      if m.rights.isEmpty then [] else [(start + (ms.flatMap Message.data).length, m.rights)] := by
  induction ms generalizing start with
  | nil => simp [carriers]
  | cons x ms ih =>
    rw [List.cons_append, carriers, ih, carriers, List.append_assoc, List.flatMap_cons,
      List.length_append, Nat.add_assoc]

theorem listsOf_append :
    listsOf (ms ++ [m]) = pushRights (listsOf ms) m.rights := by
  rw [listsOf, List.map_append, List.filter_append, pushRights, ← listsOf]
  cases hm : m.rights with
  | nil | cons => simp [hm]

theorem listsOf_cons (ms : List Message) :
    listsOf (m :: ms) = if m.rights.isEmpty then listsOf ms else m.rights :: listsOf ms := by
  rw [listsOf, List.map_cons, List.filter_cons, ← listsOf]
  cases m.rights <;> rfl

end

def push (x : Mailbox) (m : Message) : Mailbox := { x with sent := x.sent ++ [m] }

theorem matches_new {b : Box} (h : b.Empty) : Mailbox.new.Matches b := by
  cases b with
  | stream bytes rights => exact ⟨le_rfl, h.1, le_rfl, h.2⟩
  | datagram packets rights => exact ⟨le_rfl, h.1, h.2⟩

/-- A message arrives in the box and in the history. -/
theorem Matches.push {x : Mailbox} {b : Box} (h : x.Matches b) (m : Message) :
    (x.push m).Matches (b.push m) := by
  cases b with
  | stream bytes rights =>
    obtain ⟨htaken, hbytes, hlists, hrights⟩ := h
    have hall : (x.push m).bytes = x.bytes ++ m.data := by
      simp only [Mailbox.bytes, Mailbox.push, List.flatMap_append, List.flatMap_cons,
        List.flatMap_nil, List.append_nil]
    have hcarriers := carriers_append 0 x.sent m
    refine ⟨?_, ?_, ?_, ?_⟩
    · rw [hall, List.length_append]
      exact htaken.trans (Nat.le_add_right _ _)
    · rw [hall]
      change bytes ++ m.data = (x.bytes ++ m.data).drop x.taken
      rw [List.drop_append_of_le_length htaken, hbytes]
    · rw [Mailbox.push, hcarriers, List.length_append]
      exact hlists.trans (Nat.le_add_right _ _)
    · rw [Mailbox.push, hcarriers, List.drop_append_of_le_length hlists, List.map_append, ← hrights,
        pushRights]
      split_ifs <;> simp
  | datagram packets rights =>
    obtain ⟨htaken, hpackets, hrights⟩ := h
    have hdrop : (x.sent ++ [m]).drop x.taken = x.sent.drop x.taken ++ [m] :=
      List.drop_append_of_le_length htaken
    refine ⟨?_, ?_, ?_⟩
    · rw [Mailbox.push, List.length_append]
      exact htaken.trans (Nat.le_add_right _ _)
    · rw [Mailbox.push, hdrop, List.map_append, ← hpackets]
      rfl
    · rw [Mailbox.push, hdrop, listsOf_append, ← hrights]

end Mailbox

/-- What a box loses in bytes, or in datagrams, to a receive. -/
def Box.taken (cap : Nat) : Box → Nat
  | .stream bytes _ => min cap bytes.length
  | .datagram packets _ => min 1 packets.length

namespace Mailbox

/-- What a stream returns are the bytes at the position reached. -/
theorem Matches.front_stream {x : Mailbox} {bytes : Bytes} {rights : List (List FdEntry)}
    (h : x.Matches (.stream bytes rights)) (cap : Nat) :
    ((Box.stream bytes rights).front cap).getD [] = (x.bytes.drop x.taken).take cap := by
  rw [← h.2.1, Box.front]
  split_ifs with hempty
  · rw [List.isEmpty_iff.mp hempty]
    simp
  · rfl

/-- Bytes are taken from a stream, and from its history. -/
theorem Matches.take_stream {x : Mailbox} {bytes : Bytes} {rights : List (List FdEntry)}
    (h : x.Matches (.stream bytes rights)) (cap : Nat) :
    ({ x with taken := x.taken + min cap bytes.length } : Mailbox).Matches
      (.stream (bytes.drop cap) rights) := by
  obtain ⟨htaken, hbytes, hlists, hrights⟩ := h
  have hlen : bytes.length = x.bytes.length - x.taken := by rw [hbytes, List.length_drop]
  refine ⟨?_, ?_, hlists, hrights⟩
  · change x.taken + min cap bytes.length ≤ x.bytes.length
    omega
  · change bytes.drop cap = x.bytes.drop (x.taken + min cap bytes.length)
    rw [← List.drop_drop, ← hbytes]
    rcases le_total cap bytes.length with hle | hle
    · rw [min_eq_left hle]
    · rw [min_eq_right hle, List.drop_length, List.drop_eq_nil_of_le hle]

theorem Matches.pop_stream {x : Mailbox} {bytes : Bytes} {rights : List (List FdEntry)}
    (h : x.Matches (.stream bytes rights)) :
    ({ x with lists := x.lists + min 1 rights.length } : Mailbox).Matches
      (.stream bytes rights.tail) := by
  obtain ⟨htaken, hbytes, hlists, hrights⟩ := h
  have hlen : rights.length = (carriers 0 x.sent).length - x.lists := by
    rw [hrights, List.length_map, List.length_drop]
  refine ⟨htaken, hbytes, ?_, ?_⟩
  · change x.lists + min 1 rights.length ≤ (carriers 0 x.sent).length
    omega
  · change rights.tail = ((carriers 0 x.sent).drop (x.lists + min 1 rights.length)).map Prod.snd
    rw [← List.drop_drop, List.map_drop, ← hrights]
    cases rights <;> simp

/-- The front list of a stream is the one its history names. -/
theorem Matches.frontRights_stream {x : Mailbox} {bytes : Bytes} {rights : List (List FdEntry)}
    (h : x.Matches (.stream bytes rights)) :
    (Box.stream bytes rights).frontRights = (x.nextCarrier.map Prod.snd).getD [] := by
  rw [Box.frontRights, Box.rights, h.2.2.2, nextCarrier, List.head?_map, List.head?_drop]

/-- The datagram at the front. -/
theorem Matches.next_datagram {x : Mailbox} {packets : List Bytes} {rights : List (List FdEntry)}
    (h : x.Matches (.datagram packets rights)) :
    (packets = [] ∧ rights = [] ∧ x.next = none) ∨
      ∃ m, x.next = some m ∧ packets = m.data :: (x.sent.drop (x.taken + 1)).map Message.data ∧
        rights = if m.rights.isEmpty then listsOf (x.sent.drop (x.taken + 1))
          else m.rights :: listsOf (x.sent.drop (x.taken + 1)) := by
  obtain ⟨htaken, hpackets, hrights⟩ := h
  cases hnext : x.next with
  | none =>
    have hall : x.sent.drop x.taken = [] := by
      rw [List.drop_eq_nil_iff]
      exact List.getElem?_eq_none_iff.mp hnext
    rw [hall] at hpackets hrights
    exact .inl ⟨hpackets, hrights, rfl⟩
  | some m =>
    obtain ⟨hlt, hget⟩ := List.getElem?_eq_some_iff.mp hnext
    have hdrop : x.sent.drop x.taken = m :: x.sent.drop (x.taken + 1) := by
      rw [← hget]
      exact List.drop_eq_getElem_cons hlt
    rw [hdrop] at hpackets hrights
    refine .inr ⟨m, rfl, ?_, ?_⟩
    · rw [hpackets, List.map_cons]
    · rw [hrights, listsOf_cons]

end Mailbox

end Yurt
