import YurtKernel.Dispatch.Socket

/-! `poll` (`dispatch/mod.rs`).

    `poll` looks at the buffers behind a descriptor and says whether the next read, accept or write
    would wait. A request is a list of records, and the response repeats them with their events. -/

namespace Yurt
open Kernel
variable {σ : Type} {k k' : Kernel σ} {pid : Pid} {fd : Nat} {e : FdEntry}
variable {bytes : Bytes} {kh : Kh σ} {n off events : Nat}

/-! ### The call -/

def pollin : Nat := 0x1
def pollout : Nat := 0x2
def pollerr : Nat := 0x8
def pollhup : Nat := 0x10
def pollnval : Nat := 0x20
def pollfdSize : Nat := 8

/-- One event, if its condition holds. -/
def event (holds : Bool) (bit : Nat) : Nat := if holds then bit else 0

/-- Events of a connected socket with an empty or non-empty receive queue. -/
def connectedRevents (rxEmpty isOpen wantsRead wantsWrite : Bool) : Nat :=
  event (wantsRead && !rxEmpty) pollin ||| event (wantsWrite && isOpen) pollout |||
    event (!isOpen && rxEmpty) pollhup

def SocketKind.revents (wantsRead wantsWrite : Bool) : SocketKind → Nat
  | .opened _ _ | .host _ => event wantsWrite pollout
  | .unixListener _ _ pending => event (wantsRead && !pending.isEmpty) pollin
  | .unixStream _ _ _ rx _ isOpen _ => connectedRevents rx.isEmpty isOpen wantsRead wantsWrite
  | .unixDatagram _ _ _ rx _ isOpen => connectedRevents rx.isEmpty isOpen wantsRead wantsWrite

namespace Kernel

section
variable (k : Kernel σ) (pid : Pid)

/-- Events of what a descriptor refers to. -/
def entryRevents (wantsRead wantsWrite : Bool) : FdEntry → Nat
  | .stdin =>
    event (wantsRead && (!(k.process pid).stdinBuffer.isEmpty || (k.process pid).stdinEof)) pollin
  | .stdout | .stderr => event wantsWrite pollout
  | .file _ | .directory _ _ _ => event wantsRead pollin ||| event wantsWrite pollout
  | .pipe id .read =>
    match k.pipes.get? id with
    | none => pollnval
    | some b =>
      if wantsRead && !b.bytes.isEmpty then pollin else event (b.writeEnds = 0) pollhup
  | .pipe id .write =>
    match k.pipes.get? id with
    | none => pollnval
    | some b => if b.readEnds = 0 then pollerr else event wantsWrite pollout
  | .socket id =>
    match k.sockets.get? id with
    | none => pollnval
    | some s => s.kind.revents wantsRead wantsWrite

def pollReventsForFd (fd events : Nat) : Nat × Kernel σ :=
  let revents := match k.fdEntry pid fd with
    | none => pollnval
    | some e => k.entryRevents pid (events &&& pollin ≠ 0) (events &&& pollout ≠ 0) e
  (revents, k.touch pid)

/-- The loop over the records: the number of ready ones, and the records with their events. -/
def pollRecords (k : Kernel σ) (pid : Pid) : Nat → Bytes → (Nat × Bytes) × Kernel σ
  | 0, _ => ((0, []), k)
  | n + 1, records =>
    let record := records.take pollfdSize
    let fd := i32At record 0
    let (revents, k) :=
      if fd < 0 then (0, k) else k.pollReventsForFd pid fd.toNat (u16At record 4)
    let ((ready, out), k) := k.pollRecords pid n (records.drop pollfdSize)
    ((ready + if revents ≠ 0 then 1 else 0, record.take 6 ++ leBytes 2 revents ++ out), k)

/-- `poll(fds)`: the first word of the request, the time to wait, is not looked at. -/
def pollFds (request : Bytes) (cap : Nat) : Reply × Kernel σ :=
  if request.length < 4 ∨ (request.length - 4) % pollfdSize ≠ 0 then (.code (-EINVAL), k)
  else
    let records := request.drop 4
    if cap < records.length then (.code (-EINVAL), k)
    else
      let ((ready, out), k) := k.pollRecords pid (records.length / pollfdSize) records
      (⟨ready, [(0, out)]⟩, k)

end

/-! ### What it says -/

/-- Record `i` of a `poll` asks about `fd` for `events`, and is answered by `revents`; the kernel is
    `k'` afterwards. -/
structure PollSays (k : Kernel σ) (pid : Pid) (request : Bytes) (cap i fd events revents : Nat)
    (k' : Kernel σ) : Prop where
  done : 0 ≤ (k.pollFds pid request cap).1.rc
  inside : 4 + pollfdSize * (i + 1) ≤ request.length
  asked : i32At request (4 + pollfdSize * i) = fd
  wanted : u16At request (4 + pollfdSize * i + 4) = events
  told : ∃ out, (k.pollFds pid request cap).1.writes = [(0, out)] ∧ u16At out (pollfdSize * i + 6) = revents
  after : (k.pollFds pid request cap).2 = k'

/-- `read(fd)` into a buffer of `room` bytes, or `accept(fd)` of a listener. -/
def takeNext (kh : Kh σ) (k : Kernel σ) (pid : Pid) (fd room flags : Nat) : Int :=
  let read := (k.readFd kh pid (leBytes 4 fd) room).1.rc
  match k.fdEntry pid fd with
  | some (.socket id) =>
    match (k.sockets.get? id).map SocketEntry.kind with
    | some (.unixListener _ _ _) =>
      (k.sysSocketAccept kh pid (leBytes 4 fd ++ leBytes 4 flags)).1
    | _ => read
  | _ => read

/-- `write(fd)` of one byte. -/
def putOne (kh : Kh σ) (k : Kernel σ) (pid : Pid) (fd : Nat) (byte : Fin 256) : Int :=
  (k.writeFd kh pid (leBytes 4 fd ++ [byte])).1

/-- What `poll` says about a descriptor is what the next call finds. -/
structure PollTruthful (kh : Kh σ) (k : Kernel σ) (pid : Pid) (fd : Nat) : Prop where
  readable : ∀ {request cap i events revents k'},
    k.PollSays pid request cap i fd events revents k' → events &&& pollin ≠ 0 →
    revents &&& (pollin ||| pollhup) ≠ 0 →
    ∀ room flags, 0 < room → k'.takeNext kh pid fd room flags ≠ -EAGAIN
  unreadable : ∀ {request cap i events revents k'},
    k.PollSays pid request cap i fd events revents k' → events &&& pollin ≠ 0 →
    revents &&& (pollin ||| pollhup) = 0 →
    ∀ room flags, 0 < room → k'.takeNext kh pid fd room flags < 0
  writable : ∀ {request cap i events revents k'},
    k.PollSays pid request cap i fd events revents k' → events &&& pollout ≠ 0 →
    revents &&& pollout ≠ 0 → ∀ byte, k'.putOne kh pid fd byte ≠ -EAGAIN

/-! ### Reading the answer off the response -/

theorem touch_touch (k : Kernel σ) (pid : Pid) : (k.touch pid).touch pid = k.touch pid := by
  change (k.touch pid).setProcess pid ((k.touch pid).process pid) = k.touch pid
  rw [k.process_touch pid]
  exact congrArg (fun m => { k with processes := m }) (SortedMap.insert_insert _ _ _ _)

end Kernel

theorem u16At_take (h : off + 2 ≤ n) : u16At (bytes.take n) off = u16At bytes off := by
  rw [u16At, u16At, List.drop_take, List.take_take, Nat.min_eq_left (by omega)]

theorem u16At_drop (bytes : Bytes) (n off : Nat) : u16At (bytes.drop n) off = u16At bytes (n + off) := by
  rw [u16At, u16At, List.drop_drop]

theorem event_lt (holds : Bool) {bit : Nat} (h : bit < 2 ^ 16) : event holds bit < 2 ^ 16 := by
  unfold event
  split
  · exact h
  · decide

theorem connectedRevents_lt (rxEmpty isOpen wantsRead wantsWrite : Bool) :
    connectedRevents rxEmpty isOpen wantsRead wantsWrite < 2 ^ 16 :=
  Nat.or_lt_two_pow (Nat.or_lt_two_pow (event_lt _ (by decide)) (event_lt _ (by decide)))
    (event_lt _ (by decide))

theorem SocketKind.revents_lt (wantsRead wantsWrite : Bool) (kind : SocketKind) :
    kind.revents wantsRead wantsWrite < 2 ^ 16 := by
  cases kind with
  | opened | host => exact event_lt _ (by decide)
  | unixListener => exact event_lt _ (by decide)
  | unixStream | unixDatagram => exact connectedRevents_lt _ _ _ _

section
variable (k : Kernel σ) (pid : Pid)

theorem Kernel.entryRevents_lt (wantsRead wantsWrite : Bool) (e : FdEntry) :
    k.entryRevents pid wantsRead wantsWrite e < 2 ^ 16 := by
  cases e with
  | pipe id side =>
    cases side with
    | read | write =>
      dsimp only [entryRevents]
      split
      · decide
      · split
        · decide
        · exact event_lt _ (by decide)
  | socket id =>
    dsimp only [entryRevents]
    split
    · decide
    · exact SocketKind.revents_lt _ _ _
  | file | directory => exact Nat.or_lt_two_pow (event_lt _ (by decide)) (event_lt _ (by decide))
  | stdin | stdout | stderr => exact event_lt _ (by decide)

theorem Kernel.pollReventsForFd_lt (fd events : Nat) :
    (k.pollReventsForFd pid fd events).1 < 2 ^ 16 := by
  dsimp only [pollReventsForFd]
  split
  · decide
  · exact k.entryRevents_lt pid _ _ _

theorem Kernel.pollReventsForFd_touch (fd events : Nat) :
    (k.touch pid).pollReventsForFd pid fd events = k.pollReventsForFd pid fd events := by
  have hsame : ∀ wantsRead wantsWrite e, (k.touch pid).entryRevents pid wantsRead wantsWrite e =
        k.entryRevents pid wantsRead wantsWrite e := by
    intro wantsRead wantsWrite e
    cases e with
    | stdin => simp only [entryRevents, process_touch]
    | pipe id side => cases side <;> rfl
    | _ => rfl
  simp only [pollReventsForFd, fdEntry_touch, hsame, touch_touch]

end

/-- One turn of the loop: the kernel is touched, unless the record names no descriptor. -/
theorem Kernel.pollRecords_after (pid : Pid) : ∀ (n : Nat) (k : Kernel σ) (records : Bytes),
      (k.pollRecords pid n records).2 = k ∨ (k.pollRecords pid n records).2 = k.touch pid
  | 0, _, _ => Or.inl rfl
  | n + 1, k, records => by
    dsimp only [pollRecords]
    split
    · exact pollRecords_after pid n k _
    · right
      rcases pollRecords_after pid n (k.touch pid) (records.drop pollfdSize) with h | h
      · exact h
      · exact h.trans (k.touch_touch pid)

/-- The events in the response are those of the records of the request. -/
theorem Kernel.pollRecords_at (pid : Pid) : ∀ (n : Nat) (k : Kernel σ) (records : Bytes) (i : Nat), i < n →
      pollfdSize * n ≤ records.length → i32At records (pollfdSize * i) = fd →
      u16At (k.pollRecords pid n records).1.2 (pollfdSize * i + 6) =
        (k.pollReventsForFd pid fd (u16At records (pollfdSize * i + 4))).1 ∧
      (k.pollRecords pid n records).2 = k.touch pid
  | 0, _, _, _, hi, _, _ => absurd hi (by omega)
  | n + 1, k, records, i, hi, hlen, hfd => by
    have hrecord : (records.take pollfdSize).length = pollfdSize := by
      rw [List.length_take]; unfold pollfdSize at *; omega
    have hsix : ((records.take pollfdSize).take 6).length = 6 := by
      rw [List.length_take, hrecord]; decide
    have hword : ∀ revents, ((records.take pollfdSize).take 6 ++ leBytes 2 revents).length =
        pollfdSize := by
      intro revents
      rw [List.length_append, hsix, leBytes_length]; decide
    cases i with
    | zero =>
      have hhead : i32At (records.take pollfdSize) 0 = fd := by
        rw [i32At, u32At_take (by decide)]; exact hfd
      have hnonneg : ¬(fd : Int) < 0 := by omega
      have hevents : u16At (records.take pollfdSize) 4 = u16At records 4 := u16At_take (by decide)
      constructor
      · simp only [pollRecords, hhead, if_neg hnonneg, Int.toNat_natCast, hevents]
        have hlt : _ < 256 ^ 2 := k.pollReventsForFd_lt pid fd (u16At records 4)
        rw [u16At, List.append_assoc, Nat.mul_zero, Nat.zero_add, List.drop_left' hsix,
          List.take_left' (leBytes_length 2 _), leNat_leBytes, Nat.mod_eq_of_lt hlt, Nat.zero_add]
      · simp only [pollRecords, hhead, if_neg hnonneg]
        rcases pollRecords_after pid n (k.touch pid) (records.drop pollfdSize) with h | h
        · exact h
        · exact h.trans (k.touch_touch pid)
    | succ i =>
      have hrest : i32At (records.drop pollfdSize) (pollfdSize * i) = fd := by
        rw [i32At, u32At_drop, ← hfd, i32At, Nat.mul_succ, Nat.add_comm]
      have hlen' : pollfdSize * n ≤ (records.drop pollfdSize).length := by
        rw [List.length_drop]; unfold pollfdSize at *; omega
      have hevents : u16At (records.drop pollfdSize) (pollfdSize * i + 4) =
          u16At records (pollfdSize * (i + 1) + 4) := by
        rw [u16At_drop, Nat.mul_succ]; congr 1; omega
      have hoff : pollfdSize * (i + 1) + 6 = pollfdSize + (pollfdSize * i + 6) := by
        rw [Nat.mul_succ]; omega
      have htail := fun k : Kernel σ =>
        pollRecords_at pid n k (records.drop pollfdSize) i (by omega) hlen' hrest
      rw [hevents] at htail
      dsimp only [pollRecords]
      split
      · obtain ⟨hout, hafter⟩ := htail k
        refine ⟨?_, hafter⟩
        rw [hoff, ← u16At_drop, List.drop_left' (hword 0)]
        exact hout
      · obtain ⟨hout, hafter⟩ := htail (k.touch pid)
        refine ⟨?_, hafter.trans (k.touch_touch pid)⟩
        rw [k.pollReventsForFd_touch] at hout
        rw [hoff, ← u16At_drop, List.drop_left' (hword _)]
        exact hout

theorem Kernel.PollSays.spec {request : Bytes} {cap i revents : Nat}
    (h : k.PollSays pid request cap i fd events revents k') :
    revents = (k.pollReventsForFd pid fd events).1 ∧ k' = k.touch pid ∧ fd < 2 ^ 31 := by
  obtain ⟨hdone, hinside, hasked, hwanted, ⟨out, hout, htold⟩, hafter⟩ := h
  have hinval : ¬(0 : Int) ≤ -EINVAL := by decide
  unfold pollFds at hdone hout hafter
  split at hdone
  · exact absurd hdone hinval
  · rename_i hshape
    rw [if_neg hshape] at hout hafter
    dsimp only at hdone hout hafter
    split at hdone
    · exact absurd hdone hinval
    · rename_i hcap
      rw [if_neg hcap] at hout hafter
      have hi : i < (request.drop 4).length / pollfdSize := by
        rw [List.length_drop]; unfold pollfdSize at *; omega
      have hn : pollfdSize * ((request.drop 4).length / pollfdSize) ≤ (request.drop 4).length :=
        Nat.mul_div_le _ _
      have hfd : i32At (request.drop 4) (pollfdSize * i) = fd := by
        rw [i32At, u32At_drop]; exact hasked
      obtain ⟨hat, hk⟩ := pollRecords_at pid _ k (request.drop 4) i hi hn hfd
      have hevents : u16At (request.drop 4) (pollfdSize * i + 4) = events := by
        rw [u16At_drop, ← hwanted, Nat.add_assoc]
      have hbytes : (k.pollRecords pid ((request.drop 4).length / pollfdSize) (request.drop 4)).1.2 =
          out := by
        simpa using hout
      rw [hevents, hbytes, htold] at hat
      refine ⟨hat, hafter.symm.trans hk, ?_⟩
      have hlt := u32At_lt request (4 + pollfdSize * i)
      unfold i32At toI32 at hasked
      split at hasked <;> omega

/-- Request of a `poll` about one descriptor. -/
def pollRequest (fd events : Nat) : Bytes := leBytes 4 0 ++ (leBytes 4 fd ++ (leBytes 2 events ++ leBytes 2 0))

theorem pollRequest_length (fd events : Nat) : (pollRequest fd events).length = 12 := by
  simp only [pollRequest, List.length_append, leBytes_length]

/-- Every question can be put. -/
theorem Kernel.pollSays_one (k : Kernel σ) (pid : Pid) (hfd : fd < 2 ^ 31)
    (hevents : events < 256 ^ 2) : k.PollSays pid (pollRequest fd events) 8 0 fd events
      (k.pollReventsForFd pid fd events).1 (k.touch pid) := by
  have hlen := pollRequest_length fd events
  have hrecords : (pollRequest fd events).drop 4 =
      leBytes 4 fd ++ (leBytes 2 events ++ leBytes 2 0) := List.drop_left' (leBytes_length 4 0)
  have hrec : ((pollRequest fd events).drop 4).length = 8 := by rw [List.length_drop, hlen]
  have hasked : i32At (pollRequest fd events) 4 = fd := by
    rw [i32At, show 4 = 4 + 0 from rfl, ← u32At_drop, hrecords, u32At_leBytes_append (by omega), toI32,
      if_pos hfd]
  have hwanted : u16At (pollRequest fd events) 8 = events := by
    rw [show 8 = 4 + (4 + 0) from rfl, ← u16At_drop, hrecords, ← u16At_drop,
      List.drop_left' (leBytes_length 4 fd), u16At, List.drop_zero,
      List.take_left' (leBytes_length 2 events), leNat_leBytes, Nat.mod_eq_of_lt hevents]
  obtain ⟨hat, hk⟩ := pollRecords_at pid 1 k ((pollRequest fd events).drop 4) 0 (by decide)
    (by rw [hrec]; decide) (by rw [i32At, u32At_drop]; exact hasked)
  rw [u16At_drop, show u16At (pollRequest fd events) (4 + (pollfdSize * 0 + 4)) = events from hwanted]
    at hat
  have hpoll : k.pollFds pid (pollRequest fd events) 8 =
      (⟨(k.pollRecords pid 1 ((pollRequest fd events).drop 4)).1.1,
        [(0, (k.pollRecords pid 1 ((pollRequest fd events).drop 4)).1.2)]⟩,
        (k.pollRecords pid 1 ((pollRequest fd events).drop 4)).2) := by
    unfold pollFds
    rw [if_neg (by rw [hlen]; decide)]
    dsimp only
    rw [if_neg (by rw [hrec]; decide), hrec]
    rfl
  generalize k.pollRecords pid 1 ((pollRequest fd events).drop 4) = polled at hpoll hat hk
  refine ⟨?_, ?_, hasked, hwanted, ⟨polled.1.2, ?_, hat⟩, ?_⟩
  · rw [hpoll]; exact Int.natCast_nonneg _
  · rw [hlen]; decide
  · rw [hpoll]
  · rw [hpoll]; exact hk

/-! ### The law without the bytes of the call -/

/-- What the events of an entry say about the next call. -/
structure Kernel.PollHonest (kh : Kh σ) (k : Kernel σ) (pid : Pid) (fd : Nat) (e : FdEntry) : Prop where
  reads : ∀ wantsWrite room flags, 0 < room →
    if k.entryRevents pid true wantsWrite e &&& (pollin ||| pollhup) ≠ 0
    then (k.touch pid).takeNext kh pid fd room flags ≠ -EAGAIN
    else (k.touch pid).takeNext kh pid fd room flags < 0
  writes : ∀ wantsRead byte, k.entryRevents pid wantsRead true e &&& pollout ≠ 0 →
    (k.touch pid).putOne kh pid fd byte ≠ -EAGAIN

theorem Kernel.pollReventsForFd_open (h : k.fdEntry pid fd = some e) (events : Nat) :
    (k.pollReventsForFd pid fd events).1 =
      k.entryRevents pid (events &&& pollin ≠ 0) (events &&& pollout ≠ 0) e := by
  simp only [pollReventsForFd, h]

theorem Kernel.PollHonest.truthful (hopen : k.fdEntry pid fd = some e)
    (h : k.PollHonest kh pid fd e) : k.PollTruthful kh pid fd where
  readable := by
    intro request cap i events revents k' htold hin hready room flags hroom
    obtain ⟨rfl, rfl, -⟩ := htold.spec
    rw [k.pollReventsForFd_open hopen, decide_eq_true hin] at hready
    have hread := h.reads (events &&& pollout ≠ 0) room flags hroom
    rwa [if_pos hready] at hread
  unreadable := by
    intro request cap i events revents k' htold hin hready room flags hroom
    obtain ⟨rfl, rfl, -⟩ := htold.spec
    rw [k.pollReventsForFd_open hopen, decide_eq_true hin] at hready
    have hread := h.reads (events &&& pollout ≠ 0) room flags hroom
    rwa [if_neg (not_not.mpr hready)] at hread
  writable := by
    intro request cap i events revents k' htold hout hready byte
    obtain ⟨rfl, rfl, -⟩ := htold.spec
    rw [k.pollReventsForFd_open hopen, decide_eq_true hout] at hready
    exact h.writes _ byte hready

theorem Kernel.PollTruthful.honest (hopen : k.fdEntry pid fd = some e) (hfd : fd < 2 ^ 31)
    (h : k.PollTruthful kh pid fd) : k.PollHonest kh pid fd e where
  reads := by
    intro wantsWrite room flags hroom
    -- POLLIN alone, or with POLLOUT
    obtain ⟨events, hlt, hin, hout⟩ : ∃ events, events < 256 ^ 2 ∧ events &&& pollin ≠ 0 ∧
        decide (events &&& pollout ≠ 0) = wantsWrite := by
      cases wantsWrite
      · exact ⟨1, by decide⟩
      · exact ⟨3, by decide⟩
    have htold := k.pollSays_one pid hfd hlt
    have hrevents := k.pollReventsForFd_open hopen events
    rw [decide_eq_true hin, hout] at hrevents
    rw [hrevents] at htold
    split
    · rename_i hready
      exact h.readable htold hin hready room flags hroom
    · rename_i hready
      exact h.unreadable htold hin (not_not.mp hready) room flags hroom
  writes := by
    intro wantsRead byte hready
    obtain ⟨events, hlt, hout, hin⟩ : ∃ events, events < 256 ^ 2 ∧ events &&& pollout ≠ 0 ∧
        decide (events &&& pollin ≠ 0) = wantsRead := by
      cases wantsRead
      · exact ⟨2, by decide⟩
      · exact ⟨3, by decide⟩
    have htold := k.pollSays_one pid hfd hlt
    have hrevents := k.pollReventsForFd_open hopen events
    rw [decide_eq_true hout, hin] at hrevents
    rw [hrevents] at htold
    exact h.writable htold hout hready byte

end Yurt
