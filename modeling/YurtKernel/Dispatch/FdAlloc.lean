import YurtKernel.Kernel.FdVacancy
import YurtKernel.Dispatch.Stock

/-! How descriptors are handed out, over every reachable kernel.

    Six calls open descriptors: `dup`, `dup_min`, `pipe`, `socketpair`, `accept` on a Unix listener
    and `open`. All of them hand out the least vacant numbers, all refuse with `EMFILE` exactly when
    there are too few, and what they made before the refusal is given back. `dup` is the exception:
    it raises the count of a pipe end or a file, which sticks at `u32::MAX`, and lowers it again when
    no number is free. A count that had stuck there ends one lower than it was. -/

namespace Yurt
open Kernel SortedMap
variable {σ : Type} {k k' : Kernel σ} {pid : Pid} {fd minFd : Nat} {request : Bytes} (kh : Kh σ)
variable {e e' : FdEntry} {r : Int × Kernel σ} {id count fd' : Nat} {s : SocketEntry} {side : PipeEnd}
  {k'' : Kernel σ} {V : Type} {host : σ}

/-! ### The law -/

/-- What a call asks of the caller's table: how many descriptors, from which number up. -/
structure FdDemand where
  minFd : Nat
  count : Nat
  deriving DecidableEq

section
variable (k : Kernel σ)

/-- Whether `open` gets as far as a descriptor. -/
def Kernel.opens (flags : Nat) (path : Bytes) : Bool :=
  let ty := k.vfs.entryType path
  if flags.testBit 4 && flags.testBit 1 && ty ≠ unknownType then false
  else if flags.testBit 3 && ty ≠ directoryType then false
  else if ty = directoryType then !(flags.testBit 0 || flags.testBit 1 || flags.testBit 2)
  else
    match (k.vfs.openResult kh k.host path flags).1 with
    | .ok _ => true
    | .error _ => false

def Kernel.openable (caller : Pid) (request : Bytes) : Bool :=
  4 ≤ request.length && !(request.drop 4).isEmpty &&
    match k.resolveReadable caller (request.drop 4) true with
    | (.ok path, k) => k.opens kh (u32At request 0) path
    | (.error _, _) => false

def Kernel.openableAt (caller : Pid) (request : Bytes) : Bool :=
  8 ≤ request.length && !(request.drop 8).isEmpty &&
    match k.resolveAt caller (u32At request 0) (request.drop 8) with
    | (.ok path, k) => k.openable kh caller (leBytes 4 (u32At request 4) ++ path)
    | (.error _, _) => false

/-- Kind of the socket behind a descriptor. -/
def Kernel.kindAt (pid : Pid) (fd : Nat) : Option SocketKind :=
  match k.fdEntry pid fd with
  | some (.socket id) => (k.sockets.get? id).map SocketEntry.kind
  | _ => none

def SocketKind.listens : SocketKind → Bool
  | .unixListener _ _ _ => true
  | _ => false

def SocketKind.onHost : SocketKind → Bool
  | .host _ => true
  | _ => false

/-- What the call asks for, if nothing else is wrong with it. -/
def SysCall.demand (pid : Pid) : SysCall → Option FdDemand
  | .dup request =>
    match readU32Args 1 request with
    | some [oldfd] => if (k.fdEntry pid oldfd).isSome then some ⟨0, 1⟩ else none
    | _ => none
  | .dupMin request =>
    match readU32Args 2 request with
    | some [oldfd, minfd] =>
      if (k.fdEntry pid oldfd).isSome ∧ minfd < (k.process pid).nofileSoft then some ⟨minfd, 1⟩
      else none
    | _ => none
  | .pipe cap => if 8 ≤ cap then some ⟨0, 2⟩ else none
  | .socketpair request cap =>
    let family := leNat (request.take 1)
    let sockType := leNat ((request.drop 1).take 1)
    if 8 ≤ request.length ∧ 8 ≤ cap ∧ (family = 1 ∨ family = 3) ∧ sockType ∈ [1, 2, 5, 6] then
      some ⟨0, 2⟩
    else none
  | .accept request =>
    if 8 ≤ request.length ∧ (k.kindAt pid (u32At request 0)).any SocketKind.listens then some ⟨0, 1⟩
    else none
  | .path (.openPath request) => if k.openable kh pid request then some ⟨0, 1⟩ else none
  | .path (.openat request) => if k.openableAt kh pid request then some ⟨0, 1⟩ else none
  | _ => none

/-- The calls that open descriptors; `accept` on a socket of the host is not one of them. -/
def SysCall.allocates (pid : Pid) : SysCall → Bool
  | .dup _ | .dupMin _ | .pipe _ | .socketpair _ _ | .path (.openPath _) | .path (.openat _) => true
  | .accept request => !(k.kindAt pid (u32At request 0)).any SocketKind.onHost
  | _ => false

end

/-- Descriptors in the reply of a call that succeeded: its code, or two words of the response. -/
def Reply.descriptors (r : Reply) (count : Nat) : List Nat :=
  if count = 1 then [r.rc.toNat] else words count (r.writes.flatMap Prod.snd)

/-- The caller's descriptors, the counts of pipes and descriptions and the queues of listeners are
    as they were. -/
structure Kernel.FdsKept (k : Kernel σ) (pid : Pid) (k' : Kernel σ) : Prop where
  entries : ∀ fd, k'.fdEntry pid fd = k.fdEntry pid fd
  flags : ∀ fd, (k'.process pid).fdTable.getDescriptorFlags fd =
    (k.process pid).fdTable.getDescriptorFlags fd
  pipes : ∀ id, (k'.pipes.get? id).map (fun b => (b.readEnds, b.writeEnds)) =
    (k.pipes.get? id).map (fun b => (b.readEnds, b.writeEnds))
  ofds : ∀ id, (k'.ofds.get? id).map OpenFileDescription.refs =
    (k.ofds.get? id).map OpenFileDescription.refs
  pending : ∀ id, (k'.sockets.get? id).map (fun s => s.kind.pending) =
    (k.sockets.get? id).map (fun s => s.kind.pending)

/-- A call that asks for descriptors gets the least vacant ones with close-on-exec clear, or is
    refused because there are too few, and a refusal changes nothing. -/
structure Kernel.GrantsFds (k : Kernel σ) (pid : Pid) (d : FdDemand) (reply : Reply)
    (k' : Kernel σ) : Prop where
  lowest : 0 ≤ reply.rc → FirstFit.Picks (k.vacant pid d.minFd) (reply.descriptors d.count)
  clear : 0 ≤ reply.rc → ∀ fd ∈ reply.descriptors d.count,
    (k'.process pid).fdTable.getDescriptorFlags fd = .ok 0
  refused_iff : reply.rc = -EMFILE ↔ (k.vacant pid d.minFd).encard < d.count
  undone : reply.rc = -EMFILE → k.FdsKept pid k'

/-- The law for any of the calls; one that is wrong for another reason opens nothing. -/
def SysCall.FdLaw (k : Kernel σ) (pid : Pid) (call : SysCall) : Prop :=
  match call.demand kh k pid with
  | some d => k.GrantsFds pid d (call.run kh k pid).1 (call.run kh k pid).2
  | none => ∀ fd, (call.run kh k pid).2.fdEntry pid fd = k.fdEntry pid fd

/-! ### Outcomes -/

theorem Kernel.GrantsFds.refused {d : FdDemand}
    (hfew : (k.vacant pid d.minFd).encard < d.count) (hkept : k.FdsKept pid k') :
    k.GrantsFds pid d (.code (-EMFILE)) k' where
  lowest h := absurd h (by decide)
  clear h := absurd h (by decide)
  refused_iff := ⟨fun _ => hfew, fun _ => rfl⟩
  undone _ := hkept

/-- A call that fails for want of something else, with a number to spare. -/
theorem Kernel.GrantsFds.failed {d : FdDemand} (rc : Int) (hneg : rc < 0) (hne : rc ≠ -EMFILE)
    (hroom : ¬ (k.vacant pid d.minFd).encard < d.count) : k.GrantsFds pid d (.code rc) k' where
  lowest h := absurd h (not_le.mpr hneg)
  clear h := absurd h (not_le.mpr hneg)
  refused_iff := ⟨fun h => absurd h hne, fun h => absurd h hroom⟩
  undone h := absurd h hne

theorem natCast_ne_neg_EMFILE (n : Nat) : (n : Int) ≠ -EMFILE := by
  unfold EMFILE
  omega

/-- One descriptor. -/
theorem Kernel.GrantsFds.one (hleast : IsLeast (k.vacant pid minFd) fd)
    (htable : (k'.process pid).fdTable = (k.process pid).fdTable.install fd e) :
    k.GrantsFds pid ⟨minFd, 1⟩ (.code fd) k' where
  lowest _ := ⟨hleast, trivial⟩
  clear _ fd' hfd' := by
    obtain rfl : fd' = fd := by simpa [Reply.descriptors, Reply.code] using hfd'
    rw [htable, FdTable.getDescriptorFlags_install_self]
  refused_iff := by
    refine ⟨fun h => absurd h (natCast_ne_neg_EMFILE fd), fun h => ?_⟩
    have hempty : k.vacant pid minFd = ∅ := FirstFit.encard_lt_one_iff.mp h
    exact absurd hleast.1 (by rw [hempty]; exact id)
  undone h := absurd h (natCast_ne_neg_EMFILE fd)

theorem words_pair {a b : Nat} (ha : a ≤ u32Max) (hb : b ≤ u32Max) :
    words 2 (leBytes 4 a ++ leBytes 4 b) = [a, b] := by
  have hword : ∀ n, n ≤ u32Max → leNat (leBytes 4 n) = n := fun n hn => by
    rw [leNat_leBytes]
    exact Nat.mod_eq_of_lt (by unfold u32Max at hn; omega)
  have hlen := leBytes_length 4
  rw [words, words, words, List.take_left' (hlen a), List.drop_left' (hlen a),
    List.take_of_length_le (hlen b).le, hword a ha, hword b hb]

namespace Kernel

/-- Two descriptors, the second picked when the first is installed. -/
theorem GrantsFds.two (hleast : IsLeast (k.vacant pid 0) fd)
    (hnext : IsLeast (k.vacant pid 0 \ {fd}) fd')
    (htable : (k'.process pid).fdTable = ((k.process pid).fdTable.install fd e).install fd' e') :
    k.GrantsFds pid ⟨0, 2⟩ (.data (leBytes 4 fd ++ leBytes 4 fd')) k' := by
  have hfds : (Reply.data (leBytes 4 fd ++ leBytes 4 fd')).descriptors 2 = [fd, fd'] := by
    rw [Reply.descriptors, if_neg (by decide)]
    simp only [Reply.data, List.flatMap_cons, List.flatMap_nil, List.append_nil]
    exact words_pair hleast.1.2.2.1 hnext.1.1.2.2.1
  have hrc : (Reply.data (leBytes 4 fd ++ leBytes 4 fd')).rc = (8 : Nat) := by
    rw [Reply.data, List.length_append, leBytes_length, leBytes_length]
  refine ⟨fun _ => ?_, fun _ m hm => ?_, ⟨fun h => ?_, fun h => ?_⟩, fun h => ?_⟩
  · rw [hfds]
    exact ⟨hleast, hnext, trivial⟩
  · rw [hfds] at hm
    rw [htable]
    rcases List.mem_pair.mp hm with rfl | rfl
    · rw [FdTable.getDescriptorFlags_install_ne _ _ (Ne.symm hnext.1.2),
        FdTable.getDescriptorFlags_install_self]
    · rw [FdTable.getDescriptorFlags_install_self]
  · exact absurd (hrc ▸ h) (natCast_ne_neg_EMFILE 8)
  · rw [FirstFit.encard_lt_succ_iff hleast.1, FirstFit.encard_lt_one_iff] at h
    exact absurd hnext.1 (by rw [h]; exact id)
  · exact absurd (hrc ▸ h) (natCast_ne_neg_EMFILE 8)

/-- No room for two: none at all, or none besides the one just given out. -/
theorem few_of_none {d : FdDemand} (hempty : k.vacant pid d.minFd = ∅) (hcount : 0 < d.count) :
    (k.vacant pid d.minFd).encard < d.count := by
  rw [hempty, Set.encard_empty]
  exact_mod_cast hcount

/-! ### Frames -/

theorem FdsKept.of_table (htable : (k'.process pid).fdTable = (k.process pid).fdTable)
    (hpipes : k'.pipes = k.pipes) (hofds : k'.ofds = k.ofds) (hsockets : k'.sockets = k.sockets) :
    k.FdsKept pid k' where
  entries fd := by rw [fdEntry, htable, fdEntry]
  flags fd := by rw [htable]
  pipes id := by rw [hpipes]
  ofds id := by rw [hofds]
  pending id := by rw [hsockets]

theorem FdsKept.of_record (hrecord : k'.process pid = k.process pid)
    (hpipes : k'.pipes = k.pipes) (hofds : k'.ofds = k.ofds) (hsockets : k'.sockets = k.sockets) :
    k.FdsKept pid k' :=
  .of_table (congrArg _ hrecord) hpipes hofds hsockets

theorem fdsKept_touch (k : Kernel σ) (pid : Pid) : k.FdsKept pid (k.touch pid) :=
  .of_record (k.process_touch pid) rfl rfl rfl

end Kernel

/-! ### A count up and down again -/

theorem satAdd_one_sub_one (h : count < u32Max) : satAdd count 1 - 1 = count := by
  unfold satAdd
  omega

theorem PipeBuf.decRef_incRef {b : PipeBuf}
    (h : endCount (some (b.readEnds, b.writeEnds)) side < u32Max) :
    (b.incRef side).decRef side = b := by
  cases side with
  | read | write =>
    simp only [endCount] at h
    simp only [PipeBuf.incRef, PipeBuf.decRef, satAdd_one_sub_one h]

theorem insert_modify_self {m : SortedMap Nat V} {v : V} (f : V → V) (h : m.get? id = some v) :
    (m.modify id f).insert id v = m := by
  refine ext_get? (fun j => ?_)
  rw [get?_insert, get?_modify]
  split_ifs with hj
  · rw [hj, h]
  · rfl

theorem modify_eq_self {m : SortedMap Nat V} (f : V → V) (h : m.get? id = none) : m.modify id f = m := by
  refine ext_get? (fun j => ?_)
  rw [get?_modify]
  split_ifs with hj
  · rw [hj, h]
    rfl
  · rfl

theorem Kernel.pipeDecRef_pipeIncRef (h : k.Stocked) (hroom : k.counter (.pipe id side) < u32Max) :
    (k.pipeIncRef id side).pipeDecRef id side = k := by
  cases hb : k.pipes.get? id with
  | none =>
    have hsame : k.pipeIncRef id side = k := by
      rw [pipeIncRef, modify_eq_self _ hb]
    rw [hsame, pipeDecRef, hb]
  | some b =>
    have hinc : (k.pipeIncRef id side).pipes.get? id = some (b.incRef side) := by
      rw [pipeIncRef, get?_modify, if_pos rfl, hb]
      rfl
    have hback : (b.incRef side).decRef side = b := by
      refine PipeBuf.decRef_incRef ?_
      rwa [k.counter_pipe, hb] at hroom
    have hpos := h.pipe_pos id b hb
    rw [pipeDecRef, hinc]
    simp only [hback]
    rw [if_neg (by omega), pipeIncRef, insert_modify_self _ hb]

theorem Kernel.ofdDecRef_ofdIncRef (h : k.Stocked) (hroom : k.counter (.file id) < u32Max) :
    (k.ofdIncRef id).ofdDecRef id = k := by
  cases ho : k.ofds.get? id with
  | none =>
    have hsame : k.ofdIncRef id = k := by
      rw [ofdIncRef, modify_eq_self _ ho]
    rw [hsame, ofdDecRef, ho]
  | some o =>
    have hinc : (k.ofdIncRef id).ofds.get? id = some { o with refs := satAdd o.refs 1 } := by
      rw [ofdIncRef, get?_modify, if_pos rfl, ho]
      rfl
    have hpos := h.ofd_pos id o ho
    rw [k.counter_file, ho] at hroom
    have hback : satAdd o.refs 1 - 1 = o.refs := satAdd_one_sub_one hroom
    rw [ofdDecRef, hinc]
    simp only [hback]
    rw [if_neg (by omega), ofdIncRef, insert_modify_self _ ho]

/-- A socket that is there is not dropped: its count went up before it came down. -/
theorem Kernel.Stocked.decFdEntryRef_socketIncRef (h : k.Stocked) (id : Nat) :
    ∃ sockets : SortedMap Nat SocketEntry,
      (k.socketIncRef id).decFdEntryRef kh (.socket id) = { k with sockets := sockets } ∧
      ∀ j, (sockets.get? j).map SocketEntry.kind = (k.sockets.get? j).map SocketEntry.kind := by
  cases hs : k.sockets.get? id with
  | none =>
    refine ⟨k.sockets, ?_, fun _ => rfl⟩
    have hsame : k.socketIncRef id = k := by
      rw [socketIncRef, modify_eq_self _ hs]
    simp only [hsame, decFdEntryRef, socketDecRef, socketDecRefAux, hs, closeHandle]
  | some s =>
    have hinc : (k.socketIncRef id).sockets.get? id = some { s with refs := satAdd s.refs 1 } := by
      rw [socketIncRef, get?_modify, if_pos rfl, hs]
      rfl
    have hpos : 0 < s.refs := h.socket_pos id s not_false hs
    have hleft : satAdd s.refs 1 - 1 ≠ 0 := by
      unfold satAdd u32Max
      omega
    refine ⟨((k.socketIncRef id).lowered id { s with refs := satAdd s.refs 1 }).sockets, ?_, ?_⟩
    · rw [decFdEntryRef, socketDecRef, socketDecRefAux_some hinc, if_pos hleft]
      rfl
    · intro j
      rw [lowered, get?_insert, socketIncRef, get?_modify]
      split_ifs with hj
      · rw [hj, hs]
        rfl
      · rfl

/-- Entries whose object keeps a count that `dup` may find at its ceiling. -/
def FdEntry.stored : FdEntry → Bool
  | .pipe _ _ | .file _ => true
  | _ => false

/-- A `dup` that finds no number, of a pipe end or file whose count cannot go up. -/
def SysCall.DupsStuck (k : Kernel σ) (pid : Pid) : SysCall → Prop
  | .dup request => 4 ≤ request.length ∧ k.vacant pid 0 = ∅ ∧
    ∃ e, k.fdEntry pid (u32At request 0) = some e ∧ e.stored = true ∧ u32Max ≤ k.counter e
  | _ => False

theorem Kernel.fdsKept_incDec (h : k.Stocked) (pid : Pid)
    (hroom : e.stored = true → k.counter e < u32Max) :
    k.FdsKept pid (((k.touch pid).incFdEntryRef e).decFdEntryRef kh e) := by
  have htouch : (k.touch pid).Stocked := h
  have hkept := k.fdsKept_touch pid
  have hcounter : ∀ e, (k.touch pid).counter e = k.counter e := fun e => by
    rw [counter, k.refView_touch pid, counter]
  cases e with
  | pipe id side =>
    have hback : ((k.touch pid).pipeIncRef id side).pipeDecRef id side = k.touch pid :=
      pipeDecRef_pipeIncRef htouch (by rw [hcounter]; exact hroom rfl)
    rw [incFdEntryRef, decFdEntryRef, hback]
    exact hkept
  | file id =>
    have hback : ((k.touch pid).ofdIncRef id).ofdDecRef id = k.touch pid :=
      ofdDecRef_ofdIncRef htouch (by rw [hcounter]; exact hroom rfl)
    rw [incFdEntryRef, decFdEntryRef, hback]
    exact hkept
  | socket id =>
    obtain ⟨sockets, hk, hkinds⟩ := htouch.decFdEntryRef_socketIncRef kh id
    rw [incFdEntryRef, hk]
    refine ⟨hkept.entries, hkept.flags, hkept.pipes, hkept.ofds, fun j => ?_⟩
    have hj := congrArg (Option.map SocketKind.pending) (hkinds j)
    rwa [Option.map_map, Option.map_map] at hj
  | _ => exact hkept

theorem PipeBuf.endCount_stuck {b : PipeBuf}
    (h : u32Max ≤ endCount (some (b.readEnds, b.writeEnds)) side) :
    ((b.incRef side).decRef side).readEnds ≠ b.readEnds ∨
      ((b.incRef side).decRef side).writeEnds ≠ b.writeEnds := by
  cases side with
  | read | write =>
    simp only [endCount, PipeBuf.incRef, PipeBuf.decRef, satAdd, u32Max] at h ⊢
    omega

/-- A count at its ceiling does not go up, and comes down all the same. -/
theorem Kernel.not_fdsKept_incDec (he : e.stored = true) (hstuck : u32Max ≤ k.counter e) :
    ¬ k.FdsKept pid (((k.touch pid).incFdEntryRef e).decFdEntryRef kh e) := by
  intro hkept
  cases e with
  | pipe id side =>
    rw [k.counter_pipe] at hstuck
    cases hb : k.pipes.get? id with
    | none =>
      rw [hb] at hstuck
      cases side <;> exact absurd hstuck (by decide)
    | some b =>
      rw [hb] at hstuck
      have hinc : ((k.touch pid).pipeIncRef id side).pipes.get? id = some (b.incRef side) := by
        rw [pipeIncRef, get?_modify, if_pos rfl]
        exact congrArg (Option.map _) hb
      have hsame := hkept.pipes id
      rw [incFdEntryRef, decFdEntryRef, pipeDecRef, hinc, hb] at hsame
      simp only at hsame
      split_ifs at hsame
      · rw [get?_erase, if_pos rfl] at hsame
        cases hsame
      · rw [get?_insert, if_pos rfl] at hsame
        obtain ⟨hread, hwrite⟩ := Prod.mk.inj (Option.some.inj hsame)
        rcases PipeBuf.endCount_stuck hstuck with hne | hne
        · exact hne hread
        · exact hne hwrite
  | file id =>
    rw [k.counter_file] at hstuck
    cases ho : k.ofds.get? id with
    | none =>
      rw [ho] at hstuck
      exact absurd hstuck (by decide)
    | some o =>
      rw [ho] at hstuck
      have hstuck : u32Max ≤ o.refs := hstuck
      have hinc : ((k.touch pid).ofdIncRef id).ofds.get? id = some { o with refs := satAdd o.refs 1 } := by
        rw [ofdIncRef, get?_modify, if_pos rfl]
        exact congrArg (Option.map _) ho
      have hleft : satAdd o.refs 1 - 1 ≠ 0 ∧ satAdd o.refs 1 - 1 ≠ o.refs := by
        unfold satAdd u32Max at *
        omega
      have hsame := hkept.ofds id
      rw [incFdEntryRef, decFdEntryRef, ofdDecRef, hinc, ho] at hsame
      simp only [if_neg hleft.1] at hsame
      rw [get?_insert, if_pos rfl] at hsame
      exact hleft.2 (Option.some.inj hsame)
  | _ => cases he

/-! ### The calls -/

theorem Kernel.freeFd_congr (h : k'.process pid = k.process pid) : k'.freeFd pid = k.freeFd pid := by
  rw [freeFd, h, freeFd]

theorem Kernel.process_incTouch (k : Kernel σ) (pid : Pid) (e : FdEntry) :
    ((k.touch pid).incFdEntryRef e).process pid = k.process pid :=
  (process_congr (processes_incFdEntryRef _ e) pid).trans (k.process_touch pid)

/-- An alias that is installed where nothing stood. -/
theorem Kernel.GrantsFds.alias {newfd : Nat} (hleast : IsLeast (k.vacant pid minFd) newfd)
    (e : FdEntry) : k.GrantsFds pid ⟨minFd, 1⟩ (.code newfd)
      (((k.touch pid).incFdEntryRef e).installFd pid newfd e) :=
  .one hleast (by rw [process_installFd, k.process_incTouch])

theorem SysCall.fdLaw_dup (h : k.Stocked) (request : Bytes) :
    SysCall.FdLaw kh k pid (.dup request) ↔ ¬ SysCall.DupsStuck k pid (.dup request) := by
  simp only [SysCall.FdLaw, SysCall.demand, SysCall.run, SysCall.DupsStuck, dupFd, readU32Args_one]
  by_cases hlen : request.length < 4
  · simp only [if_pos hlen]
    exact ⟨fun _ hstuck => absurd hstuck.1 (not_le.mpr hlen), fun _ _ => rfl⟩
  simp only [if_neg hlen]
  cases hfd : k.fdEntry pid (u32At request 0) with
  | none =>
    simp only [Option.isSome_none, Bool.false_eq_true, if_false]
    refine ⟨fun _ hstuck => ?_, fun _ fd => k.fdEntry_touch pid fd⟩
    obtain ⟨-, -, e, he, -⟩ := hstuck
    cases he
  | some e =>
    simp only [Option.isSome_some, if_true]
    rw [freeFd_congr (k.process_incTouch pid e)]
    cases hfree : k.freeFd pid with
    | none =>
      have hempty := freeFd_none hfree
      have hfew : (k.vacant pid 0).encard < (1 : Nat) := FirstFit.encard_lt_one_iff.mpr hempty
      constructor
      · rintro hlaw ⟨-, -, e', he', hstored, hcount⟩
        cases he'
        exact not_fdsKept_incDec kh hstored hcount (hlaw.undone rfl)
      · intro hnot
        refine .refused hfew (fdsKept_incDec kh h pid (fun hstored => ?_))
        by_contra hcount
        exact hnot ⟨not_lt.mp hlen, hempty, e, rfl, hstored, not_lt.mp hcount⟩
    | some newfd =>
      have hleast := freeFd_some hfree
      constructor
      · rintro - ⟨-, hempty, -⟩
        exact absurd hleast.1 (by rw [hempty]; exact not_false)
      · exact fun _ => .alias hleast e

theorem SysCall.fdLaw_dupMin (k : Kernel σ) (pid : Pid) (request : Bytes) :
    SysCall.FdLaw kh k pid (.dupMin request) := by
  simp only [SysCall.FdLaw, SysCall.demand, SysCall.run, dupMinFd, readU32Args_two]
  by_cases hlen : request.length < 8
  · simp only [if_pos hlen]
    exact fun _ => rfl
  simp only [if_neg hlen]
  cases hfd : k.fdEntry pid (u32At request 0) with
  | none =>
    simp only [Option.isSome_none, Bool.false_eq_true, false_and, if_false]
    exact fun fd => k.fdEntry_touch pid fd
  | some e =>
    by_cases hlimit : (k.process pid).nofileSoft ≤ u32At request 4
    · simp only [Option.isSome_some, true_and, if_neg (not_lt.mpr hlimit), if_pos hlimit]
      exact fun fd => k.fdEntry_touch pid fd
    simp only [Option.isSome_some, true_and, if_pos (not_le.mp hlimit), if_neg hlimit]
    have hmin : u32At request 4 ≤ u32Max := by
      have hlt := u32At_lt request 4
      unfold u32Max
      omega
    cases hfree : (k.process pid).fdTable.lowestFreeFdBelow (u32At request 4)
        (k.process pid).nofileSoft with
    | none =>
      exact .refused (few_of_none (FdTable.lowestFreeFdBelow_none hfree) Nat.one_pos) (k.fdsKept_touch pid)
    | some newfd => exact .alias (FdTable.lowestFreeFdBelow_some hmin hfree) e

/-! ### Pairs -/

/-- The second pick of a pair finds nothing. -/
theorem Kernel.few_of_second (hleast : IsLeast (k.vacant pid 0) fd)
    (hsecond : (k.installFd pid fd e).freeFd pid = none) :
    (k.vacant pid 0).encard < (2 : Nat) := by
  have hempty := freeFd_none hsecond
  rw [vacant_installFd] at hempty
  rw [FirstFit.encard_lt_succ_iff hleast.1, hempty]
  exact FirstFit.encard_empty_lt

/-- Both picks of a pair, in a kernel where the caller's record is as it was. -/
theorem Kernel.GrantsFds.pair (hrecord : k'.process pid = k.process pid)
    (hfirst : k'.freeFd pid = some fd) (hsecond : (k'.installFd pid fd e).freeFd pid = some fd') :
    k.GrantsFds pid ⟨0, 2⟩ (.data (leBytes 4 fd ++ leBytes 4 fd'))
      ((k'.installFd pid fd e).installFd pid fd' e') := by
  have hvacant : k'.vacant pid 0 = k.vacant pid 0 := by
    rw [vacant, hrecord, vacant]
  have hleast := freeFd_some hfirst
  have hnext := freeFd_some hsecond
  rw [vacant_installFd] at hnext
  rw [hvacant] at hleast hnext
  have htable : (((k'.installFd pid fd e).installFd pid fd' e').process pid).fdTable =
      ((k.process pid).fdTable.install fd e).install fd' e' := by
    rw [process_installFd, process_installFd, hrecord]
  exact .two hleast hnext htable

/-- A descriptor is put in where nothing stood and taken out again. -/
theorem Kernel.FdsKept.installRemove {k₀ : Kernel σ} (hrecord : k'.process pid = k₀.process pid)
    (hfree : k'.freeFd pid = some fd)
    (hk : k.process pid = ((k'.installFd pid fd e).removeFd pid fd).process pid)
    (hpipes : k.pipes = k₀.pipes) (hofds : k.ofds = k₀.ofds) (hsockets : k.sockets = k₀.sockets) :
    k₀.FdsKept pid k := by
  have hnone : (k'.process pid).fdTable.entry fd = none := freeFd_free hfree
  rw [hrecord] at hnone
  have htable : (k.process pid).fdTable = ((k₀.process pid).fdTable.install fd e).remove fd := by
    rw [hk, removeFd, process_updProcess, process_installFd, hrecord]
    rfl
  refine ⟨fun m => ?_, fun m => ?_, fun _ => by rw [hpipes], fun _ => by rw [hofds],
    fun _ => by rw [hsockets]⟩
  · rw [fdEntry, htable, FdTable.entry_remove_install hnone]
    rfl
  · rw [htable, FdTable.getDescriptorFlags_remove_install hnone]

/-- Both ends of a new pipe given back leave the pipes as they were. -/
theorem Kernel.pipeDecRefs_createPipe (h : k.Stocked) (hpipes : k'.pipes = k.createPipe.2.pipes) :
    (k'.pipeDecRef k.nextPipeId .read).pipeDecRef k.nextPipeId .write = { k' with pipes := k.pipes } := by
  have hread : k'.pipeDecRef k.nextPipeId .read =
      { k' with pipes := k.pipes.insert k.nextPipeId ⟨[], 0, 1⟩ } := by
    have hnew : k'.pipes.get? k.nextPipeId = some .new := by
      rw [hpipes]
      exact get?_insert_self _ _ _
    rw [pipeDecRef, hnew, hpipes]
    simp only [PipeBuf.decRef, PipeBuf.new, createPipe, insert_insert]
    rw [if_neg (by decide)]
  rw [hread, pipeDecRef]
  simp only [get?_insert_self, PipeBuf.decRef]
  rw [if_pos (by decide), erase_insert (h.pipe_fresh _ le_rfl)]

theorem SysCall.fdLaw_pipe (h : k.Stocked) (cap : Nat) : SysCall.FdLaw kh k pid (.pipe cap) := by
  simp only [SysCall.FdLaw, SysCall.demand, SysCall.run, Kernel.pipe]
  by_cases hcap : cap < 8
  · simp only [if_pos hcap, if_neg (not_le.mpr hcap), implies_true]
  simp only [if_neg hcap, if_pos (not_lt.mp hcap)]
  have hid : k.createPipe.1 = k.nextPipeId := rfl
  have hpipes : (k.createPipe.2.touch pid).pipes = k.createPipe.2.pipes := rfl
  have hofds : (k.createPipe.2.touch pid).ofds = k.ofds := rfl
  have hsockets : (k.createPipe.2.touch pid).sockets = k.sockets := rfl
  have hrecord : (k.createPipe.2.touch pid).process pid = k.process pid := k.createPipe.2.process_touch pid
  rw [hid]
  generalize k.createPipe.2.touch pid = made at hpipes hofds hsockets hrecord ⊢
  have hvacant : made.vacant pid 0 = k.vacant pid 0 := by
    rw [Kernel.vacant, hrecord, Kernel.vacant]
  cases hfirst : made.freeFd pid with
  | none =>
    refine .refused (few_of_none (hvacant ▸ freeFd_none hfirst) Nat.two_pos) ?_
    simp only
    rw [pipeDecRefs_createPipe h hpipes]
    exact .of_record hrecord rfl hofds hsockets
  | some readFd =>
    simp only
    cases hsecond : (made.installFd pid readFd (.pipe k.nextPipeId .read)).freeFd pid with
    | none =>
      refine .refused (hvacant ▸ few_of_second (freeFd_some hfirst) hsecond) ?_
      simp only
      have hremoved : ((made.installFd pid readFd (.pipe k.nextPipeId .read)).removeFd pid readFd).pipes =
          k.createPipe.2.pipes := hpipes
      rw [pipeDecRefs_createPipe h hremoved]
      exact .installRemove hrecord hfirst rfl rfl hofds hsockets
    | some writeFd => exact .pair hrecord hfirst hsecond

/-- The other end of one end of a pair. -/
def SocketKind.otherEnd : SocketKind → Option Nat
  | .unixStream peer _ _ _ _ _ _ => some peer
  | .unixDatagram peer _ none _ _ _ => peer
  | _ => none

theorem SocketKind.otherEnd_closePeer (kind : SocketKind) : kind.closePeer.otherEnd = kind.otherEnd := by
  cases kind with
  | unixDatagram peer pp bound => cases bound <;> rfl
  | _ => rfl

/-- One end of a pair with a single reference goes. -/
theorem Kernel.decFdEntryRef_end {peer : Nat} (hs : k.sockets.get? id = some s) (hrefs : s.refs = 1)
    (hend : s.kind.otherEnd = some peer) :
    k.decFdEntryRef kh (.socket id) = ((k.lowered id s).closePeer (some peer)).dropSocket id := by
  have hlast : ¬ s.refs - 1 ≠ 0 := by omega
  rw [decFdEntryRef, socketDecRef, socketDecRefAux_some hs, if_neg hlast]
  cases hkind : s.kind with
  | unixStream p =>
    rw [hkind] at hend
    cases hend
    rfl
  | unixDatagram p pp bound =>
    rw [hkind] at hend
    cases bound with
    | some path => cases hend
    | none =>
      have hend : p = some peer := hend
      rw [hend]
      rfl
  | _ =>
    rw [hkind] at hend
    cases hend

theorem Kernel.get?_dropEnd (k : Kernel σ) (id peer : Nat) (s : SocketEntry) (hne : peer ≠ id) (j : Nat) :
    (((k.lowered id s).closePeer (some peer)).dropSocket id).sockets.get? j =
      if j = id then none
      else if j = peer then (k.sockets.get? peer).map (fun s => { s with kind := s.kind.closePeer })
      else k.sockets.get? j := by
  simp only [dropSocket, closePeer, lowered, get?_erase, get?_modify, get?_insert, if_neg hne]
  split_ifs <;> rfl

/-- Both ends of a new pair given back leave the sockets as they were, and no other table changes. -/
theorem Kernel.decFdEntryRefs_addPair (kh : Kh σ) (h : k.Stocked) (sockType : Nat)
    {kind : Nat → SocketKind} (hkind : ∀ peer, (kind peer).otherEnd = some peer)
    (hsockets : k'.sockets = (k.addPair sockType kind).2.sockets) :
    let dropped := (k'.decFdEntryRef kh (.socket k.nextSocketId)).decFdEntryRef kh
      (.socket (k.nextSocketId + 1))
    dropped.sockets = k.sockets ∧ dropped.processes = k'.processes ∧ dropped.pipes = k'.pipes ∧
      dropped.ofds = k'.ofds := by
  have hne : k.nextSocketId + 1 ≠ k.nextSocketId := Nat.succ_ne_self _
  have hget : ∀ j, k'.sockets.get? j = if j = k.nextSocketId + 1 then
      some ⟨1, 1, sockType, false, kind k.nextSocketId⟩ else if j = k.nextSocketId then
      some ⟨1, 1, sockType, false, kind (k.nextSocketId + 1)⟩ else k.sockets.get? j := fun j => by
    rw [hsockets]
    simp only [addPair, addSocket, get?_insert]
  have hleft : k'.sockets.get? k.nextSocketId =
      some ⟨1, 1, sockType, false, kind (k.nextSocketId + 1)⟩ := by
    rw [hget, if_neg hne.symm, if_pos rfl]
  have hright : k'.sockets.get? (k.nextSocketId + 1) =
      some ⟨1, 1, sockType, false, kind k.nextSocketId⟩ := by
    rw [hget, if_pos rfl]
  -- the first end goes and leaves its mark on the second, which goes in turn
  have hdrop := k'.get?_dropEnd k.nextSocketId (k.nextSocketId + 1)
    ⟨1, 1, sockType, false, kind (k.nextSocketId + 1)⟩ hne
  rw [k'.decFdEntryRef_end kh hleft rfl (hkind _)]
  have hframe : ∀ left : Kernel σ, left = ((k'.lowered k.nextSocketId
      ⟨1, 1, sockType, false, kind (k.nextSocketId + 1)⟩).closePeer
        (some (k.nextSocketId + 1))).dropSocket k.nextSocketId →
      left.processes = k'.processes ∧ left.pipes = k'.pipes ∧ left.ofds = k'.ofds := by
    rintro _ rfl
    exact ⟨rfl, rfl, rfl⟩
  generalize ((k'.lowered k.nextSocketId ⟨1, 1, sockType, false, kind (k.nextSocketId + 1)⟩).closePeer
    (some (k.nextSocketId + 1))).dropSocket k.nextSocketId = left at hdrop hframe ⊢
  have hother : left.sockets.get? (k.nextSocketId + 1) =
      some ⟨1, 1, sockType, false, (kind k.nextSocketId).closePeer⟩ := by
    rw [hdrop, if_neg hne, if_pos rfl, hright]
    rfl
  rw [left.decFdEntryRef_end kh hother rfl ((SocketKind.otherEnd_closePeer _).trans (hkind _))]
  obtain ⟨hprocesses, hpipes, hofds⟩ := hframe left rfl
  refine ⟨ext_get? (fun j => ?_), hprocesses, hpipes, hofds⟩
  rw [left.get?_dropEnd _ _ _ hne.symm]
  by_cases hjright : j = k.nextSocketId + 1
  · rw [if_pos hjright, hjright, h.socket_fresh _ (Nat.le_succ _)]
  by_cases hjleft : j = k.nextSocketId
  · rw [if_neg hjright, if_pos hjleft, hjleft, hdrop, if_pos rfl, h.socket_fresh _ le_rfl]
    rfl
  · rw [if_neg hjright, if_neg hjleft, hdrop, if_neg hjleft, if_neg hjright, hget, if_neg hjright,
      if_neg hjleft]

theorem Kernel.grantsFds_installSocketPair (h : k.Stocked) (made : Kernel σ)
    (sockType : Nat) (kind : Nat → SocketKind) (hkind : ∀ peer, (kind peer).otherEnd = some peer)
    (hsockets : made.sockets = (k.addPair sockType kind).2.sockets)
    (hrecord : made.process pid = k.process pid) (hpipes : made.pipes = k.pipes)
    (hofds : made.ofds = k.ofds) :
    k.GrantsFds pid ⟨0, 2⟩
      (made.installSocketPair kh pid k.nextSocketId (k.nextSocketId + 1)).1
      (made.installSocketPair kh pid k.nextSocketId (k.nextSocketId + 1)).2 := by
  have hvacant : made.vacant pid 0 = k.vacant pid 0 := by
    rw [vacant, hrecord, vacant]
  unfold installSocketPair
  cases hfirst : made.freeFd pid with
  | none =>
    obtain ⟨hback, hprocesses, hpipes', hofds'⟩ := decFdEntryRefs_addPair kh h sockType hkind hsockets
    refine .refused (few_of_none (hvacant ▸ freeFd_none hfirst) Nat.two_pos) ?_
    exact .of_record ((process_congr hprocesses pid).trans hrecord) (hpipes'.trans hpipes)
      (hofds'.trans hofds) hback
  | some leftFd =>
    simp only
    cases hsecond : (made.installFd pid leftFd (.socket k.nextSocketId)).freeFd pid with
    | none =>
      have hremoved : ((made.installFd pid leftFd (.socket k.nextSocketId)).removeFd pid leftFd).sockets =
          (k.addPair sockType kind).2.sockets := hsockets
      obtain ⟨hback, hprocesses, hpipes', hofds'⟩ := decFdEntryRefs_addPair kh h sockType hkind hremoved
      refine .refused (hvacant ▸ few_of_second (freeFd_some hfirst) hsecond) ?_
      exact .installRemove hrecord hfirst (process_congr hprocesses pid) (hpipes'.trans hpipes)
        (hofds'.trans hofds) hback
    | some rightFd => exact .pair hrecord hfirst hsecond

theorem SysCall.fdLaw_socketpair (h : k.Stocked) (request : Bytes) (cap : Nat) :
    SysCall.FdLaw kh k pid (.socketpair request cap) := by
  simp only [SysCall.FdLaw, SysCall.demand, SysCall.run, sysSocketpair]
  generalize leNat (request.take 1) = family
  by_cases hyes : 8 ≤ request.length ∧ 8 ≤ cap ∧ (family = 1 ∨ family = 3) ∧
      leNat ((request.drop 1).take 1) ∈ [1, 2, 5, 6]
  swap
  · rw [if_neg hyes]
    intro fd
    split_ifs with hlen hfamily htype
    · rfl
    · rfl
    · exact absurd ⟨by omega, by omega, by omega, htype⟩ hyes
    · exact absurd ⟨by omega, by omega, by omega, htype⟩ hyes
    · rfl
  rw [if_pos hyes, if_neg (by omega), if_neg (by omega), if_neg (not_not.mpr hyes.2.2.2)]
  split_ifs
  · have hrecord : (k.createUnixDatagramPair.2.touch pid).process pid = k.process pid := process_touch _ pid
    exact grantsFds_installSocketPair kh h (k.createUnixDatagramPair.2.touch pid) 2
      (fun peer => .unixDatagram (some peer) none none [] [] true) (fun _ => rfl) rfl hrecord rfl rfl
  · have hrecord : (((k.touch pid).createUnixStreamPair (k.peerCredFor pid)).2.touch pid).process pid =
        k.process pid := (process_touch _ pid).trans (k.process_touch pid)
    exact grantsFds_installSocketPair kh h
      (((k.touch pid).createUnixStreamPair (k.peerCredFor pid)).2.touch pid) 1
      (fun peer => .unixStream peer none none [] [] true (k.peerCredFor pid)) (fun _ => rfl) rfl hrecord
      rfl rfl

/-! ### Accepting and opening -/

namespace Kernel

/-- Descriptors of a caller whose record was at most made. -/
theorem fdEntry_of_touch (h : k' = k ∨ k' = k.touch pid) (fd : Nat) :
    k'.fdEntry pid fd = k.fdEntry pid fd := by
  rcases h with rfl | rfl
  · rfl
  · exact k.fdEntry_touch pid fd

theorem kindAt_socket (hfd : k.fdEntry pid fd = some (.socket id)) :
    k.kindAt pid fd = (k.sockets.get? id).map SocketEntry.kind := by
  rw [kindAt, hfd]

theorem kindAt_eq_some {kind : SocketKind} (h : k.kindAt pid fd = some kind) :
    ∃ id s, k.fdEntry pid fd = some (.socket id) ∧ k.sockets.get? id = some s ∧ s.kind = kind := by
  unfold kindAt at h
  split at h
  · next id hfd =>
    obtain ⟨s, hs, hkind⟩ := Option.map_eq_some_iff.mp h
    exact ⟨id, s, hfd, hs, hkind⟩
  · cases h

/-- `accept` on a Unix listener: a number is looked for before the queue is. -/
theorem sysSocketAccept_listener {backlog : Nat} {path : Bytes} {pending : List Nat}
    (hlen : 8 ≤ request.length) (hfd : k.fdEntry pid (u32At request 0) = some (.socket id))
    (hs : k.sockets.get? id = some s) (hkind : s.kind = .unixListener path backlog pending) :
    k.sysSocketAccept kh pid request =
      match k.freeFd pid with
      | none => (-EMFILE, k.touch pid)
      | some fd =>
        match pending with
        | [] => (-EAGAIN, k.touch pid)
        | accepted :: rest => ((fd : Int),
          ((k.touch pid).setKind id (.unixListener path backlog rest)).installFd pid fd
            (.socket accepted)) := by
  have hs' : ((k.touch pid).sockets.get? id).map SocketEntry.kind =
      some (.unixListener path backlog pending) := by
    rw [← hkind]
    exact congrArg (Option.map SocketEntry.kind) hs
  simp only [sysSocketAccept, if_neg (not_lt.mpr hlen), hfd, hs, hkind, acceptUnixStream, hs']
  cases hfree : k.freeFd pid with
  | none => rfl
  | some fd =>
    cases pending with
    | nil => rfl
    | cons accepted rest =>
      have hrecord : ((k.touch pid).setKind id (.unixListener path backlog rest)).process pid =
          k.process pid := k.process_touch pid
      simp only [Option.isNone_some, Bool.false_eq_true, if_false, installSocketIdFd,
        freeFd_congr hrecord, hfree]

theorem sysSocketAccept_other
    (hunix : (k.kindAt pid (u32At request 0)).any SocketKind.onHost = false)
    (hother : (k.kindAt pid (u32At request 0)).any SocketKind.listens = false) :
    (k.sysSocketAccept kh pid request).2 = k ∨ (k.sysSocketAccept kh pid request).2 = k.touch pid := by
  by_cases hlen : request.length < 8
  · exact .inl (by rw [sysSocketAccept, if_pos hlen])
  right
  rw [sysSocketAccept, if_neg hlen]
  simp only
  split
  · rfl
  · next id hfd =>
    rw [kindAt_socket hfd] at hunix hother
    split
    · rfl
    · next s hs =>
      rw [hs] at hunix hother
      split
      · next hkind => simp [hkind, SocketKind.listens] at hother
      · next hkind => simp [hkind, SocketKind.onHost] at hunix
      · rfl
  · rfl

end Kernel

theorem SysCall.fdLaw_accept (k : Kernel σ) (pid : Pid) (request : Bytes)
    (hunix : SysCall.allocates k pid (.accept request) = true) :
    SysCall.FdLaw kh k pid (.accept request) := by
  have hunix : (k.kindAt pid (u32At request 0)).any SocketKind.onHost = false := by
    simpa [SysCall.allocates] using hunix
  simp only [SysCall.FdLaw, SysCall.demand, SysCall.run, onlyCode]
  by_cases hlen : 8 ≤ request.length
  swap
  · simp only [hlen, false_and, if_false]
    intro fd
    rw [sysSocketAccept, if_pos (not_le.mp hlen)]
  simp only [hlen, true_and]
  cases hkind : (k.kindAt pid (u32At request 0)).any SocketKind.listens with
  | false =>
    rw [if_neg Bool.false_ne_true]
    exact fdEntry_of_touch (sysSocketAccept_other kh hunix hkind)
  | true =>
    rw [if_pos rfl]
    obtain ⟨kind, hkind, hlistens⟩ := (Option.any_eq_true _ _).mp hkind
    obtain ⟨id, s, hfd, hs, rfl⟩ := kindAt_eq_some hkind
    cases hkind : s.kind with
    | unixListener path backlog pending =>
      rw [sysSocketAccept_listener kh hlen hfd hs hkind]
      cases hfree : k.freeFd pid with
      | none =>
        exact .refused (few_of_none (freeFd_none hfree) Nat.one_pos) (k.fdsKept_touch pid)
      | some fd =>
        have hleast := freeFd_some hfree
        cases pending with
        | nil =>
          have hroom : ¬ (k.vacant pid 0).encard < (1 : Nat) := fun hfew => by
            rw [FirstFit.encard_lt_one_iff] at hfew
            exact absurd hleast.1 (by rw [hfew]; exact not_false)
          exact .failed (-EAGAIN) (by decide) (by decide) hroom
        | cons accepted rest =>
          have htable : ((((k.touch pid).setKind id (.unixListener path backlog rest)).installFd pid fd
              (.socket accepted)).process pid).fdTable =
                (k.process pid).fdTable.install fd (.socket accepted) := by
            rw [process_installFd]
            exact congrArg (fun p : Process => p.fdTable.install fd (.socket accepted))
              (k.process_touch pid)
          exact .one hleast htable
    | _ =>
      rw [hkind] at hlistens
      cases hlistens

namespace Kernel

theorem FdsKept.trans (h : k.FdsKept pid k') (h' : k'.FdsKept pid k'') : k.FdsKept pid k'' where
  entries fd := (h'.entries fd).trans (h.entries fd)
  flags fd := (h'.flags fd).trans (h.flags fd)
  pipes id := (h'.pipes id).trans (h.pipes id)
  ofds id := (h'.ofds id).trans (h.ofds id)
  pending id := (h'.pending id).trans (h.pending id)

theorem Looked.fdTable (h : k.Looked k') (pid : Pid) :
    (k'.process pid).fdTable = (k.process pid).fdTable := by
  obtain ⟨cwd, hcwd⟩ := h.record pid
  rw [hcwd]

theorem Looked.fdsKept (h : k.Looked k') (pid : Pid) : k.FdsKept pid k' :=
  .of_table (h.fdTable pid) (by rw [h.rest]) (by rw [h.rest]) (by rw [h.rest])

theorem Looked.stocked (h : k.Looked k') (hk : k.Stocked) : k'.Stocked := by
  rw [h.rest]
  exact hk

/-- A call that looks something up first deals with the caller's table as it was. -/
theorem Looked.grantsFds {d : FdDemand} {reply : Reply} (h : k.Looked k')
    (hgrants : k'.GrantsFds pid d reply k'') : k.GrantsFds pid d reply k'' := by
  have hvacant : k'.vacant pid d.minFd = k.vacant pid d.minFd := by
    obtain ⟨cwd, hcwd⟩ := h.record pid
    rw [vacant, hcwd]
    rfl
  obtain ⟨hlowest, hclear, hrefused, hundone⟩ := hgrants
  rw [hvacant] at hlowest hrefused
  exact ⟨hlowest, hclear, hrefused, fun hrc => (h.fdsKept pid).trans (hundone hrc)⟩

theorem grantsFds_installDirectory (k : Kernel σ) (pid : Pid) (path : Bytes) :
    k.GrantsFds pid ⟨0, 1⟩ (onlyCode (k.installDirectory pid path)).1 (k.installDirectory pid path).2 := by
  unfold installDirectory
  simp only
  cases hfree : k.freeFd pid with
  | none =>
    exact .refused (few_of_none (freeFd_none hfree) Nat.one_pos) (k.fdsKept_touch pid)
  | some fd =>
    exact .one (freeFd_some hfree) (congrArg Process.fdTable (k.process_installFd pid fd
      (.directory (k.vfs.dirAnchor path).1 (k.vfs.dirAnchor path).2 path)))

/-- A new description given back leaves the descriptions as they were. -/
theorem fdsKept_dropNewOfd (h : k.Stocked) (pid : Pid) (mountId : MountId) (inode : Inode)
    (writable : Bool) :
    k.FdsKept pid (((k.createOfd mountId inode writable).2.touch pid).ofdDecRef k.nextOfdId) := by
  have hnew : ((k.createOfd mountId inode writable).2.touch pid).ofds.get? k.nextOfdId =
      some ⟨mountId, inode, 0, 1, writable, 0⟩ := get?_insert_self _ _ _
  have herase : ((k.createOfd mountId inode writable).2.touch pid).ofds.erase k.nextOfdId = k.ofds :=
    erase_insert (h.ofd_fresh _ le_rfl)
  rw [ofdDecRef, hnew]
  exact .of_record (process_touch _ pid) rfl herase rfl

theorem grantsFds_installFile (h : k.Stocked) (pid : Pid) (mountId : MountId) (inode : Inode)
    (writable : Bool) : k.GrantsFds pid ⟨0, 1⟩ (onlyCode (k.installFile pid mountId inode writable)).1
      (k.installFile pid mountId inode writable).2 := by
  have hrecord : (k.createOfd mountId inode writable).2.process pid = k.process pid := rfl
  unfold installFile
  simp only [freeFd_congr hrecord]
  cases hfree : k.freeFd pid with
  | none =>
    exact .refused (few_of_none (freeFd_none hfree) Nat.one_pos)
      (fdsKept_dropNewOfd h pid mountId inode writable)
  | some fd =>
    exact .one (freeFd_some hfree)
      (congrArg Process.fdTable (process_installFd _ pid fd (.file k.nextOfdId)))

/-- `open` fails, or installs a directory, or installs a file. -/
theorem openResolved_cases (k : Kernel σ) (pid : Pid) (flags : Nat) (path : Bytes) :
    (k.opens kh flags path = false ∧ ∃ rc vfs host,
      k.openResolved kh pid flags path = (rc, { k with vfs := vfs, host := host })) ∨
    (k.opens kh flags path = true ∧ k.openResolved kh pid flags path = k.installDirectory pid path) ∨
    (k.opens kh flags path = true ∧ ∃ vfs host mountId inode, k.openResolved kh pid flags path =
      { k with vfs := vfs, host := host }.installFile pid mountId inode (flags.testBit 0)) := by
  unfold opens openResolved
  simp only
  by_cases hexcl : (flags.testBit 4 && flags.testBit 1 && k.vfs.entryType path ≠ unknownType) = true
  · simp only [if_pos hexcl]
    exact .inl ⟨trivial, _, k.vfs, k.host, rfl⟩
  by_cases hdir : (flags.testBit 3 && k.vfs.entryType path ≠ directoryType) = true
  · simp only [if_neg hexcl, if_pos hdir]
    exact .inl ⟨trivial, _, k.vfs, k.host, rfl⟩
  simp only [if_neg hexcl, if_neg hdir]
  split
  · cases hwrite : flags.testBit 0 || flags.testBit 1 || flags.testBit 2 with
    | true => exact .inl ⟨rfl, _, k.vfs, k.host, rfl⟩
    | false => exact .inr (.inl ⟨rfl, rfl⟩)
  generalize k.vfs.openResult kh k.host path flags = r
  obtain ⟨err | ⟨mountId, inode⟩, vfs, host⟩ := r
  · refine .inl ⟨rfl, ?_⟩
    simp only
    split_ifs <;> exact ⟨_, vfs, host, rfl⟩
  · exact .inr (.inr ⟨rfl, _, host, mountId, inode, rfl⟩)

/-- The law for what follows the resolution of a path. -/
def OpensFd (k : Kernel σ) (pid : Pid) (opens : Bool) (r : Int × Kernel σ) : Prop :=
  if opens then k.GrantsFds pid ⟨0, 1⟩ (.code r.1) r.2 else ∀ fd, r.2.fdEntry pid fd = k.fdEntry pid fd

theorem opensFd_openResolved (h : k.Stocked) (pid : Pid) (flags : Nat)
    (path : Bytes) : k.OpensFd pid (k.opens kh flags path) (k.openResolved kh pid flags path) := by
  rcases k.openResolved_cases kh pid flags path with ⟨hno, rc, vfs, host, hr⟩ | ⟨hyes, hr⟩ |
    ⟨hyes, vfs, host, mountId, inode, hr⟩
  · rw [hno, hr]
    exact fun _ => rfl
  · rw [hyes, hr]
    exact k.grantsFds_installDirectory pid path
  · rw [hyes, hr]
    obtain ⟨hlowest, hclear, hrefused, hundone⟩ :=
      grantsFds_installFile (k := { k with vfs := vfs, host := host }) h pid mountId inode
        (flags.testBit 0)
    refine ⟨hlowest, hclear, hrefused, fun hrc => ?_⟩
    obtain ⟨hentries, hflags, hpipes, hofds, hpending⟩ := hundone hrc
    exact ⟨hentries, hflags, hpipes, hofds, hpending⟩

theorem Looked.opensFd {opens : Bool} (h : k.Looked k') (hopens : k'.OpensFd pid opens r) :
    k.OpensFd pid opens r := by
  cases opens with
  | true => exact h.grantsFds hopens
  | false => exact fun fd => (hopens fd).trans ((h.fdsKept pid).entries fd)

theorem opensFd_sysOpen (h : k.Stocked) (pid : Pid) (request : Bytes) :
    k.OpensFd pid (k.openable kh pid request) (k.sysOpen kh pid request) := by
  unfold openable sysOpen openAt
  by_cases hlen : request.length < 4
  · rw [decide_eq_false (not_le.mpr hlen), if_pos hlen]
    exact fun _ => rfl
  cases hempty : (request.drop 4).isEmpty with
  | true =>
    rw [if_neg hlen, if_pos rfl, Bool.not_true, Bool.and_false, Bool.false_and]
    exact fun _ => rfl
  | false =>
    rw [decide_eq_true (not_lt.mp hlen), if_neg hlen, if_neg Bool.false_ne_true]
    have hlook := (k.glances_resolveReadable pid (request.drop 4) true).looked
    generalize k.resolveReadable pid (request.drop 4) true = r at hlook ⊢
    obtain ⟨rc | path, k'⟩ := r
    · exact fun fd => (hlook.fdsKept pid).entries fd
    · exact hlook.opensFd (opensFd_openResolved kh (hlook.stocked h) pid _ path)

theorem opensFd_sysOpenat (h : k.Stocked) (pid : Pid) (request : Bytes) :
    k.OpensFd pid (k.openableAt kh pid request) (k.sysOpenat kh pid request) := by
  unfold openableAt sysOpenat atPath
  by_cases hlen : request.length < 8
  · rw [decide_eq_false (not_le.mpr hlen), if_pos hlen]
    exact fun _ => rfl
  cases hempty : (request.drop 8).isEmpty with
  | true =>
    rw [if_neg hlen, if_pos rfl, Bool.not_true, Bool.and_false, Bool.false_and]
    exact fun _ => rfl
  | false =>
    rw [decide_eq_true (not_lt.mp hlen), if_neg hlen, if_neg Bool.false_ne_true]
    have hlook := (k.glances_resolveAt pid (u32At request 0) (request.drop 8)).looked
    generalize k.resolveAt pid (u32At request 0) (request.drop 8) = r at hlook ⊢
    obtain ⟨rc | path, k'⟩ := r
    · exact fun fd => (hlook.fdsKept pid).entries fd
    · exact hlook.opensFd (opensFd_sysOpen kh (hlook.stocked h) pid _)

theorem OpensFd.law {opens : Bool} (h : k.OpensFd pid opens r) :
    match if opens then some (⟨0, 1⟩ : FdDemand) else none with
    | some d => k.GrantsFds pid d (.code r.1) r.2
    | none => ∀ fd, r.2.fdEntry pid fd = k.fdEntry pid fd := by
  cases opens with
  | true | false => exact h

end Kernel

/-! ### Every reachable kernel -/

/-- Kernels reached from an empty one by calls, by changes of limits, and by whatever else leaves the
    tables of pipes, descriptions and sockets alone. -/
inductive Kernel.Reachable (kh : Kh σ) (host : σ) : Kernel σ → Prop
  | new : Reachable kh host (Kernel.new host)
  | call {k : Kernel σ} (h : Reachable kh host k) (call : KernelCall) : Reachable kh host (call.step kh k)
  | setrlimit {k : Kernel σ} (h : Reachable kh host k) (caller : Pid) (request : Bytes) :
    Reachable kh host (k.setrlimit caller request).2
  | elsewhere {k k' : Kernel σ} (h : Reachable kh host k) (hpipes : k'.pipes = k.pipes)
    (hnextPipe : k'.nextPipeId = k.nextPipeId) (hofds : k'.ofds = k.ofds)
    (hnextOfd : k'.nextOfdId = k.nextOfdId) (hsockets : k'.sockets = k.sockets)
    (hnextSocket : k'.nextSocketId = k.nextSocketId) : Reachable kh host k'

theorem Kernel.Stocked.setrlimit (h : k.Stocked) (caller : Pid) :
    (k.setrlimit caller request).2.Stocked := by
  unfold Kernel.setrlimit
  refine ite_keeps (P := Stocked) h ?_
  simp only
  split_ifs with hslot
  · exact h
  · split
    · exact h
    · exact ite_keeps (P := Stocked) h h
  · exact h

theorem Kernel.Reachable.stocked {kh : Kh σ} (h : Kernel.Reachable kh host k) : k.Stocked := by
  induction h with
  | new => exact stocked_new host
  | call _ call ih => exact call.stocked kh ih
  | setrlimit _ caller request ih => exact ih.setrlimit caller
  | elsewhere _ hpipes hnextPipe hofds hnextOfd hsockets hnextSocket ih =>
    rw [Stocked, StockedBut, hpipes, hnextPipe, hofds, hnextOfd, hsockets, hnextSocket]
    exact ih

/-- In every reachable kernel and under every limit, a call that opens descriptors obeys the law, but
    for a `dup` that finds no number and a count at its ceiling. -/
theorem descriptors_lowest_free_iff (host : σ) (hk : Kernel.Reachable kh host k)
    (pid : Pid) (call : SysCall) (hcall : call.allocates k pid = true) :
    call.FdLaw kh k pid ↔ ¬ call.DupsStuck k pid := by
  have hstock := hk.stocked
  -- the ceiling is met by `dup` alone
  cases call with
  | dup request => exact SysCall.fdLaw_dup kh hstock request
  | dupMin request => exact iff_of_true (SysCall.fdLaw_dupMin kh k pid request) not_false
  | pipe cap => exact iff_of_true (SysCall.fdLaw_pipe kh hstock cap) not_false
  | socketpair request cap =>
    exact iff_of_true (SysCall.fdLaw_socketpair kh hstock request cap) not_false
  | accept request => exact iff_of_true (SysCall.fdLaw_accept kh k pid request hcall) not_false
  | path call =>
    cases call with
    | openPath request => exact iff_of_true (opensFd_sysOpen kh hstock pid request).law not_false
    | openat request => exact iff_of_true (opensFd_sysOpenat kh hstock pid request).law not_false
    | _ => cases hcall
  | _ => cases hcall

/-- Three descriptors are open, the limit is two: `pipe` is refused and nothing is left of it. -/
theorem descriptors_lowest_free_iff_loweredLimit : SysCall.FdLaw Kh.absent
      ((Kernel.new ()).setrlimit 1 (leBytes 4 7 ++ leBytes 8 2 ++ leBytes 8 1024)).2 1 (.pipe 8) :=
  (descriptors_lowest_free_iff Kh.absent () (.setrlimit .new 1 _) 1 (.pipe 8) rfl).mpr not_false

/-! ### A count at its ceiling -/

theorem Kernel.Reachable.run {kh : Kh σ} (h : Kernel.Reachable kh host k) (calls : List KernelCall) :
    Kernel.Reachable kh host (Run.run (KernelCall.step kh) k calls) := by
  induction calls generalizing k with
  | nil => exact h
  | cons call calls ih => exact ih (h.call call)

/-- Whatever the calls, nothing is kept without a reference, and no number to come is in use. -/
theorem objects_stay_stocked (kh : Kh σ) (host : σ) (calls : List KernelCall) :
    (Run.run (KernelCall.step kh) (Kernel.new host) calls).Stocked :=
  (Reachable.new.run calls).stocked

/-- A pipe at 3 and 4, and a socket pair at 5 and 6 whose end 5 has its write half shut down. -/
def shutPair : List KernelCall :=
  [.sys 1 (.pipe 8), .sys 1 (.socketpair ([1, 1, 0, 0] ++ leBytes 4 0) 8),
    .sys 1 (.shutdown (leBytes 4 5 ++ leBytes 4 1))]

/-- The same, with the limit lowered to what is open. -/
def tightTable : Kernel Unit :=
  ((Run.run (KernelCall.step Kh.absent) (Kernel.new ()) shutPair).setrlimit 1
    (leBytes 4 7 ++ leBytes 8 7 ++ leBytes 8 1024)).2

/-- A message on the shut-down end with the read end of the pipe in it. -/
def sendReadEnd : KernelCall :=
  .sys 1 (.sendmsg (leBytes 4 5 ++ leBytes 4 1 ++ leBytes 4 1 ++ [65] ++ leBytes 4 3))

/-- What the messages leave alone, and the count they raise. -/
structure SentTimes (count : Nat) (k : Kernel Unit) : Prop where
  record : k.process 1 = tightTable.process 1
  sockets : k.sockets = tightTable.sockets
  shut : k.socketShutdown = tightTable.socketShutdown
  pipe : k.pipes.get? 1 = some ⟨[], count, 1⟩

theorem SentTimes.fdEntry {k : Kernel Unit} (h : SentTimes count k) (fd : Nat) :
    k.fdEntry 1 fd = tightTable.fdEntry 1 fd := by
  rw [Kernel.fdEntry, h.record, Kernel.fdEntry]

theorem SentTimes.socketIdForFd {k : Kernel Unit} (h : SentTimes count k) :
    k.socketIdForFd 1 5 = .ok 1 := by
  rw [Kernel.socketIdForFd, h.fdEntry, h.sockets]
  decide

/-- The send fails and keeps the reference it took. -/
theorem step_sendReadEnd {k : Kernel Unit} (hfd : k.fdEntry 1 3 = some e)
    (hsocket : ((k.touch 1).incFdEntryRef e).socketIdForFd 1 5 = .ok id)
    (hshut : (((k.touch 1).incFdEntryRef e).touch 1).writeShut id = true) :
    sendReadEnd.step Kh.absent k = ((k.touch 1).incFdEntryRef e).touch 1 := by
  have hclone : cloneFdRights 1 [3] [] k = (.ok [e], (k.touch 1).incFdEntryRef e) := by
    simp only [cloneFdRights, hfd, List.nil_append]
  have hargs : ∀ request, request = leBytes 4 5 ++ leBytes 4 1 ++ leBytes 4 1 ++ [65] ++ leBytes 4 3 →
      u32At request 0 = 5 ∧ u32At request 4 = 1 ∧ u32At request 8 = 1 ∧
        words 1 (request.drop (12 + 1)) = [3] := by
    rintro _ rfl
    decide
  obtain ⟨hend, hlen, hcount, hfds⟩ := hargs _ rfl
  simp only [sendReadEnd, KernelCall.step, SysCall.run, onlyCode, sysSocketSendmsg, hend, hlen, hcount]
  rw [if_neg (by decide), if_neg (by decide), hfds, hclone]
  simp only [hsocket, socketSendmsgId, hshut, if_true]

theorem SentTimes.step {k : Kernel Unit} (h : SentTimes count k) :
    SentTimes (satAdd count 1) (sendReadEnd.step Kh.absent k) := by
  have hsent : SentTimes (satAdd count 1)
      (((k.touch 1).incFdEntryRef (.pipe 1 .read)).touch 1) := by
    refine ⟨?_, h.sockets, h.shut, ?_⟩
    · rw [process_touch, k.process_incTouch, h.record]
    · have hraised : (k.pipes.modify 1 (fun b => b.incRef .read)).get? 1 =
          some ⟨[], satAdd count 1, 1⟩ := by
        rw [get?_modify, if_pos rfl, h.pipe]
        rfl
      exact hraised
  have hfd : k.fdEntry 1 3 = some (.pipe 1 .read) := (h.fdEntry 3).trans (by decide)
  have hshut : (((k.touch 1).incFdEntryRef (.pipe 1 .read)).touch 1).writeShut 1 = true := by
    rw [Kernel.writeShut, socketShutdownBits, hsent.shut]
    decide
  have hsocket : ((k.touch 1).incFdEntryRef (.pipe 1 .read)).socketIdForFd 1 5 = .ok 1 := by
    have hsocket := hsent.socketIdForFd
    rwa [Kernel.socketIdForFd, fdEntry_touch] at hsocket
  rw [step_sendReadEnd hfd hsocket hshut]
  exact hsent

/-- The count rises with every message and sticks at its ceiling. -/
theorem SentTimes.run {k : Kernel Unit} (h : SentTimes count k) (hle : count ≤ u32Max) (n : Nat) :
    SentTimes (min (count + n) u32Max)
      (Run.run (KernelCall.step Kh.absent) k (List.replicate n sendReadEnd)) := by
  induction n generalizing count k with
  | zero =>
    rw [Nat.add_zero, Nat.min_eq_left hle]
    exact h
  | succ n ih =>
    have hrest := ih h.step (Nat.min_le_right _ _)
    have hcount : min (satAdd count 1 + n) u32Max = min (count + (n + 1)) u32Max := by
      unfold satAdd
      omega
    rw [hcount] at hrest
    rwa [List.replicate_succ, Run.run_cons]

/-- What a failed `dup` of the read end does to a count at its ceiling. -/
theorem SentTimes.dup {k : Kernel Unit} (h : SentTimes u32Max k) :
    k.counter (.pipe 1 .read) = u32Max ∧ (k.dupFd Kh.absent 1 (leBytes 4 3)).1 = -EMFILE ∧
      (k.dupFd Kh.absent 1 (leBytes 4 3)).2.counter (.pipe 1 .read) = u32Max - 1 ∧
      SysCall.DupsStuck k 1 (.dup (leBytes 4 3)) := by
  have hfd : k.fdEntry 1 3 = some (.pipe 1 .read) := (h.fdEntry 3).trans (by decide)
  have hfree : k.freeFd 1 = none := (freeFd_congr h.record).trans (by decide)
  have hcount : k.counter (.pipe 1 .read) = u32Max := by
    rw [k.counter_pipe, h.pipe]
    rfl
  have hdup : k.dupFd Kh.absent 1 (leBytes 4 3) = (-EMFILE,
      ((k.touch 1).incFdEntryRef (.pipe 1 .read)).decFdEntryRef Kh.absent (.pipe 1 .read)) := by
    have hargs : readU32Args 1 (leBytes 4 3) = some [3] := by decide
    have hsame : ((k.touch 1).incFdEntryRef (.pipe 1 .read)).freeFd 1 = none :=
      (freeFd_congr (k.process_incTouch 1 _)).trans hfree
    simp only [dupFd, hargs, hfd, hsame]
  rw [hdup]
  refine ⟨hcount, rfl, ?_, by decide, freeFd_none hfree, .pipe 1 .read, ?_, rfl, hcount.ge⟩
  · have hinc : ((k.touch 1).pipeIncRef 1 .read).pipes.get? 1 = some ⟨[], satAdd u32Max 1, 1⟩ := by
      rw [pipeIncRef, get?_modify, if_pos rfl]
      exact congrArg (Option.map fun b => PipeBuf.incRef b .read) h.pipe
    rw [counter_pipe, incFdEntryRef, decFdEntryRef, pipeDecRef, hinc]
    simp only
    split_ifs with hzero
    · exact absurd hzero.2 (by decide)
    · rw [get?_insert_self]
      decide
  · exact hfd

/-- The read end has the highest count there is, and a `dup` of it that finds no descriptor takes one
    off. -/
def DupTakesOneOff (k : Kernel Unit) : Prop :=
  Kernel.Reachable Kh.absent () k ∧ k.counter (.pipe 1 .read) = u32Max ∧
    (k.dupFd Kh.absent 1 (leBytes 4 3)).1 = -EMFILE ∧
    (k.dupFd Kh.absent 1 (leBytes 4 3)).2.counter (.pipe 1 .read) = u32Max - 1 ∧
    ¬ SysCall.FdLaw Kh.absent k 1 (.dup (leBytes 4 3))

theorem dupTakesOneOff_sent {n : Nat} (hn : 1 + n = u32Max) : DupTakesOneOff
    (Run.run (KernelCall.step Kh.absent) tightTable (List.replicate n sendReadEnd)) := by
  have hnew : Reachable Kh.absent () (new ()) := .new
  have hreach := ((hnew.run shutPair).setrlimit 1
    (leBytes 4 7 ++ leBytes 8 7 ++ leBytes 8 1024)).run (List.replicate n sendReadEnd)
  have hstart : SentTimes 1 tightTable := ⟨rfl, rfl, rfl, by decide⟩
  have hsent := hstart.run (by decide) n
  rw [hn, Nat.min_self] at hsent
  obtain ⟨hcount, hrc, hlow, hstuck⟩ := hsent.dup
  exact ⟨hreach, hcount, hrc, hlow, fun hlaw =>
    (SysCall.fdLaw_dup Kh.absent hreach.stocked (leBytes 4 3)).mp hlaw hstuck⟩

/-- 2^32 - 2 messages are enough. -/
theorem failed_dup_lowers_count : DupTakesOneOff
    (Run.run (KernelCall.step Kh.absent) tightTable (List.replicate (u32Max - 1) sendReadEnd)) :=
  dupTakesOneOff_sent (by decide)

end Yurt
