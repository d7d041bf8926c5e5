import YurtKernel.Kernel.Socket

/-! The reference ledger.

    Pipe ends, open file descriptions and sockets carry a count. The references counted are the fd
    entries in the tables of the processes, the entries of queued `SCM_RIGHTS` lists, and the
    connections waiting at a listener. `RefView` is what of a kernel the counting depends on, and
    `RefView.Ledger es` says that every count is the number of its holders once the references `es`,
    which a call has in its hands, are added. The ledger is kept by moving entries in and out of
    `es`: taking a reference adds one, storing it in a table or a queue removes it, and so does
    dropping it. -/

namespace Yurt
open SortedMap
variable {σ : Type}
variable {s s' : SocketRefs} {id id' : Nat} {o : Option SocketRefs} {v' : RefView} {ps : List Nat}

/-! ### Holders -/

/-- Entries that name a counted object. -/
def FdEntry.counted : FdEntry → Bool
  | .pipe _ _ | .file _ | .socket _ => true
  | _ => false

/-- Connections waiting at a listener. -/
def SocketKind.pending : SocketKind → List Nat
  | .unixListener _ _ pending => pending
  | _ => []

/-- Entries of the queued `SCM_RIGHTS` lists. -/
def SocketKind.rights : SocketKind → List FdEntry
  | .unixStream _ _ _ _ rights _ _ => rights.flatten
  | .unixDatagram _ _ _ _ rights _ => rights.flatten
  | _ => []

def SocketKind.isStream : SocketKind → Bool
  | .unixStream _ _ _ _ _ _ _ => true
  | _ => false

theorem SocketKind.pending_of_isStream {kind : SocketKind} (h : kind.isStream = true) :
    kind.pending = [] := by
  cases kind with
  | unixStream => rfl
  | _ => cases h

/-- What the ledger sees of a socket. Nothing waits at a stream. -/
structure SocketRefs where
  refs : Nat
  pending : List Nat
  rights : List FdEntry
  stream : Bool
  idle : stream = true → pending = []

def SocketEntry.refsView (s : SocketEntry) : SocketRefs :=
  ⟨s.refs, s.kind.pending, s.kind.rights, s.kind.isStream, SocketKind.pending_of_isStream⟩

/-- References the socket itself holds. -/
def SocketRefs.queued (s : SocketRefs) : List FdEntry := s.pending.map .socket ++ s.rights

/-- What the ledger sees of a kernel. -/
structure RefView where
  pipes : SortedMap Nat (Nat × Nat)
  ofds : SortedMap Nat Nat
  sockets : SortedMap Nat SocketRefs
  nextPipe : Nat
  nextOfd : Nat
  nextSocket : Nat
  tables : FdEntry → Nat

/-- Entries equal to `e` in the descriptor tables of all processes. -/
def Kernel.tableCount (k : Kernel σ) (e : FdEntry) : Nat :=
  k.processes.sum (fun _ p => p.fdTable.entries.values.count e)

def Kernel.refView (k : Kernel σ) : RefView where
  pipes := k.pipes.mapValues (fun _ b => (b.readEnds, b.writeEnds))
  ofds := k.ofds.mapValues (fun _ o => o.refs)
  sockets := k.sockets.mapValues (fun _ s => s.refsView)
  nextPipe := k.nextPipeId
  nextOfd := k.nextOfdId
  nextSocket := k.nextSocketId
  tables e := if e.counted then k.tableCount e else 0

/-! ### Counts -/

/-- Count of one end in a pipe's pair of counts. -/
def endCount : Option (Nat × Nat) → PipeEnd → Nat
  | none, _ => 0
  | some p, .read => p.1
  | some p, .write => p.2

namespace RefView

/-- The count an entry's object carries for it. -/
def counter (v : RefView) : FdEntry → Nat
  | .pipe id side => endCount (v.pipes.get? id) side
  | .file id => (v.ofds.get? id).getD 0
  | .socket id => ((v.sockets.get? id).map SocketRefs.refs).getD 0
  | _ => 0

def queued (v : RefView) (e : FdEntry) : Nat := v.sockets.sum (fun _ s => s.queued.count e)

def holders (v : RefView) (e : FdEntry) : Nat := v.tables e + v.queued e

/-- Every count is the number of holders, the references in `es` included. -/
structure Ledger (v : RefView) (es : List FdEntry) : Prop where
  exact : ∀ e, e.counted = true → v.counter e = v.holders e + es.count e
  pipe_pos : ∀ id p, v.pipes.get? id = some p → 0 < p.1 + p.2
  ofd_pos : ∀ id n, v.ofds.get? id = some n → 0 < n
  socket_pos : ∀ id s, v.sockets.get? id = some s → 0 < s.refs
  pipe_fresh : ∀ id, v.nextPipe ≤ id → v.pipes.get? id = none
  ofd_fresh : ∀ id, v.nextOfd ≤ id → v.ofds.get? id = none
  socket_fresh : ∀ id, v.nextSocket ≤ id → v.sockets.get? id = none
  pending_stream : ∀ l s p q, v.sockets.get? l = some s → p ∈ s.pending →
    v.sockets.get? p = some q → q.stream = true

variable {v : RefView} {es es' : List FdEntry} {e : FdEntry}

/-- Only the counted entries in flight matter. -/
theorem Ledger.congr (h : v.Ledger es) (hes : ∀ e, e.counted = true → es'.count e = es.count e) :
    v.Ledger es' :=
  { h with exact := fun e he => by rw [h.exact e he, hes e he] }

theorem Ledger.perm (h : v.Ledger es) (hes : es.Perm es') : v.Ledger es' :=
  h.congr (fun e _ => (hes.count_eq e).symm)

theorem Ledger.pipes (h : v.Ledger es) : Shelf v.pipes v.nextPipe (fun _ p => 0 < p.1 + p.2) :=
  ⟨h.pipe_pos, h.pipe_fresh⟩

theorem Ledger.ofds (h : v.Ledger es) : Shelf v.ofds v.nextOfd (fun _ n => 0 < n) := ⟨h.ofd_pos, h.ofd_fresh⟩

theorem Ledger.sockets (h : v.Ledger es) : Shelf v.sockets v.nextSocket (fun _ s => 0 < s.refs) :=
  ⟨h.socket_pos, h.socket_fresh⟩

/-! ### Changing one object -/

section
variable (v : RefView) (id : Nat)

def setPipe (o : Option (Nat × Nat)) : RefView :=
  { v with pipes := v.pipes.put id o }

def setOfd (o : Option Nat) : RefView := { v with ofds := v.ofds.put id o }

def setSocket (o : Option SocketRefs) : RefView :=
  { v with sockets := v.sockets.put id o }

end

/-- Changing a pipe's counts by what enters or leaves the references in flight. -/
theorem Ledger.setPipe (h : v.Ledger es) {o : Option (Nat × Nat)}
    (hid : id < v.nextPipe) (hpos : ∀ p, o = some p → 0 < p.1 + p.2)
    (hside : ∀ side, endCount o side + es.count (.pipe id side) =
      endCount (v.pipes.get? id) side + es'.count (.pipe id side))
    (hrest : ∀ e, (∀ side, e ≠ .pipe id side) → es'.count e = es.count e) :
    (v.setPipe id o).Ledger es' := by
  have hpipes := h.pipes.put hid hpos
  refine { h with exact := fun e he => ?_, pipe_pos := hpipes.live, pipe_fresh := hpipes.fresh }
  have hexact := h.exact e he
  by_cases hpipe : ∃ side, e = .pipe id side
  · obtain ⟨side, rfl⟩ := hpipe
    have := hside side
    simp only [counter, RefView.setPipe, get?_put, if_pos, holders, queued] at hexact ⊢
    omega
  · have hne : ∀ side, e ≠ .pipe id side := fun side hs => hpipe ⟨side, hs⟩
    have hcounter : (v.setPipe id o).counter e = v.counter e := by
      cases e with
      | pipe i side =>
        have hi : i ≠ id := fun hi => hne side (hi ▸ rfl)
        simp [counter, RefView.setPipe, hi]
      | _ => rfl
    rw [hcounter, hrest e hne]
    exact hexact

theorem Ledger.setOfd (h : v.Ledger es) {o : Option Nat} (hid : id < v.nextOfd)
    (hpos : ∀ n, o = some n → 0 < n)
    (hcount : o.getD 0 + es.count (.file id) = (v.ofds.get? id).getD 0 + es'.count (.file id))
    (hrest : ∀ e, e ≠ .file id → es'.count e = es.count e) : (v.setOfd id o).Ledger es' := by
  have hofds := h.ofds.put hid hpos
  refine { h with exact := fun e he => ?_, ofd_pos := hofds.live, ofd_fresh := hofds.fresh }
  have hexact := h.exact e he
  by_cases hfile : e = .file id
  · subst hfile
    simp only [counter, RefView.setOfd, get?_put, if_pos, holders, queued] at hexact ⊢
    omega
  · have hcounter : (v.setOfd id o).counter e = v.counter e := by
      cases e with
      | file i =>
        have hi : i ≠ id := fun hi => hfile (hi ▸ rfl)
        simp [counter, RefView.setOfd, hi]
      | _ => rfl
    rw [hcounter, hrest e hfile]
    exact hexact

/-- References a socket counts and holds, as the ledger reads an entry that may be missing. -/
def refsOf (o : Option SocketRefs) : Nat := (o.map SocketRefs.refs).getD 0

def queuedOf (o : Option SocketRefs) : List FdEntry := (o.map SocketRefs.queued).getD []

section
variable (v : RefView) (id : Nat) (o : Option SocketRefs) (e : FdEntry)

theorem queued_setSocket :
    (v.setSocket id o).queued e + (queuedOf (v.sockets.get? id)).count e =
      v.queued e + (queuedOf o).count e := by
  have h := sum_put v.sockets id o (fun _ s => s.queued.count e)
  have hold : v.sockets.weight (fun _ s => s.queued.count e) id =
      (queuedOf (v.sockets.get? id)).count e := by
    cases hs : v.sockets.get? id with
    | none => rw [weight_none _ hs]; rfl
    | some s => rw [weight_some _ hs]; rfl
  have hnew : (o.map (fun s => s.queued.count e)).getD 0 = (queuedOf o).count e := by
    cases o <;> rfl
  rw [hold, hnew] at h
  exact h

@[simp] theorem get?_setSocket (id' : Nat) :
    (v.setSocket id o).sockets.get? id' = if id' = id then o else v.sockets.get? id' :=
  get?_put _ _ _ _

theorem counter_setSocket :
    (v.setSocket id o).counter e = if e = .socket id then refsOf o else v.counter e := by
  cases e with
  | socket i =>
    rw [counter, get?_setSocket]
    by_cases hi : i = id
    · rw [if_pos hi, if_pos (congrArg _ hi), refsOf]
    · rw [if_neg hi, if_neg (fun h => hi (FdEntry.socket.inj h)), counter]
  | _ => rfl

end

/-- Changing a socket's count and queues by what enters or leaves the references in flight. -/
theorem Ledger.setSocket (h : v.Ledger es)
    (hid : id < v.nextSocket) (hpos : ∀ s, o = some s → 0 < s.refs)
    (hcount : ∀ e, e.counted = true →
      (if e = .socket id then refsOf o else 0) + (queuedOf (v.sockets.get? id)).count e +
        es.count e =
      (if e = .socket id then refsOf (v.sockets.get? id) else 0) + (queuedOf o).count e +
        es'.count e)
    (hpending : ∀ l s p q, (v.setSocket id o).sockets.get? l = some s → p ∈ s.pending →
      (v.setSocket id o).sockets.get? p = some q → q.stream = true) :
    (v.setSocket id o).Ledger es' := by
  have hsockets := h.sockets.put hid hpos
  refine { h with
    exact := fun e he => ?_
    socket_pos := hsockets.live
    socket_fresh := hsockets.fresh
    pending_stream := hpending }
  have hexact := h.exact e he
  have hsum := queued_setSocket v id o e
  have hc := hcount e he
  have htables : (v.setSocket id o).tables = v.tables := rfl
  rw [counter_setSocket, holders, htables]
  rw [holders] at hexact
  split_ifs at hc ⊢ with hsock
  · have hold : v.counter e = refsOf (v.sockets.get? id) := by rw [hsock]; rfl
    omega
  · omega

/-- Raising the counters that fresh ids come from. -/
theorem Ledger.raise (h : v.Ledger es) {pipe ofd socket : Nat} (hpipe : v.nextPipe ≤ pipe)
    (hofd : v.nextOfd ≤ ofd) (hsocket : v.nextSocket ≤ socket) :
    { v with nextPipe := pipe, nextOfd := ofd, nextSocket := socket : RefView }.Ledger es where
  exact := fun e he => by cases e <;> exact h.exact _ he
  pipe_pos := h.pipe_pos
  ofd_pos := h.ofd_pos
  socket_pos := h.socket_pos
  pipe_fresh := fun id hid => h.pipe_fresh id (hpipe.trans hid)
  ofd_fresh := fun id hid => h.ofd_fresh id (hofd.trans hid)
  socket_fresh := fun id hid => h.socket_fresh id (hsocket.trans hid)
  pending_stream := h.pending_stream

/-- Moving references between the tables and the hands of a call. -/
theorem Ledger.setTables (h : v.Ledger es) {tables : FdEntry → Nat}
    (hcount : ∀ e, e.counted = true → tables e + es'.count e = v.tables e + es.count e) :
    { v with tables := tables : RefView }.Ledger es' := by
  refine { h with exact := ?_ }
  intro e he
  have hexact := h.exact e he
  have hc := hcount e he
  have hcounter : { v with tables := tables : RefView }.counter e = v.counter e := by
    cases e <;> rfl
  have hqueued : { v with tables := tables : RefView }.queued e = v.queued e := rfl
  rw [hcounter, holders, hqueued]
  rw [holders] at hexact
  change _ = tables e + _ + _
  omega

/-! ### Dropping references in the view -/

/-- A pipe's counts with one reference to `side` less; gone when neither end is left. -/
def lessEnd (p : Nat × Nat) (side : PipeEnd) : Option (Nat × Nat) :=
  let p := match side with
    | .read => (p.1 - 1, p.2)
    | .write => (p.1, p.2 - 1)
  if p.1 = 0 ∧ p.2 = 0 then none else some p

/-- A socket with one reference less, gone when it was the last. -/
def lessRef (s : SocketRefs) : Option SocketRefs :=
  if s.refs - 1 = 0 then none else some { s with refs := s.refs - 1 }

section
variable (v : RefView)

/-- Drop a reference to a socket at which nothing waits. -/
def release (id : Nat) : RefView :=
  match v.sockets.get? id with
  | none => v
  | some s => v.setSocket id (lessRef s)

/-- Drop a reference to a socket; the last one to a listener drops those waiting at it. -/
def closeSocket (id : Nat) : RefView :=
  match v.sockets.get? id with
  | none => v
  | some s =>
    if s.refs - 1 = 0 then s.pending.foldl release (v.setSocket id none)
    else v.setSocket id (lessRef s)

/-- Drop the reference an entry stands for. -/
def close : FdEntry → RefView
  | .pipe id side =>
    match v.pipes.get? id with
    | none => v
    | some p => v.setPipe id (lessEnd p side)
  | .file id =>
    match v.ofds.get? id with
    | none => v
    | some n => v.setOfd id (if n - 1 = 0 then none else some (n - 1))
  | .socket id => v.closeSocket id
  | _ => v

/-- No counted rights are queued in the socket, nor in a connection waiting at it. -/
def Clean (id : Nat) : Prop :=
  ∀ s, v.sockets.get? id = some s → (∀ e ∈ s.rights, e.counted = false) ∧
    ∀ p ∈ s.pending, ∀ q, v.sockets.get? p = some q → ∀ e ∈ q.rights, e.counted = false

/-- Dropping the references `es` drops the last one of clean sockets only. -/
def SafeDrop (es : List FdEntry) : Prop :=
  ∀ id s, v.sockets.get? id = some s → s.refs ≤ es.count (.socket id) → v.Clean id

end

instance decidableClean (v : RefView) (id : Nat) : Decidable (v.Clean id) :=
  decidable_of_iff (∀ s ∈ (v.sockets.get? id).toList, (∀ e ∈ s.rights, e.counted = false) ∧
    ∀ p ∈ s.pending, ∀ q ∈ (v.sockets.get? p).toList, ∀ e ∈ q.rights, e.counted = false)
    (by simp only [Option.mem_toList, Clean])

instance decidableSafeDrop (v : RefView) (es : List FdEntry) : Decidable (v.SafeDrop es) :=
  decidable_of_iff (∀ x ∈ v.sockets.toList, x.2.refs ≤ es.count (.socket x.1) → v.Clean x.1)
    ⟨fun h id s hs => h (id, s) (mem_toList.mpr hs),
      fun h x hx => h x.1 x.2 (mem_toList.mp hx)⟩

theorem setSocket_setSocket (v : RefView) (id : Nat) (o o' : Option SocketRefs) :
    (v.setSocket id o).setSocket id o' = v.setSocket id o' := by
  simp only [setSocket, put_put]

theorem setSocket_comm (v : RefView) (h : id ≠ id') (o o' : Option SocketRefs) :
    (v.setSocket id o).setSocket id' o' = (v.setSocket id' o').setSocket id o := by
  simp only [setSocket, put_comm _ h]

theorem lessRef_spec (h : lessRef s = some s') :
    s'.refs = s.refs - 1 ∧ 0 < s'.refs ∧ s'.pending = s.pending ∧ s'.rights = s.rights ∧
      s'.stream = s.stream := by
  rw [lessRef] at h
  split_ifs at h with hlast
  cases h
  exact ⟨rfl, Nat.pos_of_ne_zero hlast, rfl, rfl, rfl⟩

/-- The sockets of `v'` are sockets of `v` with the same queues. -/
def SameQueues (v' v : RefView) : Prop :=
  ∀ id s', v'.sockets.get? id = some s' → ∃ s, v.sockets.get? id = some s ∧
    s'.pending = s.pending ∧ s'.rights = s.rights ∧ s'.stream = s.stream

theorem SameQueues.refl (v : RefView) : v.SameQueues v := fun _ s' h => ⟨s', h, rfl, rfl, rfl⟩

theorem SameQueues.trans {v v'' : RefView} (h₁ : v''.SameQueues v') (h₂ : v'.SameQueues v) :
    v''.SameQueues v := by
  intro id s'' hs''
  obtain ⟨s', hs', hp', hr', hst'⟩ := h₁ id s'' hs''
  obtain ⟨s, hs, hp, hr, hst⟩ := h₂ id s' hs'
  exact ⟨s, hs, hp'.trans hp, hr'.trans hr, hst'.trans hst⟩

theorem sameQueues_drop (v : RefView) (id : Nat) : (v.setSocket id none).SameQueues v := by
  intro i s' hs'
  rw [get?_setSocket] at hs'
  split_ifs at hs'
  exact ⟨s', hs', rfl, rfl, rfl⟩

theorem sameQueues_lessRef (hs : v.sockets.get? id = some s) :
    (v.setSocket id (lessRef s)).SameQueues v := by
  intro i s' hs'
  rw [get?_setSocket] at hs'
  split_ifs at hs' with hi
  · obtain ⟨-, -, hpend, hrights, hstream⟩ := lessRef_spec hs'
    exact ⟨s, hi ▸ hs, hpend, hrights, hstream⟩
  · exact ⟨s', hs', rfl, rfl, rfl⟩

theorem Clean.mono (h : v.Clean id) (hsub : v'.SameQueues v) : v'.Clean id := by
  intro s' hs'
  obtain ⟨s, hs, hpend, hrights, -⟩ := hsub id s' hs'
  obtain ⟨hown, hwait⟩ := h s hs
  refine ⟨hrights ▸ hown, ?_⟩
  intro p hp q' hq'
  obtain ⟨q, hq, -, hqrights, -⟩ := hsub p q' hq'
  rw [hqrights]
  exact hwait p (hpend ▸ hp) q hq

theorem Ledger.pending_of_sameQueues (h : v.Ledger es) (hsub : v'.SameQueues v) (l : Nat)
    (s' : SocketRefs) (p : Nat) (q' : SocketRefs) (hl : v'.sockets.get? l = some s')
    (hp : p ∈ s'.pending) (hq : v'.sockets.get? p = some q') : q'.stream = true := by
  obtain ⟨s, hs, hpend, -, -⟩ := hsub l s' hl
  obtain ⟨q, hq, -, -, hstream⟩ := hsub p q' hq
  rw [hstream]
  exact h.pending_stream l s p q hs (hpend ▸ hp) hq

/-- Dropping the last reference of a socket leaves what was queued there in nobody's hands. -/
theorem Ledger.dropSocket (h : v.Ledger (.socket id :: es)) (hs : v.sockets.get? id = some s)
    (hlast : s.refs - 1 = 0) :
    (v.setSocket id none).Ledger (s.queued ++ es) := by
  have hpos := h.socket_pos id s hs
  refine h.setSocket (h.sockets.lt hs) (by simp) ?_ ?_
  · intro e _
    simp only [hs, refsOf, queuedOf, Option.map_some, Option.getD_some, Option.map_none,
      Option.getD_none, List.count_nil, List.count_append]
    by_cases he : e = .socket id
    · subst he
      rw [if_pos rfl, if_pos rfl, List.count_cons_self]
      omega
    · rw [if_neg he, if_neg he, List.count_cons_of_ne (Ne.symm he)]
      omega
  · exact h.pending_of_sameQueues (sameQueues_drop v id)

/-- Dropping one of several references. -/
theorem Ledger.lowerSocket (h : v.Ledger (.socket id :: es)) (hs : v.sockets.get? id = some s)
    (hs' : lessRef s = some s') :
    (v.setSocket id (some s')).Ledger es := by
  obtain ⟨hrefs, hpos, hpend, hrights, -⟩ := lessRef_spec hs'
  refine h.setSocket (h.sockets.lt hs) ?_ ?_ ?_
  · intro _ hsome
    cases hsome
    exact hpos
  · intro e _
    simp only [hs, refsOf, queuedOf, Option.map_some, Option.getD_some, SocketRefs.queued, hpend, hrights]
    by_cases he : e = .socket id
    · subst he
      rw [if_pos rfl, if_pos rfl, List.count_cons_self]
      omega
    · rw [if_neg he, if_neg he, List.count_cons_of_ne (Ne.symm he)]
  · exact h.pending_of_sameQueues (hs' ▸ sameQueues_lessRef hs)

theorem count_append_of_uncounted {xs : List FdEntry} (hxs : ∀ e ∈ xs, e.counted = false)
    (he : e.counted = true) : (xs ++ es).count e = es.count e := by
  have hnot : e ∉ xs := fun hmem => by simp [hxs e hmem] at he
  rw [List.count_append, List.count_eq_zero_of_not_mem hnot, Nat.zero_add]

/-- Dropping a reference to a socket at which nothing waits and where no counted rights are queued
    if it was the last. -/
theorem Ledger.release (h : v.Ledger (.socket id :: es))
    (hclean : ∀ s, v.sockets.get? id = some s → s.pending = [] ∧
      (s.refs - 1 = 0 → ∀ e ∈ s.rights, e.counted = false)) : (v.release id).Ledger es := by
  unfold RefView.release
  cases hs : v.sockets.get? id with
  | none =>
    have hexact := h.exact (.socket id) rfl
    rw [counter, hs, List.count_cons_self] at hexact
    simp at hexact
  | some s =>
    obtain ⟨hpend, hrights⟩ := hclean s hs
    simp only
    by_cases hlast : s.refs - 1 = 0
    · rw [lessRef, if_pos hlast]
      refine (h.dropSocket hs hlast).congr (fun e he => ?_)
      rw [SocketRefs.queued, hpend, List.map_nil, List.nil_append,
        count_append_of_uncounted (hrights hlast) he]
    · obtain ⟨s', hs'⟩ : ∃ s', lessRef s = some s' := ⟨_, if_neg hlast⟩
      rw [hs']
      exact h.lowerSocket hs hs'

theorem sameQueues_release (v : RefView) (id : Nat) : (v.release id).SameQueues v := by
  unfold RefView.release
  cases hs : v.sockets.get? id with
  | none => exact SameQueues.refl v
  | some s => exact sameQueues_lessRef hs

theorem get?_release_ne (v : RefView) (h : id' ≠ id) :
    (v.release id).sockets.get? id' = v.sockets.get? id' := by
  unfold RefView.release
  cases v.sockets.get? id with
  | none => rfl
  | some s => rw [get?_setSocket, if_neg h]

theorem release_setSocket_comm (v : RefView) (h : id ≠ id') :
    (v.release id').setSocket id none = (v.setSocket id none).release id' := by
  simp only [RefView.release, get?_setSocket, if_neg (Ne.symm h)]
  cases v.sockets.get? id' with
  | none => rfl
  | some s => exact setSocket_comm v (Ne.symm h) _ _

theorem sameQueues_releases (ps : List Nat) (v : RefView) : (ps.foldl RefView.release v).SameQueues v :=
  List.foldlRecOn (motive := fun v' : RefView => v'.SameQueues v) ps _ (SameQueues.refl v)
    (fun v' h p _ => (sameQueues_release v' p).trans h)

theorem get?_releases_of_not_mem (h : id ∉ ps) (v : RefView) :
    (ps.foldl RefView.release v).sockets.get? id = v.sockets.get? id :=
  List.foldlRecOn (motive := fun v' : RefView => v'.sockets.get? id = _) ps _ rfl
    (fun v' hv' _ hp => (get?_release_ne v' (ne_of_mem_of_not_mem hp h).symm).trans hv')

/-- Dropping the connections that waited at a listener. -/
theorem Ledger.releases (h : v.Ledger (ps.map FdEntry.socket ++ es))
    (hclean : ∀ p ∈ ps, ∀ q, v.sockets.get? p = some q → q.stream = true ∧
      ∀ e ∈ q.rights, e.counted = false) : (ps.foldl RefView.release v).Ledger es := by
  induction ps generalizing v with
  | nil => exact h
  | cons p ps ih =>
    have hrelease : (v.release p).Ledger (ps.map FdEntry.socket ++ es) := by
      refine Ledger.release h (fun s hs => ?_)
      obtain ⟨hstream, hrights⟩ := hclean p (List.mem_cons_self ..) s hs
      exact ⟨s.idle hstream, fun _ => hrights⟩
    refine ih hrelease (fun p' hp' q' hq' => ?_)
    obtain ⟨q, hq, -, hrights, hstream⟩ := sameQueues_release v p p' q' hq'
    rw [hrights, hstream]
    exact hclean p' (List.mem_cons_of_mem _ hp') q hq

/-- Dropping a reference to a socket, clean if it was the last. -/
theorem Ledger.closeSocket (h : v.Ledger (.socket id :: es))
    (hclean : ∀ s, v.sockets.get? id = some s → s.refs - 1 = 0 → v.Clean id) :
    (v.closeSocket id).Ledger es := by
  unfold RefView.closeSocket
  cases hs : v.sockets.get? id with
  | none =>
    have hexact := h.exact (.socket id) rfl
    rw [counter, hs, List.count_cons_self] at hexact
    simp at hexact
  | some s =>
    simp only
    split
    · rename_i hlast
      obtain ⟨hown, hwait⟩ := hclean s hs hlast s hs
      have hpending : (v.setSocket id none).Ledger (s.pending.map FdEntry.socket ++ es) := by
        refine (h.dropSocket hs hlast).congr (fun e he => ?_)
        rw [SocketRefs.queued, List.append_assoc, List.count_append, List.count_append,
          count_append_of_uncounted hown he]
      refine hpending.releases (fun p hp q hq => ?_)
      obtain ⟨q', hq', -, hrights, hstream⟩ := sameQueues_drop v id p q hq
      rw [hrights, hstream]
      exact ⟨h.pending_stream id s p q' hs hp hq', hwait p hp q' hq'⟩
    · rename_i hlast
      obtain ⟨s', hs'⟩ : ∃ s', lessRef s = some s' := ⟨_, if_neg hlast⟩
      rw [hs']
      exact h.lowerSocket hs hs'

theorem Ledger.closePipe {side : PipeEnd} (h : v.Ledger (.pipe id side :: es)) :
    (v.close (.pipe id side)).Ledger es := by
  have hexact := h.exact (.pipe id side) rfl
  rw [counter, List.count_cons_self] at hexact
  cases hp : v.pipes.get? id with
  | none => rw [hp] at hexact; simp [endCount] at hexact
  | some p =>
    rw [hp] at hexact
    simp only [RefView.close, hp]
    refine h.setPipe (h.pipes.lt hp) ?_ ?_ (fun e he => (List.count_cons_of_ne (Ne.symm (he side))).symm)
    · intro p' hp'
      simp only [lessEnd] at hp'
      split_ifs at hp' with hgone
      cases hp'
      omega
    · intro side'
      cases side <;> cases side' <;> simp only [lessEnd] <;> split_ifs with hgone <;>
        simp only [endCount, hp] at hexact hgone ⊢ <;>
        simp only [List.count_cons, beq_iff_eq, FdEntry.pipe.injEq, reduceCtorEq, and_false,
          if_true, if_false] <;> omega

theorem Ledger.closeFile (h : v.Ledger (.file id :: es)) : (v.close (.file id)).Ledger es := by
  have hexact := h.exact (.file id) rfl
  rw [counter, List.count_cons_self] at hexact
  cases hn : v.ofds.get? id with
  | none => rw [hn] at hexact; simp at hexact
  | some n =>
    rw [hn, Option.getD_some] at hexact
    simp only [RefView.close, hn]
    refine h.setOfd (h.ofds.lt hn) ?_ ?_ (fun e he => (List.count_cons_of_ne (Ne.symm he)).symm)
    · intro m hm
      split_ifs at hm with hgone
      cases hm
      exact Nat.pos_of_ne_zero hgone
    · rw [hn, Option.getD_some, List.count_cons_self]
      split_ifs with hgone
      · rw [Option.getD_none]; omega
      · rw [Option.getD_some]; omega

/-- Dropping a reference in flight, clean if it was the last one to a socket. -/
theorem Ledger.close (h : v.Ledger (e :: es))
    (hclean : ∀ id s, e = .socket id → v.sockets.get? id = some s → s.refs - 1 = 0 → v.Clean id) :
    (v.close e).Ledger es := by
  cases e with
  | pipe id side => exact h.closePipe
  | file id => exact h.closeFile
  | socket id => exact h.closeSocket (fun s hs hlast => hclean id s rfl hs hlast)
  | _ => exact h.congr (fun e he => by
      rw [List.count_cons_of_ne]; rintro rfl; simp [FdEntry.counted] at he)

/-! ### Dropping several references -/

theorem sameQueues_closeSocket (v : RefView) (id : Nat) : (v.closeSocket id).SameQueues v := by
  unfold RefView.closeSocket
  cases hs : v.sockets.get? id with
  | none => exact SameQueues.refl v
  | some s =>
    simp only
    split_ifs
    · exact (sameQueues_releases s.pending _).trans (sameQueues_drop v id)
    · exact sameQueues_lessRef hs

theorem close_sockets (v : RefView) (he : ∀ id, e ≠ .socket id) : (v.close e).sockets = v.sockets := by
  cases e with
  | pipe id side => simp only [close]; cases v.pipes.get? id <;> rfl
  | file id => simp only [close]; cases v.ofds.get? id <;> rfl
  | socket id => exact absurd rfl (he id)
  | _ => rfl

/-- What is left to drop stays safe to drop. -/
theorem SafeDrop.close (hledger : v.Ledger es') (h : v.SafeDrop (e :: es)) : (v.close e).SafeDrop es := by
  by_cases hsock : ∃ id, e = .socket id
  · obtain ⟨id, rfl⟩ := hsock
    intro id' s' hs' hle
    have hsub : (v.close (.socket id)).SameQueues v := sameQueues_closeSocket v id
    obtain ⟨s₀, hs₀, hpend₀, hrights₀, -⟩ := hsub id' s' hs'
    -- the number of references to drop that name `id'`
    have hcount : (FdEntry.socket id :: es).count (.socket id') =
        es.count (.socket id') + if id' = id then 1 else 0 := by
      by_cases hid : id' = id
      · rw [hid, List.count_cons_self, if_pos rfl]
      · rw [List.count_cons_of_ne (fun heq => hid (FdEntry.socket.inj heq).symm), if_neg hid]; rfl
    change (v.closeSocket id).sockets.get? id' = some s' at hs'
    unfold RefView.closeSocket at hs'
    cases hs : v.sockets.get? id with
    | none =>
      rw [hs] at hs'
      refine (h id' s' hs' ?_).mono hsub
      omega
    | some s =>
      simp only [hs] at hs'
      split_ifs at hs' with hlast
      · by_cases hmem : id' ∈ s.pending
        · -- a connection that waited at the dropped listener
          have hclean := h id s hs (by rw [List.count_cons_self]; omega)
          obtain ⟨-, hwait⟩ := hclean s hs
          have hstream := hledger.pending_stream id s id' s₀ hs hmem hs₀
          intro t ht
          obtain ⟨t₀, ht₀, htpend, htrights, -⟩ := hsub id' t ht
          obtain rfl := Option.mem_unique ht₀ hs₀
          rw [htpend, htrights, t₀.idle hstream]
          exact ⟨hwait id' hmem t₀ hs₀, fun p hp => absurd hp (List.not_mem_nil)⟩
        · rw [get?_releases_of_not_mem hmem, get?_setSocket] at hs'
          split_ifs at hs' with hid
          refine (h id' s' hs' ?_).mono hsub
          omega
      · rw [get?_setSocket] at hs'
        split_ifs at hs' with hid
        · obtain ⟨hrefs, hpos, -⟩ := lessRef_spec hs'
          subst hid
          refine (h id' s hs ?_).mono hsub
          rw [hcount, if_pos rfl]
          omega
        · refine (h id' s' hs' ?_).mono hsub
          omega
  · have hne : ∀ id, e ≠ .socket id := fun id he => hsock ⟨id, he⟩
    have hsame := close_sockets v hne
    intro id s hs hle
    rw [hsame] at hs
    have hclean := h id s hs (by rw [List.count_cons_of_ne (hne id)]; exact hle)
    intro t ht
    rw [hsame] at ht
    obtain ⟨hown, hwait⟩ := hclean t ht
    exact ⟨hown, fun p hp q hq => hwait p hp q (hsame ▸ hq)⟩

/-! ### Counts after a drop -/

theorem refsOf_lessRef_le (s : SocketRefs) : refsOf (lessRef s) ≤ s.refs := by
  rw [lessRef]
  split_ifs
  · exact Nat.zero_le _
  · exact Nat.sub_le _ _

/-- A socket that loses references or goes makes no count larger. -/
theorem counter_setSocket_le {v : RefView} (hs : v.sockets.get? id = some s)
    (ho : refsOf o ≤ s.refs) (e : FdEntry) :
    (v.setSocket id o).counter e ≤ v.counter e := by
  rw [counter_setSocket]
  split_ifs with he
  · rw [he, counter, hs]
    exact ho
  · exact le_rfl

theorem counter_release_le (v : RefView) (id : Nat) (e : FdEntry) :
    (v.release id).counter e ≤ v.counter e := by
  rw [release]
  cases hs : v.sockets.get? id with
  | none => exact le_rfl
  | some s => exact counter_setSocket_le hs (refsOf_lessRef_le s) e

theorem counter_releases_le (ps : List Nat) (v : RefView) (e : FdEntry) :
    (ps.foldl release v).counter e ≤ v.counter e :=
  List.foldlRecOn (motive := fun v' : RefView => v'.counter e ≤ _) ps _ le_rfl
    (fun v' h p _ => (counter_release_le v' p e).trans h)

/-- Dropping a reference makes no count larger. -/
theorem counter_close_le (v : RefView) (x e : FdEntry) : (v.close x).counter e ≤ v.counter e := by
  cases x with
  | pipe id side =>
    rw [close]
    cases hp : v.pipes.get? id with
    | none => exact le_rfl
    | some p =>
      cases e with
      | pipe i s =>
        simp only [counter, setPipe, get?_put]
        split_ifs with hi
        · rw [hi, hp]
          cases side <;> cases s <;> simp only [lessEnd] <;> split_ifs <;> simp [endCount]
        · exact le_rfl
      | _ => exact le_rfl
  | file id =>
    rw [close]
    cases hn : v.ofds.get? id with
    | none => exact le_rfl
    | some n =>
      cases e with
      | file i =>
        simp only [counter, setOfd, get?_put]
        split_ifs with hi
        · exact Nat.zero_le _
        · rw [hi, hn]
          exact Nat.sub_le _ _
        · exact le_rfl
      | _ => exact le_rfl
  | socket id =>
    rw [close, closeSocket]
    cases hs : v.sockets.get? id with
    | none => exact le_rfl
    | some s =>
      simp only []
      split_ifs
      · exact (counter_releases_le _ _ e).trans (counter_setSocket_le hs (Nat.zero_le _) e)
      · exact counter_setSocket_le hs (refsOf_lessRef_le s) e
  | _ => exact le_rfl
end RefView
end Yurt
