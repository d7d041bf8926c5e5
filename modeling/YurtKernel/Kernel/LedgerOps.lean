import YurtKernel.Kernel.Ledger

/-! How the operations on references move the ledger.

    One lemma for each operation of the kernel says what it does to the references in flight: taking
    a reference, dropping one, putting an entry into a table or out of it, making an object, writing
    a socket's queues. A dropped socket takes its queued rights with it without dropping them, so the
    ledger survives a drop only if no counted rights are queued there (`Clean`). -/

namespace Yurt
open Kernel SortedMap
variable {σ : Type} {k : Kernel σ} {es es' : List FdEntry} {e : FdEntry}
variable {xs : List FdEntry} {s : SocketEntry} {f : Process → Process} {id fd fuel : Nat} {pid : Pid}
  {kind : SocketKind} {p : Process}

/-- Handle that is closed with a socket of this kind. -/
def SocketKind.handle? : SocketKind → Option Int
  | .host handle => some handle
  | _ => none

namespace Kernel

/-- The counts of the kernel agree with its tables and queues and the references `es`. -/
def Ledger (k : Kernel σ) (es : List FdEntry) : Prop := k.refView.Ledger es

def counter (k : Kernel σ) (e : FdEntry) : Nat := k.refView.counter e

/-- A step that the ledger does not see. -/
theorem Ledger.frame {k' : Kernel σ} (h : k.Ledger es) (hview : k'.refView = k.refView) : k'.Ledger es := by
  rw [Ledger, hview]
  exact h

theorem Ledger.perm (h : k.Ledger es) (hes : es.Perm es') : k.Ledger es' := RefView.Ledger.perm h hes

theorem Ledger.counter_pos_of_holder (h : k.Ledger es) (he : e.counted = true)
    (hheld : 0 < k.refView.holders e) : 0 < k.counter e := by
  have hexact := h.exact e he
  rw [counter]
  omega

/-- A connection that waits is there. -/
theorem Ledger.live_of_pending (h : k.Ledger es) {l p : Nat} {s : SocketRefs}
    (hl : k.refView.sockets.get? l = some s) (hp : p ∈ s.pending) : 0 < k.counter (.socket p) := by
  refine h.counter_pos_of_holder rfl ?_
  have hle := weight_le_sum k.refView.sockets l (fun _ s => s.queued.count (.socket p))
  rw [weight_some _ hl] at hle
  have hmem : FdEntry.socket p ∈ s.queued := List.mem_append_left _ (List.mem_map.mpr ⟨p, hp, rfl⟩)
  have hpos := List.count_pos_iff.mpr hmem
  rw [RefView.holders, RefView.queued]
  omega

/-! ### Lookups in the view -/

section
variable (k : Kernel σ) (id : Nat)

@[simp] theorem refView_pipes_get? :
    k.refView.pipes.get? id = (k.pipes.get? id).map (fun b => (b.readEnds, b.writeEnds)) :=
  get?_mapValues _ _ _

@[simp] theorem refView_ofds_get? :
    k.refView.ofds.get? id = (k.ofds.get? id).map OpenFileDescription.refs :=
  get?_mapValues _ _ _

@[simp] theorem refView_sockets_get? :
    k.refView.sockets.get? id = (k.sockets.get? id).map SocketEntry.refsView :=
  get?_mapValues _ _ _

end

theorem Ledger.pipe_lt (h : k.Ledger es) {b : PipeBuf} (hb : k.pipes.get? id = some b) :
    id < k.refView.nextPipe := (RefView.Ledger.pipes h).lt (by rw [refView_pipes_get?, hb]; rfl)

theorem Ledger.ofd_lt (h : k.Ledger es) {o : OpenFileDescription}
    (ho : k.ofds.get? id = some o) : id < k.refView.nextOfd :=
  (RefView.Ledger.ofds h).lt (by rw [refView_ofds_get?, ho]; rfl)

theorem Ledger.socket_lt (h : k.Ledger es) (hs : k.sockets.get? id = some s) :
    id < k.refView.nextSocket := (RefView.Ledger.sockets h).lt (by rw [refView_sockets_get?, hs]; rfl)

end Kernel

section
variable (kh : Kh σ) (k : Kernel σ)

namespace Kernel

section
variable (id : Nat)

theorem counter_pipe (side : PipeEnd) : k.counter (.pipe id side) =
    endCount ((k.pipes.get? id).map (fun b => (b.readEnds, b.writeEnds))) side := by
  rw [counter, RefView.counter, refView_pipes_get?]

theorem counter_file :
    k.counter (.file id) = ((k.ofds.get? id).map OpenFileDescription.refs).getD 0 := by
  rw [counter, RefView.counter, refView_ofds_get?]

theorem counter_socket :
    k.counter (.socket id) = ((k.sockets.get? id).map SocketEntry.refs).getD 0 := by
  rw [counter, RefView.counter, refView_sockets_get?, Option.map_map]
  rfl

/-! ### The view of an update -/

theorem refView_insertPipe (b : PipeBuf) : { k with pipes := k.pipes.insert id b }.refView =
      k.refView.setPipe id (some (b.readEnds, b.writeEnds)) := by
  simp only [refView, RefView.setPipe, SortedMap.put, mapValues_insert]
  rfl

theorem refView_erasePipe :
    { k with pipes := k.pipes.erase id }.refView = k.refView.setPipe id none := by
  simp only [refView, RefView.setPipe, SortedMap.put, mapValues_erase]
  rfl

theorem refView_insertOfd (o : OpenFileDescription) :
    { k with ofds := k.ofds.insert id o }.refView = k.refView.setOfd id (some o.refs) := by
  simp only [refView, RefView.setOfd, SortedMap.put, mapValues_insert]
  rfl

theorem refView_eraseOfd :
    { k with ofds := k.ofds.erase id }.refView = k.refView.setOfd id none := by
  simp only [refView, RefView.setOfd, SortedMap.put, mapValues_erase]
  rfl

theorem refView_insertSocket (s : SocketEntry) :
    { k with sockets := k.sockets.insert id s }.refView = k.refView.setSocket id (some s.refsView) := by
  simp only [refView, RefView.setSocket, SortedMap.put, mapValues_insert]
  rfl

theorem refView_dropSocket : (k.dropSocket id).refView = k.refView.setSocket id none := by
  simp only [refView, dropSocket, RefView.setSocket, SortedMap.put, mapValues_erase]
  rfl

end

/-- Half-close, peer state and received bytes are no business of the ledger. -/
theorem refView_closePeer (peer : Option Nat) : (k.closePeer peer).refView = k.refView := by
  cases peer with
  | none => rfl
  | some id =>
    have hsockets : (k.sockets.modify id (fun s => { s with kind := s.kind.closePeer })).mapValues
        (fun _ s => s.refsView) = k.sockets.mapValues (fun _ s => s.refsView) := by
      refine mapValues_modify (fun s _ => ?_)
      cases hkind : s.kind <;> simp [SocketEntry.refsView, hkind, SocketKind.closePeer,
        SocketKind.pending, SocketKind.rights, SocketKind.isStream]
    simp only [closePeer, refView, hsockets]
    rfl

theorem refView_closeHandle (handle : Option Int) : (k.closeHandle kh handle).refView = k.refView := by
  cases handle <;> rfl

end Kernel

end

/-! ### Rewriting a socket -/

/-- Rewriting a socket that stays, with what it counts and holds changing by what enters or leaves
    the references in flight. -/
theorem Kernel.Ledger.insertSocket {s' : SocketEntry} (h : k.Ledger es)
    (hs : k.sockets.get? id = some s) (hpos : 0 < s'.refs)
    (hstream : s'.kind.isStream = s.kind.isStream)
    (hpending : ∀ p ∈ s'.kind.pending, p ∈ s.kind.pending ∨
      ∀ q, k.sockets.get? p = some q → q.kind.isStream = true)
    (hcount : ∀ e, e.counted = true →
      (if e = .socket id then s'.refs else 0) + s.refsView.queued.count e + es.count e =
      (if e = .socket id then s.refs else 0) + s'.refsView.queued.count e + es'.count e) :
    { k with sockets := k.sockets.insert id s' }.Ledger es' := by
  rw [Ledger, refView_insertSocket]
  have hold : k.refView.sockets.get? id = some s.refsView := by simp [hs]
  -- a socket keeps being a stream or not
  have hstreams : ∀ p q', (k.refView.setSocket id (some s'.refsView)).sockets.get? p = some q' →
      (∀ q, k.refView.sockets.get? p = some q → q.stream = true) → q'.stream = true := by
    intro p q' hq' hall
    rw [RefView.setSocket, get?_put] at hq'
    split_ifs at hq' with hp
    · subst hp
      cases hq'
      exact hstream.trans (hall _ hold)
    · exact hall q' hq'
  refine RefView.Ledger.setSocket h (h.socket_lt hs) ?_ ?_ ?_
  · intro _ hsome
    cases hsome
    exact hpos
  · intro e he
    rw [hold]
    exact hcount e he
  · intro l sl p q' hl hp hq'
    refine hstreams p q' hq' (fun q hq => ?_)
    have hlook : (k.refView.setSocket id (some s'.refsView)).sockets.get? l =
        if l = id then some s'.refsView else k.refView.sockets.get? l := get?_put _ _ _ _
    rw [hlook] at hl
    split_ifs at hl with hid
    · cases hl
      rcases hpending p hp with hmem | hnew
      · exact h.pending_stream id s.refsView p q hold hmem hq
      · rw [refView_sockets_get?] at hq
        obtain ⟨qe, hqe, rfl⟩ := Option.map_eq_some_iff.mp hq
        exact hnew qe hqe
    · exact h.pending_stream l sl p q hl hp hq

/-- Rewriting a socket's queues, its count unchanged. -/
theorem Kernel.Ledger.setKind (h : k.Ledger es)
    (hs : k.sockets.get? id = some s) (hstream : kind.isStream = s.kind.isStream)
    (hpending : ∀ p ∈ kind.pending, p ∈ s.kind.pending ∨
      ∀ q, k.sockets.get? p = some q → q.kind.isStream = true)
    (hcount : ∀ e, e.counted = true →
      (s.kind.pending.map FdEntry.socket ++ s.kind.rights).count e + es.count e =
      (kind.pending.map FdEntry.socket ++ kind.rights).count e + es'.count e) :
    (k.setKind id kind).Ledger es' := by
  have hmodify : k.setKind id kind = { k with sockets := k.sockets.insert id { s with kind := kind } } := by
    simp [Kernel.setKind, SortedMap.modify, hs]
  rw [hmodify]
  refine h.insertSocket hs (h.socket_pos id s.refsView (by simp [hs])) hstream hpending ?_
  intro e he
  have := hcount e he
  simp only [SocketRefs.queued, SocketEntry.refsView]
  omega

/-! ### Taking a reference -/

theorem satAdd_one {n : Nat} (h : n < u32Max) : satAdd n 1 = n + 1 := by
  rw [satAdd]
  omega

namespace Kernel

/-- Taking a reference to an object that is there, with room in its count. -/
theorem Ledger.incFdEntryRef (h : k.Ledger es) (hlive : e.counted = true → 0 < k.counter e)
    (hroom : k.counter e < u32Max) : (k.incFdEntryRef e).Ledger (e :: es) := by
  cases e with
  | pipe id side =>
    cases hb : k.pipes.get? id with
    | none =>
      have hpos := hlive rfl
      rw [counter_pipe, hb] at hpos
      exact absurd hpos (lt_irrefl 0)
    | some b =>
      have hmodify : k.incFdEntryRef (.pipe id side) =
          { k with pipes := k.pipes.insert id (b.incRef side) } := by
        simp [Kernel.incFdEntryRef, pipeIncRef, SortedMap.modify, hb]
      rw [counter_pipe, hb] at hroom
      rw [hmodify, Ledger, refView_insertPipe]
      refine RefView.Ledger.setPipe h (h.pipe_lt hb) ?_ ?_ ?_
      · intro _ hsome
        cases hsome
        have hpos := h.pipe_pos id (b.readEnds, b.writeEnds) (by simp [hb])
        cases side <;> simp only [PipeBuf.incRef, satAdd] <;>
          simp only [Option.map_some, endCount] at hroom <;> omega
      · intro side'
        cases side <;> cases side' <;>
          simp only [Option.map_some, endCount] at hroom <;>
          simp [hb, endCount, PipeBuf.incRef, satAdd_one, hroom] <;> omega
      · intro e' he'
        exact List.count_cons_of_ne (Ne.symm (he' side))
  | file id =>
    cases ho : k.ofds.get? id with
    | none =>
      have hpos := hlive rfl
      rw [counter_file, ho] at hpos
      exact absurd hpos (lt_irrefl 0)
    | some o =>
      have hmodify : k.incFdEntryRef (.file id) =
          { k with ofds := k.ofds.insert id { o with refs := satAdd o.refs 1 } } := by
        simp [Kernel.incFdEntryRef, ofdIncRef, SortedMap.modify, ho]
      rw [counter_file, ho] at hroom
      rw [hmodify, Ledger, refView_insertOfd]
      have hsat := satAdd_one hroom
      refine RefView.Ledger.setOfd h (h.ofd_lt ho) ?_ ?_ ?_
      · intro _ hsome
        cases hsome
        simp only [Option.map_some, Option.getD_some] at hsat
        simp only [hsat]
        omega
      · simp only [Option.map_some, Option.getD_some] at hsat
        simp [ho, hsat]
        omega
      · intro e' he'
        exact List.count_cons_of_ne (Ne.symm he')
  | socket id =>
    cases hs : k.sockets.get? id with
    | none =>
      have hpos := hlive rfl
      rw [counter_socket, hs] at hpos
      exact absurd hpos (lt_irrefl 0)
    | some s =>
      have hmodify : k.incFdEntryRef (.socket id) =
          { k with sockets := k.sockets.insert id { s with refs := satAdd s.refs 1 } } := by
        simp [Kernel.incFdEntryRef, socketIncRef, SortedMap.modify, hs]
      rw [counter_socket, hs] at hroom
      simp only [Option.map_some, Option.getD_some] at hroom
      have hsat := satAdd_one hroom
      rw [hmodify]
      refine h.insertSocket hs (by simp [hsat]) rfl (fun p hp => Or.inl hp) ?_
      intro e' _
      simp only [SocketRefs.queued, SocketEntry.refsView, hsat]
      by_cases he' : e' = .socket id
      · subst he'
        rw [if_pos rfl, if_pos rfl, List.count_cons_self]
        omega
      · rw [if_neg he', if_neg he', List.count_cons_of_ne (Ne.symm he')]
  | _ => exact RefView.Ledger.congr h (fun e' he' => by
      rw [List.count_cons_of_ne]; rintro rfl; simp [FdEntry.counted] at he')

/-! ### Dropping a reference -/

def SafeDrop (k : Kernel σ) (es : List FdEntry) : Prop := k.refView.SafeDrop es

section
variable (k : Kernel σ) (id : Nat)

theorem refView_pipeDecRef (side : PipeEnd) :
    (k.pipeDecRef id side).refView = k.refView.close (.pipe id side) := by
  simp only [pipeDecRef, RefView.close, refView_pipes_get?]
  cases k.pipes.get? id with
  | none => rfl
  | some b =>
    simp only [Option.map_some]
    rw [apply_ite refView, refView_erasePipe, refView_insertPipe, ← apply_ite (k.refView.setPipe id)]
    cases side <;> rfl

theorem refView_ofdDecRef :
    (k.ofdDecRef id).refView = k.refView.close (.file id) := by
  simp only [ofdDecRef, RefView.close, refView_ofds_get?]
  cases k.ofds.get? id with
  | none => rfl
  | some o =>
    simp only [Option.map_some]
    split_ifs
    · exact refView_eraseOfd (k.flockReleaseForOfd id) id
    · exact refView_insertOfd k id _

/-- The state in which the code decides what a socket's last reference takes with it. -/
def lowered (s : SocketEntry) : Kernel σ :=
  { k with sockets := k.sockets.insert id { s with refs := s.refs - 1 } }

/-- The name of a socket of this kind is taken out of its registry. -/
def forgetName : SocketKind → Kernel σ
  | .unixListener path _ _ => { k with unixListeners := k.unixListeners.erase path }
  | .unixDatagram _ _ (some path) _ _ _ => { k with unixDatagrams := k.unixDatagrams.erase path }
  | _ => k

@[simp] theorem sockets_forgetName (kind : SocketKind) : (k.forgetName kind).sockets = k.sockets := by
  unfold forgetName
  split <;> rfl

@[simp] theorem refView_forgetName (kind : SocketKind) : (k.forgetName kind).refView = k.refView := by
  unfold forgetName
  split <;> rfl

end

theorem refView_lowered (h : s.refs - 1 ≠ 0) :
    (k.lowered id s).refView = k.refView.setSocket id (RefView.lessRef s.refsView) := by
  have hless : RefView.lessRef s.refsView = some { s.refsView with refs := s.refs - 1 } := if_neg h
  rw [hless, lowered, refView_insertSocket]
  rfl

/-- Dropping a reference to a socket that is there. The last one takes the name and the waiting
    connections with it, and the peer learns of it. -/
theorem socketDecRefAux_some (hs : k.sockets.get? id = some s) : Kernel.socketDecRefAux (fuel + 1) k id =
    if s.refs - 1 ≠ 0 then (none, k.lowered id s)
    else (s.kind.handle?, ((s.kind.pending.foldl (fun k p => (Kernel.socketDecRefAux fuel k p).2)
      ((k.lowered id s).forgetName s.kind)).closePeer s.kind.peer?).dropSocket id) := by
  obtain ⟨refs, domain, sockType, noDelay, kind⟩ := s
  simp only [socketDecRefAux, hs]
  split_ifs
  · rfl
  · cases kind with
    | unixDatagram peer pp bound => cases bound <;> rfl
    | _ => rfl

/-- A stream is dropped without looking any further. -/
theorem refView_socketDecRefAux_stream (fuel : Nat)
    (hstream : ∀ q, k.refView.sockets.get? id = some q → q.stream = true) :
    (Kernel.socketDecRefAux (fuel + 1) k id).2.refView = k.refView.release id := by
  cases hs : k.sockets.get? id with
  | none => simp only [socketDecRefAux, RefView.release, refView_sockets_get?, hs]; rfl
  | some s =>
    have hview : k.refView.sockets.get? id = some s.refsView := by
      rw [refView_sockets_get?, hs]; rfl
    have hkind : s.kind.isStream = true := hstream _ hview
    rw [socketDecRefAux_some hs]
    simp only [RefView.release, hview]
    by_cases hlast : s.refs - 1 = 0
    · have hless : RefView.lessRef s.refsView = none := if_pos hlast
      rw [if_neg (not_not.mpr hlast), hless, SocketKind.pending_of_isStream hkind, refView_dropSocket,
        refView_closePeer, List.foldl_nil, refView_forgetName, lowered, refView_insertSocket,
        RefView.setSocket_setSocket]
    · rw [if_pos hlast]
      exact refView_lowered hlast

/-- Dropping waiting connections does not mind whether the listener is still registered. -/
theorem refView_drop_pending {ps : List Nat} (hid : id ∉ ps) (peer : Option Nat)
    (hstream : ∀ p ∈ ps, ∀ q, k.refView.sockets.get? p = some q → q.stream = true) :
    (((ps.foldl (fun k p => (Kernel.socketDecRefAux (fuel + 1) k p).2) k).closePeer peer).dropSocket
      id).refView = ps.foldl RefView.release (k.refView.setSocket id none) := by
  induction ps generalizing k with
  | nil => rw [refView_dropSocket, refView_closePeer, List.foldl_nil, List.foldl_nil]
  | cons p ps ih =>
    rw [List.mem_cons, not_or] at hid
    have hview := refView_socketDecRefAux_stream fuel (hstream p (List.mem_cons_self ..))
    rw [List.foldl_cons, List.foldl_cons, ih hid.2, hview, RefView.release_setSocket_comm _ hid.1]
    intro p' hp' q' hq'
    rw [hview] at hq'
    obtain ⟨q, hq, -, -, hsame⟩ := RefView.sameQueues_release k.refView p p' q' hq'
    exact hsame.trans (hstream p' (List.mem_cons_of_mem _ hp') q hq)

theorem refView_socketDecRef (h : k.Ledger es) (id : Nat) :
    (k.socketDecRef id).2.refView = k.refView.closeSocket id := by
  cases hs : k.sockets.get? id with
  | none =>
    simp only [socketDecRef, socketDecRefAux, RefView.closeSocket, refView_sockets_get?, hs]
    rfl
  | some s =>
    have hview : k.refView.sockets.get? id = some s.refsView := by
      rw [refView_sockets_get?, hs]; rfl
    rw [socketDecRef, socketDecRefAux_some hs]
    simp only [RefView.closeSocket, hview]
    by_cases hlast : s.refs - 1 = 0
    · have hlast' : s.refsView.refs - 1 = 0 := hlast
      rw [if_neg (not_not.mpr hlast), if_pos hlast']
      have hstreams : ∀ p ∈ s.kind.pending, ∀ q, k.refView.sockets.get? p = some q → q.stream = true :=
        fun p hp q hq => h.pending_stream id _ p q hview hp hq
      have hid : id ∉ s.kind.pending := fun hmem => by
        rw [SocketKind.pending_of_isStream (hstreams id hmem _ hview)] at hmem
        cases hmem
      obtain ⟨n, hn⟩ : ∃ n, k.sockets.size = n + 1 := Nat.exists_eq_succ_of_ne_zero (size_ne_zero hs)
      -- the name is forgotten and the count lowered before the queue is walked
      have hlowered : ((k.lowered id s).forgetName s.kind).refView =
          k.refView.setSocket id (some { s.refsView with refs := s.refs - 1 }) := by
        rw [refView_forgetName]
        exact refView_insertSocket k id _
      rw [hn, refView_drop_pending hid, hlowered, RefView.setSocket_setSocket]
      · rfl
      · intro p hp q hq
        have hne : p ≠ id := fun heq => hid (heq ▸ hp)
        rw [hlowered, RefView.get?_setSocket, if_neg hne] at hq
        exact hstreams p hp q hq
    · have hlast' : ¬ s.refsView.refs - 1 = 0 := hlast
      rw [if_pos hlast, if_neg hlast']
      exact refView_lowered hlast

/-- Closing an entry is closing it in the view. -/
theorem refView_closeEntry (h : k.Ledger es) (e : FdEntry) :
    (k.closeEntry e).2.refView = k.refView.close e := by
  cases e with
  | pipe id side => exact k.refView_pipeDecRef id side
  | file id => exact k.refView_ofdDecRef id
  | socket id => exact refView_socketDecRef h id
  | _ => rfl

theorem decFdEntryRef_eq (kh : Kh σ) (k : Kernel σ) (e : FdEntry) :
    k.decFdEntryRef kh e = (k.closeEntry e).2.closeHandle kh (k.closeEntry e).1 := by
  cases e <;> rfl

theorem refView_decFdEntryRef (kh : Kh σ) (h : k.Ledger es) (e : FdEntry) :
    (k.decFdEntryRef kh e).refView = k.refView.close e := by
  rw [decFdEntryRef_eq, refView_closeHandle, refView_closeEntry h]

namespace Ledger

/-- Dropping references that are safe to drop, with any code that closes as the view does. -/
theorem dropAll {step : Kernel σ → FdEntry → Kernel σ}
    (hstep : ∀ (k : Kernel σ) es e, k.Ledger es → (step k e).refView = k.refView.close e)
    (h : k.Ledger (xs ++ es)) (hsafe : k.SafeDrop xs) :
    (xs.foldl step k).Ledger es := by
  induction xs generalizing k with
  | nil => exact h
  | cons x xs ih =>
    have hview := hstep k _ x h
    refine ih ?_ ?_
    · rw [Ledger, hview]
      refine RefView.Ledger.close h ?_
      rintro id s rfl hs hlast
      refine hsafe id s hs ?_
      rw [List.count_cons_self]
      omega
    · rw [SafeDrop, hview]
      exact RefView.SafeDrop.close h hsafe

theorem closeEntries (h : k.Ledger (xs ++ es)) (hsafe : k.SafeDrop xs) :
    (k.closeEntries xs).Ledger es :=
  h.dropAll (fun _ _ e hk => refView_closeEntry hk e) hsafe

theorem decFdEntryRefs (kh : Kh σ) (h : k.Ledger (xs ++ es)) (hsafe : k.SafeDrop xs) :
    (xs.foldl (Kernel.decFdEntryRef kh) k).Ledger es :=
  h.dropAll (fun _ _ e hk => refView_decFdEntryRef kh hk e) hsafe

theorem closeEntry (h : k.Ledger (e :: es)) (hsafe : k.SafeDrop [e]) :
    (k.closeEntry e).2.Ledger es :=
  have hsingle : k.Ledger ([e] ++ es) := h
  hsingle.closeEntries hsafe

theorem decFdEntryRef (kh : Kh σ) (h : k.Ledger (e :: es)) (hsafe : k.SafeDrop [e]) :
    (k.decFdEntryRef kh e).Ledger es :=
  have hsingle : k.Ledger ([e] ++ es) := h
  hsingle.decFdEntryRefs kh hsafe

/-! ### Drops that are safe -/

/-- A drop is safe when every socket it names is clean or keeps another holder. -/
theorem safeDrop (h : k.Ledger (xs ++ es))
    (hxs : ∀ id, .socket id ∈ xs → 0 < k.refView.holders (.socket id) ∨ k.refView.Clean id) :
    k.SafeDrop xs := by
  intro id s hs hle
  have hpos := h.socket_pos id s hs
  have hmem : .socket id ∈ xs := List.count_pos_iff.mp (by omega)
  rcases hxs id hmem with hheld | hclean
  · -- another holder means that the count is higher than what is dropped
    have hexact := h.exact (.socket id) rfl
    rw [RefView.counter, hs, List.count_append] at hexact
    simp only [Option.map_some, Option.getD_some] at hexact
    omega
  · exact hclean

end Ledger

/-- A socket without queues is clean. -/
theorem clean_of_idle
    (h : ∀ s, k.sockets.get? id = some s → s.kind.pending = [] ∧ s.kind.rights = []) :
    k.refView.Clean id := by
  intro s hs
  rw [refView_sockets_get?] at hs
  obtain ⟨t, ht, rfl⟩ := Option.map_eq_some_iff.mp hs
  obtain ⟨hpending, hrights⟩ := h t ht
  constructor
  · intro e he
    rw [SocketEntry.refsView, hrights] at he
    cases he
  · intro p hp
    change p ∈ t.kind.pending at hp
    rw [hpending] at hp
    cases hp

/-! ### Tables -/

/-- A record that is made on the spot has no counted entries. -/
theorem weight_process (he : e.counted = true) (k : Kernel σ) (pid : Pid) :
    k.processes.weight (fun _ p => p.fdTable.entries.values.count e) pid =
      (k.process pid).fdTable.entries.values.count e := by
  cases hp : k.processes.get? pid with
  | some p => simp [weight_some _ hp, process, hp, Process.ensureMainThread]
  | none =>
    rw [weight_none _ hp, eq_comm, List.count_eq_zero]
    intro hmem
    have hstd : e = .stdin ∨ e = .stdout ∨ e = .stderr := by
      simpa [process, hp, Process.ensureMainThread, Process.default, FdTable.new,
        SortedMap.values, SortedMap.insert, SortedMap.Raw.insert, SortedMap.empty] using hmem
    rcases hstd with rfl | rfl | rfl <;> cases he

theorem tableCount_setProcess (he : e.counted = true) (k : Kernel σ) (pid : Pid) (p : Process) :
    (k.setProcess pid p).tableCount e + (k.process pid).fdTable.entries.values.count e =
      k.tableCount e + p.fdTable.entries.values.count e := by
  rw [← weight_process he]
  exact sum_insert k.processes pid p _

/-- Replacing a process record, with what its table gains or loses taken from the references in
    flight. -/
theorem Ledger.setProcess (h : k.Ledger es)
    (hcount : ∀ e, e.counted = true → p.fdTable.entries.values.count e + es'.count e =
      (k.process pid).fdTable.entries.values.count e + es.count e) :
    (k.setProcess pid p).Ledger es' := by
  refine RefView.Ledger.setTables h (fun e he => ?_)
  have htable := tableCount_setProcess he k pid p
  have hin := hcount e he
  simp only [refView, if_pos he]
  omega

/-- A write to a process record that leaves the entries of its table alone. -/
theorem refView_setProcess (hp : p.fdTable.entries = (k.process pid).fdTable.entries) :
    (k.setProcess pid p).refView = k.refView := by
  have htables : (k.setProcess pid p).refView.tables = k.refView.tables := by
    funext e
    simp only [refView]
    split_ifs with he
    · have htable := tableCount_setProcess he k pid p
      rw [hp] at htable
      omega
    · rfl
  exact congrArg (fun t => { k.refView with tables := t }) htables

@[simp] theorem refView_touch (k : Kernel σ) (pid : Pid) : (k.touch pid).refView = k.refView :=
  refView_setProcess rfl

theorem refView_updProcess (hf : ∀ p, (f p).fdTable.entries = p.fdTable.entries) :
    (k.updProcess pid f).refView = k.refView :=
  refView_setProcess (hf _)

theorem refView_modifyProcess (hf : ∀ p, (f p).fdTable.entries = p.fdTable.entries) :
    (k.modifyProcess pid f).refView = k.refView := by
  cases hp : k.processes.get? pid with
  | none => simp only [modifyProcess, SortedMap.modify, hp]
  | some p =>
    have hset : k.modifyProcess pid f = k.setProcess pid (f p) := by
      simp only [modifyProcess, SortedMap.modify, hp, setProcess]
    rw [hset]
    refine refView_setProcess ?_
    rw [hf, process, hp]
    rfl

/-- Putting a reference in flight into a table; what stood there is in flight now. -/
theorem Ledger.installFd (h : k.Ledger (e :: es)) :
    (k.installFd pid fd e).Ledger ((k.fdEntry pid fd).toList ++ es) := by
  refine h.setProcess (fun e' _ => ?_)
  have hinsert := count_values_insert (k.process pid).fdTable.entries fd e e'
  have hcons : (e :: es).count e' = [e].count e' + es.count e' := by
    rw [← List.count_append, List.singleton_append]
  simp only [FdTable.install, fdEntry, FdTable.entry, List.count_append]
  omega

theorem Ledger.installFd_free (h : k.Ledger (e :: es)) (hfree : k.fdEntry pid fd = none) :
    (k.installFd pid fd e).Ledger es := by
  have hinstall : (k.installFd pid fd e).Ledger ((k.fdEntry pid fd).toList ++ es) := h.installFd
  rwa [hfree] at hinstall

/-- Taking an entry out of a table. -/
theorem Ledger.removeFd (h : k.Ledger es) :
    (k.removeFd pid fd).Ledger ((k.fdEntry pid fd).toList ++ es) := by
  refine h.setProcess (fun e' _ => ?_)
  have herase := count_values_erase (k.process pid).fdTable.entries fd e'
  simp only [FdTable.remove, fdEntry, FdTable.entry, List.count_append]
  omega

/-- An entry of a table is held. -/
theorem holders_of_fdEntry (hfd : k.fdEntry pid fd = some e) (he : e.counted = true) :
    0 < k.refView.holders e := by
  have hmem : e ∈ (k.process pid).fdTable.entries.values := mem_values.mpr ⟨fd, hfd⟩
  have hcount : 0 < (k.process pid).fdTable.entries.values.count e := List.count_pos_iff.mpr hmem
  have hle := weight_le_sum k.processes pid (fun _ p => p.fdTable.entries.values.count e)
  rw [weight_process he] at hle
  simp only [RefView.holders, refView, if_pos he, tableCount]
  omega

/-! ### New objects -/

/-- A fresh pipe is held by its two ends. -/
theorem Ledger.createPipe (h : k.Ledger es) :
    k.createPipe.2.Ledger (.pipe k.nextPipeId .read :: .pipe k.nextPipeId .write :: es) := by
  have hfresh : k.refView.pipes.get? k.nextPipeId = none := h.pipe_fresh k.nextPipeId le_rfl
  have hraised := RefView.Ledger.raise h (Nat.le_succ _) le_rfl le_rfl
  have hview : k.createPipe.2.refView =
      { k.refView with nextPipe := k.nextPipeId + 1 : RefView }.setPipe k.nextPipeId (some (1, 1)) :=
    refView_insertPipe { k with nextPipeId := k.nextPipeId + 1 } k.nextPipeId .new
  rw [Ledger, hview]
  refine hraised.setPipe (Nat.lt_succ_self _) ?_ ?_ ?_
  · intro p hp
    cases hp
    norm_num
  · intro side
    cases side <;> simp [endCount, hfresh] <;> omega
  · intro e he
    rw [List.count_cons_of_ne (Ne.symm (he .read)), List.count_cons_of_ne (Ne.symm (he .write))]

theorem Ledger.createOfd (h : k.Ledger es) (mountId : MountId) (inode : Inode)
    (writable : Bool) : (k.createOfd mountId inode writable).2.Ledger (.file k.nextOfdId :: es) := by
  have hfresh : k.refView.ofds.get? k.nextOfdId = none := h.ofd_fresh k.nextOfdId le_rfl
  have hraised := RefView.Ledger.raise h le_rfl (Nat.le_succ _) le_rfl
  have hview : (k.createOfd mountId inode writable).2.refView =
      { k.refView with nextOfd := k.nextOfdId + 1 : RefView }.setOfd k.nextOfdId (some 1) :=
    refView_insertOfd { k with nextOfdId := k.nextOfdId + 1 } k.nextOfdId
      ⟨mountId, inode, 0, 1, writable, 0⟩
  rw [Ledger, hview]
  refine hraised.setOfd (Nat.lt_succ_self _) ?_ ?_ ?_
  · intro n hn
    cases hn
    norm_num
  · simp [hfresh]
    omega
  · intro e he
    rw [List.count_cons_of_ne (Ne.symm he)]

/-- A fresh socket with empty queues is held by the call that made it. -/
theorem Ledger.addSocket (h : k.Ledger es) (domain sockType : Nat)
    (hpending : kind.pending = []) (hrights : kind.rights = []) :
    (k.addSocket domain sockType kind).2.Ledger (.socket k.nextSocketId :: es) := by
  have hfresh : k.refView.sockets.get? k.nextSocketId = none := h.socket_fresh k.nextSocketId le_rfl
  have hraised := RefView.Ledger.raise h le_rfl le_rfl (Nat.le_succ _)
  have hview : (k.addSocket domain sockType kind).2.refView =
      { k.refView with nextSocket := k.nextSocketId + 1 : RefView }.setSocket k.nextSocketId
        (some (SocketEntry.refsView ⟨1, domain, sockType, false, kind⟩)) :=
    refView_insertSocket { k with nextSocketId := k.nextSocketId + 1 } k.nextSocketId _
  have hqueued : (SocketEntry.refsView ⟨1, domain, sockType, false, kind⟩).queued = [] := by
    simp [SocketRefs.queued, SocketEntry.refsView, hpending, hrights]
  rw [Ledger, hview]
  refine hraised.setSocket (Nat.lt_succ_self _) ?_ ?_ ?_
  · intro s hs
    cases hs
    exact Nat.one_pos
  · intro e _
    simp only [hfresh, RefView.refsOf, RefView.queuedOf, Option.map_none, Option.getD_none,
      Option.map_some, Option.getD_some, hqueued, List.count_nil]
    by_cases he : e = .socket k.nextSocketId
    · subst he
      simp only [SocketEntry.refsView, if_pos, List.count_cons_self]
      omega
    · rw [if_neg he, if_neg he, List.count_cons_of_ne (Ne.symm he)]
  · intro l s p q hl hp hq
    have hself : p ≠ k.nextSocketId := by
      -- the new socket waits nowhere: waiting ids are live
      rintro rfl
      rw [RefView.get?_setSocket] at hl
      split_ifs at hl with hid
      · cases hl
        simp [SocketEntry.refsView, hpending] at hp
      · exact absurd (h.live_of_pending hl hp) (by simp [counter, RefView.counter, hfresh])
    rw [RefView.get?_setSocket] at hl hq
    rw [if_neg hself] at hq
    split_ifs at hl with hid
    · cases hl
      simp [SocketEntry.refsView, hpending] at hp
    · exact h.pending_stream l s p q hl hp hq

/-! ### Several references at once -/

theorem counter_incFdEntryRef (k : Kernel σ) (e e' : FdEntry) (hroom : k.counter e ≤ u32Max) :
    k.counter e' ≤ (k.incFdEntryRef e).counter e' ∧
    (k.incFdEntryRef e).counter e' ≤ k.counter e' + [e].count e' := by
  have hother : (k.incFdEntryRef e).counter e' = k.counter e' →
      k.counter e' ≤ (k.incFdEntryRef e).counter e' ∧
      (k.incFdEntryRef e).counter e' ≤ k.counter e' + [e].count e' := fun heq => by omega
  cases e with
  | pipe id side =>
    cases e' with
    | pipe id' side' =>
      by_cases hid : id' = id
      · subst hid
        rw [counter_pipe] at hroom
        simp only [counter_pipe, incFdEntryRef, pipeIncRef, get?_modify, if_pos]
        cases hb : k.pipes.get? id' with
        | none => simp [endCount]
        | some b =>
          rw [hb] at hroom
          cases side <;> cases side' <;>
            simp [endCount, PipeBuf.incRef, satAdd] at hroom ⊢ <;> omega
      · refine hother ?_
        simp [counter_pipe, incFdEntryRef, pipeIncRef, hid]
    | _ => exact hother rfl
  | file id =>
    cases e' with
    | file id' =>
      by_cases hid : id' = id
      · subst hid
        rw [counter_file] at hroom
        simp only [counter_file, incFdEntryRef, ofdIncRef, get?_modify, if_pos]
        cases ho : k.ofds.get? id' with
        | none => simp
        | some o =>
          rw [ho] at hroom
          simp [satAdd] at hroom ⊢
          omega
      · refine hother ?_
        simp [counter_file, incFdEntryRef, ofdIncRef, hid]
    | _ => exact hother rfl
  | socket id =>
    cases e' with
    | socket id' =>
      by_cases hid : id' = id
      · subst hid
        rw [counter_socket] at hroom
        simp only [counter_socket, incFdEntryRef, socketIncRef, get?_modify, if_pos]
        cases hs : k.sockets.get? id' with
        | none => simp
        | some s =>
          rw [hs] at hroom
          simp [satAdd] at hroom ⊢
          omega
      · refine hother ?_
        simp [counter_socket, incFdEntryRef, socketIncRef, hid]
    | _ => exact hother rfl
  | _ => exact hother rfl

/-- Taking a reference for every entry of a list. -/
theorem Ledger.incEntries (h : k.Ledger es)
    (hlive : ∀ e ∈ xs, e.counted = true → 0 < k.counter e)
    (hroom : ∀ e ∈ xs, k.counter e + xs.count e ≤ u32Max) :
    (xs.foldl Kernel.incFdEntryRef k).Ledger (xs ++ es) := by
  induction xs generalizing k es with
  | nil => exact h
  | cons x xs ih =>
    have hx := hroom x (List.mem_cons_self ..)
    rw [List.count_cons_self] at hx
    have hinc := h.incFdEntryRef (hlive x (List.mem_cons_self ..)) (by omega)
    have hcounter := fun e => k.counter_incFdEntryRef x e (by omega)
    refine (ih hinc ?_ ?_).perm List.perm_middle
    · intro e he hcounted
      have := hlive e (List.mem_cons_of_mem _ he) hcounted
      have := (hcounter e).1
      omega
    · intro e he
      have hall := hroom e (List.mem_cons_of_mem _ he)
      have hcons : (x :: xs).count e = [x].count e + xs.count e := by
        rw [← List.count_append, List.singleton_append]
      have := (hcounter e).2
      omega

end Kernel

end Yurt
