import YurtKernel.Dispatch.SocketLedger

/-! The registries of `AF_UNIX` names.

    Two registries lead from a path to a socket: one to listeners, one to datagram sockets. A socket
    remembers the path it was bound to, and its last close takes whatever is registered there. What is
    kept through every such step: an entry leads to a live socket of that name. -/

namespace Yurt
open Kernel SortedMap
variable {σ : Type} {k k' k'' : Kernel σ} {pid : Pid} {id : Nat} {s : SocketEntry}
variable {kind : SocketKind}

/-! ### Registries -/

inductive Registry where
  | listeners
  | datagrams
  deriving DecidableEq

def Kernel.names (k : Kernel σ) : Registry → SortedMap Bytes Nat
  | .listeners => k.unixListeners
  | .datagrams => k.unixDatagrams

namespace SocketKind

/-- The path at which a registry should lead to a socket of this kind. -/
def nameIn : Registry → SocketKind → Option Bytes
  | .listeners, .unixListener path _ _ => some path
  | .datagrams, .unixDatagram _ _ bound _ _ _ => bound
  | _, _ => none

/-! ### Sound registries -/

theorem isStream_of_nameIn {r : Registry} {path : Bytes} (h : kind.nameIn r = some path) :
    kind.isStream = false := by
  cases kind <;> cases r <;> first | rfl | cases h

/-- `kind'` has the name of `kind`, and no more connections waiting. -/
structure Like (kind kind' : SocketKind) : Prop where
  name : ∀ r, kind'.nameIn r = kind.nameIn r
  stream : kind'.isStream = kind.isStream
  pending : kind'.pending ⊆ kind.pending

theorem Like.refl (kind : SocketKind) : kind.Like kind := ⟨fun _ => rfl, rfl, List.Subset.refl _⟩

theorem Like.trans {a b c : SocketKind} (h : a.Like b) (h' : b.Like c) : a.Like c :=
  ⟨fun r => (h'.name r).trans (h.name r), h'.stream.trans h.stream, List.Subset.trans h'.pending h.pending⟩

theorem like_closePeer (kind : SocketKind) : kind.Like kind.closePeer := by
  refine ⟨fun r => ?_, ?_, ?_⟩
  · cases kind <;> cases r <;> rfl
  · cases kind <;> rfl
  · cases kind <;> exact List.Subset.refl _

end SocketKind

namespace Kernel

structure Named (k : Kernel σ) : Prop where
  fresh : ∀ id s, k.sockets.get? id = some s → id < k.nextSocketId
  held : ∀ id s, k.sockets.get? id = some s → 1 ≤ s.refs
  live : ∀ r path id, (k.names r).get? path = some id →
    ∃ s, k.sockets.get? id = some s ∧ s.kind.nameIn r = some path
  waiting : ∀ id s p, k.sockets.get? id = some s → p ∈ s.kind.pending →
    p < k.nextSocketId ∧ ∀ q, k.sockets.get? p = some q → q.kind.isStream = true

/-- All that names depend on. -/
def nameView (k : Kernel σ) : SortedMap Nat SocketEntry × Nat × SortedMap Bytes Nat × SortedMap Bytes Nat :=
  (k.sockets, k.nextSocketId, k.unixListeners, k.unixDatagrams)

/-- A step that changes no entry of the registries. -/
structure Steady (k k' : Kernel σ) : Prop where
  named : k.Named → k'.Named
  names : ∀ r path, (k'.names r).get? path = (k.names r).get? path

theorem Steady.trans (h : k.Steady k') (h' : k'.Steady k'') : k.Steady k'' :=
  ⟨fun hk => h'.named (h.named hk), fun r path => (h'.names r path).trans (h.names r path)⟩

theorem names_of_view (h : k'.nameView = k.nameView) (r : Registry) : k'.names r = k.names r := by
  simp only [nameView, Prod.mk.injEq] at h
  cases r
  · exact h.2.2.1
  · exact h.2.2.2

theorem Named.of_view (h : k'.nameView = k.nameView) (hk : k.Named) : k'.Named := by
  have hnames := names_of_view h
  simp only [nameView, Prod.mk.injEq] at h
  obtain ⟨hsockets, hnext, -, -⟩ := h
  constructor
  · rw [hsockets, hnext]
    exact hk.fresh
  · rw [hsockets]
    exact hk.held
  · intro r path id hname
    rw [hnames] at hname
    rw [hsockets]
    exact hk.live r path id hname
  · rw [hsockets, hnext]
    exact hk.waiting

theorem Steady.of_view (h : k'.nameView = k.nameView) : k.Steady k' :=
  ⟨Named.of_view h, fun r path => by rw [names_of_view h]⟩

theorem Steady.refl (k : Kernel σ) : k.Steady k := .of_view rfl

/-- Sockets may go, lose waiting connections and be renamed by nobody; entries may go, but not lead
    to a socket that went. -/
theorem Named.thin (h : k.Named) (hnext : k'.nextSocketId = k.nextSocketId)
    (hsockets : ∀ i s', k'.sockets.get? i = some s' →
      1 ≤ s'.refs ∧ ∃ s, k.sockets.get? i = some s ∧ s.kind.Like s'.kind)
    (hnames : ∀ r path i, (k'.names r).get? path = some i →
      (k.names r).get? path = some i ∧ k'.sockets.get? i ≠ none) : k'.Named where
  fresh i s' hs' := by
    obtain ⟨-, s, hs, -⟩ := hsockets i s' hs'
    rw [hnext]
    exact h.fresh i s hs
  held i s' hs' := (hsockets i s' hs').1
  live r path i hname := by
    obtain ⟨hold, hlive⟩ := hnames r path i hname
    obtain ⟨s', hs'⟩ := Option.ne_none_iff_exists'.mp hlive
    obtain ⟨-, s, hs, hlike⟩ := hsockets i s' hs'
    obtain ⟨s₀, hs₀, hpath⟩ := h.live r path i hold
    obtain rfl := Option.mem_unique hs₀ hs
    exact ⟨s', hs', (hlike.name r).trans hpath⟩
  waiting i s' p hs' hp := by
    obtain ⟨-, s, hs, hlike⟩ := hsockets i s' hs'
    obtain ⟨hlt, hstream⟩ := h.waiting i s p hs (hlike.pending hp)
    refine ⟨hnext ▸ hlt, fun q' hq' => ?_⟩
    obtain ⟨-, q, hq, hlike'⟩ := hsockets p q' hq'
    exact hlike'.stream.trans (hstream q hq)

/-! ### Dropping references -/

/-- Streams may go and lose references, nothing else happens to names. -/
structure Sheds (k k' : Kernel σ) : Prop where
  next : k'.nextSocketId = k.nextSocketId
  names : ∀ r, k'.names r = k.names r
  sockets : ∀ i s', k'.sockets.get? i = some s' →
    ∃ s, k.sockets.get? i = some s ∧ s.kind.Like s'.kind ∧ (s'.refs = s.refs ∨ 1 ≤ s'.refs)
  others : ∀ i s, k.sockets.get? i = some s → s.kind.isStream = false → k'.sockets.get? i ≠ none

theorem Sheds.refl (k : Kernel σ) : k.Sheds k where
  next := rfl
  names _ := rfl
  sockets _ s' hs' := ⟨s', hs', .refl _, .inl rfl⟩
  others _ s hs _ := by
    rw [hs]
    exact Option.some_ne_none s

theorem Sheds.trans (h : k.Sheds k') (h' : k'.Sheds k'') : k.Sheds k'' where
  next := h'.next.trans h.next
  names r := (h'.names r).trans (h.names r)
  sockets i s'' hs'' := by
    obtain ⟨s', hs', hlike', hrefs'⟩ := h'.sockets i s'' hs''
    obtain ⟨s, hs, hlike, hrefs⟩ := h.sockets i s' hs'
    refine ⟨s, hs, hlike.trans hlike', ?_⟩
    rcases hrefs' with hsame | hpos
    · rw [hsame]
      exact hrefs
    · exact .inr hpos
  others i s hs hstream := by
    obtain ⟨s', hs'⟩ := Option.ne_none_iff_exists'.mp (h.others i s hs hstream)
    obtain ⟨s₀, hs₀, hlike, -⟩ := h.sockets i s' hs'
    obtain rfl := Option.mem_unique hs₀ hs
    exact h'.others i s' hs' (hlike.stream.trans hstream)

theorem sheds_closePeer (k : Kernel σ) (peer : Option Nat) : k.Sheds (k.closePeer peer) := by
  cases peer with
  | none => exact .refl k
  | some p =>
    refine ⟨rfl, fun r => by cases r <;> rfl, fun i s' hs' => ?_, fun i s hs _ => ?_⟩
    · simp only [closePeer, get?_modify] at hs'
      split_ifs at hs' with hi
      · obtain ⟨s, hs, rfl⟩ := Option.map_eq_some_iff.mp hs'
        exact ⟨s, hi ▸ hs, s.kind.like_closePeer, .inl rfl⟩
      · exact ⟨s', hs', .refl _, .inl rfl⟩
    · simp only [closePeer, get?_modify]
      split_ifs with hi
      · subst hi
        simp [hs]
      · simp [hs]

/-- A waiting connection loses its reference. -/
theorem sheds_decRef_stream {p : Nat} (fuel : Nat)
    (hstream : ∀ q, k.sockets.get? p = some q → q.kind.isStream = true) :
    k.Sheds (Kernel.socketDecRefAux fuel k p).2 := by
  cases fuel with
  | zero => exact .refl k
  | succ fuel =>
    cases hq : k.sockets.get? p with
    | none =>
      simp only [socketDecRefAux, hq]
      exact .refl k
    | some q =>
      have hkind := hstream q hq
      have hlowered : (q.refs - 1 = 0 → False) → k.Sheds (k.lowered p q) := fun hpos => by
        refine ⟨rfl, fun r => by cases r <;> rfl, fun i s' hs' => ?_, fun i s hs _ => ?_⟩
        · simp only [lowered, get?_insert] at hs'
          split_ifs at hs' with hi
          · cases hs'
            exact ⟨q, hi ▸ hq, .refl _, .inr (Nat.one_le_iff_ne_zero.mpr hpos)⟩
          · exact ⟨s', hs', .refl _, .inl rfl⟩
        · simp only [lowered, get?_insert]
          split_ifs
          · exact Option.some_ne_none _
          · rw [hs]
            exact Option.some_ne_none _
      rw [socketDecRefAux_some hq]
      by_cases hlast : q.refs - 1 = 0
      · rw [if_neg (not_not.mpr hlast)]
        cases hk : q.kind with
        | unixStream peer =>
          have hpeer := (k.lowered p q).sheds_closePeer (some peer)
          refine ⟨hpeer.next, fun r => ?_, fun i s' hs' => ?_, fun i s hs hother => ?_⟩
          · cases r <;> rfl
          · simp only [dropSocket, get?_erase] at hs'
            split_ifs at hs' with hi
            obtain ⟨s, hs, hrest⟩ := hpeer.sockets i s' hs'
            rw [lowered, get?_insert_ne _ _ hi] at hs
            exact ⟨s, hs, hrest⟩
          · have hi : i ≠ p := by
              rintro rfl
              obtain rfl := Option.mem_unique hs hq
              rw [hother] at hkind
              cases hkind
            simp only [dropSocket, get?_erase, if_neg hi]
            refine hpeer.others i s ?_ hother
            rw [lowered, get?_insert_ne _ _ hi]
            exact hs
        | _ => rw [hk] at hkind; cases hkind
      · rw [if_pos hlast]
        exact hlowered hlast

theorem sheds_drop_pending (fuel : Nat) (ps : List Nat) (k : Kernel σ)
    (hstream : ∀ p ∈ ps, ∀ q, k.sockets.get? p = some q → q.kind.isStream = true) :
    k.Sheds (ps.foldl (fun k p => (Kernel.socketDecRefAux fuel k p).2) k) := by
  induction ps generalizing k with
  | nil => exact .refl k
  | cons p ps ih =>
    have hfirst := sheds_decRef_stream fuel (hstream p List.mem_cons_self)
    refine hfirst.trans (ih _ (fun p' hp' q' hq' => ?_))
    obtain ⟨q, hq, hlike, -⟩ := hfirst.sockets p' q' hq'
    exact hlike.stream.trans (hstream p' (List.mem_cons_of_mem p hp') q hq)

/-- What giving a reference to socket `id` back does to names. -/
structure Gives (k : Kernel σ) (id : Nat) (k' : Kernel σ) : Prop where
  named : k'.Named
  names : ∀ r path i, (k'.names r).get? path = some i → (k.names r).get? path = some i
  spares : ∀ r path i, (k.names r).get? path = some i → (k'.names r).get? path = some i ∨
    ∃ s, k.sockets.get? id = some s ∧ s.refs = 1 ∧ s.kind.nameIn r = some path ∧ k'.sockets.get? id = none

theorem Gives.of_named (h : k'.Named) (hnames : ∀ r, k'.names r = k.names r) : k.Gives id k' where
  named := h
  names r path i hname := by
    rw [hnames] at hname
    exact hname
  spares r path i hname := by
    rw [hnames]
    exact .inl hname

theorem names_forgetName (k : Kernel σ) (kind : SocketKind) (r : Registry) (path : Bytes) :
    ((k.forgetName kind).names r).get? path =
      if kind.nameIn r = some path then none else (k.names r).get? path := by
  cases kind with
  | unixListener => cases r <;> simp [forgetName, names, SocketKind.nameIn, eq_comm]
  | unixDatagram peer pp bound =>
    cases bound <;> cases r <;> simp [forgetName, names, SocketKind.nameIn, eq_comm]
  | _ => cases r <;> rfl

/-- The last reference goes: the name is erased first, then streams shed, then the socket goes. -/
theorem Named.drop (h : k.Named) (hs : k.sockets.get? id = some s) (hlast : s.refs - 1 = 0)
    {k' : Kernel σ} (hshed : ((k.lowered id s).forgetName s.kind).Sheds k') :
    k.Gives id (k'.dropSocket id) := by
  have hnext : ((k.lowered id s).forgetName s.kind).nextSocketId = k.nextSocketId := by
    cases s.kind with
    | unixDatagram peer pp bound => cases bound <;> rfl
    | _ => rfl
  have hnames : ∀ r path, ((k'.dropSocket id).names r).get? path =
      if s.kind.nameIn r = some path then none else (k.names r).get? path := fun r path => by
    have hlowered : (k.lowered id s).names r = k.names r := by cases r <;> rfl
    rw [← hlowered, ← names_forgetName, ← hshed.names r]
    cases r <;> rfl
  have hentry : ∀ r path i, ((k'.dropSocket id).names r).get? path = some i →
      (k.names r).get? path = some i ∧ i ≠ id := by
    intro r path i hname
    rw [hnames] at hname
    split_ifs at hname with hown
    refine ⟨hname, ?_⟩
    rintro rfl
    obtain ⟨s₀, hs₀, hpath⟩ := h.live r path i hname
    obtain rfl := Option.mem_unique hs₀ hs
    exact hown hpath
  have hget : ∀ i, i ≠ id →
      ((k.lowered id s).forgetName s.kind).sockets.get? i = k.sockets.get? i := fun i hi => by
    rw [sockets_forgetName, lowered, get?_insert_ne _ _ hi]
  have hgone : ∀ i, i ≠ id → (k'.dropSocket id).sockets.get? i = k'.sockets.get? i := fun i hi => by
    rw [dropSocket, get?_erase, if_neg hi]
  have hdead : (k'.dropSocket id).sockets.get? id = none := by
    rw [dropSocket, get?_erase, if_pos rfl]
  refine ⟨h.thin (hshed.next.trans hnext) (fun i s' hs' => ?_) (fun r path i hname => ?_),
    fun r path i hname => ?_, fun r path i hname => ?_⟩
  · have hi : i ≠ id := by
      rintro rfl
      rw [hdead] at hs'
      cases hs'
    rw [hgone i hi] at hs'
    obtain ⟨t, ht, hlike, hrefs⟩ := hshed.sockets i s' hs'
    rw [hget i hi] at ht
    refine ⟨?_, t, ht, hlike⟩
    rcases hrefs with hsame | hpos
    · rw [hsame]
      exact h.held i t ht
    · exact hpos
  · obtain ⟨hold, hi⟩ := hentry r path i hname
    refine ⟨hold, ?_⟩
    obtain ⟨t, ht, hpath⟩ := h.live r path i hold
    rw [hgone i hi]
    exact hshed.others i t ((hget i hi).trans ht) (SocketKind.isStream_of_nameIn hpath)
  · exact (hentry r path i hname).1
  · rw [hnames]
    have hone : s.refs = 1 := Nat.le_antisymm (Nat.sub_eq_zero_iff_le.mp hlast) (h.held id s hs)
    split_ifs with hown
    · exact .inr ⟨s, hs, hone, hown, hdead⟩
    · exact .inl hname

theorem Named.lowered (h : k.Named) (hs : k.sockets.get? id = some s) (hmore : s.refs - 1 ≠ 0) :
    (k.lowered id s).Named := by
  refine h.thin rfl (fun i s' hs' => ?_) (fun r path i hname => ?_)
  · simp only [Kernel.lowered, get?_insert] at hs'
    split_ifs at hs' with hi
    · cases hs'
      exact ⟨Nat.one_le_iff_ne_zero.mpr hmore, s, hi ▸ hs, .refl _⟩
    · exact ⟨h.held i s' hs', s', hs', .refl _⟩
  · have hold : (k.names r).get? path = some i := by
      cases r <;> exact hname
    refine ⟨hold, ?_⟩
    obtain ⟨t, ht, -⟩ := h.live r path i hold
    simp only [Kernel.lowered, get?_insert]
    split_ifs
    · exact Option.some_ne_none _
    · rw [ht]
      exact Option.some_ne_none _

theorem Named.socketDecRef (h : k.Named) (id : Nat) : k.Gives id (k.socketDecRef id).2 := by
  cases hs : k.sockets.get? id with
  | none =>
    simp only [Kernel.socketDecRef, Kernel.socketDecRefAux, hs]
    exact .of_named h (fun _ => rfl)
  | some s =>
    rw [Kernel.socketDecRef, socketDecRefAux_some hs]
    by_cases hlast : s.refs - 1 = 0
    · rw [if_neg (not_not.mpr hlast)]
      refine h.drop hs hlast
        ((sheds_drop_pending _ _ _ (fun p hp q hq => ?_)).trans (sheds_closePeer _ _))
      have hwait := h.waiting id s p hs hp
      rw [sockets_forgetName, Kernel.lowered, get?_insert] at hq
      split_ifs at hq with hi
      · cases hq
        exact hwait.2 s (hi ▸ hs)
      · exact hwait.2 q hq
    · rw [if_pos hlast]
      exact .of_named (h.lowered hs hlast) (fun r => by cases r <;> rfl)

/-- A reference is given back that is not the last one of a socket with a name. -/
theorem Gives.steady (h : k.Gives id k')
    (hname : ∀ s, k.sockets.get? id = some s → s.refs = 1 → ∀ r, s.kind.nameIn r = none) :
    k.Steady k' where
  named _ := h.named
  names r path := by
    cases hold : (k.names r).get? path with
    | none =>
      by_contra hnew
      obtain ⟨i, hi⟩ := Option.ne_none_iff_exists'.mp hnew
      rw [h.names r path i hi] at hold
      cases hold
    | some i =>
      rcases h.spares r path i hold with hkept | ⟨s, hs, hone, hpath, -⟩
      · exact hkept
      · rw [hname s hs hone r] at hpath
        cases hpath

/-! ### New sockets, new kinds, new names -/

theorem Named.addSocket (h : k.Named) (domain sockType : Nat) (hpending : kind.pending = []) :
    (k.addSocket domain sockType kind).2.Named := by
  have hget : ∀ i, (k.addSocket domain sockType kind).2.sockets.get? i =
      if i = k.nextSocketId then some ⟨1, domain, sockType, false, kind⟩ else k.sockets.get? i :=
    fun i => get?_insert _ _ _ _
  have hnew : ∀ i t, k.sockets.get? i = some t → i ≠ k.nextSocketId :=
    fun i t ht => Nat.ne_of_lt (h.fresh i t ht)
  constructor
  · intro i t ht
    rw [hget] at ht
    split_ifs at ht with hi
    · exact hi ▸ Nat.lt_succ_self _
    · exact Nat.lt_succ_of_lt (h.fresh i t ht)
  · intro i t ht
    rw [hget] at ht
    split_ifs at ht
    · cases ht
      exact le_refl 1
    · exact h.held i t ht
  · intro r path i hname
    obtain ⟨t, ht, hpath⟩ := h.live r path i (by cases r <;> exact hname)
    rw [hget, if_neg (hnew i t ht)]
    exact ⟨t, ht, hpath⟩
  · intro i t p ht hp
    rw [hget] at ht
    split_ifs at ht
    · cases ht
      simp only [hpending] at hp
      cases hp
    · obtain ⟨hlt, hstream⟩ := h.waiting i t p ht hp
      refine ⟨Nat.lt_succ_of_lt hlt, fun q hq => hstream q ?_⟩
      rw [hget, if_neg (Nat.ne_of_lt hlt)] at hq
      exact hq

theorem steady_addSocket (k : Kernel σ) (domain sockType : Nat)
    (hpending : kind.pending = []) : k.Steady (k.addSocket domain sockType kind).2 :=
  ⟨fun h => h.addSocket domain sockType hpending, fun r _ => by cases r <;> rfl⟩

theorem Named.setKind (h : k.Named)
    (hname : ∀ s, k.sockets.get? id = some s → ∀ r, kind.nameIn r = s.kind.nameIn r ∨
      ∀ path, (k.names r).get? path ≠ some id)
    (hstream : ∀ s, k.sockets.get? id = some s → kind.isStream = s.kind.isStream)
    (hpending : ∀ p ∈ kind.pending,
      p < k.nextSocketId ∧ ∀ q, k.sockets.get? p = some q → q.kind.isStream = true) :
    (k.setKind id kind).Named := by
  have hstreams : ∀ p, (∀ q, k.sockets.get? p = some q → q.kind.isStream = true) →
      ∀ q, (k.setKind id kind).sockets.get? p = some q → q.kind.isStream = true := by
    intro p hp q hq
    rw [get?_setKind] at hq
    split_ifs at hq with hi
    · obtain ⟨t, ht, rfl⟩ := Option.map_eq_some_iff.mp hq
      exact (hstream t ht).trans (hp t (hi ▸ ht))
    · exact hp q hq
  constructor
  · intro i t ht
    rw [get?_setKind] at ht
    split_ifs at ht with hi
    · obtain ⟨t₀, ht₀, -⟩ := Option.map_eq_some_iff.mp ht
      exact hi ▸ h.fresh id t₀ ht₀
    · exact h.fresh i t ht
  · intro i t ht
    rw [get?_setKind] at ht
    split_ifs at ht with hi
    · obtain ⟨t₀, ht₀, rfl⟩ := Option.map_eq_some_iff.mp ht
      exact h.held id t₀ ht₀
    · exact h.held i t ht
  · intro r path i hentry
    have hold : (k.names r).get? path = some i := by cases r <;> exact hentry
    obtain ⟨t, ht, hpath⟩ := h.live r path i hold
    rw [get?_setKind]
    split_ifs with hi
    · subst hi
      refine ⟨{ t with kind := kind }, by rw [ht]; rfl, ?_⟩
      rcases hname t ht r with hsame | hnone
      · exact hsame.trans hpath
      · exact absurd hold (hnone path)
    · exact ⟨t, ht, hpath⟩
  · intro i t p ht hp
    rw [get?_setKind] at ht
    split_ifs at ht with hi
    · obtain ⟨t₀, -, rfl⟩ := Option.map_eq_some_iff.mp ht
      exact ⟨(hpending p hp).1, hstreams p (hpending p hp).2⟩
    · obtain ⟨hlt, hall⟩ := h.waiting i t p ht hp
      exact ⟨hlt, hstreams p hall⟩

theorem names_setKind (k : Kernel σ) (id : Nat) (kind : SocketKind) (r : Registry) :
    (k.setKind id kind).names r = k.names r := by
  cases r <;> rfl

theorem steady_setKind (hlike : ∀ s, k.sockets.get? id = some s → s.kind.Like kind) :
    k.Steady (k.setKind id kind) := by
  refine ⟨fun h => ?_, fun r path => by rw [names_setKind]⟩
  cases hs : k.sockets.get? id with
  | none =>
    have hsame : (k.setKind id kind).nameView = k.nameView := by
      have hget : (k.setKind id kind).sockets = k.sockets := ext_get? (fun i => by
        rw [get?_setKind, hs]
        split_ifs with hi
        · rw [hi, hs]
          rfl
        · rfl)
      simp only [nameView, hget]
      rfl
    exact h.of_view hsame
  | some s =>
    refine h.setKind (fun t ht r => .inl ((hlike t ht).name r)) (fun t ht => (hlike t ht).stream)
      (fun p hp => h.waiting id s p hs ((hlike s hs).pending hp))

/-- Entries may go, and may be added for sockets of that name. -/
theorem Named.renames (h : k.Named) (hsockets : k'.sockets = k.sockets)
    (hnext : k'.nextSocketId = k.nextSocketId)
    (hnames : ∀ r path i, (k'.names r).get? path = some i → (k.names r).get? path = some i ∨
      ∃ s, k.sockets.get? i = some s ∧ s.kind.nameIn r = some path) : k'.Named where
  fresh := by
    rw [hsockets, hnext]
    exact h.fresh
  held := by
    rw [hsockets]
    exact h.held
  live r path i hname := by
    rw [hsockets]
    exact (hnames r path i hname).elim (h.live r path i) (fun hnew => hnew)
  waiting := by
    rw [hsockets, hnext]
    exact h.waiting

section
variable (k : Kernel σ)

theorem nameView_noteSocketInode (path : Bytes) :
    (k.noteSocketInode path).nameView = k.nameView := by
  unfold noteSocketInode
  split_ifs <;> rfl

/-! ### References -/

theorem steady_incFdEntryRef (e : FdEntry) : k.Steady (k.incFdEntryRef e) := by
  cases e with
  | socket id =>
    refine ⟨fun h => h.thin rfl (fun i s' hs' => ?_) (fun r path i hname => ?_),
      fun r path => by cases r <;> rfl⟩
    · simp only [incFdEntryRef, socketIncRef, get?_modify] at hs'
      split_ifs at hs' with hi
      · obtain ⟨t, ht, rfl⟩ := Option.map_eq_some_iff.mp hs'
        have hmax : 1 ≤ u32Max := by decide
        exact ⟨Nat.le_min.mpr ⟨Nat.le_add_left 1 _, hmax⟩, t, hi ▸ ht, .refl _⟩
      · exact ⟨h.held i s' hs', s', hs', .refl _⟩
    · have hold : (k.names r).get? path = some i := by cases r <;> exact hname
      obtain ⟨t, ht, -⟩ := h.live r path i hold
      refine ⟨hold, ?_⟩
      simp only [incFdEntryRef, socketIncRef, get?_modify]
      split_ifs with hi
      · rw [← hi, ht]
        exact Option.some_ne_none _
      · rw [ht]
        exact Option.some_ne_none _
  | _ => exact .of_view rfl

theorem steady_incRefs (es : List FdEntry) (k : Kernel σ) : k.Steady (es.foldl Kernel.incFdEntryRef k) :=
  List.foldlRecOn es _ (.refl k) (fun k' h e _ => h.trans (k'.steady_incFdEntryRef e))

theorem nameView_pipeDecRef (id : Nat) (side : PipeEnd) :
    (k.pipeDecRef id side).nameView = k.nameView := by
  obtain ⟨_, h⟩ := k.pipeDecRef_only id side
  rw [h]
  rfl

theorem nameView_ofdDecRef (id : Nat) : (k.ofdDecRef id).nameView = k.nameView := by
  obtain ⟨_, _, h⟩ := k.ofdDecRef_only id
  rw [h]
  rfl

end

theorem nameView_closeHandle (kh : Kh σ) (k : Kernel σ) (handle : Option Int) :
    (k.closeHandle kh handle).nameView = k.nameView := by
  cases handle <;> rfl

/-- A reference is given back; if it was the last one of a socket, that one had no name. -/
theorem Named.steady_decFdEntryRef (h : k.Named) (kh : Kh σ) {e : FdEntry}
    (hname : ∀ id s, e = .socket id → k.sockets.get? id = some s → s.refs = 1 →
      ∀ r, s.kind.nameIn r = none) : k.Steady (k.decFdEntryRef kh e) := by
  cases e with
  | socket id =>
    have hdec := (h.socketDecRef id).steady (fun s hs hone => hname id s rfl hs hone)
    exact hdec.trans (.of_view (nameView_closeHandle kh _ _))
  | pipe id side => exact .of_view (k.nameView_pipeDecRef id side)
  | file id => exact .of_view (k.nameView_ofdDecRef id)
  | _ => exact .refl k

/-- After one reference more, giving one back does not take the last one. -/
theorem Named.refs_incFdEntryRef (h : k.Named)
    (hs : (k.incFdEntryRef (.socket id)).sockets.get? id = some s) : s.refs ≠ 1 := by
  simp only [incFdEntryRef, socketIncRef, get?_modify, if_true] at hs
  obtain ⟨t, ht, rfl⟩ := Option.map_eq_some_iff.mp hs
  have hheld := h.held id t ht
  have hmax : 2 ≤ u32Max := by decide
  exact Nat.ne_of_gt (Nat.le_min.mpr ⟨Nat.add_le_add_right hheld 1, hmax⟩)

theorem Named.steady_installSocketIdFd (h : k.Named) (kh : Kh σ) (pid : Pid)
    (hname : ∀ s, k.sockets.get? id = some s → ∀ r, s.kind.nameIn r = none) :
    k.Steady (k.installSocketIdFd kh pid id).2 := by
  unfold installSocketIdFd
  cases k.freeFd pid with
  | some fd => exact .of_view rfl
  | none =>
    have htouch : k.Steady (k.touch pid) := .of_view rfl
    change k.Steady ((k.touch pid).decFdEntryRef kh (.socket id))
    refine htouch.trans ((htouch.named h).steady_decFdEntryRef kh (fun i s hi hs _ => ?_))
    obtain rfl := FdEntry.socket.inj hi
    exact hname s hs

theorem Named.steady_replaceSocketFd (h : k.Named) (kh : Kh σ) (pid : Pid) (fd : Nat)
    {oldId : Nat} (newId : Nat)
    (hname : ∀ s, k.sockets.get? oldId = some s → ∀ r, s.kind.nameIn r = none) :
    k.Steady (k.replaceSocketFd kh pid fd oldId newId) := by
  have hinstall : k.Steady (k.installFd pid fd (.socket newId)) := .of_view rfl
  refine hinstall.trans ((hinstall.named h).steady_decFdEntryRef kh (fun i s hi hs _ => ?_))
  obtain rfl := FdEntry.socket.inj hi
  exact hname s hs

end Kernel

end Yurt
