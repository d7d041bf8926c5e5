import YurtKernel.Kernel.Ipc
import YurtKernel.Kernel.LedgerOps

/-! Operations of the registries that move no data.

    Each operation that takes, drops or makes references leaves every pipe and every inbox as it was,
    or drops it whole, and keeps the wiring of the sockets. -/

namespace Yurt
open Kernel SortedMap
variable {σ : Type} {k k' : Kernel σ}
variable {s : SocketEntry} {id : Nat}

/-- Whatever leaves the registries alone. -/
theorem Ipc.Wired.same (h : k.ipc.Wired) (hsame : k'.ipc = k.ipc) : k.ipc.Quiet k'.ipc := by
  rw [hsame]
  exact Ipc.Quiet.refl h

/-! ### Taking references -/

theorem Ipc.Wired.keepPipe (h : k.ipc.Wired) {b : PipeBuf} (hb : k.pipes.get? id = some b)
    {o : Option PipeBuf} (ho : ∀ b', o = some b' → b'.bytes = b.bytes) :
    k.ipc.Quiet { k.ipc with pipes := k.pipes.put id o } := by
  have hb : k.ipc.pipes.get? id = some b := hb
  refine h.putPipe (not_le.mp fun hle => nomatch hb.symm.trans (h.pipe_fresh id hle)) (fun b' hb' => ?_)
  rw [Ipc.pipeBytes, hb, Option.map_some, ho b' hb']

theorem Ipc.Wired.pipeIncRef (h : k.ipc.Wired) (id : Nat) (side : PipeEnd) :
    k.ipc.Quiet (k.pipeIncRef id side).ipc := by
  unfold Kernel.pipeIncRef SortedMap.modify
  cases hb : k.pipes.get? id with
  | none => exact h.same rfl
  | some b =>
    refine h.keepPipe hb (o := some (b.incRef side)) (fun b' hb' => ?_)
    cases hb'
    cases side <;> rfl

theorem Ipc.Wired.socketIncRef (h : k.ipc.Wired) (id : Nat) : k.ipc.Quiet (k.socketIncRef id).ipc := by
  unfold Kernel.socketIncRef SortedMap.modify
  cases hs : k.sockets.get? id with
  | none => exact h.same rfl
  | some s => exact h.putSocket (s := s) hs (h.sameRole_refl hs) (.inr rfl)

theorem Ipc.Wired.incFdEntryRef (h : k.ipc.Wired) (e : FdEntry) : k.ipc.Quiet (k.incFdEntryRef e).ipc := by
  cases e with
  | pipe id side => exact h.pipeIncRef id side
  | socket id => exact h.socketIncRef id
  | _ => exact h.same rfl

/-! ### Dropping references -/

theorem Ipc.Wired.pipeDecRef (h : k.ipc.Wired) (id : Nat) (side : PipeEnd) :
    k.ipc.Quiet (k.pipeDecRef id side).ipc := by
  unfold Kernel.pipeDecRef
  cases hb : k.pipes.get? id with
  | none => exact h.same rfl
  | some b =>
    simp only
    split_ifs
    · exact h.keepPipe hb (o := none) (fun _ hnone => by cases hnone)
    · refine h.keepPipe hb (o := some (b.decRef side)) (fun b' hb' => ?_)
      cases hb'
      cases side <;> rfl

theorem Kernel.ipc_ofdDecRef (k : Kernel σ) (id : Nat) : (k.ofdDecRef id).ipc = k.ipc := by
  obtain ⟨_, _, h⟩ := k.ofdDecRef_only id
  rw [h]
  rfl

theorem Ipc.Wired.lowered (h : k.ipc.Wired) (hs : k.sockets.get? id = some s) :
    k.ipc.Quiet (k.lowered id s).ipc :=
  h.putSocket (s := s) hs (h.sameRole_refl hs) (.inr rfl)

/-- A socket goes with what it has queued, and its peer learns of it. -/
theorem Ipc.Wired.dropSocket (h : k.ipc.Wired) (hs : k.sockets.get? id = some s) :
    k.ipc.Quiet ((k.closePeer s.kind.peer?).dropSocket id).ipc := by
  have hpeers : ∀ x, ((k.closePeer s.kind.peer?).dropSocket id).sockets.get? x =
      if x = id then none else if s.kind.peer? = some x
      then (k.sockets.get? x).map (fun t => { t with kind := t.kind.closePeer })
      else k.sockets.get? x := by
    intro x
    rw [Kernel.dropSocket, get?_erase]
    split_ifs with hx hpeer
    · rfl
    · rw [hpeer]
      simp [closePeer]
    · cases hp : s.kind.peer? with
      | none => rfl
      | some p =>
        have hne : x ≠ p := fun heq => hpeer (heq ▸ hp)
        simp [closePeer, hne]
  have hsame : ((k.closePeer s.kind.peer?).dropSocket id).ipc.datagrams = k.ipc.datagrams ∧
      ((k.closePeer s.kind.peer?).dropSocket id).ipc.pipes = k.ipc.pipes ∧
      ((k.closePeer s.kind.peer?).dropSocket id).ipc.shutdown = k.ipc.shutdown.erase id ∧
      ((k.closePeer s.kind.peer?).dropSocket id).ipc.nextPipe = k.ipc.nextPipe ∧
      ((k.closePeer s.kind.peer?).dropSocket id).ipc.nextSocket = k.ipc.nextSocket := by
    cases s.kind.peer? <;> exact ⟨rfl, rfl, rfl, rfl, rfl⟩
  obtain ⟨hnames, hpipes, hshut, hnextPipe, hnext⟩ := hsame
  exact h.drop (s := s) hs hpeers hshut (fun path p hp => hnames ▸ hp) hpipes hnextPipe hnext

/-- The sockets of `k'` are sockets of `k`, some of which have seen their peer go. -/
def Kernel.KeepsKinds (k k' : Kernel σ) : Prop :=
  ∀ x t', k'.sockets.get? x = some t' → ∃ t, k.sockets.get? x = some t ∧
    (t'.kind = t.kind ∨ t'.kind = t.kind.closePeer)

theorem SocketKind.closePeer_closePeer (kind : SocketKind) : kind.closePeer.closePeer = kind.closePeer := by
  cases kind <;> rfl

theorem Kernel.KeepsKinds.refl (k : Kernel σ) : k.KeepsKinds k := fun _ t' h => ⟨t', h, .inl rfl⟩

theorem Kernel.KeepsKinds.trans {k'' : Kernel σ} (h : k.KeepsKinds k') (h' : k'.KeepsKinds k'') :
    k.KeepsKinds k'' := by
  intro x t'' ht''
  obtain ⟨t', ht', hkind'⟩ := h' x t'' ht''
  obtain ⟨t, ht, hkind⟩ := h x t' ht'
  refine ⟨t, ht, ?_⟩
  rcases hkind' with hkind' | hkind' <;> rcases hkind with hkind | hkind <;> rw [hkind', hkind]
  · exact .inl rfl
  · exact .inr rfl
  · exact .inr rfl
  · exact .inr (SocketKind.closePeer_closePeer _)

theorem Kernel.keepsKinds_lowered (hs : k.sockets.get? id = some s) : k.KeepsKinds (k.lowered id s) := by
  intro x t' ht'
  rw [lowered, get?_insert] at ht'
  split_ifs at ht' with hx
  · exact ⟨s, hx ▸ hs, .inl (Option.some.inj ht' ▸ rfl)⟩
  · exact ⟨t', ht', .inl rfl⟩

theorem Kernel.keepsKinds_dropSocket (k : Kernel σ) (peer : Option Nat) (id : Nat) :
    k.KeepsKinds ((k.closePeer peer).dropSocket id) := by
  intro x t' ht'
  rw [dropSocket, get?_erase] at ht'
  split_ifs at ht'
  cases peer with
  | none => exact ⟨t', ht', .inl rfl⟩
  | some p =>
    simp only [closePeer, get?_modify] at ht'
    split_ifs at ht' with hx
    · obtain ⟨t, ht, rfl⟩ := Option.map_eq_some_iff.mp ht'
      exact ⟨t, hx ▸ ht, .inr rfl⟩
    · exact ⟨t', ht', .inl rfl⟩

theorem Ipc.Wired.forgetName (h : k.ipc.Wired) (kind : SocketKind) :
    k.ipc.Quiet (k.forgetName kind).ipc := by
  unfold Kernel.forgetName
  split
  · exact h.same rfl
  · refine h.setNames _ (fun path p hp => h.named path p ?_)
    rw [get?_erase] at hp
    split_ifs at hp
    exact hp
  · exact h.same rfl

theorem Ipc.Wired.socketDecRefAux (fuel : Nat) : ∀ {k : Kernel σ}, k.ipc.Wired → ∀ id,
    k.ipc.Quiet (Kernel.socketDecRefAux fuel k id).2.ipc ∧
      k.KeepsKinds (Kernel.socketDecRefAux fuel k id).2 := by
  induction fuel with
  | zero => exact fun {k} h _ => ⟨Ipc.Quiet.refl h, .refl k⟩
  | succ fuel ih =>
    intro k h id
    cases hs : k.sockets.get? id with
    | none =>
      simp only [Kernel.socketDecRefAux, hs]
      exact ⟨Ipc.Quiet.refl h, .refl k⟩
    | some s =>
      have hlow := h.lowered hs
      have hkinds := keepsKinds_lowered hs
      rw [socketDecRefAux_some hs]
      split_ifs
      · exact ⟨hlow, hkinds⟩
      · -- the waiting connections are dropped first
        obtain ⟨hquiet, hkept⟩ := List.foldlRecOn
          (motive := fun k' : Kernel σ => k.ipc.Quiet k'.ipc ∧ k.KeepsKinds k') s.kind.pending
          (fun k p => (Kernel.socketDecRefAux fuel k p).2)
          (b := (k.lowered id s).forgetName s.kind)
          ⟨hlow.trans (hlow.wired.forgetName s.kind), fun x t ht => hkinds x t (by simpa using ht)⟩ (by
            rintro k' ⟨hq, hk⟩ p -
            exact ⟨hq.trans (ih hq.wired p).1, hk.trans (ih hq.wired p).2⟩)
        have hgone : (s.kind.pending.foldl (fun k p => (Kernel.socketDecRefAux fuel k p).2)
            ((k.lowered id s).forgetName s.kind)).sockets.get? id = none → s.kind.peer? = none := by
          intro hnone
          cases hkind : s.kind with
          | unixStream | unixDatagram =>
            rw [hkind] at hnone
            simp [SocketKind.pending, Kernel.lowered] at hnone
          | _ => rfl
        generalize s.kind.pending.foldl (fun k p => (Kernel.socketDecRefAux fuel k p).2) _ = k₂
          at hquiet hkept hgone ⊢
        refine ⟨hquiet.trans ?_, hkept.trans (keepsKinds_dropSocket k₂ _ id)⟩
        cases ht : k₂.sockets.get? id with
        | none =>
          have herase : (k₂.dropSocket id).ipc =
              { k₂.ipc with shutdown := k₂.ipc.shutdown.erase id } := by
            simp only [Kernel.dropSocket, Kernel.ipc, erase_eq_self ht]
          rw [hgone ht, closePeer, herase]
          exact hquiet.wired.clearShut (fun t ht' => by cases ht.symm.trans ht')
        | some t =>
          -- it still has its peer
          obtain ⟨t₀, ht₀, hkind'⟩ := hkept id t ht
          obtain rfl := Option.mem_unique ht₀ hs
          have hpeer : t.kind.peer? = t₀.kind.peer? := by
            rcases hkind' with hkind' | hkind' <;> rw [hkind']
            cases t₀.kind <;> rfl
          rw [← hpeer]
          exact hquiet.wired.dropSocket ht

theorem Ipc.Wired.closeEntry (h : k.ipc.Wired) (e : FdEntry) : k.ipc.Quiet (k.closeEntry e).2.ipc := by
  cases e with
  | pipe id side => exact h.pipeDecRef id side
  | file id => exact h.same (k.ipc_ofdDecRef id)
  | socket id => exact (h.socketDecRefAux _ id).1
  | _ => exact h.same rfl

theorem Ipc.Wired.closeEntries (h : k.ipc.Wired) (es : List FdEntry) :
    k.ipc.Quiet (k.closeEntries es).ipc := by
  induction es generalizing k with
  | nil => exact Ipc.Quiet.refl h
  | cons e es ih =>
    have hclose := h.closeEntry e
    exact hclose.trans (ih hclose.wired)

/-! ### Half-close bits -/

theorem and_two_pow_ne_zero_iff (n i : Nat) : n &&& 2 ^ i ≠ 0 ↔ n.testBit i = true := by
  rw [Nat.and_two_pow]
  cases n.testBit i <;> simp

theorem Kernel.writeShut_iff (k : Kernel σ) (id : Nat) : k.writeShut id = true ↔ k.ipc.writeShut id := by
  rw [writeShut, decide_eq_true_iff]
  exact and_two_pow_ne_zero_iff (k.socketShutdownBits id) 1

theorem Kernel.socketPeerWriteClosed_iff (k : Kernel σ) (id : Nat) :
    k.socketPeerWriteClosed id = true ↔ k.ipc.peerWriteClosed id := by
  rw [socketPeerWriteClosed, decide_eq_true_iff]
  exact and_two_pow_ne_zero_iff (k.socketShutdownBits id) 2

end Yurt
