import YurtKernel.Dispatch.Counts
import YurtKernel.Dispatch.PathObjects

/-! What is stored in the object tables of every reachable kernel.

    Whatever references are lost, every pipe, open file description and socket that is there has a
    positive count, and ids come from the counters: nothing is stored under an id that is still to be
    handed out. Unlike the ledger this needs no condition on the calls. -/

namespace Yurt
open Kernel SortedMap
variable {σ : Type}

/-- The object tables hold live objects under ids below their counters, but for sockets that are
    just being dropped. -/
structure Stocked (pipes : SortedMap Nat PipeBuf) (nextPipe : Nat)
    (ofds : SortedMap Nat OpenFileDescription) (nextOfd : Nat) (sockets : SortedMap Nat SocketEntry)
    (nextSocket : Nat) (dying : Nat → Prop) : Prop where
  pipe_pos : ∀ id b, pipes.get? id = some b → 0 < b.readEnds + b.writeEnds
  pipe_fresh : ∀ id, nextPipe ≤ id → pipes.get? id = none
  ofd_pos : ∀ id o, ofds.get? id = some o → 0 < o.refs
  ofd_fresh : ∀ id, nextOfd ≤ id → ofds.get? id = none
  socket_pos : ∀ id s, ¬ dying id → sockets.get? id = some s → 0 < s.refs
  socket_fresh : ∀ id, nextSocket ≤ id → sockets.get? id = none

def Kernel.StockedBut (k : Kernel σ) (dying : Nat → Prop) : Prop :=
  Yurt.Stocked k.pipes k.nextPipeId k.ofds k.nextOfdId k.sockets k.nextSocketId dying

def Kernel.Stocked (k : Kernel σ) : Prop := k.StockedBut (fun _ => False)

variable {k k' : Kernel σ} {pid : Pid} {id : Nat} {dying : Nat → Prop}

theorem Kernel.stocked_new (host : σ) : (Kernel.new host).Stocked where
  pipe_pos _ _ h := by cases h
  pipe_fresh _ _ := rfl
  ofd_pos _ _ h := by cases h
  ofd_fresh _ _ := rfl
  socket_pos _ _ _ h := by cases h
  socket_fresh _ _ := rfl

namespace Stocked
variable {pipes : SortedMap Nat PipeBuf} {nextPipe : Nat} {ofds : SortedMap Nat OpenFileDescription}
  {nextOfd : Nat} {sockets : SortedMap Nat SocketEntry} {nextSocket : Nat}

theorem shelves : Stocked pipes nextPipe ofds nextOfd sockets nextSocket dying ↔
    Shelf pipes nextPipe (fun _ b => 0 < b.readEnds + b.writeEnds) ∧
      Shelf ofds nextOfd (fun _ o => 0 < o.refs) ∧
      Shelf sockets nextSocket (fun id s => ¬ dying id → 0 < s.refs) := by
  constructor
  · intro h
    exact ⟨⟨h.pipe_pos, h.pipe_fresh⟩, ⟨h.ofd_pos, h.ofd_fresh⟩,
      ⟨fun id s hs hd => h.socket_pos id s hd hs, h.socket_fresh⟩⟩
  · rintro ⟨hp, ho, hs⟩
    exact ⟨hp.live, hp.fresh, ho.live, ho.fresh, fun id s hd h => hs.live id s h hd, hs.fresh⟩

end Stocked

namespace Kernel

/-- Calls that leave the ledger's view alone. -/
theorem Stocked.view (h : k.Stocked) (hview : k'.refView = k.refView) : k'.Stocked := by
  obtain ⟨hp, ho, hs⟩ := Stocked.shelves.mp h
  rw [Stocked, StockedBut, show k'.nextPipeId = k.nextPipeId from congrArg RefView.nextPipe hview,
    show k'.nextOfdId = k.nextOfdId from congrArg RefView.nextOfd hview,
    show k'.nextSocketId = k.nextSocketId from congrArg RefView.nextSocket hview]
  refine Stocked.shelves.mpr ⟨hp.seen (f := fun b => (b.readEnds, b.writeEnds)) ?_ (fun i => ?_),
    ho.seen (f := OpenFileDescription.refs) ?_ (fun i => ?_),
    hs.seen (f := SocketEntry.refsView) ?_ (fun i => ?_)⟩
  · rintro - v w heq hv
    obtain ⟨hread, hwrite⟩ := Prod.mk.inj heq
    rwa [← hread, ← hwrite]
  · rw [← refView_pipes_get?, ← refView_pipes_get?, hview]
  · exact fun _ _ _ heq hv => heq ▸ hv
  · rw [← refView_ofds_get?, ← refView_ofds_get?, hview]
  · exact fun _ v w heq hv hd => (hv hd).trans_eq (congrArg SocketRefs.refs heq)
  · rw [← refView_sockets_get?, ← refView_sockets_get?, hview]

end Kernel

theorem satAdd_pos {n : Nat} : 0 < satAdd n 1 := by
  unfold satAdd u32Max
  omega

theorem PipeBuf.incRef_pos (b : PipeBuf) (side : PipeEnd) :
    0 < (b.incRef side).readEnds + (b.incRef side).writeEnds := by
  have hpos := satAdd_pos (n := b.readEnds)
  have hpos' := satAdd_pos (n := b.writeEnds)
  cases side <;> simp only [PipeBuf.incRef] <;> omega

namespace Kernel

theorem Stocked.incFdEntryRef (h : k.Stocked) (e : FdEntry) : (k.incFdEntryRef e).Stocked := by
  obtain ⟨hp, ho, hs⟩ := Stocked.shelves.mp h
  cases e with
  | pipe i side => exact Stocked.shelves.mpr ⟨hp.modify (fun b _ => b.incRef_pos side), ho, hs⟩
  | file i => exact Stocked.shelves.mpr ⟨hp, ho.modify (fun _ _ => satAdd_pos), hs⟩
  | socket i => exact Stocked.shelves.mpr ⟨hp, ho, hs.modify (fun _ _ _ => satAdd_pos)⟩
  | _ => exact h

theorem Stocked.pipeDecRef (h : k.Stocked) (id : Nat) (side : PipeEnd) :
    (k.pipeDecRef id side).Stocked := by
  obtain ⟨hp, ho, hs⟩ := Stocked.shelves.mp h
  unfold Kernel.pipeDecRef
  cases hb : k.pipes.get? id with
  | none => exact h
  | some b =>
    dsimp only
    split_ifs with hzero
    · exact Stocked.shelves.mpr ⟨hp.erase id, ho, hs⟩
    · exact Stocked.shelves.mpr ⟨hp.insert hb (by omega), ho, hs⟩

theorem Stocked.ofdDecRef (h : k.Stocked) (id : Nat) : (k.ofdDecRef id).Stocked := by
  obtain ⟨hp, ho, hs⟩ := Stocked.shelves.mp h
  unfold Kernel.ofdDecRef
  cases hold : k.ofds.get? id with
  | none => exact h
  | some o =>
    dsimp only
    split_ifs with hzero
    · exact Stocked.shelves.mpr ⟨hp, ho.erase id, hs⟩
    · exact Stocked.shelves.mpr ⟨hp, ho.insert hold (Nat.pos_of_ne_zero hzero), hs⟩

/-- Sockets are dropped, or change under their ids. -/
theorem StockedBut.sockets (h : k.StockedBut dying) {sockets : SortedMap Nat SocketEntry}
    {dying' : Nat → Prop} (hpos : ∀ j s, sockets.get? j = some s → ¬ dying' j → 0 < s.refs)
    (hsockets : ∀ j, k.sockets.get? j = none → sockets.get? j = none) :
    StockedBut { k with sockets := sockets } dying' := by
  obtain ⟨hp, ho, hs⟩ := Stocked.shelves.mp h
  exact Stocked.shelves.mpr ⟨hp, ho, hs.change hpos hsockets⟩

/-- A socket changes and keeps its count. -/
theorem StockedBut.modifySocket (h : k.StockedBut dying) (id : Nat)
    {f : SocketEntry → SocketEntry} (hf : ∀ s, (f s).refs = s.refs) :
    StockedBut { k with sockets := k.sockets.modify id f } dying := by
  obtain ⟨hp, ho, hs⟩ := Stocked.shelves.mp h
  exact Stocked.shelves.mpr ⟨hp, ho, hs.modify (fun s hold => hf s ▸ hs.live id s hold)⟩

theorem Stocked.setKind (h : k.Stocked) (id : Nat) (kind : SocketKind) :
    (k.setKind id kind).Stocked := StockedBut.modifySocket h id (fun _ => rfl)

theorem StockedBut.closePeer (h : k.StockedBut dying) (peer : Option Nat) :
    (k.closePeer peer).StockedBut dying := by
  cases peer with
  | none => exact h
  | some p => exact h.modifySocket p (fun _ => rfl)

/-- Dropping a socket ends its dying. -/
theorem StockedBut.dropSocket (h : k.StockedBut (fun j => j = id ∨ dying j)) :
    (k.dropSocket id).StockedBut dying := by
  have hdrop : StockedBut { k with sockets := k.sockets.erase id } dying := by
    refine h.sockets (fun j s hs hj => ?_) (fun j hj => by rw [get?_erase, hj, ite_self])
    rw [get?_erase] at hs
    split_ifs at hs with hji
    exact h.socket_pos j s (not_or.mpr ⟨hji, hj⟩) hs
  exact hdrop

theorem StockedBut.socketDecRefAux (fuel : Nat) : ∀ {k : Kernel σ} {dying : Nat → Prop},
    k.StockedBut dying → ∀ id, (Kernel.socketDecRefAux fuel k id).2.StockedBut dying := by
  induction fuel with
  | zero => intro k dying h id; exact h
  | succ fuel ih =>
    intro k dying h id
    cases hs : k.sockets.get? id with
    | none => simpa only [Kernel.socketDecRefAux, hs] using h
    | some s =>
      have hnone : ∀ j, k.sockets.get? j = none →
          (k.sockets.insert id { s with refs := s.refs - 1 }).get? j = none := fun j hj => by grind
      rw [socketDecRefAux_some hs]
      split_ifs with hlast
      · refine h.sockets (fun j s' hs' hj => ?_) hnone
        rw [get?_insert] at hs'
        split_ifs at hs' with hji
        · cases hs'
          exact Nat.pos_of_ne_zero hlast
        · exact h.socket_pos j s' hj hs'
      · -- the count is 0 until the socket is dropped
        have hlow : (k.lowered id s).StockedBut (fun j => j = id ∨ dying j) := by
          refine h.sockets (fun j s' hs' hj => ?_) hnone
          obtain ⟨hji, hj⟩ := not_or.mp hj
          rw [get?_insert, if_neg hji] at hs'
          exact h.socket_pos j s' hj hs'
        have hnamed : ((k.lowered id s).forgetName s.kind).StockedBut (fun j => j = id ∨ dying j) := by
          unfold Kernel.forgetName
          split <;> exact hlow
        have hshed := List.foldlRecOn
          (motive := fun k : Kernel σ => k.StockedBut (fun j => j = id ∨ dying j)) s.kind.pending
          _ hnamed (fun _ hk p _ => ih hk p)
        exact (hshed.closePeer _).dropSocket

theorem Stocked.closeEntry (h : k.Stocked) (e : FdEntry) : (k.closeEntry e).2.Stocked := by
  cases e with
  | pipe id side => exact h.pipeDecRef id side
  | file id => exact h.ofdDecRef id
  | socket id => exact StockedBut.socketDecRefAux _ h id
  | _ => exact h

/-! ### New objects -/

theorem Stocked.createPipe (h : k.Stocked) : k.createPipe.2.Stocked := by
  obtain ⟨hp, ho, hs⟩ := Stocked.shelves.mp h
  exact Stocked.shelves.mpr ⟨hp.push (by decide), ho, hs⟩

theorem Stocked.createOfd (h : k.Stocked) (mountId : MountId) (inode : Inode)
    (writable : Bool) : (k.createOfd mountId inode writable).2.Stocked := by
  obtain ⟨hp, ho, hs⟩ := Stocked.shelves.mp h
  exact Stocked.shelves.mpr ⟨hp, ho.push Nat.one_pos, hs⟩

theorem Stocked.addSocket (h : k.Stocked) (domain sockType : Nat) (kind : SocketKind) :
    (k.addSocket domain sockType kind).2.Stocked := by
  obtain ⟨hp, ho, hs⟩ := Stocked.shelves.mp h
  exact Stocked.shelves.mpr ⟨hp, ho, hs.push (fun _ => Nat.one_pos)⟩

end Kernel

/-! ### Every call -/

/-- Live objects under used ids are a property that every elementary change keeps. -/
def stockRule (σ : Type) : Rule σ where
  holds o := Stocked o.pipes o.nextPipe o.ofds o.nextOfd o.sockets o.nextSocket (fun _ => False)
  knows _ _ _ := True
  locks := True
  binds := True
  incFdEntryRef _ e h := Kernel.Stocked.incFdEntryRef h e
  closeEntry _ e h := Kernel.Stocked.closeEntry h e
  createPipe _ h := Kernel.Stocked.createPipe h
  createOfd _ mountId inode writable _ h := Kernel.Stocked.createOfd h mountId inode writable
  addSocket _ domain sockType kind h := Kernel.Stocked.addSocket h domain sockType kind
  setKind _ id kind h := Kernel.Stocked.setKind h id kind
  setBytes _ _ _ bytes hb h := Kernel.Stocked.view h (refView_setPipeBytes hb bytes)
  modifyOfd k id _ hf h := Kernel.Stocked.view h (refView_modifyOfd (fun o => (hf o).1) k id)
  storage _ _ _ _ h := h
  opened _ _ _ _ _ _ _ _ _ := ⟨trivial, trivial⟩
  setLocks _ _ _ h := h
  dropName _ _ h := h
  addName _ _ _ h := h

theorem SysCall.within_stockRule (call : SysCall) : call.Within (stockRule σ) := by
  cases call <;> trivial

theorem KernelCall.stocked (kh : Kh σ) (h : k.Stocked) (call : KernelCall) : (call.step kh k).Stocked := by
  refine call.under (K := stockRule σ) kh h ?_
  cases call with
  | sys pid sys => exact sys.within_stockRule
  | _ => trivial

end Yurt
