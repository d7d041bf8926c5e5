import YurtKernel.Lib.Run
import YurtKernel.Vfs.RamfsContent

/-! Writes to the open files of the host (`vfs/fd-table.ts`).

    An entry keeps the whole file in a buffer, and every change is written out or taken back. A
    truncation to the length that the buffer has does nothing, so what was not written out before it
    and a cursor beyond the end stay as they are. -/

namespace Yurt.FileWrites
open RamfsBackend

/-- The entry of a regular file, and what the VFS holds under its path. -/
structure File where
  buffer : Bytes
  offset : Nat
  dirty : Bool
  stored : Option Bytes
  deriving DecidableEq

/-- `Uint8Array.set`. -/
def set (bytes data : Bytes) (start : Nat) : Bytes :=
  bytes.take start ++ data ++ bytes.drop (start + data.length)

section
-- arrays over `limit` bytes cannot be made, and the flush of a call can fail
variable (limit : Nat) (fails : Bool)

namespace File
variable (f : File)

def flushEntry : Option File :=
  if !f.dirty then some f
  else if fails then none
  else some { f with stored := some f.buffer, dirty := false }

def restoreBufferLength (length : Nat) : File :=
  if f.buffer.length = length then f else { f with buffer := resize f.buffer length }

/-- `mutate` throws, if it does, before it changed anything. -/
def mutateAndFlush (mutate : Option File) (rollback : File → File) : Bool × File :=
  match mutate with
  | none => (false, rollback f)
  | some g =>
    match flushEntry fails { g with dirty := true } with
    | none => (false, rollback { g with dirty := true })
    | some g => (true, g)

def grow (length : Nat) : Option File :=
  if f.buffer.length < length then
    if limit < length then none else some { f with buffer := resize f.buffer length }
  else some f

/-- The old length, and the bytes that were there from `start` on. -/
def putBack (length start : Nat) (bytes : Bytes) : File :=
  let f := f.restoreBufferLength length
  if 0 < bytes.length then { f with buffer := set f.buffer bytes start } else f

/-- Bytes that a write of `data` at `start` is about to overwrite. -/
def overwritten (start : Nat) (data : Bytes) : Bytes :=
  (f.buffer.take (min f.buffer.length (start + data.length))).drop start

/-- `data` at `start` of the buffer, with the cursor at `offset` afterwards. -/
def splice (data : Bytes) (start offset : Nat) : Bool × File :=
  f.mutateAndFlush fails
    ((f.grow limit (max f.buffer.length (start + data.length))).map (fun g =>
      { g with buffer := set g.buffer data start, offset := offset }))
    (fun g => { g.putBack f.buffer.length start (f.overwritten start data) with
      offset := f.offset, dirty := f.dirty })

def write (data : Bytes) : Bool × File :=
  f.splice limit fails data f.offset (f.offset + data.length)

def pwrite (data : Bytes) (offset : Nat) : Bool × File := f.splice limit fails data offset f.offset

def truncate (size : Nat) : Bool × File :=
  if size = f.buffer.length then (true, f)
  else
    f.mutateAndFlush fails
      (if limit < size then none
        else some { f with
          buffer := resize f.buffer size
          offset := if f.offset > size then size else f.offset })
      (fun g => { g.putBack f.buffer.length size
          (if size < f.buffer.length then f.buffer.drop size else []) with
        offset := f.offset, dirty := f.dirty })

end File

inductive Call where
  | write (data : Bytes)
  | pwrite (data : Bytes) (offset : Nat)
  | truncate (size : Nat)
  deriving DecidableEq

/-- Whether the call returns, and the file after it. -/
def Call.run (f : File) : Call → Bool × File
  | .write data => f.write limit fails data
  | .pwrite data offset => f.pwrite limit fails data offset
  | .truncate size => f.truncate limit fails size

end

/-! ### What a call promises -/

/-- The buffer and the cursor after a call that returns. -/
def Call.Does (f : File) (buffer : Bytes) (offset : Nat) : Call → Prop
  | .write data => WrittenAt f.buffer f.offset data buffer ∧ offset = f.offset + data.length
  | .pwrite data start => WrittenAt f.buffer start data buffer ∧ offset = f.offset
  | .truncate size => buffer = resize f.buffer size ∧ offset = min f.offset size

structure Traceless (f : File) (call : Call) (r : Bool × File) : Prop where
  failed : r.1 = false → r.2 = f
  done : r.1 = true → call.Does f r.2.buffer r.2.offset ∧ r.2.stored = some r.2.buffer

/-- A truncation that has nothing to do to the buffer, but to the cursor or the VFS. -/
def Call.Skips (f : File) : Call → Prop
  | .truncate size => size = f.buffer.length ∧ (f.stored ≠ some f.buffer ∨ size < f.offset)
  | _ => False

/-! ### Taking back -/

variable {limit : Nat} {fails : Bool} {f g : File} {data : Bytes}

theorem resize_self (bytes : Bytes) : resize bytes bytes.length = bytes := by simp [resize]

theorem buffer_restoreBufferLength (f : File) (length : Nat) :
    f.restoreBufferLength length = { f with buffer := resize f.buffer length } := by
  rw [File.restoreBufferLength]
  split_ifs with h
  · rw [← h, resize_self]
  · rfl

/-- What agrees with the old bytes but from `start` to `stop` is the old bytes once these are back. -/
theorem putBack_eq {old : Bytes} {start stop : Nat} (hstop : stop ≤ old.length)
    (hsame : ∀ i, i < old.length → i < start ∨ stop ≤ i → g.buffer[i]? = old[i]?) :
    g.putBack old.length start ((old.take stop).drop start) = { g with buffer := old } := by
  have hlen : ((old.take stop).drop start).length = stop - start := by simp [hstop]
  have hrest : ∀ i, i < start ∨ stop ≤ i → (resize g.buffer old.length)[i]? = old[i]? := by
    intro i hi
    rcases lt_or_ge i old.length with hlt | hge
    · have hthere : i < g.buffer.length := by
        by_contra hout
        have := hsame i hlt hi
        simp [List.getElem?_eq_none (not_lt.mp hout), List.getElem?_eq_getElem hlt] at this
      rw [resize, List.getElem?_append_left (by simp; omega), List.getElem?_take, if_pos hlt, hsame i hlt hi]
    · rw [List.getElem?_eq_none (by rwa [resize_length]), List.getElem?_eq_none hge]
  simp only [File.putBack, buffer_restoreBufferLength, hlen]
  split_ifs with hsome
  · congr 1
    refine List.ext_getElem? (fun i => ?_)
    rw [set, hlen, Nat.add_sub_cancel' (by omega), List.append_assoc, List.getElem?_append]
    have htake : ((resize g.buffer old.length).take start).length = start := by
      rw [List.length_take, resize_length]
      omega
    split_ifs with hbefore
    · rw [htake] at hbefore
      rw [List.getElem?_take, if_pos hbefore, hrest i (.inl hbefore)]
    · rw [htake] at hbefore ⊢
      rw [List.getElem?_append, hlen]
      split_ifs with hinside
      · rw [List.getElem?_drop, List.getElem?_take, if_pos (by omega), Nat.add_sub_cancel' (by omega)]
      · rw [List.getElem?_drop, ← hrest i (.inr (by omega))]
        congr 1
        omega
  · congr 1
    exact List.ext_getElem? (fun i => hrest i (by omega))

/-- Growing and setting is writing into a sparse array. -/
theorem grow_eq_some {start : Nat} (h : f.grow limit (max f.buffer.length (start + data.length)) = some g) :
    ∃ buffer, g = { f with buffer := buffer } ∧ set buffer data start = overwrite f.buffer start data := by
  simp only [File.grow, lt_max_iff, lt_self_iff_false, false_or] at h
  split_ifs at h with hlong
  · cases h
    refine ⟨_, rfl, ?_⟩
    rw [overwrite, if_pos hlong, max_eq_right hlong.le]
    rfl
  · cases h
    refine ⟨_, rfl, ?_⟩
    rw [overwrite, if_neg hlong]
    rfl

/-- A change that is written out, or fails and is taken back. -/
theorem traceless_mutateAndFlush {call : Call} {mutate : Option File} {rollback : File → File}
    (hnone : rollback f = f) (hsome : ∀ g, mutate = some g →
      call.Does f g.buffer g.offset ∧ rollback { g with dirty := true } = f) :
    Traceless f call (f.mutateAndFlush fails mutate rollback) := by
  cases hm : mutate with
  | none => exact ⟨fun _ => hnone, by simp [File.mutateAndFlush]⟩
  | some g =>
    obtain ⟨hdoes, hback⟩ := hsome g hm
    cases fails
    · exact ⟨by simp [File.mutateAndFlush, File.flushEntry], fun _ => ⟨hdoes, rfl⟩⟩
    · exact ⟨fun _ => hback, by simp [File.mutateAndFlush, File.flushEntry]⟩

theorem putBack_overwritten {start : Nat} (hg : g.buffer = f.buffer ∨
    g.buffer = overwrite f.buffer start data) :
    g.putBack f.buffer.length start (f.overwritten start data) = { g with buffer := f.buffer } := by
  refine putBack_eq (Nat.min_le_left _ _) (fun i hlt hi => ?_)
  rcases hg with hg | hg
  · rw [hg]
  · rw [hg]
    exact (writtenAt_overwrite _ _ _).outside i hlt (by omega)

theorem traceless_splice {call : Call} {start offset : Nat}
    (h : call.Does f (overwrite f.buffer start data) offset) :
    Traceless f call (f.splice limit fails data start offset) := by
  refine traceless_mutateAndFlush ?_ (fun g hg => ?_)
  · rw [putBack_overwritten (.inl rfl)]
  · obtain ⟨g, hgrow, rfl⟩ := Option.map_eq_some_iff.mp hg
    obtain ⟨buffer, rfl, hset⟩ := grow_eq_some hgrow
    dsimp only
    rw [hset, putBack_overwritten (.inr rfl)]
    exact ⟨h, rfl⟩

theorem traceless_truncate {size : Nat} (hsize : size ≠ f.buffer.length) :
    Traceless f (.truncate size) (f.truncate limit fails size) := by
  have htail : (if size < f.buffer.length then f.buffer.drop size else []) =
      (f.buffer.take f.buffer.length).drop size := by
    split_ifs with hlt
    · rw [List.take_length]
    · rw [List.take_length, List.drop_of_length_le (not_lt.mp hlt)]
  rw [File.truncate, if_neg hsize, htail]
  refine traceless_mutateAndFlush ?_ (fun g hg => ?_)
  · rw [putBack_eq le_rfl (fun _ _ _ => rfl)]
  · rw [Option.ite_none_left_eq_some] at hg
    obtain ⟨-, ⟨⟩⟩ := hg
    refine ⟨⟨rfl, ?_⟩, ?_⟩
    · dsimp only
      split_ifs <;> omega
    · rw [putBack_eq le_rfl (fun i hlt hi => ?_)]
      have hi : i < size := by omega
      rw [resize, List.getElem?_append_left (by simp; omega), List.getElem?_take, if_pos hi]

theorem run_truncate_length : Call.run limit fails f (.truncate f.buffer.length) = (true, f) := if_pos rfl

theorem Call.run_cases (call : Call) :
    call = .truncate f.buffer.length ∨ Traceless f call (call.run limit fails f) ∧ ¬ call.Skips f := by
  cases call with
  | write data => exact .inr ⟨traceless_splice ⟨writtenAt_overwrite _ _ _, rfl⟩, id⟩
  | pwrite data offset => exact .inr ⟨traceless_splice ⟨writtenAt_overwrite _ _ _, rfl⟩, id⟩
  | truncate size =>
    by_cases hsize : size = f.buffer.length
    · exact .inl (hsize ▸ rfl)
    · exact .inr ⟨traceless_truncate hsize, fun h => hsize h.1⟩

/-- Only a truncation to the present length is not what it should be. -/
theorem Call.traceless_iff (call : Call) : Traceless f call (call.run limit fails f) ↔ ¬ call.Skips f := by
  rcases call.run_cases (f := f) with rfl | ⟨htraceless, hskips⟩
  · rw [run_truncate_length]
    simp only [Call.Skips, true_and, not_or, not_not, not_lt]
    constructor
    · intro h
      obtain ⟨⟨-, hoffset⟩, hstored⟩ := h.done rfl
      exact ⟨hstored, min_eq_left_iff.mp hoffset.symm⟩
    · rintro ⟨hstored, hoffset⟩
      exact ⟨nofun, fun _ => ⟨⟨(resize_self _).symm, (min_eq_left hoffset).symm⟩, hstored⟩⟩
  · exact iff_of_true htraceless hskips

/-- A call that throws leaves everything, whatever it is. -/
theorem Call.failed {call : Call} (h : (call.run limit fails f).1 = false) : (call.run limit fails f).2 = f := by
  rcases call.run_cases (f := f) with rfl | ⟨htraceless, -⟩
  · rw [run_truncate_length]
  · exact htraceless.failed h

/-! ### Runs -/

/-- A call, and whether its flush would fail. -/
def step (limit : Nat) (f : File) (call : Call × Bool) : File := (call.1.run limit call.2 f).2

/-- The calls of a run that return. -/
def returning (limit : Nat) : File → List (Call × Bool) → List (Call × Bool)
  | _, [] => []
  | f, call :: calls =>
    if (call.1.run limit call.2 f).1 then call :: returning limit (step limit f call) calls
    else returning limit (step limit f call) calls

theorem run_returning (calls : List (Call × Bool)) (f : File) :
    Run.run (step limit) f (returning limit f calls) = Run.run (step limit) f calls := by
  induction calls generalizing f with
  | nil => rfl
  | cons call calls ih =>
    rw [returning]
    split_ifs with hdone
    · exact ih (step limit f call)
    · have hsame : step limit f call = f := Call.failed (Bool.not_eq_true _ ▸ hdone)
      change _ = Run.run (step limit) (step limit f call) calls
      rw [hsame]
      exact ih f

/-- A call that throws changes nothing and one that returns does all it says, but for a truncation to
    the present length; and the calls that throw could be left out of a run. -/
theorem failed_write_traceless_iff (limit : Nat) (f : File) :
    (∀ call fails, Traceless f call (Call.run limit fails f call) ↔ ¬ call.Skips f) ∧
      ∀ calls, Run.run (step limit) f (returning limit f calls) = Run.run (step limit) f calls :=
  ⟨fun call _ => call.traceless_iff, fun calls => run_returning calls f⟩

/-- A missing file that was opened for appending is still missing after a truncation to no bytes. -/
theorem truncate_not_flushed :
    ¬ Traceless ⟨[], 0, true, none⟩ (.truncate 0) (Call.run 8 false ⟨[], 0, true, none⟩ (.truncate 0)) :=
  fun h => nomatch (h.done rfl).2

end Yurt.FileWrites
