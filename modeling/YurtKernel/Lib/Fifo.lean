import Mathlib

/-! First-in first-out channels seen through their logs.

    A channel is followed by what was put in, what was taken out and what is still queued. The queue
    may also be gone, and then what was taken out is all that ever will be. -/

namespace Fifo
variable {α : Type} {sent got q : List α} {o : Option (List α)}

/-- The logs agree with the queue. -/
def Tracks (sent got : List α) : Option (List α) → Prop
  | some q => sent = got ++ q
  | none => got <+: sent

theorem Tracks.got_prefix_sent (h : Tracks sent got o) : got <+: sent := by
  cases o with
  | none => exact h
  | some q => exact ⟨q, h.symm⟩

theorem tracks_new : Tracks ([] : List α) [] (some []) := rfl

/-- Putting a whole payload in. -/
theorem Tracks.put (h : Tracks sent got (some q)) (payload : List α) :
    Tracks (sent ++ payload) got (some (q ++ payload)) := by
  have h : sent = got ++ q := h
  rw [Tracks, h, List.append_assoc]

/-- Taking up to `n` from the front. -/
theorem Tracks.take (h : Tracks sent got (some q)) (n : Nat) :
    Tracks sent (got ++ q.take n) (some (q.drop n)) := by
  rw [Tracks, List.append_assoc, List.take_append_drop]
  exact h

/-- Losing the queue. -/
theorem Tracks.lose (h : Tracks sent got o) : Tracks sent got none := h.got_prefix_sent

end Fifo
