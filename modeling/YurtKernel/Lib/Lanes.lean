import Mathlib

/-! A queue whose elements have keys, served out of order between keys.

    A taker names the keys it wants and gets the oldest element with such a key. Between elements of
    different keys the order is lost; in the lane of one key it is kept. -/

namespace Lanes
variable {α κ : Type} [DecidableEq κ] {key : α → κ} {want : κ → Bool} {q : List α} {a : α}

/-- The elements with key `c`, oldest first. -/
def lane (key : α → κ) (c : κ) (q : List α) : List α := q.filter (fun a => key a = c)

section
variable (key : α → κ) (want : κ → Bool) (q : List α)

/-- The oldest element with a wanted key. -/
def oldest : Option α := q.find? (fun a => want (key a))

/-- The queue without it. -/
def rest : List α := q.eraseP (fun a => want (key a))

end

theorem lane_append (c : κ) (q q' : List α) :
    lane key c (q ++ q') = lane key c q ++ lane key c q' := List.filter_append ..

theorem lane_cons (c : κ) (a : α) (q : List α) :
    lane key c (a :: q) = lane key c [a] ++ lane key c q := lane_append c [a] q

theorem mem_lane {c : κ} : a ∈ lane key c q ↔ a ∈ q ∧ key a = c := by
  simp [lane]

/-- Taking out serves each lane from its front. -/
theorem lane_of_oldest (c : κ) (h : oldest key want q = some a) :
    lane key c q = lane key c [a] ++ lane key c (rest key want q) := by
  induction q with
  | nil => cases h
  | cons b q ih =>
    by_cases hwant : want (key b) = true
    · have hb : b = a := by simpa [oldest, hwant] using h
      have hrest : rest key want (b :: q) = q := by simp [rest, hwant]
      rw [hrest, hb, lane_cons]
    · have hq : oldest key want q = some a := by simpa [oldest, hwant] using h
      have hrest : rest key want (b :: q) = b :: rest key want q := by simp [rest, hwant]
      have hkey : key a ≠ key b := by
        intro hkey
        have ha := List.find?_some (p := fun a => want (key a)) hq
        exact hwant (hkey ▸ ha)
      rw [hrest, lane_cons c b q, lane_cons c b (rest key want q), ih hq]
      by_cases hc : key b = c
      · -- the lane of `b` is not the one that is served
        have ha : lane key c [a] = [] := by simp [lane, ← hc, hkey]
        rw [ha, List.nil_append, List.nil_append]
      · have hb : lane key c [b] = [] := by simp [lane, hc]
        rw [hb, List.nil_append, List.nil_append]

theorem rest_eq_erase [DecidableEq α] (h : oldest key want q = some a) : rest key want q = q.erase a := by
  induction q with
  | nil => cases h
  | cons b q ih =>
    by_cases hwant : want (key b) = true
    · obtain rfl : b = a := by simpa [oldest, hwant] using h
      simp [rest, hwant]
    · have hq : oldest key want q = some a := by simpa [oldest, hwant] using h
      have hne : b ≠ a := by
        rintro rfl
        exact hwant (List.find?_some (p := fun a => want (key a)) hq)
      have hrest : rest key want (b :: q) = b :: rest key want q := by simp [rest, hwant]
      rw [hrest, ih hq, List.erase_cons_tail (by simpa using hne)]

/-- What was put in is, lane by lane, what was taken out and then what is queued; and the queue is
    what was put in without what was taken out, whatever is put in behind. -/
structure Tracks [DecidableEq α] (key : α → κ) (sent taken q : List α) : Prop where
  lanes : ∀ c, lane key c sent = lane key c taken ++ lane key c q
  left : ∀ more, (sent ++ more).diff taken = q ++ more

variable [DecidableEq α] {sent taken : List α}

theorem tracks_new : Tracks key [] [] [] := ⟨fun _ => rfl, fun _ => rfl⟩

theorem Tracks.put (h : Tracks key sent taken q) (xs : List α) :
    Tracks key (sent ++ xs) taken (q ++ xs) where
  lanes c := by rw [lane_append, lane_append, h.lanes c, List.append_assoc]
  left more := by rw [List.append_assoc, h.left, List.append_assoc]

theorem Tracks.take (h : Tracks key sent taken q) (hold : oldest key want q = some a) :
    Tracks key sent (taken ++ [a]) (rest key want q) where
  lanes c := by rw [h.lanes c, lane_of_oldest c hold, lane_append, List.append_assoc]
  left more := by
    rw [List.diff_append, h.left, rest_eq_erase hold, List.diff_cons, List.diff_nil]
    exact List.erase_append_left _ (List.mem_of_find?_eq_some hold)

theorem Tracks.lane_prefix (h : Tracks key sent taken q) (c : κ) :
    lane key c taken <+: lane key c sent := ⟨_, (h.lanes c).symm⟩

/-- Only what was put in is queued or was taken out. -/
theorem Tracks.mem_sent (h : Tracks key sent taken q) (ha : a ∈ taken ++ q) : a ∈ sent := by
  have hlane : a ∈ lane key (key a) (taken ++ q) := mem_lane.mpr ⟨ha, rfl⟩
  rw [lane_append, ← h.lanes] at hlane
  exact (mem_lane.mp hlane).1

end Lanes
