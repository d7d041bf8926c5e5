import YurtKernel.Vfs.Ramfs

/-! Files of a ramfs as sparse byte arrays.

    Offsets are 64 bits wide and `usize` has 32, so a read starts at the offset modulo `2 ^ 32` and the
    end of a write can wrap. `tryWrite` and `trySetLen` are `write` and `setLen` with the arithmetic,
    the slice checks and the growing vector of the machine, `none` being the panic; they agree with
    `write` and `setLen` whenever they return. Whether there is room for a file to grow is an argument. -/

namespace Yurt
open SortedMap

/-- What a read of `cap` bytes at `offset` of a sparse file returns. -/
def ReadAt (content : Bytes) (offset cap : Nat) (r : Int × Bytes) : Prop :=
  r.1 = min cap (content.length - offset) ∧ r.2 = (content.drop offset).take cap

/-- What a write leaves in a sparse file. -/
structure WrittenAt (content : Bytes) (offset : Nat) (payload content' : Bytes) : Prop where
  length : content'.length = max content.length (offset + payload.length)
  inside : ∀ i, i < payload.length → content'[offset + i]? = payload[i]?
  outside : ∀ i, i < content.length → i < offset ∨ offset + payload.length ≤ i → content'[i]? = content[i]?
  gap : ∀ i, content.length ≤ i → i < offset → content'[i]? = some 0

namespace RamfsBackend
variable {b : RamfsBackend} {inode : Inode} {content payload : Bytes} {offset cap : Nat}

/-! ### Overwriting -/

theorem resize_length (content : Bytes) (n : Nat) : (resize content n).length = n := by
  simp only [resize, List.length_append, List.length_take, List.length_replicate]
  omega

theorem resize_old {n i : Nat} (hn : content.length ≤ n) (hi : i < content.length) :
    (resize content n)[i]? = content[i]? := by
  rw [resize, List.take_of_length_le hn, List.getElem?_append_left hi]

theorem resize_gap {n i : Nat} (hlen : content.length ≤ i) (hi : i < n) :
    (resize content n)[i]? = some 0 := by
  rw [resize, List.take_of_length_le (by omega), List.getElem?_append_right hlen,
    List.getElem?_replicate, if_pos (by omega)]

theorem writtenAt_overwrite (content : Bytes) (start : Nat) (payload : Bytes) :
    WrittenAt content start payload (overwrite content start payload) := by
  -- the file is first made long enough
  obtain ⟨padded, hpadded, hlen, hold, hgap⟩ : ∃ padded : Bytes, overwrite content start payload =
        padded.take start ++ payload ++ padded.drop (start + payload.length) ∧
      padded.length = max content.length (start + payload.length) ∧
      (∀ i, i < content.length → padded[i]? = content[i]?) ∧
      (∀ i, content.length ≤ i → i < start → padded[i]? = some 0) := by
    by_cases hlong : start + payload.length > content.length
    · refine ⟨resize content (start + payload.length), by simp [overwrite, hlong], ?_, ?_, ?_⟩
      · rw [resize_length]
        omega
      · exact fun i hi => resize_old (by omega) hi
      · exact fun i hlen hi => resize_gap hlen (by omega)
    · refine ⟨content, by simp [overwrite, hlong], by omega, fun _ _ => rfl, ?_⟩
      intro i hlen hi
      omega
  have htake : (padded.take start).length = start := by
    rw [List.length_take]
    omega
  have hbefore : ∀ i, i < start → (overwrite content start payload)[i]? = padded[i]? := by
    intro i hi
    rw [hpadded, List.append_assoc, List.getElem?_append_left (by omega), List.getElem?_take, if_pos hi]
  rw [hpadded] at hbefore ⊢
  refine ⟨?_, fun i hi => ?_, fun i hi hout => ?_, fun i hle hi => ?_⟩
  · simp only [List.length_append, htake, List.length_drop]
    omega
  · rw [List.append_assoc, List.getElem?_append_right (by omega), htake, Nat.add_sub_cancel_left,
      List.getElem?_append_left hi]
  · rcases hout with hlow | hhigh
    · rw [hbefore i hlow, hold i hi]
    · rw [List.getElem?_append_right (by rw [List.length_append, htake]; omega), List.getElem?_drop,
        List.length_append, htake, ← hold i hi]
      congr 1
      omega
  · rw [hbefore i hi, hgap i hle hi]

theorem CanHold.lt {room : Bool} {n : Nat} (h : CanHold content room n) (hfit : content.length ≤ isizeMax) :
    n < 2 ^ 32 := by
  have hmax : isizeMax < 2 ^ 32 := by decide
  rcases h with hle | ⟨hle, -⟩ <;> omega

/-! ### The edits of the machine -/

/-- A change of the content of a file. -/
inductive Edit where
  | write (offset : Nat) (payload : Bytes)
  | setLen (length : Nat)

section
variable (b : RamfsBackend) (inode : Inode) (room : Bool)

/-- `write`: the end is computed in `usize`, and the slice it bounds has to exist and to be as long as
    the payload. -/
def tryWrite (offset : Nat) (payload : Bytes) : Option (Int × RamfsBackend) :=
  match b.inodes.get? inode with
  | none => some (-EBADF, b)
  | some content =>
    let start := toUsize offset
    let stop := toUsize (start + payload.length)
    match if stop > content.length then tryResize content room stop else some content with
    | none => none
    | some content =>
      if start ≤ stop ∧ stop ≤ content.length ∧ stop - start = payload.length then
        some (payload.length,
          { b with inodes := b.inodes.insert inode (content.take start ++ payload ++ content.drop stop) })
      else none

/-- `set_len`. -/
def trySetLen (length : Nat) : Option (Int × RamfsBackend) :=
  match b.inodes.get? inode with
  | none => some (-EBADF, b)
  | some content =>
    if length ≥ 2 ^ 32 then some (-EFBIG, b)
    else (tryResize content room length).map
      (fun content => (0, { b with inodes := b.inodes.insert inode content }))

def edit : Edit → Int × RamfsBackend
  | .write offset payload => b.write inode offset payload
  | .setLen length => b.setLen inode length

def tryEdit : Edit → Option (Int × RamfsBackend)
  | .write offset payload => b.tryWrite inode room offset payload
  | .setLen length => b.trySetLen inode room length

end

/-- The edit does not panic. -/
def Edit.Returns (content : Bytes) (room : Bool) : Edit → Prop
  | .write offset payload => CanHold content room (toUsize offset + payload.length)
  | .setLen length => 2 ^ 32 ≤ length ∨ CanHold content room length

theorem tryWrite_eq (hc : b.inodes.get? inode = some content) (hfit : content.length ≤ isizeMax)
    (room : Bool) (offset : Nat) (payload : Bytes) : b.tryWrite inode room offset payload =
      if CanHold content room (toUsize offset + payload.length) then some (b.write inode offset payload)
      else none := by
  simp only [tryWrite, write, hc, tryResize]
  by_cases hfits : toUsize offset + payload.length < 2 ^ 32
  · have hstop : toUsize (toUsize offset + payload.length) = toUsize offset + payload.length :=
      Nat.mod_eq_of_lt hfits
    rw [hstop]
    by_cases hlong : toUsize offset + payload.length > content.length
    · rw [if_pos hlong]
      by_cases hhold : CanHold content room (toUsize offset + payload.length)
      · rw [if_pos hhold, if_pos hhold, overwrite, if_pos hlong]
        exact if_pos ⟨by omega, (resize_length _ _).ge, by omega⟩
      · rw [if_neg hhold, if_neg hhold]
    · rw [if_neg hlong, if_pos (.inl (by omega)), overwrite, if_neg hlong]
      exact if_pos ⟨by omega, by omega, by omega⟩
  · -- the end wraps, and no slice from the start to it has the length of the payload
    have hwraps : toUsize (toUsize offset + payload.length) < 2 ^ 32 := Nat.mod_lt _ (by decide)
    have hhold : ¬ CanHold content room (toUsize offset + payload.length) := fun h => hfits (h.lt hfit)
    rw [if_neg hhold]
    split
    · rfl
    · refine if_neg ?_
      rintro ⟨hle, -, hlen⟩
      omega

/-- An edit that does not panic is the one of the model. -/
theorem tryEdit_eq (hc : b.inodes.get? inode = some content) (hfit : content.length ≤ isizeMax)
    (room : Bool) (e : Edit) :
    (b.tryEdit inode room e = some (b.edit inode e) ∧ e.Returns content room) ∨
      (b.tryEdit inode room e = none ∧ ¬ e.Returns content room) := by
  cases e with
  | write offset payload =>
    have htry := tryWrite_eq hc hfit room offset payload
    split_ifs at htry with hhold
    · exact .inl ⟨htry, hhold⟩
    · exact .inr ⟨htry, hhold⟩
  | setLen length =>
    simp only [tryEdit, trySetLen, edit, setLen, hc, Edit.Returns]
    by_cases hbig : length ≥ 2 ^ 32
    · rw [if_pos hbig, if_pos hbig]
      exact .inl ⟨rfl, .inl hbig⟩
    · rw [if_neg hbig, if_neg hbig]
      by_cases hhold : CanHold content room length
      · exact .inl ⟨by rw [tryResize, if_pos hhold]; rfl, .inr hhold⟩
      · refine .inr ⟨by rw [tryResize, if_neg hhold]; rfl, ?_⟩
        rintro (hge | hhold')
        · exact hbig hge
        · exact hhold hhold'

/-! ### Reads and edits at every offset -/

/-- What a success returns. -/
def Edit.count : Edit → Int
  | .write _ payload => payload.length
  | .setLen _ => 0

section
variable (content : Bytes)

/-- What the edit leaves in a sparse file. -/
def Edit.Leaves : Edit → Bytes → Prop
  | .write offset payload, content' => WrittenAt content offset payload content'
  | .setLen length, content' =>
    content' = content.take length ++ List.replicate (length - content.length) 0

/-- The edit does not panic, and no offset of it is cut; a length from `2 ^ 32` on is refused. -/
def Edit.InRange (room : Bool) : Edit → Prop
  | .write offset payload => CanHold content room (offset + payload.length)
  | .setLen length => 2 ^ 32 ≤ length ∨ CanHold content room length

/-- An edit with its result succeeded, with what a sparse file has after it, or failed and changed
    nothing. -/
def Edit.Done (e : Edit) (rc : Int) (after : Option Bytes) : Prop :=
  rc < 0 ∧ after = some content ∨ rc = e.count ∧ ∃ content', after = some content' ∧ e.Leaves content content'

/-- The edit returns, and is done. -/
def EditsAt (b : RamfsBackend) (inode : Inode) (room : Bool) (content : Bytes) (e : Edit) : Prop :=
  ∃ rc b', b.tryEdit inode room e = some (rc, b') ∧ e.Done content rc (b'.inodes.get? inode)

/-- The offset is not cut, or nothing is found where it is cut to. -/
def ReadInRange (offset cap : Nat) : Prop :=
  offset < 2 ^ 32 ∨ cap = 0 ∨ content.length ≤ toUsize offset

end

theorem readAt_iff (hc : b.inodes.get? inode = some content) (hfit : content.length ≤ isizeMax)
    (offset cap : Nat) :
    ReadAt content offset cap (b.read inode offset cap) ↔ ReadInRange content offset cap := by
  have hmax : isizeMax < 2 ^ 32 := by decide
  simp only [RamfsBackend.read, hc, ReadAt, ReadInRange, slice]
  by_cases hsmall : offset < 2 ^ 32
  · have hstart : toUsize offset = offset := Nat.mod_eq_of_lt hsmall
    refine iff_of_true ⟨?_, by rw [hstart]⟩ (.inl hsmall)
    rw [hstart, List.length_take, List.length_drop]
  · have hempty : content.drop offset = [] := List.drop_of_length_le (by omega)
    rw [hempty, List.take_nil, List.take_eq_nil_iff, List.drop_eq_nil_iff]
    constructor
    · rintro ⟨-, hnil⟩
      exact .inr hnil
    · rintro (hlt | hnil)
      · exact absurd hlt hsmall
      · refine ⟨?_, hnil⟩
        rw [List.length_take, List.length_drop]
        omega

/-- Where the edit of the model returns, it is done just when no offset is cut. -/
theorem edit_done_iff (hc : b.inodes.get? inode = some content) (hfit : content.length ≤ isizeMax)
    {room : Bool} {e : Edit} (hreturns : e.Returns content room) :
    e.Done content (b.edit inode e).1 ((b.edit inode e).2.inodes.get? inode) ↔ e.InRange content room := by
  cases e with
  | write offset payload =>
    have hwritten := writtenAt_overwrite content (toUsize offset) payload
    simp only [edit, write, hc, get?_insert_self, Edit.Done, Edit.InRange, Edit.Leaves, Edit.count]
    constructor
    · rintro (⟨hneg, -⟩ | ⟨-, content', hcontent, hspec⟩)
      · omega
      · -- the length tells where the bytes went
        have hlen := hspec.length
        rw [← Option.some.inj hcontent, hwritten.length] at hlen
        by_cases hshort : offset + payload.length ≤ content.length
        · exact .inl hshort
        · have hstart : toUsize offset + payload.length = offset + payload.length := by omega
          exact hstart ▸ hreturns
    · intro hhold
      have hstart : toUsize offset = offset := Nat.mod_eq_of_lt (by have := hhold.lt hfit; omega)
      rw [hstart] at hwritten ⊢
      exact .inr ⟨trivial, _, rfl, hwritten⟩
  | setLen length =>
    refine iff_of_true ?_ hreturns
    simp only [edit, setLen, hc]
    by_cases hbig : length ≥ 2 ^ 32
    · rw [if_pos hbig]
      exact .inl ⟨(by decide : -EFBIG < 0), hc⟩
    · rw [if_neg hbig]
      exact .inr ⟨rfl, _, get?_insert_self .., rfl⟩

theorem Edit.InRange.returns {room : Bool} {e : Edit} (h : e.InRange content room) :
    e.Returns content room := by
  cases e with
  | write offset payload =>
    have hle : toUsize offset ≤ offset := Nat.mod_le _ _
    exact h.imp (fun hn => by omega) (fun hn => ⟨by omega, hn.2⟩)
  | setLen length => exact h

theorem editsAt_iff (hc : b.inodes.get? inode = some content) (hfit : content.length ≤ isizeMax)
    (room : Bool) (e : Edit) : b.EditsAt inode room content e ↔ e.InRange content room := by
  unfold EditsAt
  rcases tryEdit_eq hc hfit room e with ⟨htry, hreturns⟩ | ⟨htry, hpanics⟩
  · rw [htry, ← edit_done_iff hc hfit hreturns]
    constructor
    · rintro ⟨rc, b', hsome, hdone⟩
      obtain ⟨rfl, rfl⟩ := Prod.mk.inj (Option.some.inj hsome)
      exact hdone
    · exact fun hdone => ⟨_, _, rfl, hdone⟩
  · refine iff_of_false ?_ (fun h => hpanics h.returns)
    rintro ⟨rc, b', hsome, -⟩
    rw [htry] at hsome
    cases hsome

/-- Every file is a vector of the machine. -/
def Fits (b : RamfsBackend) : Prop :=
  ∀ inode content, b.inodes.get? inode = some content → content.length ≤ isizeMax

theorem Fits.insert (h : b.Fits) (hlen : content.length ≤ isizeMax) (inode : Inode) :
    Fits { b with inodes := b.inodes.insert inode content } := by
  intro i c hi
  simp only [get?_insert] at hi
  split_ifs at hi
  · rwa [← Option.some.inj hi]
  · exact h i c hi

theorem Fits.edit (h : b.Fits) (inode : Inode) {room : Bool} {e : Edit}
    (hreturns : ∀ content, b.inodes.get? inode = some content → e.Returns content room) :
    (b.edit inode e).2.Fits := by
  cases hc : b.inodes.get? inode with
  | none => cases e <;> simpa only [RamfsBackend.edit, write, setLen, hc] using h
  | some content =>
    have hold := h inode content hc
    have hholds := hreturns content hc
    unfold Edit.Returns CanHold at hholds
    cases e with
    | write offset payload =>
      simp only [RamfsBackend.edit, write, hc]
      refine h.insert ?_ inode
      rw [(writtenAt_overwrite content (toUsize offset) payload).length]
      omega
    | setLen length =>
      simp only [RamfsBackend.edit, setLen, hc]
      by_cases hbig : length ≥ 2 ^ 32
      · rwa [if_pos hbig]
      · rw [if_neg hbig]
        refine h.insert ?_ inode
        rw [resize_length]
        omega

end RamfsBackend
end Yurt
