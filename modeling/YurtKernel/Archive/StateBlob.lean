import YurtKernel.Kernel.Wire

/-! State blobs and their checksum (`persistence/serializer.ts`).

    A blob is a header of twelve bytes and a JSON payload, whose CRC-32 is in the header. JavaScript
    has the remainder as a signed 32-bit number; here it is the bit pattern, which is all that its
    operators look at. -/

namespace Yurt.StateBlob

/-! ### The checksum -/

/-- One bit of a table entry. -/
def crcRound (c : BitVec 32) : BitVec 32 :=
  if c &&& 1 ≠ 0 then 0xEDB88320 ^^^ (c >>> 1) else c >>> 1

/-- Entry `i` of `CRC32_TABLE`. -/
def crcTable (i : Nat) : BitVec 32 := crcRound^[8] (BitVec.ofNat 32 i)

/-- The entry that a byte selects. -/
def crcIndex (crc : BitVec 32) (b : Byte) : Nat := ((crc ^^^ BitVec.ofNat 32 b.val) &&& 0xFF).toNat

def crcStep (crc : BitVec 32) (b : Byte) : BitVec 32 := crcTable (crcIndex crc b) ^^^ (crc >>> 8)

def crcRun (crc : BitVec 32) (data : Bytes) : BitVec 32 := data.foldl crcStep crc

def crc32 (data : Bytes) : Nat := (crcRun 0xFFFFFFFF data ^^^ 0xFFFFFFFF).toNat

/-! ### Blobs -/

def magic : Bytes := [0x57, 0x53, 0x4E, 0x44]

def exportState (json : Bytes) : Bytes := magic ++ leBytes 4 2 ++ leBytes 4 (crc32 json) ++ json

inductive StateError where
  | /-- Invalid state blob: too short -/ tooShort
  | /-- Invalid state blob: bad magic bytes -/ badMagic
  | /-- Invalid state blob: too short for v2 -/ tooShortForV2
  | /-- State blob checksum mismatch: data may be corrupted -/ checksumMismatch
  | /-- Unsupported state version -/ unsupportedVersion (version : Nat)
  | /-- What the payload is refused for. -/ refused
  deriving DecidableEq

/-- What is done with the payload, which may throw half way, is `restore`. -/
def importState {V E : Type} (restore : V → Bytes → Except StateError E × V) (vfs : V) (blob : Bytes) :
    Except StateError E × V :=
  if blob.length < 8 then (.error .tooShort, vfs)
  else if blob.take 4 ≠ magic then (.error .badMagic, vfs)
  else
    match u32At blob 4 with
    | 2 =>
      if blob.length < 12 then (.error .tooShortForV2, vfs)
      else if u32At blob 8 ≠ crc32 (blob.drop 12) then (.error .checksumMismatch, vfs)
      else restore vfs (blob.drop 12)
    | 1 => restore vfs (blob.drop 8)
    | version => (.error (.unsupportedVersion version), vfs)

/-! ### Steps backwards -/

variable {s t : BitVec 32} {b c : Byte} {x y : Bytes} {m : Nat}

/-- The top byte of an entry tells which one it is. -/
theorem crcTable_top : ((List.range 256).map (fun i => crcTable i >>> 24)).Nodup := by decide +kernel

section
variable (crc : BitVec 32) (b : Byte)

theorem crcIndex_eq : crcIndex crc b = crc.toNat % 2 ^ 8 ^^^ b.val := by
  have hb : b.val % 2 ^ 32 = b.val := Nat.mod_eq_of_lt (by omega)
  have hlow : b.val % 2 ^ 8 = b.val := Nat.mod_eq_of_lt b.isLt
  have hmask : (0xFF : BitVec 32).toNat = 2 ^ 8 - 1 := rfl
  rw [crcIndex, BitVec.toNat_and, hmask, Nat.and_two_pow_sub_one_eq_mod, BitVec.toNat_xor,
    BitVec.toNat_ofNat, hb, Nat.xor_mod_two_pow, hlow]

theorem crcIndex_lt : crcIndex crc b < 256 := by
  rw [crcIndex_eq]
  exact Nat.xor_lt_two_pow (n := 8) (Nat.mod_lt _ (by decide)) b.isLt

/-- The top byte after a step is that of the entry. -/
theorem crcStep_top : crcStep crc b >>> 24 = crcTable (crcIndex crc b) >>> 24 := by
  have hgone : crc >>> 8 >>> 24 = 0 := by
    rw [← BitVec.shiftRight_add]
    exact BitVec.ushiftRight_eq_zero (by decide)
  rw [crcStep, BitVec.ushiftRight_xor_distrib, hgone]
  exact BitVec.xor_zero

end

/-- Where the results agree but for their `m` low bytes, the same entry was used, and what went in
    agreed but for one more byte. -/
theorem crcStep_agree (hm : m ≤ 3) (h : crcStep s b >>> (8 * m) = crcStep t c >>> (8 * m)) :
    crcIndex s b = crcIndex t c ∧ s >>> (8 * (m + 1)) = t >>> (8 * (m + 1)) := by
  have hindex : crcIndex s b = crcIndex t c := by
    have htop : crcStep s b >>> 24 = crcStep t c >>> 24 := by
      rw [show 24 = 8 * m + (24 - 8 * m) by omega, BitVec.shiftRight_add, h, ← BitVec.shiftRight_add]
    rw [crcStep_top, crcStep_top] at htop
    exact List.inj_on_of_nodup_map crcTable_top (List.mem_range.mpr (crcIndex_lt s b))
      (List.mem_range.mpr (crcIndex_lt t c)) htop
  refine ⟨hindex, ?_⟩
  rw [crcStep, crcStep, hindex, BitVec.ushiftRight_xor_distrib, BitVec.ushiftRight_xor_distrib] at h
  rw [show 8 * (m + 1) = 8 + 8 * m by omega, BitVec.shiftRight_add, BitVec.shiftRight_add]
  exact BitVec.xor_right_inj _ |>.mp h

/-- The same over several bytes. -/
theorem crcRun_agree (hlen : x.length = y.length) (hm : x.length + m ≤ 4)
    (h : crcRun s x >>> (8 * m) = crcRun t y >>> (8 * m)) :
    s >>> (8 * (x.length + m)) = t >>> (8 * (x.length + m)) := by
  induction x generalizing s t y with
  | nil =>
    obtain rfl := List.length_eq_zero_iff.mp hlen.symm
    simpa [crcRun] using h
  | cons b x ih =>
    cases y with
    | nil => cases hlen
    | cons c y =>
      rw [List.length_cons] at hm
      have hstep := ih (Nat.succ.inj hlen) (by omega) h
      rw [List.length_cons, Nat.add_right_comm]
      exact (crcStep_agree (by omega) hstep).2

/-- Up to four bytes can be told from the result. -/
theorem crcRun_inj_data (hlen : x.length = y.length) (hx : x.length ≤ 4) (h : crcRun s x = crcRun s y) :
    x = y := by
  induction x generalizing s y with
  | nil => exact (List.length_eq_zero_iff.mp hlen.symm).symm
  | cons b x ih =>
    cases y with
    | nil => cases hlen
    | cons c y =>
      have hlen' : x.length = y.length := Nat.succ.inj hlen
      rw [List.length_cons] at hx
      have h : crcRun (crcStep s b) x = crcRun (crcStep s c) y := h
      have hback := crcRun_agree (m := 0) hlen' (by omega) (by rw [h])
      have hindex := (crcStep_agree (by omega) hback).1
      rw [crcIndex_eq, crcIndex_eq, Nat.xor_right_inj] at hindex
      obtain rfl := Fin.ext hindex
      rw [ih hlen' (by omega) h]

/-- The remainder before can be told from the one after. -/
theorem crcRun_inj_state (data : Bytes) (h : crcRun s data = crcRun t data) : s = t := by
  induction data generalizing s t with
  | nil => exact h
  | cons b data ih =>
    have hstep : crcStep s b = crcStep t b := ih h
    have hagree : crcStep s b >>> (8 * 0) = crcStep t b >>> (8 * 0) := by rw [hstep]
    obtain ⟨hlow, hhigh⟩ := crcStep_agree (by decide) hagree
    rw [crcIndex_eq, crcIndex_eq, Nat.xor_left_inj] at hlow
    have hhigh := congrArg BitVec.toNat hhigh
    rw [BitVec.toNat_ushiftRight, BitVec.toNat_ushiftRight, Nat.shiftRight_eq_div_pow,
      Nat.shiftRight_eq_div_pow] at hhigh
    apply BitVec.eq_of_toNat_eq
    omega

theorem crc32_lt (data : Bytes) : crc32 data < 256 ^ 4 := BitVec.isLt _

theorem crc32_ne (u v : Bytes) (hlen : x.length = y.length) (hx : x.length ≤ 4) (hne : x ≠ y) :
    crc32 (u ++ x ++ v) ≠ crc32 (u ++ y ++ v) := by
  intro h
  have hrun := BitVec.xor_left_inj _ |>.mp (BitVec.eq_of_toNat_eq h)
  simp only [crcRun, List.foldl_append] at hrun
  exact hne (crcRun_inj_data hlen hx (crcRun_inj_state v hrun))

/-! ### Corrupted blobs -/

theorem leBytes_leNat : ∀ bs : Bytes, leBytes bs.length (leNat bs) = bs
  | [] => rfl
  | b :: bs => by
    have hb := b.isLt
    have hlow : Fin.ofNat 256 (b.val + 256 * leNat bs) = b := Fin.ext (by rw [Fin.val_ofNat]; omega)
    have hrest : (b.val + 256 * leNat bs) / 256 = leNat bs := by omega
    rw [leNat, List.length_cons, leBytes, hlow, hrest, leBytes_leNat bs]

/-- Importing a blob with a wrong checksum in its header. -/
theorem importState_mismatch {V E : Type} (restore : V → Bytes → Except StateError E × V) (vfs : V)
    {stored : Bytes} (json : Bytes) (hlen : stored.length = 4) (hne : leNat stored ≠ crc32 json) :
    importState restore vfs (magic ++ leBytes 4 2 ++ (stored ++ json)) = (.error .checksumMismatch, vfs) := by
  have hdrop : (magic ++ leBytes 4 2 ++ (stored ++ json)).drop 12 = json := List.drop_left' hlen
  have hstored : u32At (magic ++ leBytes 4 2 ++ (stored ++ json)) 8 = leNat stored :=
    congrArg leNat (List.take_left' hlen)
  have hlong : (magic ++ leBytes 4 2 ++ (stored ++ json)).length = 12 + json.length := by
    have hbody : (stored ++ json).length = 4 + json.length := by rw [List.length_append, hlen]
    rw [List.length_append, hbody, ← Nat.add_assoc]
    rfl
  have hmagic : (magic ++ leBytes 4 2 ++ (stored ++ json)).take 4 = magic := rfl
  have hversion : u32At (magic ++ leBytes 4 2 ++ (stored ++ json)) 4 = 2 := rfl
  simp only [importState, hlong, hmagic, hversion, hdrop, hstored]
  rw [if_neg (by omega), if_neg (not_not.mpr rfl), if_neg (by omega), if_pos hne]

/-- One of two ways to cut a string is behind the other. -/
theorem exists_between {a b c d : Bytes} (h : a ++ b = c ++ d) (hlen : a.length ≤ c.length) :
    ∃ e, c = a ++ e ∧ b = e ++ d := by
  obtain ⟨e, rfl⟩ := List.prefix_of_prefix_length_le ⟨b, h⟩ (List.prefix_append c d) hlen
  rw [List.append_assoc] at h
  exact ⟨e, rfl, List.append_cancel_left h⟩

/-- Any change of at most four bytes of the payload, or of the checksum, is noticed before anything is
    restored. -/
theorem short_corruption_detected {V E : Type} (restore : V → Bytes → Except StateError E × V) (vfs : V) :
    (∀ u v x y : Bytes, x.length = y.length → x.length ≤ 4 → x ≠ y →
      crc32 (u ++ x ++ v) ≠ crc32 (u ++ y ++ v)) ∧
    ∀ json before x y after : Bytes, exportState json = before ++ x ++ after → x.length = y.length →
      x.length ≤ 4 → x ≠ y → 12 ≤ before.length ∨ 8 ≤ before.length ∧ before.length + x.length ≤ 12 →
      importState restore vfs (before ++ y ++ after) = (.error .checksumMismatch, vfs) := by
  refine ⟨fun u v x y hlen hx hne => crc32_ne u v hlen hx hne, ?_⟩
  intro json before x y after hblob hlen hx hne hplace
  have hsum : (leBytes 4 (crc32 json)).length = 4 := leBytes_length 4 _
  have hbehind : 8 ≤ before.length := hplace.elim (le_trans (by decide)) And.left
  rw [exportState, List.append_assoc, List.append_assoc before] at hblob
  obtain ⟨start, rfl, hrest⟩ := exists_between hblob hbehind
  have hstart : (magic ++ leBytes 4 2 ++ start).length = 8 + start.length := List.length_append
  rw [hstart] at hplace
  rcases hplace with hpayload | ⟨-, hchecksum⟩
  · obtain ⟨u, rfl, rfl⟩ := exists_between hrest (by omega)
    have hcrc := crc32_ne u after hlen hx hne
    rw [List.append_assoc] at hcrc
    have hmismatch := importState_mismatch restore vfs (u ++ y ++ after) hsum
      (by rwa [leNat_leBytes, Nat.mod_eq_of_lt (crc32_lt _)])
    simpa only [List.append_assoc] using hmismatch
  · rw [← List.append_assoc] at hrest
    obtain ⟨e, he, rfl⟩ := exists_between hrest.symm (by rw [List.length_append]; omega)
    have hnew : (start ++ y ++ e).length = 4 := by
      rw [← hsum, he]
      simp only [List.length_append, hlen]
    have hmismatch := importState_mismatch restore vfs json hnew (fun heq => hne ?_)
    · simpa only [List.append_assoc] using hmismatch
    · have hsame := leBytes_leNat (start ++ y ++ e)
      rw [heq, hnew, he] at hsame
      exact List.append_cancel_left (List.append_cancel_right hsame)

/-- Four bytes in the middle of a payload, and four others in their place. -/
theorem short_corruption_detected_fourBytes :
    let json := ascii ['x', 'k', 'e', 'y', 's', 'y']
    importState (fun (n : Nat) _ => (.ok (), n + 1)) 0 (exportState json) = (.ok (), 1) ∧
      importState (fun (n : Nat) _ => (.ok (), n + 1)) 0
          ((exportState json).take 13 ++ ascii ['l', 'o', 'c', 'k'] ++ ascii ['y']) =
        (.error .checksumMismatch, 0) :=
  ⟨by decide +kernel, (short_corruption_detected _ 0).2 (ascii ['x', 'k', 'e', 'y', 's', 'y']) _
    (ascii ['k', 'e', 'y', 's']) (ascii ['l', 'o', 'c', 'k']) (ascii ['y']) (by decide +kernel) rfl
    (by decide) (by decide) (.inl (by decide +kernel))⟩

end Yurt.StateBlob
