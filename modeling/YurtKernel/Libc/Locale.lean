import YurtKernel.Kernel.State

/-! Restartable conversion between UTF-8 and wide characters (`abi/rust/yurt-libc/src/locale.rs`).

    `mbrtowc` keeps the bytes of an unfinished character in an 8-byte state: the width that the first
    byte announces, how many bytes are there, and the bytes. This is the UTF-8 locale; a wide character
    is what is stored when the pointer is not null. -/

namespace Yurt.Locale

/-- The return value: `MB_ERR_INVALID`, `MB_ERR_INCOMPLETE` or a number of bytes. -/
inductive Status where
  | invalid
  | incomplete
  | count (n : Nat)
  deriving DecidableEq

def utf8Width (first : Fin 256) : Option Nat :=
  if first.val < 0x80 then some 1
  else if 0xc2 ≤ first.val ∧ first.val ≤ 0xdf then some 2
  else if 0xe0 ≤ first.val ∧ first.val ≤ 0xef then some 3
  else if 0xf0 ≤ first.val ∧ first.val ≤ 0xf4 then some 4
  else none

/-- The loop over the bytes after the first. -/
def continuation : Nat → Nat → Bytes → Option Nat
  | 0, value, _ => some value
  | _ + 1, _, [] => none
  | n + 1, value, byte :: rest =>
    if byte.val &&& 0xc0 ≠ 0x80 then none
    else continuation n ((value <<< 6) ||| (byte.val &&& 0x3f)) rest

/-- What a complete sequence is refused for: more bytes than needed, a surrogate, or too large. -/
def badValue (need value : Nat) : Bool :=
  (need = 2 && value < 0x80) || (need = 3 && value < 0x800) || (need = 4 && value < 0x10000) ||
    (0xd800 ≤ value && value ≤ 0xdfff) || value > 0x10ffff

/-- The payload bits of the first byte. -/
def leadBits (need first : Nat) : Nat :=
  match need with
  | 2 => first &&& 0x1f
  | 3 => first &&& 0x0f
  | _ => first &&& 0x07

/-- The result and the wide character. -/
def decodeUtf8Complete : Bytes → Status × Option Nat
  | [] => (.incomplete, none)
  | first :: rest =>
    if first.val < 0x80 then (.count (if first.val = 0 then 0 else 1), some first.val)
    else
      match utf8Width first with
      | none => (.invalid, none)
      | some need =>
        if rest.length + 1 < need then (.incomplete, none)
        else
          match continuation (need - 1) (leadBits need first.val) rest with
          | none => (.invalid, none)
          | some value => if badValue need value then (.invalid, none) else (.count need, some value)

/-- An `mbstate_t`. -/
structure MbState where
  width : Nat
  len : Nat
  data : Bytes
  deriving DecidableEq

def MbState.clear : MbState := ⟨0, 0, List.replicate 6 0⟩

/-- `store_pending`; the bytes behind the stored ones stay. -/
def MbState.storePending (s : MbState) (need : Nat) (bytes : Bytes) : MbState :=
  ⟨need, bytes.length, bytes ++ s.data.drop bytes.length⟩

def MbState.loadPending (s : MbState) : Bytes := s.data.take (min s.len 4)

/-- `mbrtowc_impl` on a string that is not null. -/
def mbrtowc (s : MbState) (bytes : Bytes) : Status × Option Nat × MbState :=
  match bytes with
  | [] => (.incomplete, none, s)
  | first :: _ =>
    if s.width ≠ 0 then
      let consumed := min (s.width - s.len) bytes.length
      let buffer := s.loadPending ++ bytes.take consumed
      if s.len + consumed < s.width then (.incomplete, none, s.storePending s.width buffer)
      else
        match decodeUtf8Complete (buffer.take s.width) with
        | (.invalid, _) => (.invalid, none, .clear)
        | (_, wide) => (.count consumed, wide, .clear)
    else
      match utf8Width first with
      | none => (.invalid, none, s)
      | some need =>
        if bytes.length < need then (.incomplete, none, s.storePending need bytes)
        else
          match decodeUtf8Complete bytes with
          | (.invalid, wide) => (.invalid, wide, .clear)
          | (status, wide) => (status, wide, s)

/-- `wcrtomb_impl` with a buffer: the return value and the bytes written. -/
def wcrtomb (wc : Int) : Status × List Nat :=
  let value := (wc % 2 ^ 32).toNat
  if value < 0x80 then (.count 1, [value % 256])
  else if value < 0x800 then
    (.count 2, [0xc0 ||| (value >>> 6) % 256, 0x80 ||| (value &&& 0x3f) % 256])
  else if value < 0x10000 then
    (.count 3, [0xe0 ||| (value >>> 12) % 256, 0x80 ||| ((value >>> 6) &&& 0x3f) % 256,
      0x80 ||| (value &&& 0x3f) % 256])
  else if value ≤ 0x10ffff then
    (.count 4, [0xf0 ||| (value >>> 18) % 256, 0x80 ||| ((value >>> 12) &&& 0x3f) % 256,
      0x80 ||| ((value >>> 6) &&& 0x3f) % 256, 0x80 ||| (value &&& 0x3f) % 256])
  else (.invalid, [])

/-! ### The encoding -/

/-- The encoding of a number in the four forms of UTF-8. -/
def octets (v : Nat) : List Nat :=
  if v < 0x80 then [v]
  else if v < 0x800 then [0xc0 + v / 64, 0x80 + v % 64]
  else if v < 0x10000 then [0xe0 + v / 4096, 0x80 + v / 64 % 64, 0x80 + v % 64]
  else [0xf0 + v / 262144, 0x80 + v / 4096 % 64, 0x80 + v / 64 % 64, 0x80 + v % 64]

/-- A Unicode scalar value, encoded. -/
def encode (c : Char) : Bytes := (octets c.toNat).map (Fin.ofNat 256)

/-- The calls on one chunk: each goes on where the last one stopped. The wide characters, the bytes
    consumed and the state, unless a call fails or finds a null character. -/
def convertChunk : Nat → MbState → Bytes → Option (List Nat × Nat × MbState)
  | 0, s, chunk => if chunk = [] then some ([], 0, s) else none
  | fuel + 1, s, chunk =>
    if chunk = [] then some ([], 0, s)
    else
      match mbrtowc s chunk with
      | (.incomplete, _, s') => some ([], chunk.length, s')
      | (.count (n + 1), some wide, s') =>
        (convertChunk fuel s' (chunk.drop (n + 1))).map fun r => (wide :: r.1, n + 1 + r.2.1, r.2.2)
      | _ => none

/-- The calls on one chunk after another. -/
def convert : MbState → List Bytes → Option (List Nat × Nat × MbState)
  | s, [] => some ([], 0, s)
  | s, chunk :: chunks =>
    (convertChunk chunk.length s chunk).bind fun r =>
      (convert r.2.2 chunks).map fun r' => (r.1 ++ r'.1, r.2.1 + r'.2.1, r'.2.2)

/-! ### Bits -/

set_option maxRecDepth 4000 in
theorem and_c0_iff : ∀ byte : Fin 256, byte.val &&& 0xc0 = 0x80 ↔ 0x80 ≤ byte.val ∧ byte.val < 0xc0 := by
  decide

theorem shift_or (value : Nat) (byte : Nat) :
    (value <<< 6) ||| (byte &&& 0x3f) = value * 64 + byte % 64 := by
  have hlow : byte &&& 0x3f = byte % 64 := Nat.and_two_pow_sub_one_eq_mod byte 6
  rw [hlow, ← Nat.shiftLeft_add_eq_or_of_lt (by omega), Nat.shiftLeft_eq]

theorem continuation_cons {n value : Nat} {byte : Fin 256} {rest : Bytes}
    (h : 0x80 ≤ byte.val ∧ byte.val < 0xc0) :
    continuation (n + 1) value (byte :: rest) = continuation n (value * 64 + byte.val % 64) rest := by
  rw [continuation, if_neg (not_not.mpr ((and_c0_iff byte).mpr h)), shift_or]

theorem continuation_take : ∀ (n value : Nat) (rest : Bytes),
    continuation n value (rest.take n) = continuation n value rest
  | 0, _, _ => by simp [continuation]
  | _ + 1, _, [] => rfl
  | n + 1, value, byte :: rest => by
    rw [List.take_succ_cons, continuation, continuation]
    split_ifs
    · rfl
    · exact continuation_take n _ rest

theorem val_ofNat {x : Nat} (h : x < 256) : (Fin.ofNat 256 x).val = x := Nat.mod_eq_of_lt h

theorem leadBits_eq (first : Nat) :
    leadBits 2 first = first % 32 ∧ leadBits 3 first = first % 16 ∧ leadBits 4 first = first % 8 :=
  ⟨Nat.and_two_pow_sub_one_eq_mod first 5, Nat.and_two_pow_sub_one_eq_mod first 4,
    Nat.and_two_pow_sub_one_eq_mod first 3⟩

theorem utf8Width_range {first : Fin 256} {need : Nat} (h : utf8Width first = some need) :
    (need = 1 ↔ first.val < 0x80) ∧ 1 ≤ need ∧ need ≤ 4 := by
  unfold utf8Width at h
  split_ifs at h <;> simp at h <;> omega

/-! ### Encodings -/

theorem scalar (c : Char) : c.toNat < 0xd800 ∨ 0xdfff < c.toNat ∧ c.toNat < 0x110000 := c.valid

/-- The four forms. -/
theorem encode_cases (c : Char) : (∃ a, encode c = [a] ∧ a.val = c.toNat ∧ c.toNat < 0x80) ∨
    (∃ a b, encode c = [a, b] ∧ a.val = 0xc0 + c.toNat / 64 ∧ b.val = 0x80 + c.toNat % 64 ∧
      0x80 ≤ c.toNat ∧ c.toNat < 0x800) ∨
    (∃ a b d, encode c = [a, b, d] ∧ a.val = 0xe0 + c.toNat / 4096 ∧
      b.val = 0x80 + c.toNat / 64 % 64 ∧ d.val = 0x80 + c.toNat % 64 ∧ 0x800 ≤ c.toNat ∧
      c.toNat < 0x10000) ∨
    ∃ a b d e, encode c = [a, b, d, e] ∧ a.val = 0xf0 + c.toNat / 262144 ∧
      b.val = 0x80 + c.toNat / 4096 % 64 ∧ d.val = 0x80 + c.toNat / 64 % 64 ∧
      e.val = 0x80 + c.toNat % 64 ∧ 0x10000 ≤ c.toNat := by
  have hc := scalar c
  unfold encode octets
  split_ifs with h1 h2 h3
  · exact .inl ⟨_, rfl, val_ofNat (by omega), h1⟩
  · exact .inr (.inl ⟨_, _, rfl, val_ofNat (by omega), val_ofNat (by omega), by omega, h2⟩)
  · exact .inr (.inr (.inl ⟨_, _, _, rfl, val_ofNat (by omega), val_ofNat (by omega),
      val_ofNat (by omega), by omega, h3⟩))
  · exact .inr (.inr (.inr ⟨_, _, _, _, rfl, val_ofNat (by omega), val_ofNat (by omega),
      val_ofNat (by omega), val_ofNat (by omega), by omega⟩))

/-- A multi-byte sequence whose bytes after the first are continuation bytes. -/
theorem decode_cons {first : Fin 256} {rest : Bytes} {need value : Nat}
    (hneed : utf8Width first = some need) (hmany : 0x80 ≤ first.val) (hlen : need ≤ rest.length + 1)
    (hvalue : continuation (need - 1) (leadBits need first.val) rest = some value) :
    decodeUtf8Complete (first :: rest) =
      if badValue need value then (.invalid, none) else (.count need, some value) := by
  rw [decodeUtf8Complete, if_neg (by omega), hneed]
  dsimp only
  rw [if_neg (by omega), hvalue]

theorem width_encode (c : Char) : ∃ first rest, encode c = first :: rest ∧
    utf8Width first = some (encode c).length := by
  have hc := scalar c
  rcases encode_cases c with ⟨a, h, ha, _⟩ | ⟨a, b, h, ha, -, _, _⟩ | ⟨a, b, d, h, ha, -, -, _, _⟩ |
    ⟨a, b, d, e, h, ha, -, -, -, _⟩ <;> refine ⟨_, _, h, ?_⟩ <;> rw [h, utf8Width]
  · rw [if_pos (by omega)]
    rfl
  · rw [if_neg (by omega), if_pos (by omega)]
    rfl
  · rw [if_neg (by omega), if_neg (by omega), if_pos (by omega)]
    rfl
  · rw [if_neg (by omega), if_neg (by omega), if_neg (by omega), if_pos (by omega)]
    rfl

theorem decode_encode (c : Char) (tail : Bytes) : decodeUtf8Complete (encode c ++ tail) =
    (.count (if c.toNat = 0 then 0 else (encode c).length), some c.toNat) := by
  have hc := scalar c
  obtain ⟨first, rest, hcons, hwidth⟩ := width_encode c
  rcases encode_cases c with ⟨a, h, ha, hlt⟩ | ⟨a, b, h, ha, hb, h1, h2⟩ |
    ⟨a, b, d, h, ha, hb, hd, h1, h2⟩ | ⟨a, b, d, e, h, ha, hb, hd, he, h1⟩ <;>
    rw [h] at hcons hwidth ⊢ <;> cases hcons
  · simp [decodeUtf8Complete, ha, hlt]
  all_goals rw [if_neg (by omega)]
  · have hvalue : continuation 1 (leadBits 2 first.val) (b :: tail) = some c.toNat := by
      rw [continuation_cons (by omega), continuation, (leadBits_eq _).1]
      congr 1
      omega
    refine (decode_cons hwidth (by omega) (by simp) hvalue).trans (if_neg ?_)
    simp [badValue]
    omega
  · have hvalue : continuation 2 (leadBits 3 first.val) (b :: d :: tail) = some c.toNat := by
      rw [continuation_cons (by omega), continuation_cons (by omega), continuation, (leadBits_eq _).2.1]
      congr 1
      omega
    refine (decode_cons hwidth (by omega) (by simp) hvalue).trans (if_neg ?_)
    simp [badValue]
    omega
  · have hvalue : continuation 3 (leadBits 4 first.val) (b :: d :: e :: tail) = some c.toNat := by
      rw [continuation_cons (by omega), continuation_cons (by omega), continuation_cons (by omega),
        continuation, (leadBits_eq _).2.2]
      congr 1
      omega
    refine (decode_cons hwidth (by omega) (by simp) hvalue).trans (if_neg ?_)
    simp [badValue]
    omega

/-! ### One call -/

/-- Enough bytes are a character or an error. -/
theorem decode_status {first : Fin 256} {rest : Bytes} {need : Nat}
    (hneed : utf8Width first = some need) (hlen : need ≤ rest.length + 1) :
    decodeUtf8Complete (first :: rest) = (.invalid, none) ∨ ∃ value, decodeUtf8Complete (first :: rest) =
        (.count (if first.val = 0 then 0 else need), some value) := by
  obtain ⟨hone, -, -⟩ := utf8Width_range hneed
  by_cases hascii : first.val < 0x80
  · obtain rfl := hone.mpr hascii
    exact .inr ⟨first.val, if_pos hascii⟩
  cases hvalue : continuation (need - 1) (leadBits need first.val) rest with
  | none =>
    left
    rw [decodeUtf8Complete, if_neg hascii, hneed]
    dsimp only
    rw [if_neg (by omega), hvalue]
  | some value =>
    rw [decode_cons hneed (by omega) hlen hvalue, if_neg (by omega : ¬first.val = 0)]
    split_ifs
    · exact .inl rfl
    · exact .inr ⟨value, rfl⟩

/-- Only the bytes of the character are looked at. -/
theorem decode_take {first : Fin 256} {rest : Bytes} {need : Nat} (hneed : utf8Width first = some need)
    (hlen : need ≤ rest.length + 1) :
    decodeUtf8Complete ((first :: rest).take need) = decodeUtf8Complete (first :: rest) := by
  obtain ⟨-, hpos, -⟩ := utf8Width_range hneed
  obtain ⟨m, rfl⟩ := Nat.exists_eq_add_of_le' hpos
  rw [List.take_succ_cons, decodeUtf8Complete, decodeUtf8Complete, hneed]
  dsimp only
  rw [Nat.add_sub_cancel, continuation_take, List.length_take, min_eq_left (by omega)]
  simp [show ¬rest.length < m by omega]

/-- The state holds the bytes `p` of an unfinished character. -/
structure Holds (s : MbState) (p : Bytes) : Prop where
  empty : p = [] → s = .clear
  begun : ∀ first rest, p = first :: rest → utf8Width first = some s.width ∧ p.length < s.width ∧
    s.len = p.length ∧ p <+: s.data

variable {s : MbState} {p chunk : Bytes}

theorem holds_clear : Holds .clear [] := ⟨fun _ => rfl, fun _ _ h => nomatch h⟩

theorem holds_store {first : Fin 256} {rest : Bytes} {need : Nat} (s : MbState)
    (hneed : utf8Width first = some need) (hlen : (first :: rest).length < need) :
    Holds (s.storePending need (first :: rest)) (first :: rest) := by
  refine ⟨fun h => (nomatch h), fun first' rest' h => ?_⟩
  cases h
  exact ⟨hneed, hlen, rfl, List.prefix_append _ _⟩

/-- A call looks at the held bytes and the chunk as one sequence. -/
theorem mbrtowc_spec (hs : Holds s p) (hchunk : chunk ≠ []) {first : Fin 256} {rest : Bytes}
    (hall : p ++ chunk = first :: rest) :
    match utf8Width first with
    | none => mbrtowc s chunk = (.invalid, none, s)
    | some need =>
      if (first :: rest).length < need then
        ∃ s', mbrtowc s chunk = (.incomplete, none, s') ∧ Holds s' (first :: rest)
      else
        match decodeUtf8Complete (first :: rest) with
        | (.invalid, _) => mbrtowc s chunk = (.invalid, none, .clear)
        | (.incomplete, _) => False
        | (.count n, wide) => mbrtowc s chunk = (.count (n - p.length), wide, .clear) := by
  cases p with
  | nil =>
    obtain rfl := hs.empty rfl
    subst hall
    rw [mbrtowc, if_neg (by decide)]
    cases hneed : utf8Width first with
    | none => rfl
    | some need =>
      dsimp only
      split_ifs with hshort
      · exact ⟨_, rfl, holds_store _ hneed hshort⟩
      · rcases decode_status hneed (by simpa using hshort) with h | ⟨value, h⟩ <;> rw [h]
        rfl
  | cons first' held =>
    obtain ⟨hneed, hlt, hlen, hdata⟩ := hs.begun first' held rfl
    obtain ⟨hone, -, hfour⟩ := utf8Width_range hneed
    obtain rfl : first' = first := (List.cons.inj hall).1
    obtain ⟨byte, more, hcons⟩ := List.exists_cons_of_ne_nil hchunk
    have hload : s.loadPending = first' :: held := by
      rw [MbState.loadPending, hlen, min_eq_left (by omega), ← List.prefix_iff_eq_take.mp hdata]
    have hsize : rest.length + 1 = (first' :: held).length + chunk.length := by
      rw [← List.length_append, hall, List.length_cons]
    rw [hneed, hcons, mbrtowc, ← hcons, if_pos (by omega), hload, hlen]
    dsimp only
    rw [List.length_cons, hsize]
    by_cases hshort : (first' :: held).length + chunk.length < s.width
    · rw [min_eq_right (by omega), if_pos hshort, if_pos hshort, List.take_length, hall]
      exact ⟨_, rfl, holds_store s hneed (by rw [List.length_cons, hsize]; exact hshort)⟩
    · have htake : (first' :: held ++ chunk.take (s.width - (first' :: held).length)).take s.width =
          (first' :: rest).take s.width := by
        rw [← hall, List.take_append, List.take_append, List.take_take, min_self]
      rw [min_eq_left (by omega), if_neg hshort, if_neg (by omega), htake, decode_take hneed (by omega)]
      have hfirst : ¬first'.val = 0 := fun h0 => by
        have := hone.mpr (by omega)
        have : 0 < (first' :: held).length := Nat.succ_pos _
        omega
      rcases decode_status hneed (by omega : s.width ≤ rest.length + 1) with h | ⟨value, h⟩ <;> rw [h]
      rw [if_neg hfirst]

/-! ### Whole texts -/

/-- Characters `cs` are still to come: what is held of the first, and `rest`. -/
structure Reads (s : MbState) (p rest : Bytes) (cs : List Char) : Prop where
  holds : Holds s p
  text : p ++ rest = cs.flatMap encode
  short : ∀ c cs', cs = c :: cs' → p.length < (encode c).length

/-- The call is put off to the next chunk, or delivers the first character. -/
theorem Reads.call {c : Char} {cs : List Char} {rest : Bytes} (h : Reads s p (chunk ++ rest) (c :: cs))
    (hchunk : chunk ≠ []) (hzero : c.toNat ≠ 0) :
    (∃ s', mbrtowc s chunk = (.incomplete, none, s') ∧ Reads s' (p ++ chunk) rest (c :: cs)) ∨
    ∃ n, mbrtowc s chunk = (.count (n + 1), some c.toNat, .clear) ∧
      Reads .clear [] (chunk.drop (n + 1) ++ rest) cs ∧ n < chunk.length := by
  obtain ⟨first, tail, hcons, hwidth⟩ := width_encode c
  have hshort := h.short c cs rfl
  have htext : p ++ chunk ++ rest = encode c ++ cs.flatMap encode := by simpa using h.text
  obtain ⟨byte, more, hall⟩ := List.exists_cons_of_ne_nil (List.append_ne_nil_of_right_ne_nil p hchunk)
  have hfirst : byte = first := by
    rw [hall, hcons] at htext
    exact (List.cons.inj htext).1
  have hspec := mbrtowc_spec h.holds hchunk (hall.trans (by rw [hfirst]))
  have hlen : (first :: more).length = p.length + chunk.length := by
    rw [← hfirst, ← hall, List.length_append]
  rw [hwidth] at hspec
  dsimp only at hspec
  split_ifs at hspec with hless
  · obtain ⟨s', hcall, hholds⟩ := hspec
    rw [← hfirst, ← hall] at hholds
    exact .inl ⟨s', hcall, hholds, by simpa using htext, fun c' cs' hcs => by cases hcs; simp_all⟩
  · have hpre : encode c <+: p ++ chunk :=
      List.prefix_of_prefix_length_le ⟨_, htext.symm⟩ ⟨rest, rfl⟩ (by simp_all)
    obtain ⟨left, hleft⟩ := hpre
    rw [← hfirst, ← hall, ← hleft, decode_encode, if_neg hzero] at hspec
    obtain ⟨n, hn⟩ := Nat.exists_eq_add_of_lt hshort
    refine .inr ⟨n, ?_, ⟨holds_clear, ?_, fun c' cs' _ => ?_⟩, by omega⟩
    · rw [hspec, hn]
      congr 2
      omega
    · have hdrop : chunk.drop (n + 1) = left := by
        have := congrArg (List.drop (encode c).length) hleft
        rw [List.drop_left, hn, List.drop_append, List.drop_of_length_le (by omega)] at this
        simpa [Nat.add_assoc] using this.symm
      rw [hdrop]
      rw [← hleft, List.append_assoc] at htext
      exact List.append_cancel_left htext
    · obtain ⟨_, _, hne, -⟩ := width_encode c'
      simp [hne]

theorem convertChunk_spec (fuel : Nat) : ∀ {s : MbState} {p chunk rest : Bytes} {cs : List Char},
    Reads s p (chunk ++ rest) cs → (∀ c ∈ cs, c.toNat ≠ 0) → chunk.length ≤ fuel →
    ∃ ds cs' s' p', cs = ds ++ cs' ∧ Reads s' p' rest cs' ∧
      convertChunk fuel s chunk = some (ds.map Char.toNat, chunk.length, s') := by
  induction fuel with
  | zero =>
    intro s p chunk rest cs h _ hfuel
    obtain rfl := List.length_eq_zero_iff.mp (Nat.le_zero.mp hfuel)
    exact ⟨[], cs, s, p, rfl, h, rfl⟩
  | succ fuel ih =>
    intro s p chunk rest cs h hzero hfuel
    rw [convertChunk]
    split_ifs with hchunk
    · subst hchunk
      exact ⟨[], cs, s, p, rfl, h, rfl⟩
    cases cs with
    | nil => exact absurd h.text (by simp [hchunk])
    | cons c cs =>
      rcases h.call hchunk (hzero c (by simp)) with ⟨s', hcall, hreads⟩ | ⟨n, hcall, hreads, hn⟩
      · rw [hcall]
        exact ⟨[], c :: cs, s', _, rfl, hreads, rfl⟩
      · obtain ⟨ds, cs', s', p', rfl, hrest, hconv⟩ :=
          ih hreads (fun c' hc' => hzero c' (by simp [hc'])) (by simp; omega)
        rw [hcall]
        dsimp only
        rw [hconv]
        refine ⟨c :: ds, cs', s', p', rfl, hrest, ?_⟩
        simp
        omega

theorem Reads.convert {cs : List Char} {chunks : List Bytes} (h : Reads s p chunks.flatten cs)
    (hzero : ∀ c ∈ cs, c.toNat ≠ 0) :
    Locale.convert s chunks = some (cs.map Char.toNat, chunks.flatten.length, .clear) := by
  induction chunks generalizing s p cs with
  | nil =>
    cases cs with
    | nil =>
      have hp : p = [] := by simpa using h.text
      rw [Locale.convert, h.holds.empty hp]
      rfl
    | cons c cs =>
      have hlen := congrArg List.length h.text
      have := h.short c cs rfl
      simp at hlen
      omega
  | cons chunk chunks ih =>
    rw [List.flatten_cons] at h
    obtain ⟨ds, cs', s', p', rfl, hreads, hconv⟩ := convertChunk_spec chunk.length h hzero le_rfl
    rw [Locale.convert, hconv, Option.bind_some, ih hreads (fun c hc => hzero c (by simp [hc]))]
    simp

theorem or_low {i a b : Nat} (h : b < 2 ^ i) : a <<< i ||| b = a * 2 ^ i + b := by
  rw [← Nat.shiftLeft_add_eq_or_of_lt h, Nat.shiftLeft_eq]

/-- A continuation byte. -/
theorem or_cont (x : Nat) : 0x80 ||| (x &&& 0x3f) % 256 = 0x80 + x % 64 := by
  have hlow : x &&& 0x3f = x % 64 := Nat.and_two_pow_sub_one_eq_mod x 6
  rw [hlow, Nat.mod_eq_of_lt (by omega)]
  exact or_low (i := 6) (a := 2) (by omega)

theorem wcrtomb_eq {wc : Int} {v : Nat} (hv : (wc % 2 ^ 32).toNat = v) (hmax : v ≤ 0x10ffff) :
    wcrtomb wc = (.count (octets v).length, octets v) := by
  unfold wcrtomb octets
  simp only [hv, or_cont, Nat.shiftRight_eq_div_pow]
  split_ifs
  · simp
    omega
  · rw [Nat.mod_eq_of_lt (by omega),
      show 0xc0 ||| v / 2 ^ 6 = 0xc0 + v / 2 ^ 6 from or_low (a := 3) (i := 6) (by omega)]
    rfl
  · rw [Nat.mod_eq_of_lt (by omega),
      show 0xe0 ||| v / 2 ^ 12 = 0xe0 + v / 2 ^ 12 from or_low (a := 7) (i := 5) (by omega)]
    rfl
  · rw [Nat.mod_eq_of_lt (by omega),
      show 0xf0 ||| v / 2 ^ 18 = 0xf0 + v / 2 ^ 18 from or_low (a := 15) (i := 4) (by omega)]
    rfl

theorem octets_encode (c : Char) : (encode c).map Fin.val = octets c.toNat := by
  have hbyte : ∀ x ∈ octets c.toNat, x < 256 := by
    have hc := scalar c
    unfold octets
    split_ifs <;> simp <;> omega
  rw [encode, List.map_map]
  exact (List.map_congr_left fun x hx => val_ofNat (hbyte x hx)).trans (List.map_id _)

/-- The wide characters are those encoded, however the bytes are cut, every byte is consumed and the
    state is initial again; and `wcrtomb` writes the encoding. -/
theorem convert_text (cs : List Char) (hzero : ∀ c ∈ cs, c.toNat ≠ 0) (chunks : List Bytes)
    (hcut : chunks.flatten = cs.flatMap encode) :
    convert .clear chunks = some (cs.map Char.toNat, (cs.flatMap encode).length, .clear) ∧
      ∀ c : Char, wcrtomb c.toNat = (.count (encode c).length, (encode c).map Fin.val) := by
  have hreads : Reads .clear [] chunks.flatten cs := by
    refine ⟨holds_clear, hcut, fun c cs' _ => ?_⟩
    obtain ⟨_, _, hcons, -⟩ := width_encode c
    simp [hcons]
  refine ⟨hcut ▸ hreads.convert hzero, fun c => ?_⟩
  have hc := scalar c
  rw [wcrtomb_eq (v := c.toNat) (by omega) (by omega), ← octets_encode, List.length_map]

/-- Two characters in three chunks. -/
theorem convert_text_three : convert .clear [[0xe2, 0x82], [0xac, 0xc3], [0xa9]] =
    some ([0x20ac, 0xe9], 5, .clear) :=
  (convert_text ['€', 'é'] (by simp) [[0xe2, 0x82], [0xac, 0xc3], [0xa9]] rfl).1

end Yurt.Locale
