import YurtKernel.Kernel.Thread

/-! Request and response bytes (`dispatch/mod.rs`).

    Arguments are little-endian words at fixed offsets of the request. A handler that fills a
    response buffer returns its code and what it wrote where; `Reply.written` lists the offsets. -/

namespace Yurt

/-- Value of a little-endian byte string. -/
def leNat : Bytes → Nat
  | [] => 0
  | b :: bs => b.val + 256 * leNat bs

/-- The `width` low bytes of `n`, least significant first. -/
def leBytes : Nat → Nat → Bytes
  | 0, _ => []
  | width + 1, n => Fin.ofNat 256 n :: leBytes width (n / 256)

section
variable (n : Nat) (request : Bytes) (off : Nat)

/-- The bit pattern of `i16::from_le_bytes` of the half word at `off`. -/
def u16At : Nat := leNat ((request.drop off).take 2)

/-- `u32::from_le_bytes` of the word at `off`. -/
def u32At : Nat := leNat ((request.drop off).take 4)

/-- `u64::from_le_bytes` of the double word at `off`. -/
def u64At : Nat := leNat ((request.drop off).take 8)

def i64Max : Nat := 2 ^ 63 - 1

/-- Two's complement reading of a 64-bit word (`as i64`). -/
def toI64 : Int := if n % 2 ^ 64 < 2 ^ 63 then (n % 2 ^ 64 : Nat) else (n % 2 ^ 64 : Nat) - 2 ^ 64

/-- Two's complement reading of a 32-bit word. -/
def toI32 : Int := if n < 2 ^ 31 then n else (n : Int) - 2 ^ 32

def i32At : Int := toI32 (u32At request off)

/-- 32-bit word of a signed value. -/
def ofI32 (i : Int) : Nat := (i % 2 ^ 32).toNat

/-- `read_u32_args::<n>`: the first `n` words, if the request is long enough. -/
def readU32Args : Option (List Nat) :=
  if request.length < 4 * n then none
  else some ((List.range n).map (fun i => u32At request (4 * i)))

theorem readU32Args_one :
    readU32Args 1 request = if request.length < 4 then none else some [u32At request 0] := rfl

theorem readU32Args_two : readU32Args 2 request =
    if request.length < 8 then none else some [u32At request 0, u32At request 4] := rfl

end

/-- `SCRATCH_LEN`: what the hosts have room for in the kernel, requests and responses together. -/
def scratchLen : Nat := 1024 * 1024

/-- `u32 len + bytes`. -/
def argRecord (arg : Bytes) : Bytes := leBytes 4 arg.length ++ arg

/-- What a handler leaves behind: its code, and the byte strings it wrote into the response. -/
structure Reply where
  rc : Int
  writes : List (Nat × Bytes)
  deriving DecidableEq

/-- A bare code. -/
def Reply.code (rc : Int) : Reply := ⟨rc, []⟩

/-- Bytes at the start of the response, with their number as the code. -/
def Reply.data (bytes : Bytes) : Reply := ⟨bytes.length, [(0, bytes)]⟩

theorem leBytes_length : ∀ width n : Nat, (leBytes width n).length = width
  | 0, _ => rfl
  | width + 1, n => by rw [leBytes, List.length_cons, leBytes_length width]

theorem sum_argRecord (argv : List Bytes) :
    (argv.flatMap argRecord).length = (argv.map (fun arg => 4 + arg.length)).sum := by
  simp [List.length_flatMap, argRecord, leBytes_length]

theorem leNat_leBytes : ∀ width n : Nat, leNat (leBytes width n) = n % 256 ^ width
  | 0, n => by simp [leBytes, leNat, Nat.mod_one]
  | width + 1, n => by
    rw [leBytes, leNat, leNat_leBytes width, Fin.val_ofNat, Nat.pow_succ', Nat.mod_mul]

/-- Reading the first word back. -/
theorem u32At_leBytes_append {n : Nat} (h : n < 2 ^ 32) (rest : Bytes) :
    u32At (leBytes 4 n ++ rest) 0 = n := by
  have hlen := leBytes_length 4 n
  rw [u32At, List.drop_zero, List.take_left' hlen, leNat_leBytes, Nat.mod_eq_of_lt (by simpa using h)]

theorem u32At_take {bytes : Bytes} {n off : Nat} (h : off + 4 ≤ n) :
    u32At (bytes.take n) off = u32At bytes off := by
  rw [u32At, u32At, List.drop_take, List.take_take, Nat.min_eq_left (by omega)]

theorem u32At_drop (bytes : Bytes) (n off : Nat) : u32At (bytes.drop n) off = u32At bytes (n + off) := by
  rw [u32At, u32At, List.drop_drop]

theorem leNat_lt : ∀ bs : Bytes, leNat bs < 256 ^ bs.length
  | [] => by simp [leNat]
  | b :: bs => by
    have hb := b.isLt
    have ih := leNat_lt bs
    rw [leNat, List.length_cons, Nat.pow_succ]
    omega

theorem u32At_lt (request : Bytes) (off : Nat) : u32At request off < 2 ^ 32 := by
  have h := leNat_lt ((request.drop off).take 4)
  have hlen : ((request.drop off).take 4).length ≤ 4 := by
    rw [List.length_take]; omega
  calc u32At request off < 256 ^ ((request.drop off).take 4).length := h
    _ ≤ 256 ^ 4 := Nat.pow_le_pow_right (by norm_num) hlen
    _ = 2 ^ 32 := by norm_num

end Yurt
