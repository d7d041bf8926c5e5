import YurtKernel.Vfs.Types

/-! `sendfile` (`abi/src/yurt_sendfile.c`).

    The input is a regular file with its cursor. What the output does is arbitrary: `write` says how a
    write is answered that is made when so many bytes have been written. No two writes of a call are
    made at the same number, since a write that takes nothing is the last, so this is every behaviour;
    a write takes at most what it is offered. `fails` says the same of reads. Asking a regular file for
    its cursor does not fail. -/

namespace Yurt.Sendfile

structure Result where
  rc : Int
  cursor : Nat
  offset : Option Int
  output : Bytes

section
variable (content : Bytes) (cursor : Nat) (offset : Option Int)

/-- Where the bytes are taken from. -/
def start : Nat := (offset.map Int.toNat).getD cursor

/-- The position the bytes are taken from moved on by `n`, and nothing else did. -/
def Moved (n : Nat) (r : Result) : Prop :=
  match offset with
  | none => r.cursor = cursor + n
  | some o => r.offset = some (o + n) ∧ r.cursor = cursor

/-- Every byte is accounted for. -/
def Accounts (r : Result) : Prop :=
  (∀ n : Nat, r.rc = n → r.output.length = n ∧
    r.output = (content.drop (start cursor offset)).take n ∧ Moved cursor offset n r) ∧
  (r.rc = -1 → r.cursor = cursor ∧ r.offset = offset ∧ r.output = [])

end

variable {content : Bytes} {fails : Nat → Bool} {write : Nat → Int} {m pos : Nat}

end Yurt.Sendfile
