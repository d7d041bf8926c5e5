import YurtKernel.Vfs.Types

/-! Text in `/proc` and at the hosts: decimal numbers and lossy UTF-8.

    `decimal` is `format!("{}", n)` and `parseU32` is `str::parse::<u32>`, which also takes a leading
    plus sign and leading zeros. -/

namespace Yurt

/-- The decimal digits of `n`, most significant first. -/
def decimal (n : Nat) : Bytes := (Nat.toDigits 10 n).map (fun c => Fin.ofNat 256 c.toNat)

def isDigit (b : Byte) : Bool := 48 ≤ b.val && b.val ≤ 57

/-- Value of a string of digits. -/
def digitsValue (ds : Bytes) : Nat := ds.foldl (fun n b => 10 * n + (b.val - 48)) 0

/-- `str::parse::<u32>`. -/
def parseU32 (s : Bytes) : Option Nat :=
  let ds := match s with
    | 43 :: rest => rest
    | s => s
  if ds.isEmpty || !ds.all isDigit then none
  else if digitsValue ds < 2 ^ 32 then some (digitsValue ds) else none

/-! ### Lossy UTF-8 -/

/-- Continuation byte. -/
def isCont (b : Byte) : Bool := 128 ≤ b.val && b.val < 192

/-- Admissible second byte after a lead byte of a three-byte character. -/
def second3 (lead b : Byte) : Bool :=
  if lead.val = 0xE0 then 0xA0 ≤ b.val && b.val ≤ 0xBF
  else if lead.val = 0xED then 0x80 ≤ b.val && b.val ≤ 0x9F
  else isCont b

/-- Likewise for a four-byte character. -/
def second4 (lead b : Byte) : Bool :=
  if lead.val = 0xF0 then 0x90 ≤ b.val && b.val ≤ 0xBF
  else if lead.val = 0xF4 then 0x80 ≤ b.val && b.val ≤ 0x8F
  else isCont b

/-- Length of the longest prefix of `bs` whose bytes pass the checks in turn. -/
def okPrefixLen : List (Byte → Bool) → Bytes → Nat
  | ok :: oks, b :: bs => if ok b then 1 + okPrefixLen oks bs else 0
  | _, _ => 0

/-- Checks for the bytes that follow a lead byte; `none` for a byte that starts nothing. -/
def followers (lead : Byte) : Option (List (Byte → Bool)) :=
  if lead.val < 0x80 then some []
  else if 0xC2 ≤ lead.val ∧ lead.val ≤ 0xDF then some [isCont]
  else if 0xE0 ≤ lead.val ∧ lead.val ≤ 0xEF then some [second3 lead, isCont]
  else if 0xF0 ≤ lead.val ∧ lead.val ≤ 0xF4 then some [second4 lead, isCont, isCont]
  else none

/-- U+FFFD. -/
def replacementChar : Bytes := [0xEF, 0xBF, 0xBD]

/-- `String::from_utf8_lossy`: each maximal invalid piece becomes one replacement character. -/
def fromUtf8LossyAux : Nat → Bytes → Bytes
  | 0, _ => []
  | _ + 1, [] => []
  | fuel + 1, lead :: rest =>
    match followers lead with
    | none => replacementChar ++ fromUtf8LossyAux fuel rest
    | some oks =>
      let n := okPrefixLen oks rest
      if n = oks.length then lead :: rest.take n ++ fromUtf8LossyAux fuel (rest.drop n)
      else replacementChar ++ fromUtf8LossyAux fuel (rest.drop n)

def fromUtf8Lossy (bs : Bytes) : Bytes := fromUtf8LossyAux bs.length bs

def byteOrderMark : Bytes := [0xEF, 0xBB, 0xBF]

/-- `TextDecoder.decode` of the JS hosts. -/
def textDecode (bytes : Bytes) : Bytes :=
  fromUtf8Lossy (if byteOrderMark.isPrefixOf bytes then bytes.drop 3 else bytes)

end Yurt
