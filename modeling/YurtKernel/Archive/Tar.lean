import YurtKernel.Kernel.Components
import YurtKernel.Vfs.Decimal

/-! The three tar readers of the host side: `applyTarToVfs`, `installYurtPackageTar` and
    `buildTarImageIndexSync`.

    They share the loop, the header and the lenient number parser, and differ in what they do with an
    entry. Strings are kept as the UTF-8 bytes of the text that `TextDecoder` yields. A file system is
    what answers the calls of a reader, and a call that throws may have changed it. -/

namespace Yurt.Tar

/-! ### Bytes and text -/

/-- Bounds of `subarray` and `slice`: a negative index counts from the end. -/
def relative (len : Nat) (i : Int) : Nat := if i < 0 then (len + i).toNat else min i.toNat len

def subarray (bytes : Bytes) (start stop : Int) : Bytes :=
  (bytes.take (relative bytes.length stop)).drop (relative bytes.length start)

/-- White space of `trim`. -/
def whiteSpaces : List Bytes :=
  [[9], [10], [11], [12], [13], [32], [0xC2, 0xA0], [0xE1, 0x9A, 0x80], [0xE2, 0x80, 0xA8],
    [0xE2, 0x80, 0xA9], [0xE2, 0x80, 0xAF], [0xE2, 0x81, 0x9F], [0xE3, 0x80, 0x80], byteOrderMark] ++
  (List.range 11).map (fun i => [0xE2, 0x80, Fin.ofNat 256 (0x80 + i)])

def stripStart (spaces : List Bytes) : Nat → Bytes → Bytes
  | 0, s => s
  | fuel + 1, s =>
    match spaces.find? (fun w => w.isPrefixOf s) with
    | some w => stripStart spaces fuel (s.drop w.length)
    | none => s

def trimStart (s : Bytes) : Bytes := stripStart whiteSpaces s.length s
def trimEnd (s : Bytes) : Bytes := (stripStart (whiteSpaces.map List.reverse) s.length s.reverse).reverse

def readString (block : Bytes) (start length : Nat) : Bytes :=
  trimEnd (textDecode (((block.drop start).take length).takeWhile (fun b => b ≠ 0)))

/-- `Number.parseInt(s, 8)` of a trimmed string; `none` is `NaN`. -/
def parseOctal (s : Bytes) : Option Int :=
  let (sign, rest) : Int × Bytes := match s with
    | 43 :: rest => (1, rest)
    | 45 :: rest => (-1, rest)
    | s => (1, s)
  let digits := rest.takeWhile (fun b => 48 ≤ b.val && b.val ≤ 55)
  if digits.isEmpty then none else some (sign * digits.foldl (fun n b => 8 * n + ((b.val - 48 : Nat) : Int)) 0)

def readOctal (block : Bytes) (start length : Nat) : Int :=
  (parseOctal (trimStart (readString block start length))).getD 0

/-! ### Headers -/

def blockSize : Int := 512

structure Header where
  path : Bytes
  mode : Int
  uid : Int
  gid : Int
  size : Int
  mtime : Int
  type : Bytes
  linkname : Bytes
  deriving DecidableEq

def readHeader (block : Bytes) : Header :=
  let path := readString block 0 100
  let pre := readString block 345 155
  let mode := readOctal block 100 8
  { path := if pre.isEmpty then path else pre ++ slash :: path
    mode := if mode = 0 then 0o644 else mode
    uid := readOctal block 108 8
    gid := readOctal block 116 8
    size := readOctal block 124 12
    mtime := readOctal block 136 12
    type := readString block 156 1
    linkname := readString block 157 100 }

inductive EntryKind where
  | file | directory | symlink | hardlink | other
  deriving DecidableEq

def Header.kind (h : Header) : EntryKind :=
  if h.type = [] ∨ h.type = ascii ['0'] then .file
  else if h.type = ascii ['5'] then .directory
  else if h.type = ascii ['2'] then .symlink
  else if h.type = ascii ['1'] then .hardlink
  else .other

/-! ### Paths -/

/-- Components of an entry name; `..` is refused. -/
def tarPieces (path : Bytes) : Option (List Bytes) :=
  let pieces := (splitComponents path).filter (fun piece => piece ≠ dotName)
  if dotDotName ∈ pieces then none else some pieces

def resolveTarPath (root entryPath : Bytes) : Option Bytes :=
  if entryPath.isEmpty then none else (tarPieces (root ++ slash :: entryPath)).map joinComponents

def normalizeTarEntryPath (path : Bytes) : Option Bytes :=
  if path.isEmpty then none else (tarPieces path).map joinComponents

/-- `some []` is the root. -/
def validatePath (raw : Bytes) : Option (List Bytes) :=
  if isAbsolute raw then none else tarPieces raw

/-- What is before the last slash, or `/`. -/
def parentPath (path : Bytes) : Bytes :=
  let parent := ((path.reverse.dropWhile (fun b => b ≠ slash)).drop 1).reverse
  if parent.isEmpty then rootPath else parent

/-! ### The loop -/

/-- What became of an entry. -/
structure Visit (S : Type) where
  state : S
  body : Bool
  threw : Bool

structure Reader (S : Type) where
  isZeroBlock : Bytes → Bool
  visit : S → Header → Bytes → Int → Visit S

/-- A block that was read, and the size of the body that was used after it. -/
structure ReadEvent where
  offset : Int
  body : Option Int

section loop
variable {S : Type} (r : Reader S) (image : Bytes)

def Reader.block (offset : Int) : Bytes := subarray image offset (offset + blockSize)

/-- There is a block at this offset, and it is not the end mark. -/
def Reader.ReadsAt (offset : Int) : Prop :=
  offset + blockSize ≤ image.length ∧ r.isZeroBlock (Reader.block image offset) = false

instance (offset : Int) : Decidable (r.ReadsAt image offset) := inferInstanceAs (Decidable (_ ∧ _))

def Reader.headerAt (offset : Int) : Header := readHeader (Reader.block image offset)

def Reader.visitAt (offset : Int) (s : S) : Visit S :=
  let header := Reader.headerAt image offset
  let dataOffset := offset + blockSize
  r.visit s header (subarray image dataOffset (dataOffset + header.size)) dataOffset

/-- `offset + BLOCK_SIZE + Math.ceil(size / BLOCK_SIZE) * BLOCK_SIZE` -/
def nextOffset (offset size : Int) : Int := offset + blockSize + -(-size / blockSize) * blockSize

def Reader.eventAt (offset : Int) (s : S) : ReadEvent :=
  ⟨offset, if (r.visitAt image offset s).body then some (Reader.headerAt image offset).size else none⟩

/-- The blocks that are read, in order, the state at the end, and whether the loop was left, and
    normally. -/
def Reader.scan : Nat → Int → S → List ReadEvent × S × Option Bool
  | 0, _, s => ([], s, none)
  | fuel + 1, offset, s =>
    if image.length < offset + blockSize then ([], s, some true)
    else if r.isZeroBlock (Reader.block image offset) then ([⟨offset, none⟩], s, some true)
    else
      let visit := r.visitAt image offset s
      let event := r.eventAt image offset s
      if visit.threw then ([event], visit.state, some false)
      else
        let rest := Reader.scan fuel (nextOffset offset (Reader.headerAt image offset).size) visit.state
        (event :: rest.1, rest.2)

/-- A body inside the image, where its header says. -/
def ReadEvent.InPlace (e : ReadEvent) : Prop :=
  ∀ size, e.body = some size → 0 ≤ size ∧ e.offset + blockSize + size ≤ image.length

/-- The loop ends and reads every block at a larger offset than the one before, at most one for each
    512 bytes; every body it uses is in place. -/
def Reader.Forward (s : S) : Prop := ∃ fuel, (r.scan image fuel 0 s).2.2 ≠ none ∧
    (r.scan image fuel 0 s).1.length ≤ image.length / 512 ∧
    (r.scan image fuel 0 s).1.Pairwise (fun e e' => e.offset < e'.offset) ∧
    ∀ e ∈ (r.scan image fuel 0 s).1, 0 ≤ e.offset ∧ e.InPlace image

/-- Where the sizes of the headers lead. -/
inductive Reader.Reached (s₀ : S) : Int → S → Prop
  | start : Reached s₀ 0 s₀
  | next {offset : Int} {s : S} : Reached s₀ offset s → r.ReadsAt image offset →
    (r.visitAt image offset s).threw = false →
    Reached s₀ (nextOffset offset (Reader.headerAt image offset).size) (r.visitAt image offset s).state

/-- A size that takes the reader on is above -512, and one that delimits a body is not negative and
    within what is left. -/
def Reader.Sized (s₀ : S) : Prop := ∀ offset s, r.Reached image s₀ offset s → r.ReadsAt image offset →
    ((r.visitAt image offset s).threw = false → -blockSize < (Reader.headerAt image offset).size) ∧
      (r.eventAt image offset s).InPlace image

variable {r image} {s s₀ : S} {offset : Int}

theorem nextOffset_ge {size : Int} (h : -blockSize < size) : offset + 512 ≤ nextOffset offset size := by
  unfold nextOffset
  unfold blockSize at *
  omega

theorem nextOffset_le {size : Int} (h : size ≤ -blockSize) : nextOffset offset size ≤ offset := by
  unfold nextOffset
  unfold blockSize at *
  omega

namespace Reader

/-- A pass that goes on. -/
theorem scan_on (hat : r.ReadsAt image offset) (hon : (r.visitAt image offset s).threw = false)
    (fuel : Nat) : r.scan image (fuel + 1) offset s =
      (r.eventAt image offset s ::
        (r.scan image fuel (nextOffset offset (Reader.headerAt image offset).size)
          (r.visitAt image offset s).state).1,
       (r.scan image fuel (nextOffset offset (Reader.headerAt image offset).size)
          (r.visitAt image offset s).state).2) := by
  rw [Reader.scan, if_neg (not_lt.mpr hat.1), hat.2, if_neg Bool.false_ne_true]
  simp only [hon, Bool.false_eq_true, if_false]

/-- A pass ends the loop with at most its own block, or goes on. -/
theorem scan_cases (r : Reader S) (image : Bytes) (offset : Int) (s : S) :
    (∀ fuel, r.scan image (fuel + 1) offset s = ([], s, some true)) ∧ image.length < offset + blockSize ∨
    (∃ (e : ReadEvent) (s' : S) (b : Bool), (∀ fuel, r.scan image (fuel + 1) offset s = ([e], s', some b)) ∧
      e.offset = offset ∧ offset + blockSize ≤ image.length ∧
      (e.body = none ∧ ¬r.ReadsAt image offset ∨
        r.ReadsAt image offset ∧ (r.visitAt image offset s).threw = true ∧ e = r.eventAt image offset s)) ∨
    r.ReadsAt image offset ∧ (r.visitAt image offset s).threw = false := by
  by_cases hroom : image.length < offset + blockSize
  · exact .inl ⟨fun fuel => by rw [Reader.scan, if_pos hroom], hroom⟩
  cases hzero : r.isZeroBlock (Reader.block image offset) with
  | true =>
    have hend : ¬r.ReadsAt image offset := fun hat => Bool.false_ne_true (hat.2.symm.trans hzero)
    refine .inr (.inl ⟨⟨offset, none⟩, s, true, fun fuel => ?_, rfl, not_lt.mp hroom, .inl ⟨rfl, hend⟩⟩)
    rw [Reader.scan, if_neg hroom, if_pos hzero]
  | false =>
    have hat : r.ReadsAt image offset := ⟨not_lt.mp hroom, hzero⟩
    cases hthrew : (r.visitAt image offset s).threw with
    | false => exact .inr (.inr ⟨hat, rfl⟩)
    | true =>
      refine .inr (.inl ⟨r.eventAt image offset s, (r.visitAt image offset s).state, false,
        fun fuel => ?_, rfl, hat.1,
        .inr ⟨hat, rfl, rfl⟩⟩)
      rw [Reader.scan, if_neg hroom, hzero, if_neg Bool.false_ne_true]
      simp only [hthrew, if_true]

/-- With room for a block there is one to read. -/
theorem scan_head (hroom : offset + blockSize ≤ image.length) (fuel : Nat) :
    ∃ e es, (r.scan image (fuel + 1) offset s).1 = e :: es ∧ e.offset = offset := by
  obtain ⟨-, hlt⟩ | ⟨e, s', b, hscan, hoff, -⟩ | ⟨hat, hon⟩ := r.scan_cases image offset s
  · exact absurd hroom (not_le.mpr hlt)
  · exact ⟨e, [], by rw [hscan], hoff⟩
  · exact ⟨_, _, by rw [Reader.scan_on hat hon], rfl⟩

/-- Sizes that move on make the loop end: each pass takes 512 bytes off what is left. -/
theorem Sized.scan (h : r.Sized image s₀) : ∀ (fuel : Nat) (offset : Int) (s : S),
    r.Reached image s₀ offset s → image.length < offset + blockSize + 512 * fuel →
    (r.scan image (fuel + 1) offset s).2.2 ≠ none ∧
    (r.scan image (fuel + 1) offset s).1.Pairwise (fun e e' => e.offset < e'.offset) ∧
    (∀ e ∈ (r.scan image (fuel + 1) offset s).1, offset ≤ e.offset ∧ e.InPlace image) ∧
    ((r.scan image (fuel + 1) offset s).1 = [] ∨
      offset + 512 * (r.scan image (fuel + 1) offset s).1.length ≤ image.length) := by
  intro fuel
  induction fuel with
  | zero =>
    intro offset s _ hfuel
    rw [Reader.scan, if_pos (by omega)]
    exact ⟨by simp, List.Pairwise.nil, fun _ he => absurd he List.not_mem_nil, .inl rfl⟩
  | succ fuel ih =>
    intro offset s hreach hfuel
    obtain ⟨hscan, -⟩ | ⟨e, s', b, hscan, hoff, hroom, hbody⟩ | ⟨hat, hon⟩ := r.scan_cases image offset s
    · rw [hscan]
      exact ⟨by simp, List.Pairwise.nil, fun _ he => absurd he List.not_mem_nil, .inl rfl⟩
    · rw [hscan]
      refine ⟨by simp, List.pairwise_singleton _ _, fun e' he' => ?_, .inr ?_⟩
      · obtain rfl := List.mem_singleton.mp he'
        refine ⟨hoff.ge, ?_⟩
        obtain ⟨hnone, -⟩ | ⟨hat, -, rfl⟩ := hbody
        · intro size hsize
          rw [hnone] at hsize
          cases hsize
        · exact (h offset s hreach hat).2
      · unfold blockSize at hroom
        simpa using hroom
    · obtain ⟨hsize, hplace⟩ := h offset s hreach hat
      have hnext : offset + 512 ≤ nextOffset offset _ := nextOffset_ge (hsize hon)
      obtain ⟨hdone, hpair, hall, hlen⟩ := ih _ _ (hreach.next hat hon) (by push_cast at hfuel; omega)
      rw [Reader.scan_on hat hon]
      refine ⟨hdone, List.pairwise_cons.mpr ⟨fun e he => ?_, hpair⟩, ?_, .inr ?_⟩
      · have := (hall e he).1
        change offset < e.offset
        omega
      · rintro e (_ | ⟨_, he⟩)
        · exact ⟨le_rfl, hplace⟩
        · exact ⟨by have := (hall e he).1; omega, (hall e he).2⟩
      · have hroom := hat.1
        unfold blockSize at hroom
        obtain hnil | hlen := hlen
        · simpa [hnil] using hroom
        · rw [List.length_cons]
          push_cast
          omega

/-- What holds of a whole run that moves forward holds from every place it reaches. -/
theorem Forward.reached (h : r.Forward image s₀) (hreach : r.Reached image s₀ offset s) :
    ∃ fuel, (r.scan image fuel offset s).2.2 ≠ none ∧
      (r.scan image fuel offset s).1.Pairwise (fun e e' => e.offset < e'.offset) ∧
      ∀ e ∈ (r.scan image fuel offset s).1, e.InPlace image := by
  induction hreach with
  | start =>
    obtain ⟨fuel, hdone, -, hpair, hall⟩ := h
    exact ⟨fuel, hdone, hpair, fun e he => (hall e he).2⟩
  | next _ hat hon ih =>
    obtain ⟨fuel, hdone, hpair, hall⟩ := ih
    cases fuel with
    | zero => exact absurd rfl hdone
    | succ fuel =>
      rw [Reader.scan_on hat hon] at hdone hpair hall
      exact ⟨fuel, hdone, (List.pairwise_cons.mp hpair).2, fun e he => hall e (List.mem_cons_of_mem _ he)⟩

/-- A reader moves forward exactly if the sizes it meets let it. -/
theorem forward_iff (r : Reader S) (image : Bytes) (s₀ : S) :
    r.Forward image s₀ ↔ r.Sized image s₀ := by
  constructor
  · intro h offset s hreach hat
    obtain ⟨fuel, hdone, hpair, hall⟩ := h.reached hreach
    cases fuel with
    | zero => exact absurd rfl hdone
    | succ fuel =>
      obtain ⟨-, hlt⟩ | ⟨e, s', b, hscan, -, -, ⟨-, hend⟩ | ⟨-, hthrew, rfl⟩⟩ | ⟨-, hon⟩ :=
        r.scan_cases image offset s
      · exact absurd hat.1 (not_le.mpr hlt)
      · exact absurd hat hend
      · rw [hscan] at hall
        exact ⟨fun hon => (Bool.noConfusion (hthrew.symm.trans hon)), hall _ List.mem_cons_self⟩
      · rw [Reader.scan_on hat hon] at hdone hpair hall
        refine ⟨fun _ => ?_, hall _ List.mem_cons_self⟩
        by_contra hsize
        -- a step back leaves room for a block, which is then read
        have hback : nextOffset offset _ ≤ offset := nextOffset_le (not_lt.mp hsize)
        cases fuel with
        | zero => exact absurd rfl hdone
        | succ fuel =>
          obtain ⟨e, es, hes, hoff⟩ := Reader.scan_head (r := r) (s := (r.visitAt image offset s).state)
            ((add_le_add_left hback _).trans hat.1) fuel
          have hlt := (List.pairwise_cons.mp hpair).1 e (hes ▸ List.mem_cons_self)
          exact absurd (hoff ▸ hlt) (not_lt.mpr hback)
  · intro h
    have hfuel : (image.length : Int) < 0 + blockSize + 512 * (image.length / 512 : Nat) := by
      unfold blockSize
      omega
    obtain ⟨hdone, hpair, hall, hlen⟩ := h.scan _ 0 s₀ Reader.Reached.start hfuel
    refine ⟨_, hdone, ?_, hpair, hall⟩
    obtain hnil | hlen := hlen
    · simp [hnil]
    · omega

end Reader

end loop

/-! ### The readers -/

inductive VfsCall where
  | mkdirp (path : Bytes)
  | writeFile (path data : Bytes) (mode : Int)
  | chown (path : Bytes) (uid gid : Int) (followSymlinks : Bool)
  | chmod (path : Bytes) (mode : Int)
  | symlink (target path : Bytes)
  | unlink (path : Bytes)
  | link (oldPath newPath : Bytes)

/-- A file system: the state after a call, and whether the call returned. -/
structure VfsLike (V : Type) where
  exec : V → VfsCall → V × Bool
  hasLink : Bool

section readers
variable {V : Type} (fs : VfsLike V)

/-- Calls in order, up to one that throws. -/
def VfsLike.all : V → List VfsCall → V × Bool
  | v, [] => (v, true)
  | v, call :: calls =>
    match fs.exec v call with
    | (v, true) => VfsLike.all v calls
    | (v, false) => (v, false)

/-- A call inside `try`. -/
def VfsLike.attempt (v : V) (call : VfsCall) : V := (fs.exec v call).1

/-- An entry that amounts to calls. -/
def VfsLike.visitCalls {A : Type} (a : A) (v : V) (calls : List VfsCall) (body : Bool) : Visit (A × V) :=
  ⟨(a, (fs.all v calls).1), body, !(fs.all v calls).2⟩

def isZero (block : Bytes) : Bool := block.all (fun b => b = 0)

/-- `applyTarToVfs`; the state is the hard links for the end and the file system. -/
def applyTar (root : Bytes) : Reader (List (Bytes × Bytes) × V) where
  isZeroBlock := isZero
  visit s h data _ :=
    match resolveTarPath root h.path with
    | none => ⟨s, false, true⟩
    | some path =>
      let ensureParent := VfsCall.mkdirp (parentPath path)
      match h.kind with
      | .file =>
        fs.visitCalls s.1 s.2 [ensureParent, .writeFile path data h.mode, .chown path h.uid h.gid true,
          .chmod path h.mode] (fs.exec s.2 ensureParent).2
      | .directory =>
        fs.visitCalls s.1 s.2 [.mkdirp path, .chown path h.uid h.gid true, .chmod path h.mode] false
      | .symlink =>
        fs.visitCalls s.1 s.2 [ensureParent, .symlink h.linkname path, .chown path h.uid h.gid false] false
      | .hardlink =>
        match resolveTarPath root h.linkname with
        | none => ⟨s, false, true⟩
        | some old => ⟨(s.1 ++ [(old, path)], s.2), false, false⟩
      | .other => ⟨s, false, true⟩

/-- `mode & 0o7777` -/
def permissionBits (mode : Int) : Int := mode % 0o10000

/-- `installYurtPackageTar`; the state is the data of the files so far and the file system. -/
def installYurtPackage : Reader (List (Bytes × Bytes) × V) where
  isZeroBlock block := 512 ≤ block.length && isZero (block.take 512)
  visit s h data _ :=
    let info := ascii ['i', 'n', 'f', 'o']
    if h.path = info ∨ (info ++ [slash]).isPrefixOf h.path then ⟨s, false, false⟩
    else match validatePath h.path with
      | none => ⟨s, false, true⟩
      | some [] => ⟨s, false, false⟩
      | some raw =>
        let path := joinComponents raw
        let mode := permissionBits h.mode
        let ensureParent : List VfsCall :=
          if parentPath path = rootPath then [] else [.mkdirp (parentPath path)]
        match h.kind with
        | .file =>
          fs.visitCalls ((path, data) :: s.1) s.2
            (ensureParent ++ [.writeFile path data mode, .chown path h.uid h.gid true])
            (fs.all s.2 ensureParent).2
        | .directory =>
          fs.visitCalls s.1 (fs.attempt s.2 (.mkdirp path))
            [.chmod path mode, .chown path h.uid h.gid true] false
        | .symlink =>
          match fs.all s.2 ensureParent with
          | (v, true) =>
            fs.visitCalls s.1 (fs.attempt v (.unlink path)) [.symlink h.linkname path] false
          | (v, false) => ⟨(s.1, v), false, true⟩
        | .hardlink =>
          match validatePath h.linkname with
          | none => ⟨s, false, true⟩
          | some [] => ⟨s, false, false⟩
          | some target =>
            if fs.hasLink then
              fs.visitCalls s.1 s.2 (ensureParent ++ [.link (joinComponents target) path]) false
            else match s.1.lookup (joinComponents target) with
              | none => ⟨(s.1, (fs.all s.2 ensureParent).1), false, true⟩
              | some data =>
                fs.visitCalls s.1 s.2
                  (ensureParent ++ [.writeFile path data mode, .chown path h.uid h.gid true]) false
        | .other => ⟨s, false, false⟩

end readers

/-- An entry of an image index. -/
structure ImageEntry where
  path : Bytes
  kind : EntryKind
  mode : Int
  uid : Int
  gid : Int
  mtime : Int
  offset : Int
  size : Int
  target : Bytes

/-- The directory that an entry implies. -/
def ImageEntry.implicit (path : Bytes) : ImageEntry := ⟨path, .directory, 0o755, 0, 0, 0, 0, 0, []⟩

/-- `toEntry`; the path of a hard link's target is checked. -/
def toEntry (path : Bytes) (h : Header) (offset : Int) : Option ImageEntry :=
  let entry kind target := ImageEntry.mk path kind h.mode h.uid h.gid h.mtime offset h.size target
  match h.kind with
  | .file => some (entry .file [])
  | .directory => some (entry .directory [])
  | .symlink => some (entry .symlink h.linkname)
  | .hardlink => (normalizeTarEntryPath h.linkname).map (entry .hardlink)
  | .other => none

/-- Parents that are missing are added; one that is not a directory is refused. -/
def ensureImplicitParents (entries : List ImageEntry) (parents : List Bytes) : Option (List ImageEntry) :=
  parents.foldlM (fun entries parent =>
    match entries.find? (fun e => e.path = parent) with
    | none => some (entries ++ [ImageEntry.implicit parent])
    | some e => if e.kind = .directory then some entries else none) entries

def addEntry (entries : List ImageEntry) (entry : ImageEntry) : Option (List ImageEntry) :=
  if entry.path = rootPath ∨ entries.any (fun e => e.path = entry.path) then none
  else
    let parts := splitComponents entry.path
    let parents := ((List.range parts.length).drop 1).map (fun n => joinComponents (parts.take n))
    (ensureImplicitParents entries parents).map (fun entries => entries ++ [entry])

/-- The loop of `buildTarImageIndexSync`. -/
def buildTarImageIndex : Reader (List ImageEntry) where
  isZeroBlock := isZero
  visit entries h _ dataOffset :=
    match (normalizeTarEntryPath h.path).bind (fun path =>
      (toEntry path h dataOffset).bind (addEntry entries)) with
    | none => ⟨entries, false, true⟩
    | some entries => ⟨entries, h.kind = .file, false⟩

/-- Each reader moves forward, uses only bodies in place and ends exactly if the sizes it meets let
    it. -/
theorem archive_readers_forward_iff (image : Bytes) :
    (∀ (V : Type) (fs : VfsLike V) (root : Bytes) (v : V),
      (applyTar fs root).Forward image ([], v) ↔ (applyTar fs root).Sized image ([], v)) ∧
    (∀ (V : Type) (fs : VfsLike V) (v : V),
      (installYurtPackage fs).Forward image ([], v) ↔ (installYurtPackage fs).Sized image ([], v)) ∧
    (buildTarImageIndex.Forward image [ImageEntry.implicit rootPath] ↔
      buildTarImageIndex.Sized image [ImageEntry.implicit rootPath]) :=
  ⟨fun _ fs root v => (applyTar fs root).forward_iff image ([], v),
    fun _ fs v => (installYurtPackage fs).forward_iff image ([], v),
    buildTarImageIndex.forward_iff image _⟩

/-! ### A size below zero -/

/-- A file `a` whose size field reads `-1000`. -/
def backwardImage : Bytes :=
  ascii ['a'] ++ List.replicate 123 0 ++ ascii ['-', '1', '0', '0', '0'] ++ List.replicate 383 0

/-- The readers come back to the block they have just read. -/
theorem negative_size_reads_again :
    ¬(applyTar (⟨fun v _ => (v, true), true⟩ : VfsLike Unit) rootPath).Forward backwardImage ([], ()) ∧
    ¬buildTarImageIndex.Forward backwardImage [ImageEntry.implicit rootPath] := by
  rw [Reader.forward_iff, Reader.forward_iff]
  constructor
  · intro h
    exact absurd ((h 0 _ .start (by decide +kernel)).1 (by decide +kernel)) (by decide +kernel)
  · intro h
    exact absurd ((h 0 _ .start (by decide +kernel)).1 (by decide +kernel)) (by decide +kernel)

end Yurt.Tar
