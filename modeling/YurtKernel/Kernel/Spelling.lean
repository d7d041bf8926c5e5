import YurtKernel.Kernel.Components

/-! Spellings of one path, and `/proc/self`.

    Two absolute paths that differ by repeated slashes, by `.` components or by a name and a `..`
    after it have the same components after lexical normalization. The rewriting of `/proc/self`
    looks at the first bytes of the path before that, so it sees one spelling only, and it also
    rewrites a component that a later `..` removes. -/

namespace Yurt
open Kernel
variable {σ : Type}
variable {rest : List Bytes} {a c b : Bytes}

def procName : Bytes := ascii ['p', 'r', 'o', 'c']
def selfName : Bytes := ascii ['s', 'e', 'l', 'f']

variable {k : Kernel σ} {pid : Pid} {path base suffix : Bytes} {cs cs' : List Bytes}

/-! ### Spellings -/

/-- The components are spellings of one path. -/
inductive Respelled : List Bytes → List Bytes → Prop
  | refl (cs : List Bytes) : Respelled cs cs
  | symm {cs cs' : List Bytes} (h : Respelled cs cs') : Respelled cs' cs
  | trans {cs cs' cs'' : List Bytes} (h : Respelled cs cs') (h' : Respelled cs' cs'') : Respelled cs cs''
  | dot (before after : List Bytes) : Respelled (before ++ after) (before ++ dotName :: after)
  | pair (before after : List Bytes) {x : Bytes} (hx : IsName x) :
      Respelled (before ++ after) (before ++ x :: dotDotName :: after)

theorem pushComponent_dot (cs : List Bytes) : pushComponent cs dotName = cs := if_pos rfl

theorem pushComponent_dotDot (cs : List Bytes) : pushComponent cs dotDotName = cs.dropLast := by
  rw [pushComponent, if_neg (by decide), if_pos rfl]

/-- Spellings of one path normalize to the same components. -/
theorem Respelled.foldl_eq (h : Respelled cs cs') (acc : List Bytes) :
    cs.foldl pushComponent acc = cs'.foldl pushComponent acc := by
  induction h generalizing acc with
  | refl cs => rfl
  | symm _ ih => exact (ih acc).symm
  | trans _ _ ih ih' => exact (ih acc).trans (ih' acc)
  | dot before after =>
    rw [List.foldl_append, List.foldl_append, List.foldl_cons, pushComponent_dot]
  | pair before after hx =>
    rw [List.foldl_append, List.foldl_append, List.foldl_cons, List.foldl_cons, pushComponent_name hx,
      pushComponent_dotDot, List.dropLast_concat]

theorem Respelled.lexical_eq (h : Respelled (splitComponents a) (splitComponents b)) :
    lexical a = lexical b := h.foldl_eq []

/-! ### Decimal names -/

theorem isDigit_of_mem_decimal {n : Nat} {b : Byte} (h : b ∈ decimal n) : isDigit b = true := by
  obtain ⟨c, hc, rfl⟩ := List.mem_map.mp h
  have hdigit := Nat.isDigit_of_mem_toDigits (by decide) (by decide) hc
  rw [Char.isDigit, Bool.and_eq_true, decide_eq_true_eq, decide_eq_true_eq] at hdigit
  have hlow : 48 ≤ c.toNat := UInt32.le_iff_toNat_le.mp hdigit.1
  have hhigh : c.toNat ≤ 57 := UInt32.le_iff_toNat_le.mp hdigit.2
  have hval : (Fin.ofNat 256 c.toNat).val = c.toNat := Nat.mod_eq_of_lt (by omega)
  rw [isDigit, hval, Bool.and_eq_true, decide_eq_true_eq, decide_eq_true_eq]
  exact ⟨hlow, hhigh⟩

theorem decimal_ne_nil (n : Nat) : decimal n ≠ [] := by
  intro h
  have hlen := Nat.length_toDigits_pos (b := 10) (n := n)
  rw [decimal, List.map_eq_nil_iff] at h
  rw [h] at hlen
  exact absurd hlen (by decide)

/-- A name made of digits. -/
theorem decimal_name (n : Nat) : IsName (decimal n) ∧ decimal n ≠ selfName ∧ (0 : Byte) ∉ decimal n := by
  have hdigits : ∀ b : Byte, isDigit b = false → b ∉ decimal n := fun b hb h => by
    rw [isDigit_of_mem_decimal h] at hb
    cases hb
  refine ⟨⟨⟨decimal_ne_nil n, hdigits slash (by decide)⟩, fun h => ?_, fun h => ?_⟩, fun h => ?_,
    hdigits 0 (by decide)⟩
  · exact hdigits 46 (by decide) (h ▸ by decide)
  · exact hdigits 46 (by decide) (h ▸ by decide)
  · exact hdigits 115 (by decide) (h ▸ by decide)

/-! ### The component after `/proc` -/

/-- Whether `..` never climbs above the place where the components start, `depth` levels up. -/
def staysBelow : Nat → List Bytes → Bool
  | _, [] => true
  | depth, c :: cs =>
    if c = dotName then staysBelow depth cs
    else if c = dotDotName then depth ≠ 0 && staysBelow (depth - 1) cs
    else staysBelow (depth + 1) cs

/-- The path starts with the bytes of `/proc/self`, and no later `..` removes that component. -/
def SpellsSelf (path : Bytes) : Prop :=
  ∃ suffix, path = procPrefix ++ selfSuffix ++ suffix ∧ (suffix = [] ∨ isAbsolute suffix = true) ∧
    staysBelow 0 (splitComponents suffix) = true

/-- If the path leads below `/proc/self`, it says so in its first bytes. -/
def Sees (base path : Bytes) : Prop :=
  ∀ rest, lexical (absoluteFromCwd base path) = procName :: selfName :: rest → SpellsSelf path

/-- A component that is removed later does not matter. -/
theorem foldl_under (x y : Bytes) : ∀ (cs acc : List Bytes), cs.foldl pushComponent (procName :: x :: acc) =
    if staysBelow acc.length cs then procName :: x :: cs.foldl pushComponent acc
    else cs.foldl pushComponent (procName :: y :: acc)
  | [], _ => rfl
  | c :: cs, acc => by
    rw [staysBelow, List.foldl_cons, List.foldl_cons, List.foldl_cons]
    by_cases hdot : c = dotName
    · rw [if_pos hdot, hdot, pushComponent_dot, pushComponent_dot, pushComponent_dot]
      exact foldl_under x y cs acc
    rw [if_neg hdot]
    by_cases hdots : c = dotDotName
    · rw [if_pos hdots, hdots, pushComponent_dotDot, pushComponent_dotDot, pushComponent_dotDot]
      cases acc with
      | nil => rfl
      | cons a acc => simpa using foldl_under x y cs (a :: acc).dropLast
    · have hpush : ∀ acc, pushComponent acc c = acc ++ [c] := fun acc => by
        rw [pushComponent, if_neg hdot, if_neg hdots]
      rw [if_neg hdots, hpush, hpush, hpush]
      simpa using foldl_under x y cs (acc ++ [c])

theorem staysBelow_names (h : ∀ c ∈ cs, IsName c) (depth : Nat) : staysBelow depth cs = true := by
  induction cs generalizing depth with
  | nil => rfl
  | cons c cs ih =>
    have hc := h c List.mem_cons_self
    rw [staysBelow, if_neg hc.2.1, if_neg hc.2.2]
    exact ih (fun x hx => h x (List.mem_cons_of_mem c hx)) (depth + 1)

/-! ### What the rewriting does to the components -/

theorem split_under (hc : Pieces.IsPiece slash c) (hsuffix : suffix = [] ∨ isAbsolute suffix = true) :
    splitComponents (a ++ slash :: c ++ suffix) = splitComponents a ++ c :: splitComponents suffix := by
  have hpiece : splitComponents c = [c] := hc.pieces
  rcases hsuffix with rfl | habs
  · rw [List.append_nil, splitComponents_append_slash, hpiece]
    rfl
  · cases suffix with
    | nil => cases habs
    | cons b suffix =>
      obtain rfl : b = slash := by simpa [isAbsolute] using habs
      have hsplit : splitComponents (slash :: suffix) = splitComponents suffix :=
        splitComponents_append_slash [] suffix
      rw [splitComponents_append_slash, splitComponents_append_slash, hpiece, hsplit, List.append_assoc]
      rfl

theorem split_procPrefix : splitComponents procPrefix = [procName] := by decide

theorem selfName_name : IsName procName ∧ IsName selfName := by decide

/-- The components of a path below `/proc/<name>`. -/
theorem lexical_under (hc : IsName c) (hsuffix : suffix = [] ∨ isAbsolute suffix = true) :
    lexical (procPrefix ++ slash :: c ++ suffix) =
      (splitComponents suffix).foldl pushComponent [procName, c] := by
  rw [lexical, split_under hc.piece hsuffix, split_procPrefix, List.singleton_append, List.foldl_cons,
    List.foldl_cons, pushComponent_name selfName_name.1, pushComponent_name hc]
  rfl

section
variable (pid : Pid)

/-- The rewriting applies to a path, or leaves it. -/
theorem rewrite_cases (path : Bytes) :
    (∃ suffix, path = procPrefix ++ slash :: selfName ++ suffix ∧ (suffix = [] ∨ isAbsolute suffix = true) ∧
      procSelfRewrite pid path = procPrefix ++ slash :: decimal pid ++ suffix) ∨
    ((∀ suffix, path = procPrefix ++ slash :: selfName ++ suffix →
      ¬(suffix = [] ∨ isAbsolute suffix = true)) ∧ procSelfRewrite pid path = path) := by
  unfold procSelfRewrite ProcBackend.stripStart
  by_cases hpre : (procPrefix ++ selfSuffix).isPrefixOf path = true
  · obtain ⟨suffix, rfl⟩ := List.isPrefixOf_iff_prefix.mp hpre
    rw [if_pos hpre, List.drop_left]
    dsimp only
    split
    · rename_i hsuffix
      exact .inl ⟨suffix, rfl, by simpa using hsuffix, rfl⟩
    · rename_i hsuffix
      refine .inr ⟨fun suffix' heq hor => hsuffix ?_, rfl⟩
      obtain rfl : suffix = suffix' := List.append_cancel_left heq
      simpa using hor
  · rw [if_neg hpre]
    refine .inr ⟨fun suffix heq _ => hpre ?_, rfl⟩
    rw [heq]
    exact List.isPrefixOf_iff_prefix.mpr (List.prefix_append _ suffix)

/-- Components that a path of the caller stands for. -/
def reached (base path : Bytes) : List Bytes :=
  lexical (absoluteFromCwd base (procSelfRewrite pid path))

/-- Only a path that spells it out is led to the caller's directory. -/
theorem reached_spec (base path : Bytes) :
    (SpellsSelf path → ∃ rest, lexical (absoluteFromCwd base path) = procName :: selfName :: rest ∧
      reached pid base path = procName :: decimal pid :: rest) ∧
    (¬ SpellsSelf path → reached pid base path = lexical (absoluteFromCwd base path)) := by
  have habs : ∀ (c suffix : Bytes), isAbsolute (procPrefix ++ slash :: c ++ suffix) = true := fun _ _ => rfl
  have hdecimal := (decimal_name pid).1
  unfold reached
  obtain ⟨suffix, hpath, hsuffix, hrewrite⟩ | ⟨hother, hrewrite⟩ := rewrite_cases pid path
  · rw [hrewrite, hpath, absoluteFromCwd, if_pos (habs _ _), absoluteFromCwd, if_pos (habs _ _),
      lexical_under selfName_name.2 hsuffix, lexical_under hdecimal hsuffix]
    constructor
    · rintro ⟨suffix', heq, -, hstays⟩
      obtain rfl : suffix = suffix' := List.append_cancel_left heq
      exact ⟨_, (foldl_under _ [] _ []).trans (if_pos hstays), (foldl_under _ [] _ []).trans (if_pos hstays)⟩
    · intro hnot
      refine (foldl_under _ _ _ []).trans (if_neg (fun hstays => hnot ?_))
      exact ⟨suffix, rfl, hsuffix, hstays⟩
  · rw [hrewrite]
    refine ⟨?_, fun _ => rfl⟩
    rintro ⟨suffix, heq, hsuffix, -⟩
    exact absurd hsuffix (hother suffix heq)

theorem names_reached (base path : Bytes) : ∀ c ∈ reached pid base path, IsName c :=
  names_lexical _

/-- A path that leads below `/proc/self` reaches the caller exactly if it spells that out. -/
theorem reached_self
    (h : lexical (absoluteFromCwd base path) = procName :: selfName :: rest) :
    reached pid base path = procName :: decimal pid :: rest ↔ SpellsSelf path := by
  obtain ⟨hspelled, hother⟩ := reached_spec pid base path
  constructor
  · intro hreached
    by_contra hnot
    have hsame := (hother hnot).symm.trans hreached
    rw [h] at hsame
    simp only [List.cons.injEq, true_and] at hsame
    exact (decimal_name pid).2.1 hsame.1.symm
  · intro hspells
    obtain ⟨rest', hlex, hreached⟩ := hspelled hspells
    rw [h] at hlex
    simp only [List.cons.injEq, true_and] at hlex
    rw [hreached, hlex]

theorem sees_self (h : lexical (absoluteFromCwd base path) = procName :: selfName :: rest) :
    Sees base path ↔ SpellsSelf path :=
  ⟨fun hsees => hsees rest h, fun hspells _ _ => hspells⟩

/-- What is reached is not below `/proc/self`, exactly if the path is seen through. -/
theorem reached_ne_self_iff :
    (∀ rest, reached pid base path ≠ procName :: selfName :: rest) ↔ Sees base path := by
  obtain ⟨hspelled, hother⟩ := reached_spec pid base path
  constructor
  · intro hne rest hlex
    by_contra hnot
    exact hne rest ((hother hnot).trans hlex)
  · intro hsees rest hreached
    by_cases hspells : SpellsSelf path
    · obtain ⟨rest', -, heq⟩ := hspelled hspells
      rw [heq] at hreached
      simp only [List.cons.injEq, true_and] at hreached
      exact (decimal_name pid).2.1 hreached.1
    · exact hspells (hsees rest ((hother hspells).symm.trans hreached))

/-- A normalized path below `/proc/self` spells it out. -/
theorem spellsSelf_join (h : ∀ c ∈ cs, IsName c) : SpellsSelf (joinComponents (procName :: selfName :: cs)) := by
  refine ⟨Pieces.joined slash cs, rfl, ?_, ?_⟩
  · cases cs with
    | nil => exact .inl rfl
    | cons c cs => exact .inr rfl
  · rw [split_joined (fun c hc => (h c hc).piece)]
    exact staysBelow_names h 0

/-! ### Normalizing -/

theorem badPath_eq_false : badPath path = false ↔ path ≠ [] ∧ (0 : Byte) ∉ path := by
  simp [badPath]

theorem badPath_rewrite (h : badPath path = false) : badPath (procSelfRewrite pid path) = false := by
  obtain ⟨suffix, rfl, -, hrewrite⟩ | ⟨-, hrewrite⟩ := rewrite_cases pid path
  · rw [hrewrite]
    have hzero := (decimal_name pid).2.2
    obtain ⟨-, hnone⟩ := badPath_eq_false.mp h
    simp only [List.mem_append, List.mem_cons, not_or] at hnone
    refine badPath_eq_false.mpr ⟨by simp, ?_⟩
    simp only [List.mem_append, List.mem_cons, not_or]
    exact ⟨⟨hnone.1.1, hnone.1.2.1, hzero⟩, hnone.2⟩
  · rw [hrewrite]
    exact h

theorem isAbsolute_rewrite (path : Bytes) :
    isAbsolute (procSelfRewrite pid path) = isAbsolute path := by
  obtain ⟨suffix, rfl, -, hrewrite⟩ | ⟨-, hrewrite⟩ := rewrite_cases pid path
  · rw [hrewrite]
    rfl
  · rw [hrewrite]

end

theorem Kernel.normalize_reached (hpath : badPath path = false) (hbase : (k.pathBase pid path).1 = .ok base) :
    (k.normalize pid path).1 = .ok (joinComponents (reached pid base path)) := by
  have hsame : k.pathBase pid (procSelfRewrite pid path) = k.pathBase pid path := by
    rw [pathBase, isAbsolute_rewrite]
    rfl
  unfold normalize
  rw [hsame]
  generalize k.pathBase pid path = r at hbase
  obtain ⟨o, k'⟩ := r
  obtain rfl : o = .ok base := hbase
  exact normalizeLexicalPath_eq (badPath_rewrite pid hpath) base

theorem Kernel.pathBase_absolute (k : Kernel σ) (pid : Pid) (h : isAbsolute path = true) :
    (k.pathBase pid path).1 = .ok rootPath := by
  rw [pathBase, if_pos h]

theorem join_injective (h : ∀ c ∈ cs, IsName c) (h' : ∀ c ∈ cs', IsName c) :
    joinComponents cs = joinComponents cs' ↔ cs = cs' := by
  refine ⟨fun heq => ?_, fun heq => by rw [heq]⟩
  rw [← split_join (fun c hc => (h c hc).piece), ← split_join (fun c hc => (h' c hc).piece), heq]

theorem ok_join_inj (h : ∀ c ∈ cs, IsName c) (h' : ∀ c ∈ cs', IsName c) :
    (Except.ok (joinComponents cs) : Except Int Bytes) = .ok (joinComponents cs') ↔ cs = cs' := by
  rw [Except.ok.injEq, join_injective h h']

theorem lexical_absolute (h : isAbsolute path = true) (base : Bytes) :
    lexical (absoluteFromCwd base path) = lexical path := by
  rw [absoluteFromCwd, if_pos h]

/-- The result is a fixed point exactly if the path was seen through. -/
theorem Kernel.normalize_again (k : Kernel σ) (pid : Pid) (base path : Bytes)
    (hzero : badPath (joinComponents (reached pid base path)) = false) :
    (k.normalize pid (joinComponents (reached pid base path))).1 =
      .ok (joinComponents (reached pid base path)) ↔ Sees base path := by
  have hnames := names_reached pid base path
  have habs := isAbsolute_join (reached pid base path)
  have hlex : lexical (absoluteFromCwd rootPath (joinComponents (reached pid base path))) =
      reached pid base path := by
    rw [lexical_absolute habs, (normal_join hnames).lexical, split_join (fun c hc => (hnames c hc).piece)]
  rw [normalize_reached hzero (k.pathBase_absolute pid habs),
    ok_join_inj (names_reached _ _ _) hnames, ← reached_ne_self_iff pid]
  constructor
  · intro hfixed rest hself
    have hspells : SpellsSelf (joinComponents (reached pid base path)) := by
      rw [hself]
      refine spellsSelf_join (fun c hc => hnames c ?_)
      rw [hself]
      exact List.mem_cons_of_mem _ (List.mem_cons_of_mem _ hc)
    have hcaller := (reached_self pid (hlex.trans hself)).mpr hspells
    rw [hfixed, hself] at hcaller
    simp only [List.cons.injEq, true_and] at hcaller
    exact (decimal_name pid).2.1 hcaller.1.symm
  · intro hne
    refine ((reached_spec pid rootPath _).2 (fun hspells => ?_)).trans hlex
    obtain ⟨rest, hself, -⟩ := (reached_spec pid rootPath _).1 hspells
    exact hne rest (hlex.symm.trans hself)

theorem mem_foldl_pushComponent (h : c ∈ cs'.foldl pushComponent cs) : c ∈ cs ∨ c ∈ cs' := by
  induction cs' generalizing cs with
  | nil => exact .inl h
  | cons x cs' ih =>
    rcases ih h with h | h
    · unfold pushComponent at h
      split_ifs at h
      · exact .inl h
      · exact .inl (List.mem_of_mem_dropLast h)
      · rcases List.mem_append.mp h with h | h
        · exact .inl h
        · exact .inr (List.mem_singleton.mp h ▸ List.mem_cons_self)
    · exact .inr (List.mem_cons_of_mem x h)

/-- Normalizing brings in no NUL byte. -/
theorem badPath_reached (pid : Pid) (hpath : badPath path = false) (hbase : (0 : Byte) ∉ base) :
    badPath (joinComponents (reached pid base path)) = false := by
  have hrewrite := (badPath_eq_false.mp (badPath_rewrite pid hpath)).2
  refine badPath_eq_false.mpr ⟨join_ne_nil _, fun hmem => ?_⟩
  rcases mem_of_mem_join hmem with hzero | ⟨c, hc, hzero⟩
  · exact absurd hzero (by decide)
  · rcases mem_foldl_pushComponent hc with hc | hc
    · cases hc
    · rw [split_absoluteFromCwd] at hc
      rcases List.mem_append.mp hc with hc | hc
      · split_ifs at hc
        · cases hc
        · exact hbase (mem_of_mem_split hc hzero)
      · exact hrewrite (mem_of_mem_split hc hzero)

/-- Spellings of one path reach the same place, exactly if they are seen through alike. -/
theorem reached_eq_iff (hlex : lexical (absoluteFromCwd base a) = lexical (absoluteFromCwd base b)) :
    reached pid base a = reached pid base b ↔ (Sees base a ↔ Sees base b) := by
  by_cases hself : ∃ rest, lexical (absoluteFromCwd base a) = procName :: selfName :: rest
  · obtain ⟨rest, ha⟩ := hself
    have hb := hlex.symm.trans ha
    rw [sees_self ha, sees_self hb]
    rw [← reached_self pid ha, ← reached_self pid hb]
    constructor
    · intro heq
      rw [heq]
    · intro hiff
      by_cases hreach : reached pid base a = procName :: decimal pid :: rest
      · rw [hreach, hiff.mp hreach]
      · have hspells := fun hs => hreach ((reached_self pid ha).mpr hs)
        have hspells' := fun hs => hreach (hiff.mpr ((reached_self pid hb).mpr hs))
        rw [(reached_spec pid base a).2 hspells, (reached_spec pid base b).2 hspells', hlex]
  · have hnone : ∀ {p : Bytes}, lexical (absoluteFromCwd base p) = lexical (absoluteFromCwd base a) →
        Sees base p ∧ reached pid base p = lexical (absoluteFromCwd base p) := by
      intro p hp
      refine ⟨fun rest hrest => absurd ⟨rest, hp.symm.trans hrest⟩ hself, ?_⟩
      refine (reached_spec pid base p).2 (fun hspells => ?_)
      obtain ⟨rest, hrest, -⟩ := (reached_spec pid base p).1 hspells
      exact hself ⟨rest, hp.symm.trans hrest⟩
    obtain ⟨hsees, ha⟩ := hnone rfl
    obtain ⟨hsees', hb⟩ := hnone hlex.symm
    exact iff_of_true (by rw [ha, hb, hlex]) (iff_of_true hsees hsees')

/-- Where a path leads does not depend on its spelling, exactly as far as paths below `/proc/self` say
    so in their first bytes. -/
theorem path_spelling_iff (k : Kernel σ) (pid : Pid) :
    (∀ base path : Bytes, badPath path = false → (0 : Byte) ∉ base → (k.pathBase pid path).1 = .ok base →
      ∃ q, (k.normalize pid path).1 = .ok q ∧ Normal q ∧
        ((k.normalize pid q).1 = .ok q ↔ Sees base path)) ∧
    (∀ a b : Bytes, badPath a = false → badPath b = false → isAbsolute a = true → isAbsolute b = true →
      Respelled (splitComponents a) (splitComponents b) →
      ((k.normalize pid a).1 = (k.normalize pid b).1 ↔ (Sees rootPath a ↔ Sees rootPath b))) ∧
    (∀ (path : Bytes) (q : List Bytes), (∀ c ∈ q, IsName c) → badPath path = false →
      isAbsolute path = true → Respelled (splitComponents path) (procName :: selfName :: q) →
      ((k.normalize pid path).1 = .ok (joinComponents (procName :: decimal pid :: q)) ↔
        Sees rootPath path)) ∧
    (∀ q : List Bytes, (∀ c ∈ q, IsName c) → badPath (selfName ++ Pieces.joined slash q) = false →
      (k.resolvedCwd pid).1 = .ok procPrefix →
      ((k.normalize pid (selfName ++ Pieces.joined slash q)).1 =
          .ok (joinComponents (procName :: decimal pid :: q)) ↔
        Sees procPrefix (selfName ++ Pieces.joined slash q))) := by
  have hcaller : ∀ {base path : Bytes} {q : List Bytes}, (∀ c ∈ q, IsName c) → badPath path = false →
      (k.pathBase pid path).1 = .ok base →
      lexical (absoluteFromCwd base path) = procName :: selfName :: q →
      ((k.normalize pid path).1 = .ok (joinComponents (procName :: decimal pid :: q)) ↔
        Sees base path) := by
    intro base path q hq hpath hbase hlex
    have hnames : ∀ c ∈ procName :: decimal pid :: q, IsName c := by
      intro c hc
      rcases List.mem_cons.mp hc with rfl | hc
      · exact selfName_name.1
      · rcases List.mem_cons.mp hc with rfl | hc
        · exact (decimal_name pid).1
        · exact hq c hc
    rw [normalize_reached hpath hbase, ok_join_inj (names_reached _ _ _) hnames, reached_self _ hlex,
      sees_self hlex]
  have hself : ∀ {q : List Bytes}, (∀ c ∈ q, IsName c) →
      (procName :: selfName :: q).foldl pushComponent [] = procName :: selfName :: q := by
    intro q hq
    refine (foldl_pushComponent_names (fun c hc => ?_) []).trans (List.nil_append _)
    rcases List.mem_cons.mp hc with rfl | hc
    · exact selfName_name.1
    · rcases List.mem_cons.mp hc with rfl | hc
      · exact selfName_name.2
      · exact hq c hc
  refine ⟨fun base path hpath hzero hbase => ?_, fun a b ha hb habs habs' hspell => ?_,
    fun path q hq hpath habs hspell => ?_, fun q hq hpath hcwd => ?_⟩
  · exact ⟨_, normalize_reached hpath hbase, normal_join (names_reached _ _ _),
      k.normalize_again pid base path (badPath_reached pid hpath hzero)⟩
  · rw [normalize_reached ha (k.pathBase_absolute pid habs),
      normalize_reached hb (k.pathBase_absolute pid habs'),
      ok_join_inj (names_reached _ _ _) (names_reached _ _ _)]
    refine reached_eq_iff ?_
    rw [lexical_absolute habs, lexical_absolute habs', hspell.lexical_eq]
  · refine hcaller hq hpath (k.pathBase_absolute pid habs) ?_
    rw [lexical_absolute habs, lexical, hspell.foldl_eq, hself hq]
  · have hrel : isAbsolute (selfName ++ Pieces.joined slash q) = false := rfl
    refine hcaller hq hpath ?_ ?_
    · rw [pathBase, hrel]
      exact hcwd
    · have hsplit : splitComponents (selfName ++ Pieces.joined slash q) = selfName :: q :=
        split_append_joined selfName (fun c hc => (hq c hc).piece)
      rw [lexical, split_absoluteFromCwd, hrel, hsplit]
      exact hself hq

/-- `/proc/self/./fd` is a path of process 7 to `/proc/7/fd`. -/
theorem path_spelling_iff_dot :
    ((Kernel.new ()).normalize 7 (procPrefix ++ selfSuffix ++ ascii ['/', '.', '/', 'f', 'd'])).1 =
      .ok (joinComponents [procName, decimal 7, ascii ['f', 'd']]) := by
  refine ((path_spelling_iff (Kernel.new ()) 7).2.2.1 _ [ascii ['f', 'd']] (by decide) (by decide) rfl
    ?_).mpr ?_
  · have hsplit : splitComponents (procPrefix ++ selfSuffix ++ ascii ['/', '.', '/', 'f', 'd']) =
        [procName, selfName] ++ dotName :: [ascii ['f', 'd']] := by decide
    rw [hsplit]
    exact .symm (.dot [procName, selfName] [ascii ['f', 'd']])
  · exact fun _ _ => ⟨_, rfl, .inr rfl, by decide⟩

/-- `/proc/./self` stays what it is, and `self` in `/proc` too, while `/proc/self` is process 1. -/
theorem other_spellings_miss_self :
    ((Kernel.new ()).normalize 1 (ascii ['/', 'p', 'r', 'o', 'c', '/', '.', '/', 's', 'e', 'l', 'f'])).1 =
        .ok (joinComponents [procName, selfName]) ∧
      ((Kernel.new ()).normalize 1 (procPrefix ++ selfSuffix)).1 =
        .ok (joinComponents [procName, decimal 1]) ∧
      (((Kernel.new ()).updProcess 1 (fun p => { p with cwd := ⟨0, none, procPrefix⟩ })).normalize 1
        selfName).1 =
        .ok (joinComponents [procName, selfName]) := by
  refine ⟨by decide, by decide, by decide⟩

end Yurt
