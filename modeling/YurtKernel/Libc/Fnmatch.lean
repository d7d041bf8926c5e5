import YurtKernel.Vfs.Types

/-! `fnmatch` (`abi/src/yurt_fnmatch.c`).

    A string is the list of its bytes, without the final NUL. A position in the text is what is left of
    it and the byte before it, which is all `period_special` looks at. The pattern is read twice: by
    the matcher as it goes, and as a list of items, which says what the pattern means. -/

namespace Yurt.Fnmatch

structure Flags where
  noescape : Bool
  pathname : Bool
  period : Bool
  leadingDir : Bool
  casefold : Bool

def slash : Byte := 47
def dot : Byte := 46
def question : Byte := 63
def asterisk : Byte := 42
def backslash : Byte := 92
def minus : Byte := 45
def opening : Byte := 91
def closing : Byte := 93

def FNM_NOMATCH : Int := 1

/-- Capitals of ASCII become small. -/
def tolower (c : Byte) : Byte := if 65 ≤ c ∧ c ≤ 90 then c + 32 else c

variable (flags : Flags)

def foldChar (c : Byte) : Byte := if flags.casefold then tolower c else c

def pathSeparator (c : Byte) : Bool := flags.pathname && c == slash

/-- `prev` is the byte before `s`, if there is one. -/
def periodSpecial (prev : Option Byte) (s : Bytes) : Bool :=
  flags.period && s.head? == some dot && (prev == none || flags.pathname && prev == some slash)

/-- A byte of the pattern, whether it was escaped, and what follows. -/
def readByte (c : Byte) (p : Bytes) : Byte × Bool × Bytes :=
  match p with
  | d :: p' => if !flags.noescape && c == backslash then (d, true, p') else (c, false, p)
  | [] => (c, false, [])

theorem readByte_le (c : Byte) (p : Bytes) : (readByte flags c p).2.2.length ≤ p.length := by
  unfold readByte
  split
  · split_ifs
    · exact Nat.le_succ _
    · exact le_rfl
  · exact le_rfl

/-- An element of a bracket expression. -/
inductive Element where
  | one (c : Byte)
  | range (first last : Byte)

def Element.has (sc : Byte) : Element → Bool
  | .one c => foldChar flags c == foldChar flags sc
  | .range first last =>
    foldChar flags first ≤ foldChar flags sc && foldChar flags sc ≤ foldChar flags last

/-- The next element of a bracket expression, what may begin a range after it, and what follows. -/
def readElement (prev : Option Byte) (c : Byte) (p : Bytes) : Element × Option Byte × Bytes :=
  let (c, escaped, p) := readByte flags c p
  match prev, p with
  | some first, last :: p' =>
    if !escaped && c == minus && last != closing then
      let (last, _, p'') := readByte flags last p'
      (.range first last, none, p'')
    else (.one c, some c, p)
  | _, _ => (.one c, some c, p)

theorem readElement_le (prev : Option Byte) (c : Byte) (p : Bytes) :
    (readElement flags prev c p).2.2.length ≤ p.length := by
  have hread := readByte_le flags c p
  unfold readElement
  generalize readByte flags c p = r at hread ⊢
  obtain ⟨c, escaped, p'⟩ := r
  dsimp only at hread ⊢
  split
  · split_ifs
    · exact ((readByte_le flags _ _).trans (Nat.le_succ _)).trans hread
    · exact hread
  · exact hread

/-- The loop of `bracket_match`; none stands for -1. -/
def bracketLoop (negate : Bool) (sc : Byte) (matched first : Bool) (prev : Option Byte) :
    Bytes → Option (Bool × Bytes)
  | [] => none
  | c :: p =>
    if c == closing && !first then some (matched != negate, p)
    else
      have := readElement_le flags prev c p
      let r := readElement flags prev c p
      bracketLoop negate sc (matched || r.1.has flags sc) false r.2.1 r.2.2
  termination_by p => p.length

/-- Is the expression negated, and where do its elements begin? -/
def negated : Bytes → Bool × Bytes
  | c :: p => if c = 33 ∨ c = 94 then (true, p) else (false, c :: p)
  | [] => (false, [])

theorem negated_le (p : Bytes) : (negated p).2.length ≤ p.length := by
  unfold negated
  split
  · split_ifs
    · exact Nat.le_succ _
    · exact le_rfl
  · exact le_rfl

/-- `p` is what follows the opening bracket. -/
def bracketMatch (sc : Byte) (p : Bytes) : Option (Bool × Bytes) :=
  bracketLoop flags (negated p).1 sc false true none (negated p).2

/-- What `bracket_match` leaves is shorter. -/
theorem bracketLoop_lt {negate matched first : Bool} {sc : Byte} {prev : Option Byte} {p : Bytes}
    {r : Bool × Bytes} (h : bracketLoop flags negate sc matched first prev p = some r) :
    r.2.length < p.length := by
  fun_induction bracketLoop flags negate sc matched first prev p with
  | case1 => cases h
  | case2 =>
    obtain rfl := Option.some.inj h
    exact Nat.lt_succ_self _
  | case3 _ _ _ _ _ _ hle _ ih => exact (ih h).trans_le (hle.trans (Nat.le_succ _))

/-- Where a star may end: at the end, or at a separator, or anywhere before. -/
def starEnds (prev : Option Byte) : Bytes → List (Option Byte × Bytes)
  | [] => [(prev, [])]
  | c :: s => (prev, c :: s) :: if pathSeparator flags c then [] else starEnds (some c) s

/-- A star at the end of the pattern under `FNM_PATHNAME`. -/
def lastStar : Bytes → Bool
  | [] => true
  | c :: s => if c == slash then flags.leadingDir else lastStar s

/-- `?` and `[` do not match here. -/
def barred (prev : Option Byte) (sc : Byte) (s : Bytes) : Bool :=
  pathSeparator flags sc || periodSpecial flags prev (sc :: s)

def matchHere (p : Bytes) (prev : Option Byte) (s : Bytes) : Bool :=
  match p with
  | [] =>
    match s with
    | [] => true
    | sc :: _ => flags.leadingDir && sc == slash
  | pc :: p =>
    if pc = asterisk then
      have : (p.dropWhile (· == asterisk)).length ≤ p.length := List.length_dropWhile_le _ _
      let p := p.dropWhile (· == asterisk)
      if periodSpecial flags prev s then false
      else if p.isEmpty then !flags.pathname || lastStar flags s
      else (starEnds flags prev s).any (fun x => matchHere p x.1 x.2)
    else
      match s with
      | [] => false
      | sc :: s =>
        if pc = question then !barred flags prev sc s && matchHere p (some sc) s
        else if pc = opening then
          if barred flags prev sc s then false
          else
            match h : bracketMatch flags sc p with
            | none => foldChar flags opening == foldChar flags sc && matchHere p (some sc) s
            | some (ok, rest) =>
              have : rest.length < p.length := (bracketLoop_lt flags h).trans_le (negated_le p)
              ok && matchHere rest (some sc) s
        else
          have := readByte_le flags pc p
          let r := readByte flags pc p
          foldChar flags r.1 == foldChar flags sc && matchHere r.2.2 (some sc) s
  termination_by p.length

/-- NULL is none. -/
def fnmatch (pattern string : Option Bytes) : Int :=
  match pattern, string with
  | some pattern, some string => if matchHere flags pattern none string then 0 else FNM_NOMATCH
  | _, _ => FNM_NOMATCH

/-! ### What a pattern means -/

inductive Item where
  | any
  | star
  | bracket (negate : Bool) (elements : List Element)
  | byte (c : Byte)

/-- The elements of a bracket expression up to its closing bracket, and what follows it. -/
def elements (first : Bool) (prev : Option Byte) : Bytes → Option (List Element × Bytes)
  | [] => none
  | c :: p =>
    if c == closing && !first then some ([], p)
    else
      have := readElement_le flags prev c p
      let r := readElement flags prev c p
      (elements false r.2.1 r.2.2).map (fun x => (r.1 :: x.1, x.2))
  termination_by p => p.length

theorem bracketLoop_eq (negate : Bool) (sc : Byte) (matched first : Bool) (prev : Option Byte) (p : Bytes) :
    bracketLoop flags negate sc matched first prev p =
      (elements flags first prev p).map
        (fun x => ((matched || x.1.any (Element.has flags sc)) != negate, x.2)) := by
  fun_induction bracketLoop flags negate sc matched first prev p with
  | case1 => rw [elements, Option.map_none]
  | case2 _ _ _ _ _ hend => simp [elements, hend]
  | case3 _ _ _ _ _ hend _ r ih =>
    rw [ih, elements, if_neg hend, Option.map_map]
    refine congrArg (fun f => Option.map f _) (funext (fun x => ?_))
    simp [r, Bool.or_assoc]

theorem elements_lt {first : Bool} {prev : Option Byte} {p : Bytes} {x : List Element × Bytes}
    (h : elements flags first prev p = some x) : x.2.length < p.length := by
  have heq := bracketLoop_eq flags false 0 false first prev p
  rw [h, Option.map_some] at heq
  exact bracketLoop_lt flags heq

def items : Bytes → List Item
  | [] => []
  | pc :: p =>
    if pc = asterisk then .star :: items p
    else if pc = question then .any :: items p
    else if pc = opening then
      match h : elements flags true none (negated p).2 with
      | none => .byte opening :: items p
      | some x =>
        have : x.2.length < p.length := (elements_lt flags h).trans_le (negated_le p)
        .bracket (negated p).1 x.1 :: items x.2
    else
      have := readByte_le flags pc p
      let r := readByte flags pc p
      .byte r.1 :: items r.2.2
  termination_by p => p.length

/-- The text is split into pieces matched by the items in order, up to its end or, with
    `FNM_LEADING_DIR`, a slash. `prev` is the byte before the text. -/
inductive Fits : List Item → Option Byte → Bytes → Prop
  | done {prev : Option Byte} {s : Bytes} (h : s = [] ∨ flags.leadingDir = true ∧ s.head? = some slash) :
      Fits [] prev s
  | byte {is : List Item} {prev : Option Byte} {c sc : Byte} {s : Bytes}
      (hc : foldChar flags c = foldChar flags sc) (h : Fits is (some sc) s) :
      Fits (.byte c :: is) prev (sc :: s)
  | any {is : List Item} {prev : Option Byte} {sc : Byte} {s : Bytes}
      (hsep : pathSeparator flags sc = false) (hperiod : periodSpecial flags prev (sc :: s) = false)
      (h : Fits is (some sc) s) : Fits (.any :: is) prev (sc :: s)
  | bracket {is : List Item} {prev : Option Byte} {negate : Bool} {es : List Element} {sc : Byte} {s : Bytes}
      (hsep : pathSeparator flags sc = false) (hperiod : periodSpecial flags prev (sc :: s) = false)
      (hsc : es.any (Element.has flags sc) ≠ negate) (h : Fits is (some sc) s) :
      Fits (.bracket negate es :: is) prev (sc :: s)
  | star {is : List Item} {prev : Option Byte} {w s : Bytes}
      (hsep : ∀ c ∈ w, pathSeparator flags c = false) (hperiod : periodSpecial flags prev (w ++ s) = false)
      (h : Fits is (w.getLast?.or prev) s) : Fits (.star :: is) prev (w ++ s)

variable {flags} {is : List Item} {prev : Option Byte} {p s : Bytes}

/-! ### Stars -/

theorem mem_starEnds {x : Option Byte × Bytes} : x ∈ starEnds flags prev s ↔
    ∃ w, s = w ++ x.2 ∧ (∀ c ∈ w, pathSeparator flags c = false) ∧ x.1 = w.getLast?.or prev := by
  obtain ⟨q, rest⟩ := x
  induction s generalizing prev with
  | nil =>
    simp only [starEnds, List.mem_singleton, Prod.mk.injEq]
    constructor
    · rintro ⟨rfl, rfl⟩
      exact ⟨[], rfl, by simp, by simp⟩
    · rintro ⟨w, hw, -, hq⟩
      obtain ⟨rfl, rfl⟩ := List.append_eq_nil_iff.mp hw.symm
      exact ⟨hq, rfl⟩
  | cons c s ih =>
    simp only [starEnds, List.mem_cons, Prod.mk.injEq]
    constructor
    · rintro (⟨rfl, rfl⟩ | h)
      · exact ⟨[], rfl, by simp, by simp⟩
      · split_ifs at h with hc
        · cases h
        · obtain ⟨w, rfl, hsep, rfl⟩ := ih.mp h
          refine ⟨c :: w, rfl, ?_, ?_⟩
          · simpa [hc] using hsep
          · cases w <;> simp [List.getLast?_cons]
    · rintro ⟨w, hw, hsep, rfl⟩
      cases w with
      | nil => exact .inl ⟨by simp, by simpa using hw.symm⟩
      | cons d w =>
        obtain ⟨rfl, rfl⟩ := List.cons.inj hw
        obtain ⟨hc, hsep⟩ := List.forall_mem_cons.mp hsep
        rw [if_neg (by simp [hc])]
        refine .inr (ih.mpr ⟨w, rfl, hsep, ?_⟩)
        cases w <;> simp [List.getLast?_cons]

theorem fits_star : Fits flags (.star :: is) prev s ↔
    periodSpecial flags prev s = false ∧ ∃ x ∈ starEnds flags prev s, Fits flags is x.1 x.2 := by
  constructor
  · intro h
    cases h with
    | star hsep hperiod h => exact ⟨hperiod, (_, _), mem_starEnds.mpr ⟨_, rfl, hsep, rfl⟩, h⟩
  · rintro ⟨hperiod, ⟨q, rest⟩, hx, h⟩
    obtain ⟨w, rfl, hsep, rfl⟩ := mem_starEnds.mp hx
    exact .star hsep hperiod h

/-- Two stars are as good as one. -/
theorem fits_star_star : Fits flags (.star :: .star :: is) prev s ↔ Fits flags (.star :: is) prev s := by
  constructor
  · intro h
    cases h with
    | @star _ _ w _ hsep hperiod h =>
      cases h with
      | @star _ _ w' s hsep' _ h =>
        rw [← List.append_assoc] at hperiod ⊢
        refine .star (fun c hc => (List.mem_append.mp hc).elim (hsep c) (hsep' c)) hperiod ?_
        rwa [List.getLast?_append, Option.or_assoc]
  · intro h
    cases h with
    | star hsep hperiod h =>
      exact .star (w := []) (by simp) hperiod (.star hsep (by simpa using hperiod) (by simpa using h))

theorem items_asterisk : items flags (asterisk :: p) = .star :: items flags p := by
  rw [items, if_pos rfl]

theorem fits_stars : Fits flags (.star :: items flags p) prev s ↔
    Fits flags (.star :: items flags (p.dropWhile (· == asterisk))) prev s := by
  induction p with
  | nil => rfl
  | cons c p ih =>
    by_cases hc : c = asterisk
    · rw [hc, items_asterisk, fits_star_star, ih, List.dropWhile_cons_of_pos (by simp)]
    · rw [List.dropWhile_cons_of_neg (by simpa using hc)]

/-- A star at the end of the pattern takes what is left, under `FNM_PATHNAME` up to a slash. -/
theorem lastStar_iff : (!flags.pathname || lastStar flags s) = true ↔
    ∃ x ∈ starEnds flags prev s, Fits flags [] x.1 x.2 := by
  have hdone : ∀ {prev s}, Fits flags [] prev s ↔
      s = [] ∨ flags.leadingDir = true ∧ s.head? = some slash := by
    intro prev s
    exact ⟨fun h => by cases h; assumption, .done⟩
  induction s generalizing prev with
  | nil => simp [lastStar, starEnds, hdone]
  | cons c s ih =>
    simp only [starEnds, List.mem_cons, exists_eq_or_imp, hdone, lastStar]
    by_cases hc : c = slash
    · cases hpath : flags.pathname
      · simpa [pathSeparator, hpath, hdone] using Or.inr (ih.mp (by simp [hpath]))
      · simp [pathSeparator, hpath, hc]
    · simpa [pathSeparator, hc, hdone] using ih

/-! ### The matcher -/

theorem items_question : items flags (question :: p) = .any :: items flags p := by
  rw [items, if_neg (by decide), if_pos rfl]

theorem items_literal {c : Byte} (hstar : c ≠ asterisk) (hany : c ≠ question) (hopen : c ≠ opening) :
    items flags (c :: p) = .byte (readByte flags c p).1 :: items flags (readByte flags c p).2.2 := by
  rw [items, if_neg hstar, if_neg hany, if_neg hopen]

theorem items_opening : items flags (opening :: p) =
    match elements flags true none (negated p).2 with
    | none => .byte opening :: items flags p
    | some x => .bracket (negated p).1 x.1 :: items flags x.2 := by
  rw [items, if_neg (by decide), if_neg (by decide), if_pos rfl]
  split <;> simp only [*]

/-- Only stars match nothing. -/
theorem not_fits_nil {c : Byte} (hc : c ≠ asterisk) : ¬ Fits flags (items flags (c :: p)) prev [] := by
  intro h
  by_cases hany : c = question
  · rw [hany, items_question] at h
    cases h
  by_cases hopen : c = opening
  · rw [hopen, items_opening] at h
    split at h <;> cases h
  · rw [items_literal hc hany hopen] at h
    cases h

theorem matchHere_iff (p : Bytes) (prev : Option Byte) (s : Bytes) :
    matchHere flags p prev s = true ↔ Fits flags (items flags p) prev s := by
  fun_induction matchHere flags p prev s with
  | case1 prev =>
    rw [items]
    exact iff_of_true rfl (.done (.inl rfl))
  | case2 prev sc s =>
    rw [items]
    constructor
    · intro h
      exact .done (.inr (by simpa using h))
    · intro h
      cases h with
      | done h => simpa using h
  | case3 prev s p _ hperiod =>
    rw [items_asterisk, fits_star, hperiod]
    simp
  | case4 prev s p _ rest hperiod hrest =>
    have hnil : p.dropWhile (· == asterisk) = [] := List.isEmpty_iff.mp hrest
    rw [items_asterisk, fits_stars, fits_star, hnil, items, lastStar_iff,
      and_iff_right (by simpa using hperiod)]
  | case5 prev s p _ rest hperiod _ ih =>
    rw [items_asterisk, fits_stars, fits_star, and_iff_right (by simpa using hperiod), List.any_eq_true]
    exact exists_congr (fun x => and_congr_right (fun _ => ih x))
  | case6 prev c p hc => exact iff_of_false Bool.false_ne_true (not_fits_nil hc)
  | case7 prev p sc s _ ih =>
    rw [items_question, Bool.and_eq_true, Bool.not_eq_true', barred, Bool.or_eq_false_iff, ih]
    constructor
    · rintro ⟨⟨hsep, hperiod⟩, h⟩
      exact .any hsep hperiod h
    · intro h
      cases h with
      | any hsep hperiod h => exact ⟨⟨hsep, hperiod⟩, h⟩
  | case8 prev p sc s hbarred =>
    refine iff_of_false Bool.false_ne_true (fun h => ?_)
    rw [items_opening] at h
    split at h
    · cases h with
      | byte hc =>
        -- an unclosed bracket stands for itself, which is neither a slash nor a period
        have hsc : sc = slash ∨ sc = dot := by
          simp only [barred, pathSeparator, periodSpecial, List.head?_cons] at hbarred
          grind
        rcases hsc with rfl | rfl <;> cases hfold : flags.casefold <;> simp [foldChar, hfold] at hc <;>
          exact absurd hc (by decide)
    · cases h with
      | bracket hsep hperiod => simp [barred, hsep, hperiod] at hbarred
  | case9 prev p sc s hbarred hnone _ _ ih =>
    rw [bracketMatch, bracketLoop_eq, Option.map_eq_none_iff] at hnone
    rw [items_opening, hnone, Bool.and_eq_true, beq_iff_eq, ih]
    constructor
    · rintro ⟨hc, h⟩
      exact .byte hc h
    · intro h
      cases h with
      | byte hc h => exact ⟨hc, h⟩
  | case10 prev p sc s hbarred ok rest hsome _ _ _ ih =>
    rw [bracketMatch, bracketLoop_eq, Option.map_eq_some_iff] at hsome
    obtain ⟨x, hx, heq⟩ := hsome
    obtain ⟨rfl, rfl⟩ := Prod.mk.inj heq
    rw [Bool.not_eq_true, barred, Bool.or_eq_false_iff] at hbarred
    rw [items_opening, hx, Bool.and_eq_true, ih]
    constructor
    · rintro ⟨hok, h⟩
      exact .bracket hbarred.1 hbarred.2 (by simpa using hok) h
    · intro h
      cases h with
      | bracket _ _ hsc h => exact ⟨by simpa using hsc, h⟩
  | case11 prev c p hstar sc s hany hopen _ r ih =>
    rw [items_literal hstar hany hopen, Bool.and_eq_true, beq_iff_eq, ih]
    constructor
    · rintro ⟨hc, h⟩
      exact .byte hc h
    · intro h
      cases h with
      | byte hc h => exact ⟨hc, h⟩

/-- `fnmatch` decides the language of the pattern. -/
theorem fnmatch_decides (pattern string : Bytes) :
    fnmatch flags (some pattern) (some string) = 0 ↔ Fits flags (items flags pattern) none string := by
  rw [← matchHere_iff, fnmatch]
  split_ifs with h
  · exact iff_of_true rfl h
  · exact iff_of_false (show FNM_NOMATCH ≠ 0 by decide) h

end Yurt.Fnmatch
