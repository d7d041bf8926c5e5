import YurtKernel.Lib.Pieces
import YurtKernel.Kernel.Path

/-! Paths as lists of components.

    A normalized path is what `joinComponents` writes for components that name something: none is
    empty, holds a slash or is `.` or `..`. Splitting is inverse to joining on such components, and
    every way the kernel has to put paths together splits into the components of its parts. -/

namespace Yurt

/-- A component that names something. -/
def IsName (c : Bytes) : Prop := Pieces.IsPiece slash c ∧ c ≠ dotName ∧ c ≠ dotDotName

instance (c : Bytes) : Decidable (IsName c) :=
  inferInstanceAs (Decidable (Pieces.IsPiece slash c ∧ c ≠ dotName ∧ c ≠ dotDotName))

/-- Absolute, without empty components, `.` and `..`. -/
def Normal (path : Bytes) : Prop := ∃ cs, (∀ c ∈ cs, IsName c) ∧ path = joinComponents cs

variable {cs cs' rest : List Bytes} {path base cwd : Bytes}

/-! ### Joining -/

@[simp] theorem isAbsolute_join (cs : List Bytes) : isAbsolute (joinComponents cs) = true := by
  cases cs <;> simp [isAbsolute, joinComponents, rootPath]

theorem join_ne_nil (cs : List Bytes) : joinComponents cs ≠ [] := by
  cases cs <;> simp [joinComponents, rootPath]

theorem mem_of_mem_join {b : Byte} (h : b ∈ joinComponents cs) : b = slash ∨ ∃ c ∈ cs, b ∈ c := by
  cases cs with
  | nil => simpa [joinComponents, rootPath] using h
  | cons c cs =>
    obtain ⟨x, hx, hb⟩ := List.mem_flatMap.mp h
    rcases List.mem_cons.mp hb with hb | hb
    · exact .inl hb
    · exact .inr ⟨x, hx, hb⟩

/-! ### Splitting -/

theorem splitComponents_append_slash (a b : Bytes) :
    splitComponents (a ++ slash :: b) = splitComponents a ++ splitComponents b :=
  Pieces.pieces_append_cons a b

theorem isPiece_of_mem_split {c : Bytes} (h : c ∈ splitComponents path) : Pieces.IsPiece slash c :=
  (Pieces.mem_pieces path h).1

theorem mem_of_mem_split {c : Bytes} (h : c ∈ splitComponents path) {b : Byte} (hb : b ∈ c) :
    b ∈ path := (Pieces.mem_pieces path h).2 b hb

theorem split_joined (h : ∀ c ∈ cs, Pieces.IsPiece slash c) :
    splitComponents (Pieces.joined slash cs) = cs := Pieces.pieces_joined h

theorem split_join (h : ∀ c ∈ cs, Pieces.IsPiece slash c) : splitComponents (joinComponents cs) = cs := by
  cases cs with
  | nil => rfl
  | cons c cs => exact split_joined h

theorem split_append_joined (base : Bytes) (h : ∀ c ∈ rest, Pieces.IsPiece slash c) :
    splitComponents (base ++ Pieces.joined slash rest) = splitComponents base ++ rest :=
  Pieces.pieces_append_joined base h

theorem split_childPath (base name : Bytes) :
    splitComponents (childPath base name) = splitComponents base ++ splitComponents name := by
  by_cases h : base.getLast? = some slash
  · obtain ⟨b, rfl⟩ := List.getLast?_eq_some_iff.mp h
    rw [childPath, if_pos h, List.append_assoc, List.singleton_append,
      splitComponents_append_slash, splitComponents_append_slash]
    simp [splitComponents]
  · rw [childPath, if_neg h, List.append_assoc, List.singleton_append, splitComponents_append_slash]

theorem split_absoluteFromCwd (cwd path : Bytes) : splitComponents (absoluteFromCwd cwd path) =
      (if isAbsolute path then [] else splitComponents cwd) ++ splitComponents path := by
  by_cases habs : isAbsolute path = true
  · rw [absoluteFromCwd, if_pos habs, if_pos habs]
    rfl
  · rw [absoluteFromCwd, if_neg habs, if_neg habs, split_childPath]
    by_cases hcwd : cwd.isEmpty = true
    · obtain rfl := List.isEmpty_iff.mp hcwd
      rfl
    · rw [if_neg hcwd]

/-! ### Lexical paths -/

theorem IsName.piece {c : Bytes} (h : IsName c) : Pieces.IsPiece slash c := h.1

theorem pushComponent_name {c : Bytes} (h : IsName c) (cs : List Bytes) :
    pushComponent cs c = cs ++ [c] := by
  rw [pushComponent, if_neg h.2.1, if_neg h.2.2]

theorem foldl_pushComponent_names (h : ∀ c ∈ cs', IsName c) (cs : List Bytes) :
    cs'.foldl pushComponent cs = cs ++ cs' := by
  induction cs' generalizing cs with
  | nil => simp
  | cons c cs' ih =>
    rw [List.foldl_cons, pushComponent_name (h c List.mem_cons_self),
      ih (fun x hx => h x (List.mem_cons_of_mem c hx)), List.append_assoc]
    rfl

theorem names_pushComponent {c : Bytes} (hc : Pieces.IsPiece slash c) (h : ∀ x ∈ cs, IsName x) :
    ∀ x ∈ pushComponent cs c, IsName x := by
  unfold pushComponent
  split
  · exact h
  · rename_i hdot
    split
    · exact fun x hx => h x (List.mem_of_mem_dropLast hx)
    · rename_i hdots
      intro x hx
      rcases List.mem_append.mp hx with hx | hx
      · exact h x hx
      · obtain rfl := List.mem_singleton.mp hx
        exact ⟨hc, hdot, hdots⟩

/-- Lexical normalization leaves components that name something. -/
theorem names_foldl_pushComponent (h : ∀ c ∈ cs', Pieces.IsPiece slash c) (hcs : ∀ c ∈ cs, IsName c) :
    ∀ c ∈ cs'.foldl pushComponent cs, IsName c :=
  List.foldlRecOn (motive := fun cs => ∀ c ∈ cs, IsName c) cs' _ hcs
    (fun _ hcs c hc => names_pushComponent (h c hc) hcs)

/-- The components a lexical path has after normalization. -/
def lexical (path : Bytes) : List Bytes := (splitComponents path).foldl pushComponent []

theorem names_lexical (path : Bytes) : ∀ c ∈ lexical path, IsName c :=
  names_foldl_pushComponent (fun _ hc => isPiece_of_mem_split hc) (by simp)

theorem normalizeLexicalPath_eq (h : badPath path = false) (cwd : Bytes) :
    normalizeLexicalPath cwd path = .ok (joinComponents (lexical (absoluteFromCwd cwd path))) := by
  rw [normalizeLexicalPath, h]
  rfl

theorem normal_join (h : ∀ c ∈ cs, IsName c) : Normal (joinComponents cs) := ⟨cs, h, rfl⟩

theorem Normal.names (h : Normal path) : ∀ c ∈ splitComponents path, IsName c := by
  obtain ⟨cs, hcs, rfl⟩ := h
  rw [split_join (fun c hc => (hcs c hc).piece)]
  exact hcs

theorem Normal.lexical (h : Normal path) : lexical path = splitComponents path := by
  rw [Yurt.lexical, foldl_pushComponent_names h.names, List.nil_append]

end Yurt
