import Mathlib

/-! Finite maps with their keys in ascending order.

    The structure carries the order of its keys as a field, so iteration order is a function of the
    contents: two maps that answer every lookup alike are equal (`ext_get?`). Besides the lookup
    equations of each operation the file has what a counting argument needs: `sum` adds up a weight
    over all entries, and `sum_insert` / `sum_erase` say by how much one update moves it. -/

namespace SortedMap.Raw
variable {K V : Type} [LinearOrder K] (k : K) (v : V)

/-- Insertion into an association list with ascending keys; an equal key is overwritten. -/
def insert (k : K) (v : V) : List (K × V) → List (K × V)
  | [] => [(k, v)]
  | e :: l =>
    if k < e.1 then (k, v) :: e :: l
    else if k = e.1 then (k, v) :: l
    else e :: insert k v l

/-- Value stored under `k`. -/
def get? (k : K) : List (K × V) → Option V
  | [] => none
  | e :: l => if k = e.1 then some e.2 else get? k l

theorem mem_insert (k : K) (v : V) : ∀ (l : List (K × V)) (e : K × V), e ∈ insert k v l → e = (k, v) ∨ e ∈ l
  | [], e, h => by simpa [insert] using h
  | a :: l, e, h => by
    rw [insert] at h
    split_ifs at h with h1 h2
    · simpa using h
    · rcases List.mem_cons.mp h with h | h
      · exact .inl h
      · exact .inr (List.mem_cons_of_mem _ h)
    · rcases List.mem_cons.mp h with h | h
      · exact .inr (h ▸ List.mem_cons_self ..)
      · rcases mem_insert k v l e h with h | h
        · exact .inl h
        · exact .inr (List.mem_cons_of_mem _ h)

/-- Keys strictly ascending. -/
def Sorted (l : List (K × V)) : Prop := l.Pairwise (fun a b => a.1 < b.1)

theorem sorted_insert (k : K) (v : V) : ∀ {l : List (K × V)}, Sorted l → Sorted (insert k v l)
  | [], _ => List.pairwise_singleton _ _
  | a :: l, h => by
    obtain ⟨ha, hl⟩ := List.pairwise_cons.mp h
    rw [insert]
    split_ifs with h1 h2
    · refine List.pairwise_cons.mpr ⟨?_, h⟩
      intro e he
      rcases List.mem_cons.mp he with rfl | he
      · exact h1
      · exact lt_trans h1 (ha e he)
    · exact List.pairwise_cons.mpr ⟨fun e he => h2 ▸ ha e he, hl⟩
    · refine List.pairwise_cons.mpr ⟨?_, sorted_insert k v hl⟩
      intro e he
      rcases mem_insert k v l e he with rfl | he
      · exact lt_of_le_of_ne (not_lt.mp h1) (Ne.symm h2)
      · exact ha e he

theorem get?_insert (k : K) (v : V) (k' : K) : ∀ l : List (K × V),
    get? k' (insert k v l) = if k' = k then some v else get? k' l
  | [] => by simp [insert, get?]
  | a :: l => by
    rw [insert]
    split
    · simp only [get?]
    · by_cases h2 : k = a.1
      · rw [if_pos h2]
        by_cases h3 : k' = k <;> simp [get?, h3, ← h2]
      · rw [if_neg h2, get?, get?_insert]
        by_cases h3 : k' = k
        · rw [if_neg (by rw [h3]; exact h2), if_pos h3, if_pos h3]
        · rw [if_neg h3, if_neg h3, get?]

theorem get?_eq_some_iff {k : K} {v : V} : ∀ {l : List (K × V)}, Sorted l → (get? k l = some v ↔ (k, v) ∈ l)
  | [], _ => by simp [get?]
  | a :: l, h => by
    obtain ⟨ha, hl⟩ := List.pairwise_cons.mp h
    rw [get?]
    split_ifs with h1
    · subst h1
      constructor
      · rintro h2
        cases h2
        exact List.mem_cons_self ..
      · intro h2
        rcases List.mem_cons.mp h2 with h3 | h3
        · rw [← h3]
        · exact absurd (ha _ h3) (lt_irrefl _)
    · rw [get?_eq_some_iff hl, List.mem_cons]
      refine ⟨.inr, ?_⟩
      rintro (h2 | h2)
      · exact absurd (congrArg Prod.fst h2) h1
      · exact h2

theorem get?_eq_none_iff {k : K} : ∀ {l : List (K × V)}, get? k l = none ↔ ∀ e ∈ l, e.1 ≠ k
  | [] => by simp [get?]
  | a :: l => by
    rw [get?]
    split_ifs with h1
    · simp [h1]
    · rw [get?_eq_none_iff, List.forall_mem_cons]
      exact ⟨fun h => ⟨Ne.symm h1, h⟩, fun h => h.2⟩

theorem insert_perm (k : K) (v : V) : ∀ {l : List (K × V)}, Sorted l →
    (insert k v l).Perm ((k, v) :: l.filter (fun e => e.1 ≠ k))
  | [], _ => by simp [insert]
  | a :: l, h => by
    obtain ⟨ha, hl⟩ := List.pairwise_cons.mp h
    rw [insert]
    split_ifs with h1 h2
    · have hall : ∀ e ∈ a :: l, decide (e.1 ≠ k) = true := by
        intro e he
        rcases List.mem_cons.mp he with rfl | he
        · simpa using (ne_of_gt h1)
        · simpa using (ne_of_gt (lt_trans h1 (ha e he)))
      rw [List.filter_eq_self.mpr hall]
    · have hall : ∀ e ∈ l, decide (e.1 ≠ k) = true := by
        intro e he
        simpa using ne_of_gt (h2 ▸ ha e he)
      rw [List.filter_cons_of_neg (by simp [h2]), List.filter_eq_self.mpr hall]
    · rw [List.filter_cons_of_pos (by simpa using Ne.symm h2)]
      exact ((insert_perm k v hl).cons a).trans (List.Perm.swap _ _ _)

end SortedMap.Raw

/-- A finite map whose entries stand in ascending key order. -/
structure SortedMap (K V : Type) [LinearOrder K] where
  toList : List (K × V)
  sorted : SortedMap.Raw.Sorted toList

namespace SortedMap
variable {K V W : Type} [LinearOrder K] (m : SortedMap K V) (k : K) (v : V) (f : K → V → Nat)

instance [DecidableEq V] : DecidableEq (SortedMap K V) := fun m n =>
  if h : m.toList = n.toList then isTrue (by cases m; cases n; cases h; rfl)
  else isFalse (fun e => h (e ▸ rfl))

def empty : SortedMap K V := ⟨[], List.Pairwise.nil⟩

instance : Inhabited (SortedMap K V) := ⟨empty⟩

def get? (m : SortedMap K V) (k : K) : Option V := Raw.get? k m.toList

def insert (m : SortedMap K V) (k : K) (v : V) : SortedMap K V :=
  ⟨Raw.insert k v m.toList, Raw.sorted_insert k v m.sorted⟩

/-- Keep the entries that satisfy `p`. -/
def filter (m : SortedMap K V) (p : K → V → Bool) : SortedMap K V :=
  ⟨m.toList.filter (fun e => p e.1 e.2), List.Pairwise.sublist List.filter_sublist m.sorted⟩

def erase : SortedMap K V := m.filter (fun k' _ => k' ≠ k)

def contains : Bool := (m.get? k).isSome

/-- Update the value under `k`, if there is one. -/
def modify (f : V → V) : SortedMap K V :=
  match m.get? k with
  | some v => m.insert k (f v)
  | none => m

/-- Store a value under `k`, or remove what is there. -/
def put : Option V → SortedMap K V
  | some v => m.insert k v
  | none => m.erase k

def keys : List K := m.toList.map Prod.fst
def values : List V := m.toList.map Prod.snd
def size : Nat := m.toList.length

section
variable (f : K → V → W)

/-- Rewrite every value, keys unchanged. -/
def mapValues : SortedMap K W :=
  ⟨m.toList.map (fun e => (e.1, f e.1 e.2)), by
    rw [Raw.Sorted, List.pairwise_map]; exact m.sorted⟩

/-- Total weight of the entries. -/
def sum (m : SortedMap K V) (f : K → V → Nat) : Nat := (m.toList.map (fun e => f e.1 e.2)).sum

/-! ### Lookups -/

@[simp] theorem get?_empty : (empty : SortedMap K V).get? k = none := rfl

@[simp, grind =] theorem get?_insert (m : SortedMap K V) (k : K) (v : V) (k' : K) :
    (m.insert k v).get? k' = if k' = k then some v else m.get? k' := Raw.get?_insert k v k' m.toList

theorem get?_insert_self : (m.insert k v).get? k = some v := by
  rw [get?_insert, if_pos rfl]

theorem get?_insert_ne {k k' : K} (v : V) (h : k' ≠ k) :
    (m.insert k v).get? k' = m.get? k' := by rw [get?_insert, if_neg h]

theorem mem_toList {m : SortedMap K V} {k : K} {v : V} : (k, v) ∈ m.toList ↔ m.get? k = some v :=
  (Raw.get?_eq_some_iff m.sorted).symm

theorem get?_eq_none_iff {m : SortedMap K V} {k : K} : m.get? k = none ↔ ∀ e ∈ m.toList, e.1 ≠ k :=
  Raw.get?_eq_none_iff

theorem contains_iff {m : SortedMap K V} {k : K} : m.contains k = true ↔ ∃ v, m.get? k = some v := by
  rw [contains, Option.isSome_iff_exists]

theorem contains_eq_false {m : SortedMap K V} {k : K} : m.contains k = false ↔ m.get? k = none := by
  rw [contains, Option.isSome_eq_false_iff, Option.isNone_iff_eq_none]

@[grind =] theorem get?_filter (p : K → V → Bool) (k : K) :
    (m.filter p).get? k = (m.get? k).filter (p k) := by
  apply Option.ext
  intro v
  rw [Option.filter_eq_some_iff, ← mem_toList, ← mem_toList, filter, List.mem_filter]

@[simp, grind =] theorem get?_erase (k k' : K) :
    (m.erase k).get? k' = if k' = k then none else m.get? k' := by
  rw [erase, get?_filter]
  by_cases h : k' = k
  · cases m.get? k' <;> simp [Option.filter, h]
  · cases m.get? k' <;> simp [Option.filter, h]

@[simp, grind =] theorem get?_modify (f : V → V) (k' : K) :
    (m.modify k f).get? k' = if k' = k then (m.get? k).map f else m.get? k' := by
  unfold modify
  cases h : m.get? k with
  | none =>
    by_cases h1 : k' = k
    · rw [if_pos h1, h1, h]; rfl
    · rw [if_neg h1]
  | some v => exact get?_insert m k (f v) k'

@[simp, grind =] theorem get?_put (o : Option V) (k' : K) :
    (m.put k o).get? k' = if k' = k then o else m.get? k' := by
  cases o with
  | none => exact get?_erase m k k'
  | some v => exact get?_insert m k v k'

@[simp] theorem get?_mapValues (k : K) : (m.mapValues f).get? k = (m.get? k).map (f k) := by
  apply Option.ext
  intro w
  rw [← mem_toList, Option.map_eq_some_iff]
  simp only [mapValues, List.mem_map, Prod.mk.injEq, ← mem_toList]
  constructor
  · rintro ⟨⟨k', v⟩, hm, rfl, hv⟩
    exact ⟨v, hm, hv⟩
  · rintro ⟨v, hm, hv⟩
    exact ⟨(k, v), hm, rfl, hv⟩

theorem nodup_keys : m.keys.Nodup := List.pairwise_map.mpr (m.sorted.imp (fun hab => ne_of_lt hab))

/-- A map is determined by its lookups. -/
theorem ext_get? {m n : SortedMap K V} (h : ∀ k, m.get? k = n.get? k) : m = n := by
  have hnodup : ∀ m : SortedMap K V, m.toList.Nodup := fun m =>
    m.sorted.imp (fun {a b} hab hne => absurd (hne ▸ hab) (lt_irrefl _))
  have hperm : m.toList.Perm n.toList := by
    refine (List.perm_ext_iff_of_nodup (hnodup m) (hnodup n)).mpr ?_
    rintro ⟨k, v⟩
    rw [mem_toList, mem_toList, h k]
  have heq : m.toList = n.toList := by
    refine hperm.eq_of_pairwise ?_ m.sorted n.sorted
    intro a b _ _ hab hba
    exact absurd (lt_trans hab hba) (lt_irrefl _)
  cases m; cases n; cases heq; rfl

theorem insert_eq_self {m : SortedMap K V} {k : K} {v : V} (h : m.get? k = some v) : m.insert k v = m := by
  apply ext_get?
  intro k'
  by_cases h1 : k' = k
  · rw [get?_insert, if_pos h1, h1, h]
  · rw [get?_insert, if_neg h1]

theorem insert_insert (v w : V) : (m.insert k v).insert k w = m.insert k w := by
  apply ext_get?
  intro k'
  by_cases h : k' = k <;> simp [h]

theorem erase_eq_self {m : SortedMap K V} {k : K} (h : m.get? k = none) : m.erase k = m := by
  apply ext_get?
  intro k'
  by_cases h1 : k' = k
  · rw [get?_erase, if_pos h1, h1, h]
  · rw [get?_erase, if_neg h1]

theorem erase_insert {m : SortedMap K V} {k : K} {v : V} (h : m.get? k = none) :
    (m.insert k v).erase k = m := by
  apply ext_get?
  intro k'
  by_cases h1 : k' = k <;> simp [h1, h]

theorem put_put (o o' : Option V) : (m.put k o).put k o' = m.put k o' := by
  apply ext_get?
  intro k'
  by_cases h : k' = k <;> simp [h]

theorem put_comm {k l : K} (h : k ≠ l) (o o' : Option V) : (m.put k o).put l o' = (m.put l o').put k o := by
  apply ext_get?
  intro k'
  by_cases h1 : k' = k
  · subst h1; simp [h]
  · simp [h1]

theorem size_ne_zero {m : SortedMap K V} {k : K} {v : V} (h : m.get? k = some v) : m.size ≠ 0 := by
  rw [size, Ne, List.length_eq_zero_iff]
  exact List.ne_nil_of_mem (mem_toList.mpr h)

theorem mapValues_insert :
    (m.insert k v).mapValues f = (m.mapValues f).insert k (f k v) := by
  apply ext_get?
  intro k'
  by_cases h : k' = k <;> simp [h]

theorem mapValues_erase : (m.erase k).mapValues f = (m.mapValues f).erase k := by
  apply ext_get?
  intro k'
  by_cases h : k' = k <;> simp [h]

end

/-- An update that the projection `f` does not see. -/
theorem mapValues_modify {m : SortedMap K V} {k : K} {g : V → V} {f : K → V → W}
    (h : ∀ v, m.get? k = some v → f k (g v) = f k v) :
    (m.modify k g).mapValues f = m.mapValues f := by
  apply ext_get?
  intro k'
  by_cases h1 : k' = k
  · subst h1
    cases hv : m.get? k' with
    | none => simp [hv]
    | some v => simp [hv, h v hv]
  · simp [h1]

/-! ### Values -/

theorem mem_values {m : SortedMap K V} {v : V} : v ∈ m.values ↔ ∃ k, m.get? k = some v := by
  simp only [values, List.mem_map, Prod.exists]
  constructor
  · rintro ⟨k, _, he, rfl⟩
    exact ⟨k, mem_toList.mp he⟩
  · rintro ⟨k, hk⟩
    exact ⟨k, v, mem_toList.mpr hk, rfl⟩

/-! ### Sums -/

theorem insert_perm (m : SortedMap K V) (k : K) (v : V) :
    (m.insert k v).toList.Perm ((k, v) :: (m.erase k).toList) := by
  have h := Raw.insert_perm k v m.sorted
  simpa [insert, erase, filter] using h

@[simp] theorem sum_empty : (empty : SortedMap K V).sum f = 0 := rfl

theorem sum_congr {m : SortedMap K V} {f g : K → V → Nat}
    (h : ∀ k v, m.get? k = some v → f k v = g k v) : m.sum f = m.sum g := by
  unfold sum
  congr 1
  refine List.map_congr_left ?_
  rintro ⟨k, v⟩ he
  exact h k v (mem_toList.mp he)

theorem sum_add (f g : K → V → Nat) : m.sum (fun k v => f k v + g k v) = m.sum f + m.sum g := by
  simp only [sum]
  exact List.sum_map_add ..

theorem sum_mapValues (g : K → V → W) (f : K → W → Nat) :
    (m.mapValues g).sum f = m.sum (fun k v => f k (g k v)) := by
  simp [sum, mapValues, Function.comp_def]

theorem sum_perm {m : SortedMap K V} {l : List (K × V)} (f : K → V → Nat) (h : m.toList.Perm l) :
    m.sum f = (l.map (fun e => f e.1 e.2)).sum := (h.map _).sum_eq

theorem sum_insert_erase : (m.insert k v).sum f = (m.erase k).sum f + f k v := by
  rw [sum_perm f (insert_perm m k v), List.map_cons, List.sum_cons, sum, Nat.add_comm]

/-- Weight of the entry under `k`, zero when there is none. -/
def weight (k : K) : Nat :=
  match m.get? k with
  | some v => f k v
  | none => 0

section
variable {m : SortedMap K V} {k : K} {v : V} (f : K → V → Nat)

theorem weight_some (h : m.get? k = some v) :
    m.weight f k = f k v := by simp [weight, h]

theorem weight_none (h : m.get? k = none) :
    m.weight f k = 0 := by simp [weight, h]

end

/-- Erasing a key takes away exactly its weight. -/
theorem sum_erase : (m.erase k).sum f + m.weight f k = m.sum f := by
  cases h : m.get? k with
  | none => rw [erase_eq_self h, weight_none f h, Nat.add_zero]
  | some v => rw [weight_some f h, ← sum_insert_erase, insert_eq_self h]

theorem sum_eq_zero {m : SortedMap K V} {f : K → V → Nat} (h : ∀ k, m.get? k = none) : m.sum f = 0 := by
  rw [ext_get? (n := empty) (fun k => h k), sum_empty]

/-- Two maps with the same weights have the same sum. -/
theorem sum_eq_of_weight {m m' : SortedMap K V} {f : K → V → Nat}
    (h : ∀ k, m'.weight f k = m.weight f k) : m'.sum f = m.sum f := by
  -- erase the keys of both maps one after the other
  have herased : ∀ (ks : List K) (m m' : SortedMap K V), (∀ k, m'.weight f k = m.weight f k) →
      (∀ k, k ∉ ks → m.get? k = none ∧ m'.get? k = none) → m'.sum f = m.sum f := by
    intro ks
    induction ks with
    | nil =>
      intro m m' _ hnone
      rw [sum_eq_zero (fun k => (hnone k List.not_mem_nil).1),
        sum_eq_zero (fun k => (hnone k List.not_mem_nil).2)]
    | cons k ks ih =>
      intro m m' hweight hnone
      have herase : (m'.erase k).sum f = (m.erase k).sum f := by
        refine ih _ _ (fun i => ?_) (fun i hi => ?_)
        · have hi := hweight i
          simp only [weight, get?_erase] at hi ⊢
          split_ifs
          · rfl
          · exact hi
        · simp only [get?_erase]
          split_ifs with hik
          · exact ⟨rfl, rfl⟩
          · exact hnone i (by simp [hik, hi])
      rw [← sum_erase m k, ← sum_erase m' k, herase, hweight k]
  refine herased (m.keys ++ m'.keys) m m' h (fun k hk => ?_)
  simp only [keys, List.mem_append, List.mem_map, not_or, not_exists, not_and] at hk
  exact ⟨get?_eq_none_iff.mpr hk.1, get?_eq_none_iff.mpr hk.2⟩

/-- Storing `v` under `k` exchanges the old weight of `k` for `f k v`. -/
theorem sum_insert : (m.insert k v).sum f + m.weight f k = m.sum f + f k v := by
  rw [sum_insert_erase, ← sum_erase m k f]
  omega

theorem sum_put (o : Option V) (f : K → V → Nat) :
    (m.put k o).sum f + m.weight f k = m.sum f + (o.map (f k)).getD 0 := by
  cases o with
  | none => exact sum_erase m k f
  | some v => exact sum_insert m k v f

theorem weight_le_sum : m.weight f k ≤ m.sum f := by
  have := sum_erase m k f
  omega

theorem sum_eq_zero_iff {m : SortedMap K V} {f : K → V → Nat} :
    m.sum f = 0 ↔ ∀ k v, m.get? k = some v → f k v = 0 := by
  rw [sum, List.sum_eq_zero_iff]
  constructor
  · intro h k v hv
    exact h _ (List.mem_map.mpr ⟨(k, v), mem_toList.mpr hv, rfl⟩)
  · intro h x hx
    obtain ⟨⟨k, v⟩, he, rfl⟩ := List.mem_map.mp hx
    exact h k v (mem_toList.mp he)

/-! ### Occurrences of a value -/

variable [DecidableEq V]

theorem count_values : m.values.count v = m.sum (fun _ w => if w = v then 1 else 0) := by
  rw [values, sum, List.count_eq_length_filter, List.filter_map, List.length_map,
    ← List.countP_eq_length_filter]
  induction m.toList with
  | nil => rfl
  | cons e l ih => rw [List.countP_cons, List.map_cons, List.sum_cons, ih]; simp [Nat.add_comm]

theorem count_values_insert (v w : V) : (m.insert k v).values.count w + (m.get? k).toList.count w =
      m.values.count w + [v].count w := by
  have h := sum_insert m k v (fun _ x => if x = w then 1 else 0)
  rw [count_values, count_values]
  cases hk : m.get? k with
  | none =>
    rw [weight_none _ hk] at h
    simpa [List.count_singleton] using h
  | some x =>
    rw [weight_some _ hk] at h
    simpa [List.count_singleton] using h

theorem count_values_erase (w : V) :
    (m.erase k).values.count w + (m.get? k).toList.count w = m.values.count w := by
  have h := sum_erase m k (fun _ x => if x = w then 1 else 0)
  rw [count_values, count_values]
  cases hk : m.get? k with
  | none =>
    rw [weight_none _ hk] at h
    simpa using h
  | some x =>
    rw [weight_some _ hk] at h
    simpa [List.count_singleton] using h

/-! ### Tables under a counter -/

/-- A table whose values are live and stand under used ids. -/
structure Shelf (m : SortedMap Nat V) (next : Nat) (live : Nat → V → Prop) : Prop where
  live : ∀ id v, m.get? id = some v → live id v
  fresh : ∀ id, next ≤ id → m.get? id = none

namespace Shelf
omit [DecidableEq V]
variable {m m' : SortedMap Nat V} {next id : Nat} {live live' : Nat → V → Prop} {v w : V}

theorem lt (h : Shelf m next live) (hv : m.get? id = some v) : id < next := by
  by_contra hle
  rw [h.fresh id (not_lt.mp hle)] at hv
  cases hv

/-- Values go, or change under their ids. -/
theorem change (h : Shelf m next live) (hlive : ∀ j v, m'.get? j = some v → live' j v)
    (hnone : ∀ j, m.get? j = none → m'.get? j = none) : Shelf m' next live' :=
  ⟨hlive, fun j hj => hnone j (h.fresh j hj)⟩

theorem put (h : Shelf m next live) (hid : id < next) {o : Option V} (ho : ∀ v, o = some v → live id v) :
    Shelf (m.put id o) next live where
  live j u hu := by grind [h.live j u]
  fresh j hj := by grind [h.fresh j hj]

theorem insert (h : Shelf m next live) (hold : m.get? id = some w) (hv : live id v) :
    Shelf (m.insert id v) next live := by
  refine h.put (h.lt hold) (o := some v) (fun u hu => ?_)
  cases hu
  exact hv

theorem erase (h : Shelf m next live) (id : Nat) : Shelf (m.erase id) next live :=
  h.change (fun j u hu => by grind [h.live j u]) (fun j hj => by grind)

theorem modify (h : Shelf m next live) {f : V → V} (hf : ∀ v, m.get? id = some v → live id (f v)) :
    Shelf (m.modify id f) next live := by
  refine h.change (fun j u hu => ?_) (fun j hj => by grind)
  rw [get?_modify] at hu
  split_ifs at hu with hj
  · obtain ⟨v, hv, rfl⟩ := Option.map_eq_some_iff.mp hu
    exact hj ▸ hf v hv
  · exact h.live j u hu

/-- A new value gets the next id. -/
theorem push (h : Shelf m next live) (hv : live next v) : Shelf (m.insert next v) (next + 1) live where
  live j u hu := by grind [h.live j u]
  fresh j hj := by grind [h.fresh j (by omega)]

/-- Values that look the same from outside. -/
theorem seen {f : V → W} (h : Shelf m next live) (hf : ∀ j v w, f v = f w → live j v → live j w)
    (hsame : ∀ j, (m'.get? j).map f = (m.get? j).map f) : Shelf m' next live := by
  refine h.change (fun j v hv => ?_) (fun j hj => ?_)
  · have hj := hsame j
    rw [hv, Option.map_some] at hj
    obtain ⟨w, hw, heq⟩ := Option.map_eq_some_iff.mp hj.symm
    exact hf j w v heq (h.live j w hw)
  · have hj' := hsame j
    rw [hj] at hj'
    exact Option.map_eq_none_iff.mp hj'

end Shelf

end SortedMap
