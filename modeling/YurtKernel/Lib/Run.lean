import Mathlib

/-! Runs of a deterministic machine under a list of calls.

    `run` folds a step function over the calls; `Along P` says that every step of the run satisfies
    `P` in the state it is taken from. The rules that follow are what safety proofs use: a property
    kept by each good step is kept by a good run, what each good step shows about its own state holds
    at every point of a good run, and two properties of steps may be exchanged under an invariant.
    `log` collects what the steps put out. -/

namespace Run
variable {S A : Type} (step : S → A → S)
variable {P Q : S → A → Prop} {I : S → Prop} {as : List A} {C : A → Prop} {B : Type} {s : S}

/-- State after the calls `as`. -/
def run (s : S) (as : List A) : S := as.foldl step s

/-- Every step of the run from `s` satisfies `P`. -/
def Along (P : S → A → Prop) : S → List A → Prop
  | _, [] => True
  | s, a :: as => P s a ∧ Along P (step s a) as

@[simp] theorem run_nil (s : S) : run step s [] = s := rfl

@[simp] theorem run_cons (s : S) (a : A) (as : List A) :
    run step s (a :: as) = run step (step s a) as := rfl

theorem run_append (s : S) (as bs : List A) :
    run step s (as ++ bs) = run step (run step s as) bs := List.foldl_append

theorem along_append : ∀ {s : S} {as bs : List A},
    Along step P s (as ++ bs) ↔ Along step P s as ∧ Along step P (run step s as) bs
  | _, [], _ => by simp [Along]
  | s, a :: as, bs => by
    rw [List.cons_append, Along, Along, along_append, run_cons, and_assoc]

instance decidableAlong {P : S → A → Prop} [∀ s a, Decidable (P s a)] :
    ∀ (s : S) (as : List A), Decidable (Along step P s as)
  | _, [] => isTrue trivial
  | s, a :: as => by
    unfold Along
    have := decidableAlong (P := P) (step s a) as
    infer_instance

/-- Invariant rule: kept by each good step, so kept by a good run. -/
theorem Along.invariant (hstep : ∀ s a, P s a → I s → I (step s a)) (hrun : Along step P s as)
    (h : I s) : I (run step s as) := by
  induction as generalizing s with
  | nil => exact h
  | cons a as ih => exact ih hrun.2 (hstep s a hrun.1 h)

/-- Splitting rule: a property of every step of a run, read at a point of it. -/
theorem along_iff_split : Along step P s as ↔ ∀ pre a suf, as = pre ++ a :: suf → P (run step s pre) a := by
  constructor
  · rintro h pre a suf rfl
    exact ((along_append step).mp h).2.1
  · intro h
    induction as generalizing s with
    | nil => trivial
    | cons a as ih =>
      refine ⟨h [] a as rfl, ih ?_⟩
      rintro pre b suf rfl
      exact h (a :: pre) b suf rfl

/-- Promise rule: what good steps show under an invariant, which good steps of calls in `C` keep,
    holds at every step of a good run. -/
theorem Along.promise (hP : ∀ s a, I s → C a → Q s a → P s a)
    (hkeep : ∀ s a, I s → C a → Q s a → I (step s a)) (hs : I s) (has : ∀ a ∈ as, C a)
    (hrun : Along step Q s as) : Along step P s as := by
  induction as generalizing s with
  | nil => trivial
  | cons a as ih =>
    have ha := has a List.mem_cons_self
    exact ⟨hP s a hs ha hrun.1, ih (hkeep s a hs ha hrun.1)
      (fun b hb => has b (List.mem_cons_of_mem a hb)) hrun.2⟩

/-- Exchange rule: two properties of a step that agree under an invariant, which good steps of calls
    in `C` keep. -/
theorem along_iff (hiff : ∀ s a, I s → C a → (P s a ↔ Q s a))
    (hkeep : ∀ s a, I s → C a → Q s a → I (step s a)) (hs : I s) (has : ∀ a ∈ as, C a) :
    Along step P s as ↔ Along step Q s as := by
  induction as generalizing s with
  | nil => exact Iff.rfl
  | cons a as ih =>
    have ha := has a List.mem_cons_self
    have hrest := fun hQ => ih (hkeep s a hs ha hQ) (fun b hb => has b (List.mem_cons_of_mem a hb))
    constructor
    · rintro ⟨hP, h⟩
      have hQ := (hiff s a hs ha).mp hP
      exact ⟨hQ, (hrest hQ).mp h⟩
    · rintro ⟨hQ, h⟩
      exact ⟨(hiff s a hs ha).mpr hQ, (hrest hQ).mpr h⟩

/-- What the steps of a run put out, in order. -/
def log {B : Type} (out : S → A → List B) : S → List A → List B
  | _, [] => []
  | s, a :: as => out s a ++ log out (step s a) as

theorem log_append (out : S → A → List B) : ∀ (s : S) (as bs : List A),
    log step out s (as ++ bs) = log step out s as ++ log step out (run step s as) bs
  | _, [], _ => rfl
  | s, a :: as, bs => by
    rw [List.cons_append, log, log, log_append, run_cons, List.append_assoc]

theorem log_concat (out : S → A → List B) (s : S) (as : List A) (a : A) :
    log step out s (as ++ [a]) = log step out s as ++ out (run step s as) a := by
  rw [log_append, log, log, List.append_nil]

end Run
