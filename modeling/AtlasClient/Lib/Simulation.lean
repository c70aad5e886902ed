import AtlasClient.Lib.Loop
import Mathlib.Data.Sum.Basic

/-!
# Simulation of machines that can fail

A step of a machine fails, or gives an output and the next state. Two machines with the same inputs and outputs
agree when their steps do.

* `Agree R`: both fail alike, or give the same output and states that `R` relates.
* `Agree.bind`, `Agree.map`: agreement goes through a sequence of steps.
* `runs_agree`: **machines whose steps agree have the same runs.**
* `Alike R`: the same for steps without an output; `loop_alike`: **loops whose rounds are alike are alike.**
-/

namespace Simulation

variable {σ τ σ' τ' ο ο' ι ε : Type*}

/-- Two outcomes that cannot be told apart, with related states. -/
def Agree (R : σ → τ → Prop) : Except ε (ο × σ) → Except ε (ο × τ) → Prop
  | .error f, .error g => f = g
  | .ok (a, s), .ok (b, t) => a = b ∧ R s t
  | _, _ => False

variable {R : σ → τ → Prop} {S : σ' → τ' → Prop} {x : Except ε (ο × σ)} {y : Except ε (ο × τ)}

theorem Agree.ok {a : ο} {s : σ} {t : τ} (h : R s t) : Agree R (.ok (a, s) : Except ε (ο × σ)) (.ok (a, t)) := ⟨rfl, h⟩

theorem Agree.error (f : ε) : Agree R (.error f : Except ε (ο × σ)) (.error f : Except ε (ο × τ)) := rfl

theorem Agree.cases (h : Agree R x y) : (∃ f, x = .error f ∧ y = .error f) ∨
    ∃ a s t, x = .ok (a, s) ∧ y = .ok (a, t) ∧ R s t := by
  match x, y, h with
  | .error f, .error _, h => exact .inl ⟨f, rfl, congrArg _ (Eq.symm h)⟩
  | .ok (a, s), .ok (b, t), h => exact .inr ⟨a, s, t, rfl, by rw [h.1], h.2⟩

/-- **A sequence agrees** when its first steps do, and what follows from there. -/
theorem Agree.bind (h : Agree R x y) {f : ο × σ → Except ε (ο' × σ')} {g : ο × τ → Except ε (ο' × τ')}
    (hfg : ∀ a s t, R s t → Agree S (f (a, s)) (g (a, t))) : Agree S (x.bind f) (y.bind g) := by
  rcases h.cases with ⟨e, rfl, rfl⟩ | ⟨a, s, t, rfl, rfl, hst⟩
  · exact .error e
  · exact hfg a s t hst

theorem Agree.map (h : Agree R x y) (f : ο → ο') :
    Agree R (x.map fun r => (f r.1, r.2)) (y.map fun r => (f r.1, r.2)) := by
  rcases h.cases with ⟨e, rfl, rfl⟩ | ⟨a, s, t, rfl, rfl, hst⟩
  · exact .error e
  · exact .ok hst

/-- The outputs. -/
theorem Agree.outputs (h : Agree R x y) : x.map Prod.fst = y.map Prod.fst := by
  rcases h.cases with ⟨e, rfl, rfl⟩ | ⟨a, s, t, rfl, rfl, -⟩
  · rfl
  · rfl

/-- The outputs of a run, and the state it ends in. -/
def runs (step : σ → ι → Except ε (ο × σ)) (s : σ) : List ι → Except ε (List ο × σ)
  | [] => .ok ([], s)
  | i :: is => (step s i).bind fun r => (runs step r.2 is).map fun rs => (r.1 :: rs.1, rs.2)

theorem runs_append (step : σ → ι → Except ε (ο × σ)) (is js : List ι) : ∀ s, runs step s (is ++ js) =
    (runs step s is).bind fun r => (runs step r.2 js).map fun q => (r.1 ++ q.1, q.2) := by
  induction is with
  | nil =>
    intro s
    cases h : runs step s js <;> simp [runs, h, Except.bind, Except.map]
  | cons i is ih =>
    intro s
    simp only [List.cons_append, runs]
    cases step s i with
    | error f => rfl
    | ok r =>
      simp only [Except.bind, ih]
      cases runs step r.2 is with
      | error f => rfl
      | ok q => cases h : runs step q.2 js <;> simp [h, Except.map]

/-- **Machines whose steps agree have the same runs.** -/
theorem runs_agree {step : σ → ι → Except ε (ο × σ)} {step' : τ → ι → Except ε (ο × τ)}
    (h : ∀ s t i, R s t → Agree R (step s i) (step' t i)) (is : List ι) :
    ∀ {s t}, R s t → Agree R (runs step s is) (runs step' t is) := by
  induction is with
  | nil => exact fun hst => .ok hst
  | cons i is ih => exact fun hst => (h _ _ i hst).bind fun a _ _ hst' => (ih hst').map (a :: ·)

/-! ## Steps without an output -/

/-- Both fail alike, or give states that `R` relates. -/
inductive Alike (R : σ → τ → Prop) : Except ε σ → Except ε τ → Prop
  | error (f : ε) : Alike R (.error f) (.error f)
  | ok {s : σ} {t : τ} : R s t → Alike R (.ok s) (.ok t)

/-- **A sequence is alike** when its first steps are, and what follows from there. -/
theorem Alike.bind {a : Except ε σ} {b : Except ε τ} (h : Alike R a b) {f : σ → Except ε σ'} {g : τ → Except ε τ'}
    (hfg : ∀ s t, R s t → Alike S (f s) (g t)) : Alike S (a.bind f) (b.bind g) := by
  cases h with
  | error f => exact .error f
  | ok hst => exact hfg _ _ hst

/-- The first step is the same. -/
theorem Alike.after {α : Type*} (a : Except ε α) {f : α → Except ε σ} {g : α → Except ε τ}
    (hfg : ∀ x, Alike R (f x) (g x)) :
    Alike R (a.bind f) (a.bind g) := by
  cases a with
  | error f => exact .error f
  | ok x => exact hfg x

theorem Alike.map {a : Except ε σ} {b : Except ε τ} (h : Alike R a b) {f : σ → σ'} {g : τ → τ'}
    (hfg : ∀ s t, R s t → S (f s) (g t)) : Alike S (a.map f) (b.map g) := by
  cases h with
  | error f => exact .error f
  | ok hst => exact .ok (hfg _ _ hst)

/-- **Loops whose rounds are alike are alike.** -/
theorem loop_alike {stuck : ε} {body : σ → Except ε (σ ⊕ σ')} {body' : τ → Except ε (τ ⊕ τ')}
    (h : ∀ s t, R s t → Alike (Sum.LiftRel R S) (body s) (body' t)) (n : ℕ) :
    ∀ {s t}, R s t → Alike S (Loop.loop stuck body n s) (Loop.loop stuck body' n t) := by
  induction n with
  | zero => exact fun _ => .error stuck
  | succ n ih =>
    intro s t hst
    have hround := h s t hst
    unfold Loop.loop
    generalize body s = a at hround ⊢
    generalize body' t = b at hround ⊢
    cases hround with
    | error f => exact .error f
    | ok hx =>
      cases hx with
      | inl hnext => exact ih hnext
      | inr hdone => exact .ok hdone

end Simulation
