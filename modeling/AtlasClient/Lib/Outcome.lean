import Mathlib.Logic.Basic

/-!
# What a computation that can fail may end with

`Ends F P x` bounds both ends: a failure of `x` satisfies `F`, and a result satisfies `P`.

* `Ends.bind`, `Ends.mono`: sequences, and weaker bounds.
* `ends_foldlM`: **what every step keeps, a run keeps**, as far as it goes.
-/

namespace Outcome

variable {ε α β ι σ : Type*} {F G : ε → Prop} {P : α → Prop} {Q : β → Prop} {x : Except ε α}

structure Ends (F : ε → Prop) (P : α → Prop) (x : Except ε α) : Prop where
  failure : ∀ f, x = .error f → F f
  result : ∀ a, x = .ok a → P a

theorem Ends.ok {a : α} (h : P a) : Ends F P (.ok a) where
  failure := nofun
  result := fun b hb => by
    cases hb
    exact h

theorem Ends.error {f : ε} (h : F f) : Ends F P (.error f) where
  failure := fun g hg => by
    cases hg
    exact h
  result := nofun

theorem Ends.bind (h : Ends F P x) {f : α → Except ε β} (hf : ∀ a, P a → Ends F Q (f a)) : Ends F Q (x.bind f) := by
  cases x with
  | error e => exact .error (h.failure e rfl)
  | ok a => exact hf a (h.result a rfl)

theorem Ends.mono {P' : α → Prop} (h : Ends F P x) (hF : ∀ f, F f → G f) (hP : ∀ a, P a → P' a) : Ends G P' x :=
  ⟨fun f hx => hF f (h.failure f hx), fun a hx => hP a (h.result a hx)⟩

/-- **What every step keeps, a run keeps**: it ends in a state with the invariant, or with a failure that a step may
have. -/
theorem ends_foldlM {step : σ → ι → Except ε σ} {Inv : σ → Prop} (h : ∀ s i, Inv s → Ends F Inv (step s i))
    (is : List ι) :
    ∀ {s : σ}, Inv s → Ends F Inv (is.foldlM step s) := by
  induction is with
  | nil => exact fun hs => .ok hs
  | cons i is ih =>
    intro s hs
    rw [List.foldlM_cons]
    exact (h s i hs).bind fun s' hs' => ih hs'

end Outcome
