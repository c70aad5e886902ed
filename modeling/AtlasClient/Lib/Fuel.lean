import AtlasClient.Lib.Loop

/-!
# Computations on fuel

A recursion that need not end is a function of its fuel, and fails when the fuel is used up.
`Returns f a` says that it ends: with enough fuel the result is `a`.

* `Returns.unique`: it ends with one result.
* `Returns.bind`, `Returns.succ`: a sequence of computations, and a call.
* `returns_loop_next`, `returns_loop_done`: a loop whose rounds are the fuel.
-/

namespace Fuel

open Loop

variable {ε α β : Type*} {f g : ℕ → Except ε α} {a a' : α}

/-- With enough fuel, the result is `a`. -/
def Returns (f : ℕ → Except ε α) (a : α) : Prop := ∃ n₀, ∀ n ≥ n₀, f n = .ok a

theorem returns_const (a : α) : Returns (fun _ => (.ok a : Except ε α)) a := ⟨0, fun _ _ => rfl⟩

/-- Any fuel but the first `k` units. -/
theorem returns_of_add (k : ℕ) (h : ∀ n, f (n + k) = .ok a) : Returns f a := by
  refine ⟨k, fun n hn => ?_⟩
  obtain ⟨m, rfl⟩ : ∃ m, n = m + k := ⟨n - k, by omega⟩
  exact h m

theorem Returns.unique (h : Returns f a) (h' : Returns f a') : a = a' := by
  obtain ⟨n, hn⟩ := h
  obtain ⟨m, hm⟩ := h'
  have heq := (hn (max n m) (Nat.le_max_left _ _)).symm.trans (hm (max n m) (Nat.le_max_right _ _))
  exact Except.ok.inj heq

/-- A call takes one unit. -/
theorem Returns.succ (h : Returns f a) (hg : ∀ n, g (n + 1) = f n) : Returns g a := by
  obtain ⟨n₀, hn₀⟩ := h
  refine ⟨n₀ + 1, fun n hn => ?_⟩
  obtain ⟨m, rfl⟩ : ∃ m, n = m + 1 := ⟨n - 1, by omega⟩
  rw [hg, hn₀ m (by omega)]

/-- One computation, and then another one from its result. -/
theorem Returns.bind {k : ℕ → α → Except ε β} {b : β} (h : Returns f a) (h' : Returns (fun n => k n a) b) :
    Returns (fun n => (f n).bind (k n)) b := by
  obtain ⟨n, hn⟩ := h
  obtain ⟨m, hm⟩ := h'
  refine ⟨max n m, fun l hl => ?_⟩
  have h₁ := hn l (Nat.le_trans (Nat.le_max_left _ _) hl)
  exact (bind_of_ok h₁ _).trans (hm l (Nat.le_trans (Nat.le_max_right _ _) hl))

variable {σ ρ : Type*} {stuck : ε} {body : σ → Except ε (σ ⊕ ρ)} {s s' : σ} {r : ρ}

theorem returns_loop_next (h : body s = .ok (.inl s')) (h' : Returns (fun n => loop stuck body n s') r) :
    Returns (fun n => loop stuck body n s) r :=
  h'.succ fun _ => loop_next h

theorem returns_loop_done (h : body s = .ok (.inr r)) : Returns (fun n => loop stuck body n s) r :=
  (returns_const r).succ fun _ => loop_done h

end Fuel
