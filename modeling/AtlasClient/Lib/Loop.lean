import Mathlib.Data.Nat.Notation

/-!
# `while` loops that can fail

`loop stuck body n s` runs `body` from `s`: the body fails, breaks with a result or
gives the next state. A loop that has not ended after `n` rounds fails with `stuck`.

* `loop_next`, `loop_done`, `loop_fail`: one round.
* `loop_inv`: what every round keeps, the loop keeps.
* `loop_list`: a loop that walks along a list ends.
* `bind_ok`: a sequence of steps succeeds when each of them does.
-/

namespace Loop

variable {σ ρ ε : Type*}

/-- Run `body` for at most `n` rounds; `stuck` if it has not ended by then. -/
def loop (stuck : ε) (body : σ → Except ε (σ ⊕ ρ)) : ℕ → σ → Except ε ρ
  | 0, _ => .error stuck
  | n + 1, s =>
    match body s with
    | .error f => .error f
    | .ok (.inr r) => .ok r
    | .ok (.inl s') => loop stuck body n s'

variable {stuck : ε} {body : σ → Except ε (σ ⊕ ρ)} {n : ℕ} {s s' : σ} {r : ρ}

theorem loop_next (h : body s = .ok (.inl s')) : loop stuck body (n + 1) s = loop stuck body n s' := by
  simp [loop, h]

theorem loop_done (h : body s = .ok (.inr r)) : loop stuck body (n + 1) s = .ok r := by
  simp [loop, h]

theorem loop_fail {f : ε} (h : body s = .error f) : loop stuck body (n + 1) s = .error f := by
  simp [loop, h]

/-- **A sequence succeeds** when its first step does, and the rest from there. -/
theorem bind_ok {α β : Type*} {x : Except ε α} {f : α → Except ε β} {b : β} :
    x.bind f = .ok b ↔ ∃ a, x = .ok a ∧ f a = .ok b := by
  cases x <;> simp [Except.bind]

theorem bind_of_ok {α β : Type*} {x : Except ε α} {a : α} (h : x = .ok a) (f : α → Except ε β) :
    x.bind f = f a := by rw [h]; rfl

theorem bind_of_error {α β : Type*} {x : Except ε α} {e : ε} (h : x = .error e) (f : α → Except ε β) :
    x.bind f = .error e := by rw [h]; rfl

/-- **Partial correctness.** What a round makes of a state that satisfies `Inv` satisfies it, too, or is a result
that satisfies `Q`. -/
theorem loop_inv (Inv : σ → Prop) (Q : ρ → Prop) (hround : ∀ s x, Inv s → body s = .ok x → x.elim Inv Q) :
    ∀ {n : ℕ} {s : σ} {r : ρ}, Inv s → loop stuck body n s = .ok r → Q r := by
  intro n
  induction n with
  | zero => intro s r _ h; simp [loop] at h
  | succ n ih =>
    intro s r hs h
    rw [loop] at h
    cases hb : body s with
    | error f => rw [hb] at h; simp at h
    | ok x =>
      have hx := hround s x hs hb
      rw [hb] at h
      rcases x with s' | r'
      · exact ih hx h
      · simp only [Except.ok.injEq] at h
        subst h; exact hx

/-- **A loop along a list.** A round at its head goes on with the rest, and at its end the loop breaks. -/
theorem loop_list {α : Type*} {I : List α → σ → Prop} {Q : ρ → Prop}
    (hnil : ∀ s, I [] s → ∃ r, body s = .ok (.inr r) ∧ Q r)
    (hcons : ∀ a l s, I (a :: l) s → ∃ s', body s = .ok (.inl s') ∧ I l s') :
    ∀ {l : List α} {s : σ} {n : ℕ}, I l s → l.length ≤ n → ∃ r, loop stuck body (n + 1) s = .ok r ∧ Q r := by
  intro l
  induction l with
  | nil =>
    intro s n hs _
    obtain ⟨r, hround, hr⟩ := hnil s hs
    exact ⟨r, loop_done hround, hr⟩
  | cons a l ih =>
    intro s n hs hn
    obtain ⟨s', hround, hs'⟩ := hcons a l s hs
    cases n with
    | zero => exact absurd hn (Nat.not_succ_le_zero _)
    | succ n =>
      rw [loop_next hround]
      exact ih hs' (Nat.le_of_succ_le_succ hn)

end Loop
