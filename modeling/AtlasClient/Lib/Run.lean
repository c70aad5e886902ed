import Mathlib.Data.List.Basic

/-!
# Runs of a step function

A machine is a total step function `step : σ → ε → σ`; what it must not do in a
state is a predicate on the step. `Along step R s es` says that every step of the
run of `es` from `s` satisfies `R`.

* `run_keeps`: what every step keeps, a run keeps.
* `along_iff_forall`: `Along` read as a statement about every prefix of the run; `Along.last` is the
  longest one.
* `along_exact`: **the exact-condition rule.** If an invariant is kept by every
  step that meets `C`, and a step from an invariant state satisfies `R` exactly
  when it meets `C`, then a run satisfies `R` throughout iff it meets `C`
  throughout. The invariant need not survive a step that fails `C`, and `L` restricts
  the events; `along_exact_all` is the rule for all events.
-/

namespace Machine

variable {σ ε : Type*} (step : σ → ε → σ)

/-- The state after the events `es`. -/
def run (s : σ) (es : List ε) : σ := es.foldl step s

theorem run_append (s : σ) (es fs : List ε) : run step s (es ++ fs) = run step (run step s es) fs := by
  simp [run, List.foldl_append]

/-- **What every step keeps, a run keeps.** -/
theorem run_keeps {step : σ → ε → σ} {Inv : σ → Prop} (h : ∀ s e, Inv s → Inv (step s e)) :
    ∀ (es : List ε) {s : σ}, Inv s → Inv (run step s es) := by
  intro es
  induction es with
  | nil => exact fun hs => hs
  | cons e es ih => exact fun hs => ih (h _ e hs)

/-- Every step of the run of `es` from `s` satisfies `R`. -/
def Along (R : σ → ε → Prop) : σ → List ε → Prop
  | _, [] => True
  | s, e :: es => R s e ∧ Along R (step s e) es

/-- `Along` can be evaluated on a concrete run. -/
instance decidableAlong (R : σ → ε → Prop) [∀ s e, Decidable (R s e)] :
    ∀ (es : List ε) (s : σ), Decidable (Along step R s es)
  | [], _ => isTrue trivial
  | e :: es, s =>
    have := decidableAlong R es (step s e)
    inferInstanceAs (Decidable (R s e ∧ Along step R (step s e) es))

variable {step} {R C L : σ → ε → Prop} {Inv : σ → Prop} {s : σ} {es : List ε}

/-- **`Along` is a statement about every prefix of the run.** -/
theorem along_iff_forall :
    ∀ {es : List ε} {s : σ}, Along step R s es ↔
      ∀ pre e post, es = pre ++ e :: post → R (run step s pre) e := by
  intro es
  induction es with
  | nil => intro s; simp [Along]
  | cons a as ih =>
    intro s
    simp only [Along, ih]
    constructor
    · rintro ⟨ha, has⟩ pre e post heq
      rcases pre with _ | ⟨b, pre⟩
      · simp at heq; obtain ⟨rfl, -⟩ := heq; exact ha
      · simp only [List.cons_append, List.cons.injEq] at heq
        obtain ⟨rfl, heq⟩ := heq
        exact has pre e post heq
    · intro h
      exact ⟨h [] a as rfl, fun pre e post heq => h (a :: pre) e post (by rw [heq]; rfl)⟩

/-- The last step of a run. -/
theorem Along.last {e : ε} (h : Along step R s (es ++ [e])) : R (run step s es) e :=
  along_iff_forall.1 h es e [] rfl

/-- **The exact-condition rule.** -/
theorem along_exact (Inv : σ → Prop) (L : σ → ε → Prop)
    (hgood : ∀ s e, Inv s → L s e → C s e → R s e ∧ Inv (step s e))
    (hbad : ∀ s e, Inv s → L s e → R s e → C s e) :
    ∀ {es : List ε} {s : σ}, Inv s → Along step L s es →
      (Along step R s es ↔ Along step C s es) := by
  intro es
  induction es with
  | nil => intro s _ _; simp [Along]
  | cons e es ih =>
    rintro s hs ⟨hl, hls⟩
    constructor
    · rintro ⟨hr, hrs⟩
      have hc := hbad s e hs hl hr
      exact ⟨hc, (ih (hgood s e hs hl hc).2 hls).1 hrs⟩
    · rintro ⟨hc, hcs⟩
      obtain ⟨hr, hi⟩ := hgood s e hs hl hc
      exact ⟨hr, (ih hi hls).2 hcs⟩

theorem along_exact_all (Inv : σ → Prop) (hgood : ∀ s e, Inv s → C s e → R s e ∧ Inv (step s e))
    (hbad : ∀ s e, Inv s → R s e → C s e) (hs : Inv s) : Along step R s es ↔ Along step C s es := by
  refine along_exact Inv (fun _ _ => True) ?_ ?_ hs (along_iff_forall.2 fun _ _ _ _ => trivial)
  · intro s e h _ hc
    exact hgood s e h hc
  · intro s e h _ hr
    exact hbad s e h hr

end Machine
