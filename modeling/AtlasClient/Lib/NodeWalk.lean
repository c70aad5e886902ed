import AtlasClient.Lib.Loop
import Mathlib.Data.Nat.Find

/-!
# Walking a list that is changed meanwhile

`for (p = head; p; p = p->next) visit(p)`, where a visit may append to the list and change its nodes,
but unlinks none: a place in the list is always the same node.

* `stateAt`: the state when the walk comes to a place.
* `walk_eq`: the walk ends in the state at the first place that is not there.
* `exists_end`: **it ends**, if every visit that changes anything uses up some measure.
-/

namespace NodeWalk

open Loop

variable {σ α ε : Type*}

section

variable (get : σ → List α) (visit : ℕ → α → σ → σ)

/-- One round of the loop, at a place of the list. -/
def round (p : ℕ × σ) : Except ε ((ℕ × σ) ⊕ σ) :=
  match (get p.2)[p.1]? with
  | none => .ok (.inr p.2)
  | some a => .ok (.inl (p.1 + 1, visit p.1 a p.2))

/-- The walk, for at most `rounds` rounds; `stuck` if it has not ended by then. -/
def walk (stuck : ε) (rounds : ℕ) (s : σ) : Except ε σ := loop stuck (round get visit) rounds (0, s)

/-- The state when the walk comes to a place; the last state if it does not. -/
def stateAt (s : σ) : ℕ → σ
  | 0 => s
  | i + 1 =>
    match (get (stateAt s i))[i]? with
    | none => stateAt s i
    | some a => visit i a (stateAt s i)

end

variable {get : σ → List α} {visit : ℕ → α → σ → σ} {stuck : ε} {s : σ} {i n : ℕ} {a : α}

theorem stateAt_none (h : (get (stateAt get visit s i))[i]? = none) :
    stateAt get visit s (i + 1) = stateAt get visit s i := by
  rw [stateAt, h]

theorem stateAt_some (h : (get (stateAt get visit s i))[i]? = some a) :
    stateAt get visit s (i + 1) = visit i a (stateAt get visit s i) := by
  rw [stateAt, h]

/-- What every visit keeps holds at every place. -/
theorem stateAt_inv (Inv : ℕ → σ → Prop) (h0 : Inv 0 s)
    (hvisit : ∀ i s a, Inv i s → (get s)[i]? = some a → Inv (i + 1) (visit i a s))
    (hskip : ∀ i s, Inv i s → Inv (i + 1) s) : ∀ n, Inv n (stateAt get visit s n) := by
  intro n
  induction n with
  | zero => exact h0
  | succ n ih =>
    cases hn : (get (stateAt get visit s n))[n]? with
    | none => rw [stateAt_none hn]; exact hskip n _ ih
    | some a => rw [stateAt_some hn]; exact hvisit n _ a ih hn

/-- Behind the end of the list the state is the last one. -/
theorem stateAt_end (h : (get (stateAt get visit s i)).length ≤ i) :
    ∀ k, stateAt get visit s (i + k) = stateAt get visit s i := by
  intro k
  induction k with
  | zero => rfl
  | succ k ih =>
    have hnone : (get (stateAt get visit s (i + k)))[i + k]? = none := by
      rw [ih]; exact List.getElem?_eq_none (by omega)
    rw [← Nat.add_assoc, stateAt_none hnone, ih]

theorem loop_stateAt : ∀ k i, (get (stateAt get visit s (i + k))).length ≤ i + k → ∀ m, k < m →
    loop stuck (round get visit) m (i, stateAt get visit s i) = .ok (stateAt get visit s (i + k)) := by
  intro k
  induction k with
  | zero =>
    intro i hend m hm
    obtain ⟨m, rfl⟩ : ∃ m', m = m' + 1 := ⟨m - 1, by omega⟩
    have hnone : (get (stateAt get visit s i))[i]? = none := List.getElem?_eq_none hend
    exact loop_done (by simp [round, hnone])
  | succ k ih =>
    intro i hend m hm
    obtain ⟨m, rfl⟩ : ∃ m', m = m' + 1 := ⟨m - 1, by omega⟩
    cases hi : (get (stateAt get visit s i))[i]? with
    | none =>
      rw [stateAt_end (List.getElem?_eq_none_iff.1 hi)]
      exact loop_done (by simp [round, hi])
    | some a =>
      have hassoc : i + (k + 1) = i + 1 + k := by omega
      rw [hassoc] at hend ⊢
      have hround : (round get visit (i, stateAt get visit s i) : Except ε ((ℕ × σ) ⊕ σ)) =
          .ok (.inl (i + 1, stateAt get visit s (i + 1))) := by simp [round, hi, stateAt_some hi]
      rw [loop_next hround]
      exact ih (i + 1) hend m (by omega)

/-- **The walk ends in the state at the first place behind the list.** -/
theorem walk_eq (h : (get (stateAt get visit s n)).length ≤ n) {m : ℕ} (hm : n < m) :
    walk get visit stuck m s = .ok (stateAt get visit s n) := by
  have hloop : loop stuck (round get visit) m (0, stateAt get visit s 0) = .ok (stateAt get visit s (0 + n)) :=
    loop_stateAt n 0 (by rw [Nat.zero_add]; exact h) m hm
  rw [Nat.zero_add] at hloop
  exact hloop

/-- As long as the visits change nothing the walk goes on through the same list. -/
theorem stateAt_gap {j : ℕ} (hj : i ≤ j)
    (h : ∀ k, i ≤ k → k < j → stateAt get visit s (k + 1) = stateAt get visit s k) :
    stateAt get visit s j = stateAt get visit s i := by
  induction j, hj using Nat.le_induction with
  | base => rfl
  | succ j hj ih => rw [h j hj (by omega), ih fun k h1 h2 => h k h1 (by omega)]

/-- The first visit from a place on that changes the state, if there is one. -/
theorem exists_first_change (h : ∃ j, i ≤ j ∧ stateAt get visit s (j + 1) ≠ stateAt get visit s j) :
    ∃ j a, (get (stateAt get visit s j))[j]? = some a ∧ stateAt get visit s j = stateAt get visit s i ∧
      visit j a (stateAt get visit s j) ≠ stateAt get visit s j := by
  classical
  obtain ⟨hj, hne⟩ := Nat.find_spec h
  refine ⟨Nat.find h, ?_⟩
  have hsame : stateAt get visit s (Nat.find h) = stateAt get visit s i :=
    stateAt_gap hj fun l h1 h2 => by_contra fun hne => Nat.find_min h h2 ⟨h1, hne⟩
  cases hget : (get (stateAt get visit s (Nat.find h)))[Nat.find h]? with
  | none => exact absurd (stateAt_none hget) hne
  | some a =>
    rw [stateAt_some hget] at hne
    exact ⟨a, rfl, hsame, hne⟩

/-- **A walk ends** if every visit that changes the state lowers a measure: only finitely many visits
append to the list. -/
theorem exists_end (μ : σ → ℕ) (hvisit : ∀ i a s, visit i a s = s ∨ μ (visit i a s) < μ s) (s : σ) :
    ∃ n, (get (stateAt get visit s n)).length ≤ n := by
  suffices h : ∀ k i, μ (stateAt get visit s i) = k → ∃ n, (get (stateAt get visit s n)).length ≤ n from
    h _ 0 rfl
  intro k
  induction k using Nat.strong_induction_on with
  | _ k ih =>
    intro i hk
    by_cases hlow : ∃ j, i ≤ j ∧ stateAt get visit s (j + 1) ≠ stateAt get visit s j
    · obtain ⟨j, a, hget, hsame, hne⟩ := exists_first_change hlow
      have hlt := (hvisit j a (stateAt get visit s j)).resolve_left hne
      rw [← stateAt_some hget, hsame, hk] at hlt
      exact ih _ hlt (j + 1) rfl
    · -- nothing changes any more: the list is as long as it is now
      have hsame : stateAt get visit s (i + (get (stateAt get visit s i)).length) = stateAt get visit s i :=
        stateAt_gap (by omega) fun l hl _ => by_contra fun hne => hlow ⟨l, hl, hne⟩
      refine ⟨i + (get (stateAt get visit s i)).length, ?_⟩
      rw [hsame]
      omega

end NodeWalk
