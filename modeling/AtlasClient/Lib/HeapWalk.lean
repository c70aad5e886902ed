import AtlasClient.Lib.Fuel
import AtlasClient.Lib.LinkedList
import AtlasClient.Lib.NodeWalk

/-!
# Walking linked nodes that are changed meanwhile

`for (p = head; p; p = p->next) visit(p)` on the nodes of a list: `p->next` is read when the visit has returned, from
the node as it is then. `NodeWalk` is the same walk by places.

* `Visits`: what one visit does to the nodes, it does to the list.
* `Visits.returns`: **the walk along the nodes ends in the state of the walk by places.**
-/

namespace LinkedList

open Fuel Loop NodeWalk

variable {β σ τ ε : Type*} {Rep : σ → τ → List (ℕ × β) → Prop} {get : τ → List β} {visit : ℕ → β → τ → τ}
  {body : Option ℕ × σ → Except ε ((Option ℕ × σ) ⊕ σ)}

/-- A round of the loop on the nodes does to them what a visit does to the list. `Rep s t l` says that the nodes of `s`
are `l`, and that `t` is what they stand for. The walk goes on with the node behind, as the visit has left it. -/
structure Visits (Rep : σ → τ → List (ℕ × β) → Prop) (get : τ → List β) (visit : ℕ → β → τ → τ)
    (body : Option ℕ × σ → Except ε ((Option ℕ × σ) ⊕ σ)) : Prop where
  values : ∀ {s t l}, Rep s t l → l.map Prod.snd = get t
  done : ∀ {s t l}, Rep s t l → body (none, s) = .ok (.inr s)
  round : ∀ {s t l i a b}, Rep s t l → l[i]? = some (a, b) →
    ∃ s' l', body (some a, s) = .ok (.inl (pointer (l'.drop (i + 1)), s')) ∧ Rep s' (visit i b t) l'

/-- The pointer to a place of the list. -/
theorem pointer_drop {l : List (ℕ × β)} {i : ℕ} : pointer (l.drop i) = l[i]?.map Prod.fst := by
  rw [pointer, List.head?_drop]

/-- **The walk along the nodes ends in the state of the walk by places**, if that one ends. -/
theorem Visits.returns (h : Visits Rep get visit body) (stuck : ε) {s : σ} {t : τ} {l : List (ℕ × β)} (hrep : Rep s t l)
    {n : ℕ} (hn : (get (stateAt get visit t n)).length ≤ n) :
    ∃ s' l', Returns (fun fuel => loop stuck body fuel (pointer l, s)) s' ∧ Rep s' (stateAt get visit t n) l' := by
  -- from any place on, by induction on the places that are left
  have hfrom : ∀ k i s l, i + k = n → Rep s (stateAt get visit t i) l →
      ∃ s' l', Returns (fun fuel => loop stuck body fuel (pointer (l.drop i), s)) s' ∧
        Rep s' (stateAt get visit t n) l' := by
    intro k
    induction k with
    | zero =>
      intro i s l hi hrep
      obtain rfl : i = n := by omega
      have hlen : l.length ≤ i := by
        rw [← h.values hrep, List.length_map] at hn
        exact hn
      refine ⟨s, l, ?_, hrep⟩
      rw [pointer_drop, List.getElem?_eq_none hlen]
      exact returns_loop_done (h.done hrep)
    | succ k ih =>
      intro i s l hi hrep
      have hvalues : (get (stateAt get visit t i))[i]? = l[i]?.map Prod.snd := by
        rw [← h.values hrep, List.getElem?_map]
      rw [pointer_drop]
      cases hplace : l[i]? with
      | none =>
        -- the walk is over before the last place
        have hstay : stateAt get visit t n = stateAt get visit t i := by
          rw [← hi]
          refine stateAt_end ?_ (k + 1)
          rw [← h.values hrep, List.length_map]
          exact List.getElem?_eq_none_iff.1 hplace
        rw [hstay]
        exact ⟨s, l, returns_loop_done (h.done hrep), hrep⟩
      | some x =>
        obtain ⟨a, b⟩ := x
        rw [hplace] at hvalues
        obtain ⟨s₁, l₁, hround, hrep₁⟩ := h.round hrep hplace
        have hnext : stateAt get visit t (i + 1) = visit i b (stateAt get visit t i) := stateAt_some hvalues
        rw [← hnext] at hrep₁
        obtain ⟨s', l', hrest, hrep'⟩ := ih (i + 1) s₁ l₁ (by omega) hrep₁
        exact ⟨s', l', returns_loop_next hround hrest, hrep'⟩
  exact hfrom n 0 s l (by omega) hrep

end LinkedList
