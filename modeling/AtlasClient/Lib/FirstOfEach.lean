import Mathlib.Data.Finset.Card
import Mathlib.Data.Finset.Dedup
import Mathlib.Data.Finset.Insert

/-!
# The first element of each key

A table that takes an element only when its key is new. `firsts key l` is the table after the elements of `l`.

* `mem_keys_firsts`, `nodup_firsts`: each key of the list once.
* `exists_first`: **an element of the table is the first one of its key** in the list.
* `length_firsts`: there are as many elements as there are keys.
-/

namespace FirstOfEach

variable {α κ : Type*} [DecidableEq κ] {key : α → κ} {l pre : List α} {a : α} {k : κ}

/-- Take `a` when its key is new. -/
def add (key : α → κ) (table : List α) (a : α) : List α := if key a ∈ table.map key then table else table ++ [a]

def firsts (key : α → κ) (l : List α) : List α := l.foldl (add key) []

theorem firsts_concat : firsts key (l ++ [a]) = add key (firsts key l) a := List.foldl_concat ..

theorem firsts_append (l l' : List α) : firsts key (l ++ l') = l'.foldl (add key) (firsts key l) := List.foldl_append ..

/-- What is in a table stays in its place. -/
theorem prefix_foldl_add (l : List α) : ∀ table : List α, table <+: l.foldl (add key) table := by
  induction l with
  | nil => exact fun table => List.prefix_refl _
  | cons a l ih =>
    intro table
    refine List.IsPrefix.trans ?_ (ih (add key table a))
    unfold add
    split
    · exact List.prefix_refl _
    · exact List.prefix_append _ _

theorem mem_keys_add {table : List α} : k ∈ (add key table a).map key ↔ k ∈ table.map key ∨ k = key a := by
  unfold add
  split
  · next hmem => exact ⟨Or.inl, fun h => h.elim id fun h => h ▸ hmem⟩
  · simp

theorem mem_keys_firsts : k ∈ (firsts key l).map key ↔ k ∈ l.map key := by
  induction l using List.reverseRecOn with
  | nil => rfl
  | append_singleton l a ih =>
    rw [firsts_concat, mem_keys_add, ih]
    simp

theorem nodup_firsts : ((firsts key l).map key).Nodup := by
  induction l using List.reverseRecOn with
  | nil => exact List.nodup_nil
  | append_singleton l a ih =>
    rw [firsts_concat, add]
    split
    · exact ih
    · next hnew =>
      rw [List.map_append, List.map_singleton, ← List.concat_eq_append]
      exact ih.concat hnew

/-- **An element of the table is the first one of its key.** -/
theorem exists_first (h : a ∈ firsts key l) : ∃ pre post, l = pre ++ a :: post ∧ ∀ b ∈ pre, key b ≠ key a := by
  induction l using List.reverseRecOn with
  | nil => cases h
  | append_singleton l c ih =>
    have hold (h : a ∈ firsts key l) : ∃ pre post, l ++ [c] = pre ++ a :: post ∧ ∀ b ∈ pre, key b ≠ key a := by
      obtain ⟨pre, post, hl, hpre⟩ := ih h
      exact ⟨pre, post ++ [c], by rw [hl, List.append_assoc, List.cons_append], hpre⟩
    rw [firsts_concat, add] at h
    split at h
    · exact hold h
    · next hnew =>
      rcases List.mem_append.1 h with h | h
      · exact hold h
      · obtain rfl := List.mem_singleton.1 h
        refine ⟨l, [], rfl, fun b hb heq => hnew (mem_keys_firsts.2 ?_)⟩
        rw [← heq]
        exact List.mem_map_of_mem hb

/-- **There are as many elements as there are keys.** -/
theorem length_firsts (key : α → κ) (l : List α) : (firsts key l).length = (l.map key).toFinset.card := by
  rw [← List.length_map key, ← List.toFinset_card_of_nodup nodup_firsts]
  congr 1
  ext k
  rw [List.mem_toFinset, List.mem_toFinset, mem_keys_firsts]

theorem length_firsts_le (h : pre <+: l) : (firsts key pre).length ≤ (firsts key l).length := by
  rw [length_firsts, length_firsts]
  refine Finset.card_le_card fun k hk => ?_
  rw [List.mem_toFinset] at hk ⊢
  exact List.map_subset key h.subset hk

end FirstOfEach
