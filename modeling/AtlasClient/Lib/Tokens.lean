import Mathlib.Data.List.TakeWhile

/-!
# Tokens

The tokens of a list are the non-empty parts between its separators.

* `tokens_cons`, `tokens_eq_nil`: the first token, and what is behind the separator that ends it.
* `tokens_intercalate`: **tokens come back** from behind their separators.
-/

namespace Tokens

variable {α : Type*} {p : α → Bool} {s t : List α} {d : α}

/-- The tokens between the separators that `p` finds. -/
def tokens (p : α → Bool) (s : List α) : List (List α) := (s.splitOnP p).filter fun t => !t.isEmpty

/-- A separator in front is passed over. -/
theorem tokens_skip (h : p d = true) (s : List α) : tokens p (d :: s) = tokens p s := by
  rw [tokens, List.splitOnP_cons_eq_if_modifyHead, if_pos h]
  rfl

/-- A token, and the separator behind it. -/
theorem tokens_append (hne : t ≠ []) (ht : ∀ c ∈ t, p c = false) (hd : p d = true) (s : List α) :
    tokens p (t ++ d :: s) = t :: tokens p s := by
  rw [tokens, List.splitOnP_append_cons_of_forall_mem ht d hd, List.filter_cons_of_pos (by simpa using hne)]
  rfl

/-- One token. -/
theorem tokens_whole (hne : s ≠ []) (hs : ∀ c ∈ s, p c = false) : tokens p s = [s] := by
  rw [tokens, List.splitOnP_eq_singleton hs, List.filter_cons_of_pos (by simpa using hne)]
  rfl

theorem tokens_nil (p : α → Bool) : tokens p [] = [] := rfl

/-- The separators in front do not matter. -/
theorem tokens_dropWhile (p : α → Bool) (s : List α) : tokens p (s.dropWhile p) = tokens p s := by
  induction s with
  | nil => rfl
  | cons c s ih =>
    by_cases hc : p c = true
    · rw [List.dropWhile_cons_of_pos hc, ih, tokens_skip hc]
    · rw [List.dropWhile_cons_of_neg hc]

theorem tokens_eq_nil (h : s.dropWhile p = []) : tokens p s = [] := by
  rw [← tokens_dropWhile, h, tokens_nil]

/-- **The first token**, and what is behind the separator that ends it. -/
theorem tokens_cons {c : α} (h : s.dropWhile p = c :: t) :
    tokens p s = (c :: t).takeWhile (fun c => !p c) :: tokens p ((c :: t).dropWhile fun c => !p c).tail := by
  have hc : p c = false := by
    have hhead := List.head_dropWhile_not p (by simp [h] : s.dropWhile p ≠ [])
    simpa [h] using hhead
  have htake : ∀ x ∈ (c :: t).takeWhile (fun c => !p c), p x = false := fun x hx => by
    simpa using List.mem_takeWhile_imp hx
  have hne : (c :: t).takeWhile (fun c => !p c) ≠ [] := by simp [hc]
  have hsplit : (c :: t).takeWhile (fun c => !p c) ++ (c :: t).dropWhile (fun c => !p c) = c :: t :=
    List.takeWhile_append_dropWhile
  have hend : ∀ d u, (c :: t).dropWhile (fun c => !p c) = d :: u → p d = true := by
    intro d u hrest
    have hhead := List.head_dropWhile_not (fun c => !p c) (by simp [hrest] : (c :: t).dropWhile (fun c => !p c) ≠ [])
    simpa [hrest] using hhead
  rw [← tokens_dropWhile, h]
  generalize (c :: t).takeWhile (fun c => !p c) = token,
    (c :: t).dropWhile (fun c => !p c) = rest at htake hne hsplit hend
  rw [← hsplit]
  cases rest with
  | nil => rw [List.append_nil, tokens_whole hne htake, List.tail_nil, tokens_nil]
  | cons d u => rw [tokens_append hne htake (hend d u rfl), List.tail_cons]

/-- **Tokens come back** from behind their separators. -/
theorem tokens_intercalate (hd : p d = true) (ts : List (List α)) (h : ∀ t ∈ ts, t ≠ [] ∧ ∀ c ∈ t, p c = false) :
    tokens p ([d].intercalate ts) = ts := by
  induction ts with
  | nil => rfl
  | cons t ts ih =>
    obtain ⟨hne, ht⟩ := h t List.mem_cons_self
    cases ts with
    | nil =>
      rw [List.intercalate_singleton]
      exact tokens_whole hne ht
    | cons u us =>
      rw [List.intercalate_cons_cons, List.append_assoc, List.singleton_append]
      rw [tokens_append hne ht hd, ih fun t ht => h t (List.mem_cons_of_mem _ ht)]

end Tokens
