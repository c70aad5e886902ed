import Mathlib.Data.List.Nodup

/-!
# The first match in a list

Linked lists are searched from the head, and the node found is changed or unlinked.
`updFirst p f` changes the first element with `p`; the unlinking is `List.eraseP`.

* `updFirst_split`, `eraseP_split`: both at a list split at the first match.
* `exists_split`: the split.
* `find?_key`, `eraseP_eq_filter`: with distinct keys, the first match is the only one.
-/

namespace FirstMatch

variable {α β : Type*} {p : α → Bool} {f : α → α} {l pre post : List α} {a : α}

/-- Change the first element that satisfies `p`. -/
def updFirst (p : α → Bool) (f : α → α) : List α → List α
  | [] => []
  | a :: l => if p a then f a :: l else a :: updFirst p f l

theorem updFirst_split (hpre : ∀ x ∈ pre, p x = false) (ha : p a = true) :
    updFirst p f (pre ++ a :: post) = pre ++ f a :: post := by
  induction pre with
  | nil => simp [updFirst, ha]
  | cons b pre ih =>
    have hb := hpre b List.mem_cons_self
    simp only [List.cons_append, updFirst, hb, Bool.false_eq_true, if_false]
    rw [ih fun x hx => hpre x (List.mem_cons_of_mem _ hx)]

theorem updFirst_of_forall (h : ∀ x ∈ l, p x = false) : updFirst p f l = l := by
  induction l with
  | nil => rfl
  | cons b l ih =>
    simp only [updFirst, h b List.mem_cons_self, Bool.false_eq_true, if_false]
    rw [ih fun x hx => h x (List.mem_cons_of_mem _ hx)]

/-- What the change leaves alone. -/
theorem map_updFirst {g : α → β} (h : ∀ a, g (f a) = g a) : (updFirst p f l).map g = l.map g := by
  induction l with
  | nil => rfl
  | cons a l ih =>
    by_cases ha : p a = true
    · rw [updFirst, if_pos ha, List.map_cons, List.map_cons, h]
    · rw [updFirst, if_neg ha, List.map_cons, List.map_cons, ih]

/-- Each place holds what it held, or that changed. -/
theorem getElem?_updFirst (i : ℕ) :
    (updFirst p f l)[i]? = l[i]? ∨ (updFirst p f l)[i]? = l[i]?.map f := by
  induction l generalizing i with
  | nil => exact Or.inl rfl
  | cons a l ih =>
    by_cases ha : p a = true
    · rw [updFirst, if_pos ha]
      cases i with
      | zero => exact Or.inr rfl
      | succ i => exact Or.inl rfl
    · rw [updFirst, if_neg ha]
      cases i with
      | zero => exact Or.inl rfl
      | succ i => exact ih i

theorem eraseP_split (hpre : ∀ x ∈ pre, p x = false) (ha : p a = true) :
    (pre ++ a :: post).eraseP p = pre ++ post := by
  rw [List.eraseP_append_right _ (fun x hx => by simp [hpre x hx]), List.eraseP_cons_of_pos ha]

/-- What is left when an element is unlinked. -/
theorem sublist_split : (pre ++ post).Sublist (pre ++ a :: post) :=
  (List.Sublist.refl pre).append (List.sublist_cons_self a post)

/-- A list with a match, split at the first one. -/
theorem exists_split (h : ∃ a ∈ l, p a = true) :
    ∃ pre a post, l = pre ++ a :: post ∧ (∀ x ∈ pre, p x = false) ∧ p a = true := by
  obtain ⟨a, ha, hp⟩ := h
  obtain ⟨b, l₁, l₂, h1, h2, h3, -⟩ := List.exists_of_eraseP ha hp
  exact ⟨l₁, b, l₂, h3, fun x hx => by simpa using h1 x hx, h2⟩

/-- What `find?` finds is the first match. -/
theorem find?_split (h : l.find? p = some a) :
    ∃ pre post, l = pre ++ a :: post ∧ (∀ x ∈ pre, p x = false) ∧ p a = true := by
  obtain ⟨ha, pre, post, hl, hpre⟩ := List.find?_eq_some_iff_append.1 h
  exact ⟨pre, post, hl, fun x hx => by simpa using hpre x hx, ha⟩

/-- With distinct keys the element with a key is found. -/
theorem find?_key [DecidableEq β] {key : α → β} (h : (l.map key).Nodup) (ha : a ∈ l) :
    l.find? (fun x => key x = key a) = some a := by
  cases hf : l.find? fun x => key x = key a with
  | none =>
    rw [List.find?_eq_none] at hf
    exact absurd (by simp) (hf a ha)
  | some b =>
    rw [List.inj_on_of_nodup_map h (List.mem_of_find?_eq_some hf) ha (by simpa using List.find?_some hf)]

/-- A new key keeps the keys distinct. -/
theorem nodup_map_concat {key : α → β} (h : (l.map key).Nodup) (ha : key a ∉ l.map key) :
    ((l ++ [a]).map key).Nodup := by
  rw [List.map_append, List.map_singleton, ← List.concat_eq_append]
  exact h.concat ha

/-- With distinct keys the element with a key is filtered out. -/
theorem eraseP_eq_filter [DecidableEq β] {key : α → β} (h : (l.map key).Nodup) (k : β) :
    l.eraseP (fun a => key a = k) = l.filter fun a => key a ≠ k := by
  induction l with
  | nil => rfl
  | cons a l ih =>
    rw [List.map_cons, List.nodup_cons] at h
    by_cases hk : key a = k
    · rw [List.eraseP_cons_of_pos (by simpa using hk), List.filter_cons_of_neg (by simpa using hk), eq_comm,
        List.filter_eq_self]
      intro b hb
      have hne : key b ≠ k := fun hbk => h.1 (by rw [hk, ← hbk]; exact List.mem_map_of_mem hb)
      simpa using hne
    · rw [List.eraseP_cons_of_neg (by simpa using hk), List.filter_cons_of_pos (by simpa using hk), ih h.2]

end FirstMatch
