import AtlasClient.Lib.Loop
import Mathlib.Data.List.Nodup
import Mathlib.Data.List.Perm.Subperm
import Mathlib.Logic.Function.Basic

/-!
# Linked lists in a heap

A heap gives the node at an address, if there is one, and a node has the address of the next one.
`Chain heap p l` says that the list from `p` on has the nodes `l`.

* `Chain.unique`: a pointer is the head of one list only.
* `Chain.nodup`: no address comes twice, so that a list is not longer than there are addresses.
* `Chain.frame`: what is not in the list does not matter.
* `Chain.relink`: writing one node, with what comes behind it; `Chain.concat`, `Chain.unlink` and
  `Chain.setValue` are the three uses of it.
* `last_found`: the walk to the last node.
-/

namespace LinkedList

open Loop

variable {β : Type*}

structure Node (β : Type*) where
  value : β
  next : Option ℕ
  deriving DecidableEq, Repr

abbrev Heap (β : Type*) := ℕ → Option (Node β)

/-- The nodes from a pointer on, with their addresses. -/
inductive Chain (heap : Heap β) : Option ℕ → List (ℕ × β) → Prop
  | nil : Chain heap none []
  | cons {a : ℕ} {b : β} {p : Option ℕ} {l : List (ℕ × β)} :
      heap a = some ⟨b, p⟩ → Chain heap p l → Chain heap (some a) ((a, b) :: l)

variable {heap heap' : Heap β} {p : Option ℕ} {l l' pre post : List (ℕ × β)} {a c n : ℕ} {b d : β}

theorem Chain.unique (h : Chain heap p l) : ∀ {l'}, Chain heap p l' → l = l' := by
  induction h with
  | nil => rintro _ ⟨⟩; rfl
  | cons hnode _ ih =>
    rintro _ (_ | ⟨hnode', hrest⟩)
    cases hnode.symm.trans hnode'
    rw [ih hrest]

theorem Chain.head (h : Chain heap p (l ++ [(a, b)])) : ∃ c, p = some c := by
  cases h' : p with
  | none =>
    rw [h'] at h
    exact absurd (h.unique .nil) (List.append_ne_nil_of_right_ne_nil _ (List.cons_ne_nil _ _))
  | some c => exact ⟨c, rfl⟩

/-- The rest of a list, from one of its nodes on. -/
theorem Chain.suffix (h : Chain heap p (pre ++ (a, b) :: post)) : Chain heap (some a) ((a, b) :: post) := by
  induction pre generalizing p with
  | nil => cases h with | cons hnode hrest => exact .cons hnode hrest
  | cons x pre ih => cases h with | cons _ hrest => exact ih hrest

/-- **No address comes twice**, since the list would go on for ever. -/
theorem Chain.nodup (h : Chain heap p l) : (l.map Prod.fst).Nodup := by
  induction h with
  | nil => exact List.nodup_nil
  | @cons a b p l hnode hrest ih =>
    refine List.nodup_cons.2 ⟨fun hmem => ?_, ih⟩
    obtain ⟨⟨a', b'⟩, hx, rfl⟩ := List.mem_map.1 hmem
    obtain ⟨pre, post, rfl⟩ := List.append_of_mem hx
    have hlen := congrArg List.length ((Chain.cons hnode hrest).unique hrest.suffix)
    simp at hlen
    omega

/-- **A list is not longer than there are addresses.** -/
theorem Chain.length_le (h : Chain heap p l) (hlt : ∀ x ∈ l, x.1 < n) : l.length ≤ n := by
  have hsub : l.map Prod.fst ⊆ List.range n := fun a ha => by
    obtain ⟨x, hx, rfl⟩ := List.mem_map.1 ha
    exact List.mem_range.2 (hlt x hx)
  have hle := (List.subperm_of_subset h.nodup hsub).length_le
  rwa [List.length_map, List.length_range] at hle

/-- **The other addresses do not matter.** -/
theorem Chain.frame (h : Chain heap p l) (hsame : ∀ x ∈ l, heap' x.1 = heap x.1) : Chain heap' p l := by
  induction h with
  | nil => exact .nil
  | cons hnode _ ih =>
    exact .cons ((hsame _ List.mem_cons_self).trans hnode) (ih fun x hx => hsame x (List.mem_cons_of_mem _ hx))

theorem Chain.update (h : Chain heap p l) (ha : ∀ x ∈ l, x.1 ≠ a) (node : Option (Node β)) :
    Chain (Function.update heap a node) p l :=
  h.frame fun x hx => Function.update_of_ne (ha x hx) node heap

/-- The address of the first node. -/
def pointer (l : List (ℕ × β)) : Option ℕ := l.head?.map Prod.fst

@[simp] theorem pointer_nil : pointer ([] : List (ℕ × β)) = none := rfl

@[simp] theorem pointer_cons (x : ℕ × β) (l : List (ℕ × β)) : pointer (x :: l) = some x.1 := rfl

theorem Chain.pointer_eq (h : Chain heap p l) : p = pointer l := by
  cases h with
  | nil => rfl
  | cons _ _ => rfl

/-- The rest of a list, behind one of its nodes. -/
theorem Chain.behind (h : Chain heap p (pre ++ (a, b) :: post)) : Chain heap (pointer post) post := by
  cases h.suffix with
  | cons _ hrest => rwa [← hrest.pointer_eq]

/-- The node at an address of the list. -/
theorem Chain.node (h : Chain heap p (pre ++ (a, b) :: post)) : heap a = some ⟨b, pointer post⟩ := by
  cases h.suffix with
  | cons hnode hrest => rw [hnode, hrest.pointer_eq]

theorem Chain.last (h : Chain heap p (l ++ [(a, b)])) : heap a = some ⟨b, none⟩ := h.node

/-- The nodes before and behind an address of the list are others. -/
theorem Chain.ne (h : Chain heap p (pre ++ (a, b) :: post)) : (∀ x ∈ pre, x.1 ≠ a) ∧ ∀ x ∈ post, x.1 ≠ a := by
  have hnodup := h.nodup
  rw [List.map_append, List.map_cons, List.nodup_append, List.nodup_cons] at hnodup
  obtain ⟨-, ⟨hpost, -⟩, hpre⟩ := hnodup
  exact ⟨fun x hx => hpre x.1 (List.mem_map_of_mem hx) a List.mem_cons_self,
    fun x hx hxa => hpost (List.mem_map.2 ⟨x, hx, hxa⟩)⟩

/-- **Writing one node** `a`: what comes before it stays, what comes behind it is the list `l` from the new
pointer on. -/
theorem Chain.relink {q : Option ℕ} (h : Chain heap p (pre ++ (a, b) :: post)) (hsame : ∀ x ∈ pre, heap' x.1 = heap x.1)
    (hnode : heap' a = some ⟨d, q⟩) (hrest : Chain heap' q l) : Chain heap' p (pre ++ (a, d) :: l) := by
  induction pre generalizing p with
  | nil =>
    cases h
    exact .cons hnode hrest
  | cons x pre ih =>
    cases h with
    | cons hx hl =>
      exact .cons ((hsame _ List.mem_cons_self).trans hx) (ih hl fun y hy => hsame y (List.mem_cons_of_mem _ hy))

/-- **Linking a node** `c` behind the last one, `a`. -/
theorem Chain.concat (h : Chain heap p (l ++ [(a, b)])) (hc : ∀ x ∈ l ++ [(a, b)], x.1 ≠ c) :
    Chain (Function.update (Function.update heap c (some ⟨d, none⟩)) a (some ⟨b, some c⟩)) p
      (l ++ [(a, b)] ++ [(c, d)]) := by
  have hca : c ≠ a := (hc (a, b) (by simp)).symm
  rw [List.append_assoc]
  refine h.relink (fun x hx => ?_) (Function.update_self ..) (.cons ?_ .nil)
  · rw [Function.update_of_ne (h.ne.1 x hx), Function.update_of_ne (hc x (List.mem_append_left _ hx))]
  · rw [Function.update_of_ne hca, Function.update_self]

/-- **Unlinking and releasing** the node `c` behind `a`. -/
theorem Chain.unlink (h : Chain heap p (pre ++ (a, b) :: (c, d) :: post)) :
    Chain (Function.update (Function.update heap a (some ⟨b, pointer post⟩)) c none) p (pre ++ (a, b) :: post) := by
  have hsplit : pre ++ (a, b) :: (c, d) :: post = pre ++ [(a, b)] ++ (c, d) :: post := by simp
  have hc := (hsplit ▸ h).ne
  have hac : a ≠ c := hc.1 (a, b) (by simp)
  have hrest := (hsplit ▸ h).behind
  refine h.relink (fun x hx => ?_) ?_ ((hrest.update (fun x hx => ?_) _).update hc.2 _)
  · rw [Function.update_of_ne (hc.1 x (List.mem_append_left _ hx)), Function.update_of_ne (h.ne.1 x hx)]
  · rw [Function.update_of_ne hac, Function.update_self]
  · exact h.ne.2 x (List.mem_cons_of_mem _ hx)

/-- **Changing a value** in its place. -/
theorem Chain.setValue (h : Chain heap p (pre ++ (a, b) :: post)) (d : β) :
    Chain (Function.update heap a (some ⟨d, pointer post⟩)) p (pre ++ (a, d) :: post) := by
  exact h.relink (fun x hx => Function.update_of_ne (h.ne.1 x hx) _ _) (Function.update_self ..)
    (h.behind.update h.ne.2 _)

/-- **The last node is found** by a walk whose rounds go to the next node, or stop where there is none. -/
theorem last_found {ε : Type*} {stuck : ε} {body : ℕ → Except ε (ℕ ⊕ ℕ)}
    (hnext : ∀ a b q, heap a = some ⟨b, some q⟩ → body a = .ok (.inl q))
    (hlast : ∀ a b, heap a = some ⟨b, none⟩ → body a = .ok (.inr a)) (h : Chain heap p (l ++ [(a, b)])) :
    ∀ {n c}, l.length ≤ n → p = some c → loop stuck body (n + 1) c = .ok a := by
  rintro n c hn rfl
  have hwalk : ∃ r, loop stuck body (n + 1) c = .ok r ∧ r = a := by
    refine loop_list (I := fun l c => Chain heap (some c) (l ++ [(a, b)])) (fun c hc => ?_) (fun y l c hc => ?_) h hn
    · cases hc with
      | cons hnode hrest =>
        cases hrest
        exact ⟨a, hlast _ _ hnode, rfl⟩
    · cases hc with
      | cons hnode hrest =>
        obtain ⟨q, rfl⟩ := hrest.head
        exact ⟨q, hnext _ _ _ hnode, hrest⟩
  obtain ⟨r, hloop, rfl⟩ := hwalk
  exact hloop

end LinkedList
