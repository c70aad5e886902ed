import AtlasClient.Lib.Memory

/-!
# A list in memory

A memory with one singly linked list in it, and nothing else.

* `append`, `find`, `modify`, `unlink`, `free`: the operations of `Memory`, with the pointer to the first node.
* `Represents`: the nodes of the list are all that is allocated; each operation has one lemma about them.
* `Extends`: what a walk may let happen to the list before it goes on.
-/

namespace LinkedList

open Loop

variable {β ε : Type}

/-- A memory and the pointer to the first node of its list. -/
structure ListHeap (β : Type) extends Memory β where
  head : Option ℕ

namespace ListHeap

open Memory (before Within)

def init : ListHeap β := ⟨.init, none⟩

section operations

variable (bad stuck : ε)

/-- Write the value of a node. -/
def modify (a : ℕ) (f : β → β) (s : ListHeap β) : Except ε (ListHeap β) := do
  let m ← s.toMemory.modify bad a f
  .ok { s with toMemory := m }

/-- What is not allocated cannot be released. -/
def free (a : ℕ) (s : ListHeap β) : Except ε (ListHeap β) := do
  let m ← s.toMemory.free bad a
  .ok { s with toMemory := m }

/-- A new node behind the last one. -/
def append (b : β) (s : ListHeap β) : Except ε (ListHeap β) := do
  let (head, m) ← s.toMemory.append bad stuck b s.head
  .ok ⟨m, head⟩

/-- The first node with a property, and the one in front of it. -/
def find (q : β → Bool) (s : ListHeap β) : Except ε (Option (ℕ × Option ℕ)) := s.toMemory.find bad stuck q s.head

/-- The node `p` leaves the list. -/
def unlink (p : ℕ) (pp : Option ℕ) (s : ListHeap β) : Except ε (ListHeap β) := do
  let (head, m) ← s.toMemory.unlink bad p pp s.head
  .ok ⟨m, head⟩

/-- The values in the list. -/
def values (s : ListHeap β) : Except ε (List β) := s.toMemory.values bad stuck s.head

end operations

/-! ## What they do -/

variable {bad stuck : ε} {s : ListHeap β} {m m' : Memory β} {l pre post : List (ℕ × β)} {a : ℕ} {b : β} {q : β → Bool}

/-- The nodes of the list, and there are no others. -/
structure Represents (s : ListHeap β) (l : List (ℕ × β)) : Prop where
  holds : s.Holds s.head l
  only : ∀ c, s.heap c ≠ none → c ∈ l.map Prod.fst

theorem init_represents : Represents (init : ListHeap β) [] :=
  ⟨Memory.holds_nil _, fun _ hc => absurd rfl hc⟩

theorem Represents.read (h : s.Represents (pre ++ (a, b) :: post)) (bad : ε) : s.read bad a = .ok ⟨b, pointer post⟩ :=
  h.holds.read bad

theorem Represents.allocated (h : s.Represents l) : s.heap a ≠ none ↔ a ∈ l.map Prod.fst := by
  refine ⟨h.only a, fun ha => ?_⟩
  obtain ⟨⟨a, b⟩, hx, rfl⟩ := List.mem_map.1 ha
  obtain ⟨pre, post, rfl⟩ := List.append_of_mem hx
  rw [h.holds.chain.node]
  exact Option.some_ne_none _

/-- An operation on the list allocates nothing elsewhere. -/
theorem only_within {l' : List (ℕ × β)} (h : ∀ c, m.heap c ≠ none → c ∈ l.map Prod.fst) (hwithin : Within l' m m')
    (hsub : ∀ c ∈ l.map Prod.fst, c ∈ l'.map Prod.fst) : ∀ c, m'.heap c ≠ none → c ∈ l'.map Prod.fst := by
  intro c hc
  by_contra hnot
  rw [hwithin.heap c hnot] at hc
  exact hnot (hsub c (h c hc))

/-- **Writing a value.** -/
theorem Represents.modify (h : s.Represents (pre ++ (a, b) :: post)) (bad : ε) (f : β → β) :
    ∃ s', s.modify bad a f = .ok s' ∧ s'.Represents (pre ++ (a, f b) :: post) := by
  obtain ⟨m, hcall, hholds, hwithin⟩ := h.holds.modify bad f
  have hfst : (pre ++ (a, f b) :: post).map Prod.fst = (pre ++ (a, b) :: post).map Prod.fst := by
    rw [List.map_append, List.map_append, List.map_cons, List.map_cons]
  refine ⟨_, bind_of_ok hcall _, hholds, ?_⟩
  rw [hfst]
  exact only_within h.only hwithin fun _ hc => hc

/-- **Appending a node.** -/
theorem Represents.append (h : s.Represents l) (bad stuck : ε) (b : β) :
    ∃ s', s.append bad stuck b = .ok s' ∧ s'.Represents (l ++ [(s.brk, b)]) := by
  obtain ⟨head, m, hcall, hholds, hwithin⟩ := h.holds.append bad stuck b
  refine ⟨_, bind_of_ok hcall _, hholds, only_within h.only hwithin fun c hc => ?_⟩
  rw [List.map_append]
  exact List.mem_append_left _ hc

/-- Several nodes, one after the other. -/
theorem Represents.appendAll (bad stuck : ε) (bs : List β) : ∀ {s : ListHeap β} {l}, s.Represents l →
    ∃ s' new, bs.foldlM (fun s b => s.append bad stuck b) s = .ok s' ∧ s'.Represents (l ++ new) ∧
      new.map Prod.snd = bs := by
  induction bs with
  | nil => exact fun {s l} h => ⟨s, [], rfl, by rwa [List.append_nil], rfl⟩
  | cons b bs ih =>
    intro s l h
    obtain ⟨s₁, hcall, h₁⟩ := h.append bad stuck b
    obtain ⟨s', new, hrest, h', hnew⟩ := ih h₁
    refine ⟨s', (s.brk, b) :: new, ?_, ?_, ?_⟩
    · rw [List.foldlM_cons]
      exact (bind_of_ok hcall _).trans hrest
    · rw [List.append_assoc, List.singleton_append] at h'
      exact h'
    · rw [List.map_cons, hnew]

/-- **No node has the property.** -/
theorem Represents.find_none (h : s.Represents l) (bad stuck : ε) (hl : ∀ x ∈ l, q x.2 = false) :
    s.find bad stuck q = .ok none := h.holds.find_none bad stuck hl

/-- **The first node with the property**, and the one in front of it. -/
theorem Represents.find_some (h : s.Represents (pre ++ (a, b) :: post)) (bad stuck : ε)
    (hpre : ∀ x ∈ pre, q x.2 = false)
    (hb : q b = true) : s.find bad stuck q = .ok (some (a, before pre)) := h.holds.find_some bad stuck hpre hb

/-- **A node leaves the list**, and stays allocated. -/
theorem Represents.unlink (h : s.Represents (pre ++ (a, b) :: post)) (bad : ε) :
    ∃ s', s.unlink bad a (before pre) = .ok s' ∧ s'.read bad a = .ok ⟨b, pointer post⟩ ∧
      ∃ s'', s'.free bad a = .ok s'' ∧ s''.Represents (pre ++ post) := by
  obtain ⟨head, m, hunlink, hread, hwithin, m', hfree, hholds, hwithin'⟩ := h.holds.unlink bad fun _ => rfl
  refine ⟨_, bind_of_ok hunlink _, hread, _, bind_of_ok hfree _, hholds, fun c hc => ?_⟩
  have hmem := only_within h.only (hwithin.trans hwithin') (fun _ hc => hc) c hc
  have hca : c ≠ a := by
    rintro rfl
    exact hc (Memory.heap_freed hfree)
  simp only [List.map_append, List.map_cons, List.mem_append, List.mem_cons] at hmem ⊢
  rcases hmem with hpre | heq | hpost
  · exact Or.inl hpre
  · exact absurd heq hca
  · exact Or.inr hpost

theorem Represents.values (h : s.Represents l) (bad stuck : ε) : s.values bad stuck = .ok (l.map Prod.snd) :=
  h.holds.values bad stuck

/-! ## Between two steps of a walk -/

/-- `l'` has the nodes of `l` in their places, with the same keys, and perhaps others behind them. -/
def Extends {γ : Type} (key : β → γ) (l l' : List (ℕ × β)) : Prop :=
  l.map (Prod.map id key) <+: l'.map (Prod.map id key)

section walks

variable {γ : Type} {key : β → γ} {l' l'' : List (ℕ × β)}

theorem Extends.refl (l : List (ℕ × β)) : Extends key l l := List.prefix_rfl

theorem Extends.trans (h : Extends key l l') (h' : Extends key l' l'') : Extends key l l'' := List.IsPrefix.trans h h'

theorem extends_append (l new : List (ℕ × β)) : Extends key l (l ++ new) := by
  unfold Extends
  rw [List.map_append]
  exact List.prefix_append _ _

theorem extends_setValue {d : β} (hkey : key d = key b) :
    Extends key (pre ++ (a, b) :: post) (pre ++ (a, d) :: post) := by
  have hsame : (pre ++ (a, b) :: post).map (Prod.map id key) = (pre ++ (a, d) :: post).map (Prod.map id key) := by
    simp only [List.map_append, List.map_cons, Prod.map, hkey]
  exact ⟨[], (List.append_nil _).trans hsame⟩

/-- **A node that has been found** is still there, behind nodes with the same keys at the same addresses. -/
theorem Extends.split (h : Extends key (pre ++ (a, b) :: post) l') : ∃ pre' d post', l' = pre' ++ (a, d) :: post' ∧
    key d = key b ∧ before pre' = before pre ∧ pre'.map (fun x => key x.2) = pre.map fun x => key x.2 := by
  obtain ⟨new, hnew⟩ := h
  rw [List.map_append, List.map_cons, List.append_assoc, List.cons_append, eq_comm, List.map_eq_append_iff] at hnew
  obtain ⟨pre', rest, rfl, hpre, hrest⟩ := hnew
  obtain ⟨⟨c, d⟩, post', rfl, hnode, -⟩ := List.map_eq_cons_iff.1 hrest
  obtain ⟨rfl, hkey⟩ := Prod.mk.inj hnode
  refine ⟨pre', d, post', rfl, hkey, ?_, ?_⟩
  · have hfst : pre'.map Prod.fst = pre.map Prod.fst := by
      simpa [Function.comp_def] using congrArg (List.map Prod.fst) hpre
    rw [before, before, ← List.getLast?_map, ← List.getLast?_map, hfst]
  · simpa [Function.comp_def] using congrArg (List.map Prod.snd) hpre

end walks

end ListHeap

end LinkedList
