import AtlasClient.Lib.LinkedList

/-!
# Lists in a memory

A memory with singly linked lists in it, each with a pointer to its first node, and the operations that a program
has for such lists. An access to an address without a node fails with `bad`, and a walk that does not end with `stuck`.

* `append`: a new node behind the last one.
* `find`: the first node with a property, and the one in front of it, if there is one.
* `modify`, `unlink`, `free`: what is done to a node that has been found.
* `Holds`: the nodes of a list; each operation has one lemma about them.
* `Within`: what an operation leaves as it is, so that the other lists are what they were.
-/

namespace LinkedList

open Loop

variable {β ε : Type}

/-- An address is given to one `malloc` only, and `brk` is the next one; there is no node at an address that has been
released. -/
structure Memory (β : Type) where
  heap : Heap β
  brk : ℕ

namespace Memory

def init : Memory β := ⟨fun _ => none, 0⟩

section operations

variable (bad stuck : ε)

/-- What a pointer points to. -/
def read (a : ℕ) (m : Memory β) : Except ε (Node β) :=
  match m.heap a with
  | none => .error bad
  | some node => .ok node

/-- Write the value of a node. -/
def modify (a : ℕ) (f : β → β) (m : Memory β) : Except ε (Memory β) := do
  let node ← m.read bad a
  .ok { m with heap := Function.update m.heap a (some { node with value := f node.value }) }

/-- `p->next = q` -/
def setNext (a : ℕ) (q : Option ℕ) (m : Memory β) : Except ε (Memory β) := do
  let node ← m.read bad a
  .ok { m with heap := Function.update m.heap a (some { node with next := q }) }

/-- What is not allocated cannot be released. -/
def free (a : ℕ) (m : Memory β) : Except ε (Memory β) := do
  let _ ← m.read bad a
  .ok { m with heap := Function.update m.heap a none }

def malloc (node : Node β) (m : Memory β) : ℕ × Memory β :=
  (m.brk, { m with heap := Function.update m.heap m.brk (some node), brk := m.brk + 1 })

/-- `while (p->next) p = p->next` -/
def lastBody (m : Memory β) (p : ℕ) : Except ε (ℕ ⊕ ℕ) := do
  let node ← m.read bad p
  match node.next with
  | some q => .ok (.inl q)
  | none => .ok (.inr p)

/-- A new node behind the last one of the list from `head` on, and where the list begins then. A list has at most as
many nodes as there are addresses, which bounds the loops. -/
def append (b : β) (head : Option ℕ) (m : Memory β) : Except ε (Option ℕ × Memory β) :=
  let (ent, m) := m.malloc ⟨b, none⟩
  match head with
  | none => .ok (some ent, m)
  | some p => do
    let last ← loop stuck (m.lastBody bad) (m.brk + 1) p
    let m ← m.setNext bad last (some ent)
    .ok (some p, m)

/-- `for (p = head; p; p = p->next) { if (found) break; pp = p; }` -/
def findBody (q : β → Bool) (m : Memory β) :
    Option ℕ × Option ℕ → Except ε ((Option ℕ × Option ℕ) ⊕ Option (ℕ × Option ℕ))
  | (none, _) => .ok (.inr none)
  | (some p, pp) => do
    let node ← m.read bad p
    if q node.value then .ok (.inr (some (p, pp))) else .ok (.inl (node.next, some p))

/-- The pointer `pp` is `none` as long as it is not initialised. -/
def find (q : β → Bool) (head : Option ℕ) (m : Memory β) : Except ε (Option (ℕ × Option ℕ)) :=
  loop stuck (m.findBody bad q) (m.brk + 1) (head, none)

/-- The node `p` leaves the list, which begins elsewhere if it was the first one:
`if (p == head) head = head->next; else pp->next = p->next;` -/
def unlink (p : ℕ) (pp head : Option ℕ) (m : Memory β) : Except ε (Option ℕ × Memory β) := do
  let node ← m.read bad p
  if head = some p then .ok (node.next, m)
  else
    match pp with
    | some pp => do
      let m ← m.setNext bad pp node.next
      .ok (head, m)
    | none => .error bad

/-- The values in the list. -/
def valuesBody (m : Memory β) : Option ℕ × List β → Except ε ((Option ℕ × List β) ⊕ List β)
  | (none, l) => .ok (.inr l)
  | (some p, l) => do
    let node ← m.read bad p
    .ok (.inl (node.next, l ++ [node.value]))

def values (head : Option ℕ) (m : Memory β) : Except ε (List β) :=
  loop stuck (m.valuesBody bad) (m.brk + 1) (head, [])

end operations

/-! ## The lists -/

variable {bad stuck : ε} {m m' : Memory β} {l l' pre post : List (ℕ × β)} {a : ℕ} {b : β} {q : β → Bool}
  {node : Node β} {p head : Option ℕ}

/-- The nodes from a pointer on. -/
structure Holds (m : Memory β) (p : Option ℕ) (l : List (ℕ × β)) : Prop where
  chain : Chain m.heap p l
  lt : ∀ x ∈ l, x.1 < m.brk

theorem holds_nil (m : Memory β) : m.Holds none [] := ⟨.nil, fun _ hx => absurd hx List.not_mem_nil⟩

theorem Holds.length_le (h : m.Holds p l) : l.length ≤ m.brk := h.chain.length_le h.lt

theorem Holds.fresh (h : m.Holds p l) : ∀ x ∈ l, x.1 ≠ m.brk := fun x hx => Nat.ne_of_lt (h.lt x hx)

theorem Holds.unique (h : m.Holds p l) (h' : m.Holds p l') : l = l' := h.chain.unique h'.chain

theorem read_ok (h : m.heap a = some node) : m.read bad a = .ok node := by
  simp only [read, h]

theorem Holds.read (h : m.Holds p (pre ++ (a, b) :: post)) (bad : ε) : m.read bad a = .ok ⟨b, pointer post⟩ :=
  read_ok h.chain.node

/-- A node at its place. -/
theorem Holds.place (h : m.Holds p l) (bad : ε) {i : ℕ} (ha : (l.map Prod.fst)[i]? = some a) :
    ∃ b, l[i]? = some (a, b) ∧ m.read bad a = .ok ⟨b, pointer (l.drop (i + 1))⟩ := by
  rw [List.getElem?_map, Option.map_eq_some_iff] at ha
  obtain ⟨⟨c, b⟩, hi, rfl⟩ := ha
  obtain ⟨hlt, hget⟩ := List.getElem?_eq_some_iff.1 hi
  have hsplit : l = l.take i ++ (c, b) :: l.drop (i + 1) := by
    rw [← hget, List.getElem_cons_drop, List.take_append_drop]
  rw [hsplit] at h
  exact ⟨b, hi, h.read bad⟩

/-- **The frame of an operation** on the list `l`: what is at other addresses stays there, and an address is not given
a second time. -/
structure Within (l : List (ℕ × β)) (m m' : Memory β) : Prop where
  heap : ∀ c, c ∉ l.map Prod.fst → m'.heap c = m.heap c
  brk : m.brk ≤ m'.brk

theorem Within.trans {m'' : Memory β} (h : Within l m m') (h' : Within l m' m'') : Within l m m'' :=
  ⟨fun c hc => (h'.heap c hc).trans (h.heap c hc), Nat.le_trans h.brk h'.brk⟩

/-- Writing to an address of the list. -/
theorem within_update (node : Option (Node β)) (ha : a ∈ l.map Prod.fst) :
    Within l m { m with heap := Function.update m.heap a node } := by
  refine ⟨fun c hc => Function.update_of_ne (fun hca => hc ?_) _ _, Nat.le_refl _⟩
  rw [hca]
  exact ha

/-- **A list apart** from the one that an operation is about stays as it is. -/
theorem Holds.within (h : m.Holds p l) (hwithin : Within l' m m') (hapart : ∀ x ∈ l, ∀ y ∈ l', x.1 ≠ y.1) :
    m'.Holds p l := by
  refine ⟨h.chain.frame fun x hx => hwithin.heap x.1 fun hmem => ?_,
    fun x hx => Nat.lt_of_lt_of_le (h.lt x hx) hwithin.brk⟩
  obtain ⟨y, hy, heq⟩ := List.mem_map.1 hmem
  exact hapart x hx y hy heq.symm

/-! ## What the operations do -/

/-- **Writing a value.** -/
theorem Holds.modify (h : m.Holds p (pre ++ (a, b) :: post)) (bad : ε) (f : β → β) :
    ∃ m', m.modify bad a f = .ok m' ∧ m'.Holds p (pre ++ (a, f b) :: post) ∧
      Within (pre ++ (a, b) :: post) m m' := by
  have hfst : (pre ++ (a, f b) :: post).map Prod.fst = (pre ++ (a, b) :: post).map Prod.fst := by
    rw [List.map_append, List.map_append, List.map_cons, List.map_cons]
  refine ⟨_, bind_of_ok (h.read bad) _, ⟨h.chain.setValue (f b), fun y hy => ?_⟩, within_update _ (by simp)⟩
  have hmem : y.1 ∈ (pre ++ (a, b) :: post).map Prod.fst := hfst ▸ List.mem_map_of_mem hy
  obtain ⟨x, hx, heq⟩ := List.mem_map.1 hmem
  rw [← heq]
  exact h.lt x hx

/-- The walk to the last node. -/
theorem lastBody_found (h : Chain m.heap p (l ++ [(a, b)])) {n c : ℕ} (hn : l.length ≤ n) (hp : p = some c) :
    loop stuck (m.lastBody bad) (n + 1) c = .ok a := by
  refine last_found (fun a b q hnode => ?_) (fun a b hnode => ?_) h hn hp
  · simp only [lastBody, read_ok hnode, bind, Except.bind]
  · simp only [lastBody, read_ok hnode, bind, Except.bind]

theorem append_nil (bad stuck : ε) (b : β) (m : Memory β) :
    m.append bad stuck b none = .ok (some m.brk, (m.malloc ⟨b, none⟩).2) := rfl

theorem append_some (bad stuck : ε) (b : β) (c : ℕ) (m : Memory β) : m.append bad stuck b (some c) =
    (loop stuck ((m.malloc ⟨b, none⟩).2.lastBody bad) (m.brk + 1 + 1) c).bind fun last =>
      ((m.malloc ⟨b, none⟩).2.setNext bad last (some m.brk)).bind fun m => .ok (some c, m) := rfl

/-- **Appending a node.** -/
theorem Holds.append (h : m.Holds head l) (bad stuck : ε) (b : β) :
    ∃ head' m', m.append bad stuck b head = .ok (head', m') ∧ m'.Holds head' (l ++ [(m.brk, b)]) ∧
      Within (l ++ [(m.brk, b)]) m m' := by
  have hlt : ∀ x ∈ l ++ [(m.brk, b)], x.1 < m.brk + 1 := by
    intro x hx
    rcases List.mem_append.1 hx with hx | hx
    · exact Nat.lt_succ_of_lt (h.lt x hx)
    · rw [List.mem_singleton.1 hx]
      exact Nat.lt_succ_self _
  have halloc : Within (l ++ [(m.brk, b)]) m (m.malloc ⟨b, none⟩).2 :=
    ⟨(within_update (m := m) (some ⟨b, none⟩) (by simp)).heap, Nat.le_succ _⟩
  have hchain := h.chain
  rcases l.eq_nil_or_concat' with rfl | ⟨l', ⟨c, d⟩, rfl⟩
  · obtain rfl : head = none := hchain.pointer_eq
    exact ⟨_, _, append_nil bad stuck b m, ⟨.cons (Function.update_self ..) .nil, hlt⟩, halloc⟩
  · obtain ⟨p, rfl⟩ := hchain.head
    have hnew : Chain (m.malloc ⟨b, none⟩).2.heap (some p) (l' ++ [(c, d)]) := hchain.update h.fresh _
    have hlen : l'.length ≤ m.brk + 1 := by
      have hle := h.length_le
      rw [List.length_append, List.length_singleton] at hle
      omega
    have hnext : (m.malloc ⟨b, none⟩).2.setNext bad c (some m.brk) = .ok { (m.malloc ⟨b, none⟩).2 with
        heap := Function.update (m.malloc ⟨b, none⟩).2.heap c (some ⟨d, some m.brk⟩) } :=
      bind_of_ok (read_ok hnew.last) _
    refine ⟨some p, _, ?_, ⟨hchain.concat h.fresh, hlt⟩, halloc.trans (within_update _ (by simp))⟩
    rw [append_some, bind_of_ok (lastBody_found hnew hlen rfl), bind_of_ok hnext]

theorem free_ok (h : m.heap a = some node) :
    m.free bad a = .ok { m with heap := Function.update m.heap a none } := bind_of_ok (read_ok h) _

theorem heap_freed (h : m.free bad a = .ok m') : m'.heap a = none := by
  cases hnode : m.heap a with
  | none => simp [free, read, hnode, bind, Except.bind] at h
  | some node =>
    rw [free_ok hnode] at h
    cases h
    exact Function.update_self ..

/-- What has been released cannot be read. -/
theorem read_freed (h : m.free bad a = .ok m') : m'.read bad a = .error bad := by
  simp only [read, heap_freed h]

/-- A node is unlinked, or something that is not there has been touched. -/
theorem unlink_cases (bad : ε) (a : ℕ) (pp head : Option ℕ) (m : Memory β) :
    m.unlink bad a pp head = .error bad ∨ ∃ head' m', m.unlink bad a pp head = .ok (head', m') := by
  cases hnode : m.heap a with
  | none => exact Or.inl (by simp only [unlink, read, hnode, bind, Except.bind])
  | some node =>
    simp only [unlink, read_ok hnode, bind, Except.bind]
    split
    · exact Or.inr ⟨_, _, rfl⟩
    · cases pp with
      | none => exact Or.inl rfl
      | some c =>
        cases hprev : m.heap c with
        | none => exact Or.inl (by simp only [setNext, read, hprev, bind, Except.bind])
        | some prev =>
          simp only [setNext, read_ok hprev, bind, Except.bind]
          exact Or.inr ⟨_, _, rfl⟩

theorem free_cases (bad : ε) (a : ℕ) (m : Memory β) : m.free bad a = .error bad ∨ ∃ m', m.free bad a = .ok m' := by
  cases hnode : m.heap a with
  | none => exact Or.inl (by simp only [free, read, hnode, bind, Except.bind])
  | some node => exact Or.inr ⟨_, free_ok hnode⟩

/-- The address of the last node. -/
def before (pre : List (ℕ × β)) : Option ℕ := pre.getLast?.map Prod.fst

theorem findBody_next {pp : Option ℕ} (hnode : m.heap a = some ⟨b, p⟩) (hq : q b = false) :
    m.findBody bad q (some a, pp) = .ok (.inl (p, some a)) := by
  simp only [findBody, read_ok hnode, bind, Except.bind, hq, Bool.false_eq_true, if_false]

/-- A walk that passes by the nodes in front. -/
theorem find_walk : ∀ {pre : List (ℕ × β)} {p pp : Option ℕ} {n : ℕ}, Chain m.heap p (pre ++ post) →
    (∀ x ∈ pre, q x.2 = false) → pre.length ≤ n →
      loop stuck (m.findBody bad q) (n + 1) (p, pp) =
        loop stuck (m.findBody bad q) (n - pre.length + 1) (pointer post, (before pre).or pp) := by
  intro pre
  induction pre with
  | nil =>
    intro p pp n h _ _
    rw [h.pointer_eq]
    rfl
  | cons x pre ih =>
    intro p pp n h hpre hn
    obtain ⟨n, rfl⟩ : ∃ k, n = k + 1 := ⟨n - 1, by simp at hn; omega⟩
    cases h with
    | @cons a b p _ hnode hrest =>
      have hprev : (before ((a, b) :: pre)).or pp = (before pre).or (some a) := by
        unfold before
        rw [List.getLast?_cons]
        cases pre.getLast? <;> rfl
      rw [loop_next (findBody_next hnode (hpre (a, b) List.mem_cons_self)), hprev,
        ih hrest (fun y hy => hpre y (List.mem_cons_of_mem _ hy)) (Nat.le_of_succ_le_succ hn), List.length_cons,
        Nat.add_sub_add_right]

/-- **No node has the property.** -/
theorem Holds.find_none (h : m.Holds p l) (bad stuck : ε) (hl : ∀ x ∈ l, q x.2 = false) :
    m.find bad stuck q p = .ok none := by
  have hchain := h.chain
  rw [← List.append_nil l] at hchain
  rw [find, find_walk hchain hl h.length_le]
  exact loop_done rfl

/-- **The first node with the property**, and the one in front of it. -/
theorem Holds.find_some (h : m.Holds p (pre ++ (a, b) :: post)) (bad stuck : ε) (hpre : ∀ x ∈ pre, q x.2 = false)
    (hb : q b = true) : m.find bad stuck q p = .ok (some (a, before pre)) := by
  have hlen : pre.length ≤ m.brk := Nat.le_trans (by simp) h.length_le
  have hdone : m.findBody bad q (some a, before pre) = .ok (.inr (some (a, before pre))) := by
    simp only [findBody, read_ok h.chain.node, bind, Except.bind, hb, if_true]
  rw [find, find_walk h.chain hpre hlen, Option.or_none]
  exact loop_done hdone

theorem holds_freed {head : Option ℕ} (hchain : Chain (Function.update m.heap a none) head (pre ++ post))
    (hlt : ∀ x ∈ pre ++ (a, b) :: post, x.1 < m.brk) :
    ({ m with heap := Function.update m.heap a none } : Memory β).Holds head (pre ++ post) :=
  ⟨hchain, fun x hx => hlt x (List.Sublist.subset (by simp) hx)⟩

/-- **A node leaves the list**, and stays allocated. What `pp` is does not matter for the first node. -/
theorem Holds.unlink (h : m.Holds head (pre ++ (a, b) :: post)) (bad : ε) {pp : Option ℕ}
    (hpp : pre ≠ [] → pp = before pre) :
    ∃ head' m', m.unlink bad a pp head = .ok (head', m') ∧ m'.read bad a = .ok ⟨b, pointer post⟩ ∧
      Within (pre ++ (a, b) :: post) m m' ∧
      ∃ m'', m'.free bad a = .ok m'' ∧ m''.Holds head' (pre ++ post) ∧ Within (pre ++ (a, b) :: post) m' m'' := by
  have hread : m.read bad a = .ok ⟨b, pointer post⟩ := h.read bad
  rcases pre.eq_nil_or_concat' with rfl | ⟨pre, ⟨c, d⟩, rfl⟩
  · obtain rfl : head = some a := h.chain.pointer_eq
    refine ⟨pointer post, m, ?_, hread, ⟨fun _ _ => rfl, Nat.le_refl _⟩, _, bind_of_ok hread _, ?_,
      within_update _ (by simp)⟩
    · exact (bind_of_ok hread _).trans (if_pos rfl)
    · exact holds_freed (h.chain.behind.update h.chain.ne.2 none) h.lt
  · have hsplit : pre ++ [(c, d)] ++ (a, b) :: post = pre ++ (c, d) :: (a, b) :: post := by simp
    have hrep := hsplit ▸ h
    have hac : a ≠ c := hrep.chain.ne.2 (a, b) List.mem_cons_self
    have hhead : head ≠ some a := by
      -- the list begins with one of the nodes in front
      rw [hrep.chain.pointer_eq]
      intro heq
      cases pre with
      | nil => exact hac (Option.some.inj heq).symm
      | cons x pre => exact h.chain.ne.1 x (by simp) (Option.some.inj heq)
    have hprev : pp = some c := by rw [hpp (by simp)]; simp [before]
    have hnext : m.setNext bad c (pointer post) = .ok { m with
        heap := Function.update m.heap c (some ⟨d, pointer post⟩) } := bind_of_ok (hrep.read bad) _
    have hnode : Function.update m.heap c (some ⟨d, pointer post⟩) a = some ⟨b, pointer post⟩ := by
      rw [Function.update_of_ne hac, h.chain.node]
    refine ⟨head, _, ?_, read_ok hnode, within_update _ (by simp), _, free_ok hnode, ?_, within_update _ (by simp)⟩
    · refine (bind_of_ok hread _).trans ?_
      simp only [if_neg hhead, hprev]
      exact bind_of_ok hnext _
    · refine holds_freed (b := b) ?_ h.lt
      have hunlinked := hrep.chain.unlink
      simpa only [List.append_assoc, List.singleton_append] using hunlinked

/-! ## All values -/

theorem Holds.values (h : m.Holds p l) (bad stuck : ε) : m.values bad stuck p = .ok (l.map Prod.snd) := by
  have hwalk : ∀ {l : List (ℕ × β)} {p : Option ℕ} {n : ℕ} (vs : List β), Chain m.heap p l → l.length ≤ n →
      loop stuck (m.valuesBody bad) (n + 1) (p, vs) = .ok (vs ++ l.map Prod.snd) := by
    intro l
    induction l with
    | nil =>
      intro p n vs h _
      cases h
      rw [List.map_nil, List.append_nil]
      exact loop_done rfl
    | cons x l ih =>
      intro p n vs h hn
      obtain ⟨n, rfl⟩ : ∃ k, n = k + 1 := ⟨n - 1, by simp at hn; omega⟩
      cases h with
      | @cons a b q _ hnode hrest =>
        have hround : m.valuesBody bad (some a, vs) = .ok (.inl (q, vs ++ [b])) := by
          simp only [valuesBody, read_ok hnode, bind, Except.bind]
        rw [loop_next hround, ih _ hrest (Nat.le_of_succ_le_succ hn), List.append_assoc]
        rfl
  exact hwalk [] h.chain h.length_le

end Memory

end LinkedList
