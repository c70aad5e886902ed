import AtlasClient.Spec.CoapServer

/-!
# Deleting a CoAP resource

The lists of listeners, and what a walk that releases a listener does to them.

* `Represents.add`: a resource that is added stands behind the others of its method.
* `delBody_other`, `delBody_match`: the walk goes on behind a listener of another path, and reads a listener
  of the path after it has been released.
* `Reachable.represents`: the lists are well formed in every state reached.
* `deletesExactly_iff`: **deleting a resource removes exactly its listeners** when there are none.
-/

namespace AtlasClient

open LinkedList Loop

namespace CoapServer

variable {Cb : Type} {s s' : CoapServer Cb} {lists : AtlasCoapMethod → List (ℕ × CoapServerListener Cb)}
  {method m : AtlasCoapMethod} {path : Bytes} {a : ℕ} {p pp : Option ℕ}
  {x y : CoapServerListener Cb}
  {l pre post : List (ℕ × CoapServerListener Cb)} {node : Node (CoapServerListener Cb)}

/-! ## The lists -/

/-- The nodes of the methods' lists. -/
structure Represents (s : CoapServer Cb) (lists : AtlasCoapMethod → List (ℕ × CoapServerListener Cb)) : Prop where
  holds : ∀ m, s.Holds (s.serverListeners m) (lists m)
  apart : ∀ m m', m ≠ m' → ∀ x ∈ lists m, ∀ y ∈ lists m', x.1 ≠ y.1

theorem init_represents : Represents (init : CoapServer Cb) fun _ => [] :=
  ⟨fun _ => Memory.holds_nil _, fun _ _ _ _ hx => absurd hx List.not_mem_nil⟩

/-! ## Adding a resource -/

/-- The lists with a new node. -/
def added (s : CoapServer Cb) (lists : AtlasCoapMethod → List (ℕ × CoapServerListener Cb)) (method : AtlasCoapMethod)
    (x : CoapServerListener Cb) : AtlasCoapMethod → List (ℕ × CoapServerListener Cb) :=
  Function.update lists method (lists method ++ [(s.brk, x)])

theorem mem_added {y : ℕ × CoapServerListener Cb} :
    y ∈ added s lists method x m ↔ y ∈ lists m ∨ m = method ∧ y = (s.brk, x) := by
  unfold added
  by_cases h : m = method
  · subst h
    simp
  · simp [h]

theorem added_self : added s lists method x method = lists method ++ [(s.brk, x)] := Function.update_self ..

theorem added_other (h : m ≠ method) : added s lists method x m = lists m := Function.update_of_ne h _ _

/-- A new node is apart from all lists. -/
theorem Represents.added_apart (h : Represents s lists) :
    ∀ m m', m ≠ m' → ∀ y ∈ added s lists method x m, ∀ z ∈ added s lists method x m', y.1 ≠ z.1 := by
  rintro m m' hne y hy z hz
  rcases mem_added.1 hy with hold | ⟨heq, rfl⟩
  · rcases mem_added.1 hz with hold' | ⟨-, rfl⟩
    · exact h.apart m m' hne y hold z hold'
    · exact (h.holds m).fresh y hold
  · rcases mem_added.1 hz with hold' | ⟨heq', -⟩
    · exact ((h.holds m').fresh z hold').symm
    · exact absurd (heq.trans heq'.symm) hne

/-- **A resource that is added** stands behind the others of its method. -/
theorem Represents.add (h : Represents s lists) (path : Bytes) (method : AtlasCoapMethod) (cb : Cb) (resource : ℕ) :
    ∃ s', s.atlasCoapServerAddResource (some path) method (some cb) (some resource) = .ok (.ok, s') ∧
      Represents s' (added s lists method ⟨resource, cb, path⟩) ∧
      s'.calls = s.calls ++ [.registerHandler resource method] ++ [.addResource resource] := by
  obtain ⟨head, memory, hcall, hholds, hwithin⟩ := (h.holds method).append Fault.badAccess Fault.diverges
    (⟨resource, cb, path⟩ : CoapServerListener Cb)
  refine ⟨_, bind_of_ok hcall _, ⟨fun m => ?_, h.added_apart⟩, rfl⟩
  by_cases hm : m = method
  · subst hm
    rw [added_self]
    simp only [setHead, Function.update_self]
    exact hholds
  · rw [added_other hm]
    simp only [setHead, Function.update_of_ne hm]
    -- the new listener and those in front of it are in no other list
    refine (h.holds m).within hwithin fun y hy z hz => ?_
    exact h.added_apart (x := ⟨resource, cb, path⟩) m method hm y (mem_added.2 (Or.inl hy)) z (added_self ▸ hz)

/-! ## Deleting a resource -/

/-- **A listener of another path** is passed by. -/
theorem delBody_other (hnode : s.heap a = some ⟨x, p⟩) (h : x.uriPath ≠ path) (pp : Option ℕ) :
    delBody path method (some a, pp, s) = .ok (.inl (p, some a, s)) := by
  simp only [delBody, Memory.read_ok hnode, bind, Except.bind, if_neg h]

/-- A removal touches what is not there, or ends with the release of the listener. -/
theorem remove_cases (method : AtlasCoapMethod) (a : ℕ) (pp : Option ℕ) (node : Node (CoapServerListener Cb))
    (s : CoapServer Cb) : s.remove method a pp node = .error .badAccess ∨
      ∃ s', s.remove method a pp node = .ok s' ∧ s'.read .badAccess a = .error Fault.badAccess := by
  rcases Memory.unlink_cases Fault.badAccess a pp (s.serverListeners method) s.toMemory with herr | ⟨head, m₁, hok⟩
  · exact Or.inl (bind_of_error herr _)
  · rcases Memory.free_cases Fault.badAccess a m₁ with herr | ⟨m₂, hfree⟩
    · exact Or.inl ((bind_of_ok hok _).trans (bind_of_error herr _))
    · exact Or.inr ⟨_, (bind_of_ok hok _).trans (bind_of_ok hfree _), Memory.read_freed hfree⟩

/-- **A listener of the path** is read after it has been released. -/
theorem delBody_match (hnode : s.heap a = some ⟨x, p⟩) (h : x.uriPath = path) (pp : Option ℕ) :
    delBody path method (some a, pp, s) = .error .badAccess := by
  simp only [delBody, bind]
  rw [bind_of_ok (Memory.read_ok hnode), if_pos h]
  rcases remove_cases method a pp ⟨x, p⟩ s with herr | ⟨s', hok, hgone⟩
  · exact bind_of_error herr _
  · rw [bind_of_ok hok, bind_of_error hgone]

/-- **The walk** changes nothing, or comes to a listener of the path. -/
theorem del_spec (path : Bytes) (method : AtlasCoapMethod) (h : Chain s.heap p l) : ∀ {n}, l.length ≤ n → ∀ pp,
    loop .diverges (delBody path method) (n + 1) (p, pp, s) =
      if ∃ y ∈ l, y.2.uriPath = path then .error .badAccess else .ok s := by
  induction h with
  | nil =>
    intro n _ pp
    rw [if_neg (by simp)]
    exact loop_done rfl
  | @cons a x p l hnode _ ih =>
    intro n hn pp
    by_cases hpath : x.uriPath = path
    · rw [if_pos ⟨(a, x), List.mem_cons_self, hpath⟩]
      exact loop_fail (delBody_match hnode hpath pp)
    · obtain ⟨n, rfl⟩ : ∃ n', n = n' + 1 := ⟨n - 1, by simp at hn; omega⟩
      have hiff : (∃ y ∈ (a, x) :: l, y.2.uriPath = path) ↔ ∃ y ∈ l, y.2.uriPath = path := by
        rw [List.exists_mem_cons_iff, or_iff_right hpath]
      rw [loop_next (delBody_other hnode hpath pp), ih (Nat.le_of_succ_le_succ hn), if_congr hiff rfl rfl]

/-- The states after calls that have returned. -/
inductive Reachable : CoapServer Cb → Prop
  | init : Reachable .init
  | add {s s' : CoapServer Cb} {status : AtlasStatus} (uriPath : Option Bytes) (method : AtlasCoapMethod)
    (cb : Option Cb) (resource : Option ℕ) : Reachable s →
      s.atlasCoapServerAddResource uriPath method cb resource = .ok (status, s') → Reachable s'
  | del {s s' : CoapServer Cb} (uriPath : Bytes) (method : AtlasCoapMethod) : Reachable s →
      s.atlasCoapServerDelResource uriPath method = .ok s' → Reachable s'

/-- **In every state reached** the listeners of the methods are lists apart from each other. -/
theorem Reachable.represents (h : Reachable s) : ∃ lists, Represents s lists := by
  induction h with
  | init => exact ⟨_, init_represents⟩
  | @add s s' status uriPath method cb resource _ hadd ih =>
    obtain ⟨lists, hrep⟩ := ih
    rcases uriPath with _ | path
    · cases hadd
      exact ⟨lists, hrep⟩
    rcases cb with _ | cb
    · cases hadd
      exact ⟨lists, hrep⟩
    rcases resource with _ | resource
    · cases hadd
      exact ⟨lists, hrep⟩
    obtain ⟨s₁, hadd', hrep', -⟩ := hrep.add path method cb resource
    rw [hadd'] at hadd
    cases hadd
    exact ⟨_, hrep'⟩
  | @del s s' uriPath method _ hdel ih =>
    obtain ⟨lists, hrep⟩ := ih
    have hspec : s.atlasCoapServerDelResource uriPath method = _ :=
      del_spec uriPath method (hrep.holds method).chain (hrep.holds method).length_le none
    rw [hspec] at hdel
    split at hdel
    · cases hdel
    · cases hdel
      exact ⟨lists, hrep⟩

/-- The property for a path and a method: the walk ends without touching what has been released; the listeners of the
path are gone from the list of the method, the rest stands in the same order, the other lists are what
they were, and the resource of each listener that is gone has been deleted once. -/
def DeletesExactly (path : Bytes) (method : AtlasCoapMethod)
    (lists : AtlasCoapMethod → List (ℕ × CoapServerListener Cb)) (s : CoapServer Cb) : Prop :=
  ∃ s', s.atlasCoapServerDelResource path method = .ok s' ∧
    Represents s' (Function.update lists method ((lists method).filter fun y => y.2.uriPath ≠ path)) ∧
    s'.calls = s.calls ++ ((lists method).filter fun y => y.2.uriPath = path).map fun y => .deleteResource y.2.resource

/-- **Deleting a resource removes exactly its listeners, and exactly when.** For all lists of listeners, every
method and every path: the property holds if and only if no listener of the method has the path. The
walk reads the first one that has it after it has been released. -/
theorem deletesExactly_iff (path : Bytes) (method : AtlasCoapMethod)
    (lists : AtlasCoapMethod → List (ℕ × CoapServerListener Cb)) (s : CoapServer Cb) (h : Represents s lists) :
    DeletesExactly path method lists s ↔ ∀ y ∈ lists method, y.2.uriPath ≠ path := by
  have hspec : s.atlasCoapServerDelResource path method = _ :=
    del_spec path method (h.holds method).chain (h.holds method).length_le none
  constructor
  · rintro ⟨s', hcall, -, -⟩ y hy hpath
    rw [hspec, if_pos ⟨y, hy, hpath⟩] at hcall
    cases hcall
  · intro hnone
    rw [if_neg fun ⟨y, hy, hpath⟩ => hnone y hy hpath] at hspec
    refine ⟨s, hspec, ?_, ?_⟩
    · rw [List.filter_eq_self.2 (by simpa using hnone), Function.update_eq_self]
      exact h
    · rw [List.filter_eq_nil_iff.2 (by simpa using hnone), List.map_nil, List.append_nil]

/-- One listener of the path `r`. -/
def single : AtlasCoapMethod → List (ℕ × CoapServerListener Unit) := added init (fun _ => []) .get ⟨7, (), [114]⟩

/-- Another path than that of the listener. -/
theorem deletesExactly_single : ∃ s, Represents s single ∧
    (DeletesExactly [115] .get single s ↔ ∀ y ∈ single .get, y.2.uriPath ≠ [115]) := by
  obtain ⟨s, -, hrep, -⟩ := init_represents.add [114] .get () 7
  exact ⟨s, hrep, deletesExactly_iff [115] .get single s hrep⟩

/-- **A resource that has been added** cannot be deleted. -/
theorem delete_added : ∃ s, init.atlasCoapServerAddResource (some [114]) .get (some ()) (some 7) = .ok (.ok, s) ∧
    Represents s single ∧ s.atlasCoapServerDelResource [114] .get = .error .badAccess ∧
      ¬ DeletesExactly [114] .get single s := by
  obtain ⟨s, hadd, hrep, -⟩ := init_represents.add [114] .get () 7
  have hdel : s.atlasCoapServerDelResource [114] .get = _ :=
    del_spec [114] .get (hrep.holds .get).chain (hrep.holds .get).length_le none
  rw [if_pos ⟨(0, ⟨7, (), [114]⟩), List.mem_cons_self, rfl⟩] at hdel
  refine ⟨s, hadd, hrep, hdel, ?_⟩
  rintro ⟨s', hcall, -, -⟩
  rw [hdel] at hcall
  cases hcall

end CoapServer

end AtlasClient
