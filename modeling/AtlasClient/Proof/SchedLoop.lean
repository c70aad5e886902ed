import AtlasClient.Lib.HeapWalk
import AtlasClient.Lib.Simulation
import AtlasClient.Proof.Dispatch
import AtlasClient.Proof.Sweep
import AtlasClient.Spec.SchedLoop

/-!
# The main loop

A round of `atlas_sched_loop` on the nodes is a sweep and a dispatch pass on the list.

* `visits`: a callback that runs while the nodes are walked does to them what it does to the list.
* `rounds_refine`: **the whole loop**, for any number of rounds.
-/

namespace AtlasClient

open FirstMatch Fuel LinkedList Loop NodeWalk Simulation

variable {κ σ : Type} {behave : Behaviour κ σ}

/-! ## The loop on the list -/

/-- The state that a dispatch pass ends in. -/
noncomputable def dispatched (behave : Behaviour κ σ) (s : Pass κ σ) : Pass κ σ :=
  passAt behave s (Nat.find (exists_last behave s))

theorem dispatches_dispatched (behave : Behaviour κ σ) (s : Pass κ σ) : Dispatches behave s (dispatched behave s) :=
  dispatches_last (Nat.find_spec (exists_last behave s))

/-- A round, as `schedSweep` and the pass have it. -/
noncomputable def roundOf (behave : Behaviour κ σ) (s : List (SchedEntry κ) × σ) (result : Option (Finset ℤ)) :
    SchedRound κ × List (SchedEntry κ) × σ :=
  let sweep := schedSweep s.1
  match result with
  | none => (⟨sweep.maxFd + 1, sweep.readfds.toFinset, []⟩, sweep.kept, s.2)
  | some readfds =>
    let pass := dispatched behave (selected s.1 readfds s.2)
    (⟨sweep.maxFd + 1, sweep.readfds.toFinset, pass.invoked.map fun c => (c.callback, c.fd)⟩, pass.schedEntry, pass.app)

namespace SchedHeap

variable {s : SchedHeap κ} {l : List (ℕ × SchedEntry κ)}

/-! ## The callbacks -/

theorem Represents.unique {l' : List (ℕ × SchedEntry κ)} (h : Represents s l) (h' : Represents s l') : l = l' :=
  h.holds.unique h'.holds

/-- **A call of the scheduler** does to the nodes what it does to the list, and every node keeps its place. -/
theorem Represents.perform (h : Represents s l) (c : SchedCall κ) : ∃ s' l', c.perform s = .ok s' ∧ Represents s' l' ∧
    l'.map Prod.snd = c.run (l.map Prod.snd) ∧ l.map Prod.fst <+: l'.map Prod.fst := by
  have hsame : ∀ {s' : SchedHeap κ} {l'}, s' = s → Represents s' l' → l.map Prod.fst <+: l'.map Prod.fst := by
    rintro s' l' rfl hrep
    rw [h.unique hrep]
  cases c with
  | add fd cb =>
    obtain ⟨s', l', hcall, hrep, hl'⟩ := h.add fd cb
    refine ⟨s', l', hcall, hrep, hl', ?_⟩
    cases cb with
    | none => exact hsame (Except.ok.inj hcall).symm hrep
    | some cb =>
      by_cases hfd : fd < 0
      · rw [atlasSchedAddEntry, if_pos hfd] at hcall
        exact hsame (Except.ok.inj hcall).symm hrep
      · obtain ⟨s₁, hadd, hrep₁⟩ := h.add_entry (Int.not_lt.1 hfd) cb
        obtain rfl : s' = s₁ := Except.ok.inj (hcall.symm.trans hadd)
        rw [hrep.unique hrep₁, List.map_append]
        exact List.prefix_append _ _
  | del fd =>
    obtain ⟨s', l', hcall, hrep, hl'⟩ := h.del fd
    refine ⟨s', l', hcall, hrep, hl', ?_⟩
    by_cases hfd : ∃ y ∈ l, decide (y.2.fd = fd) = true
    · obtain ⟨pre, ⟨a, x⟩, post, rfl, hpre, hx⟩ := exists_split hfd
      obtain ⟨s₁, hdel, hrep₁⟩ := h.del_entry (by simpa using hpre) (by simpa using hx)
      obtain rfl : s' = s₁ := Except.ok.inj (hcall.symm.trans hdel)
      rw [hrep.unique hrep₁]
      simp only [List.map_append, List.map_cons]
      exact List.prefix_rfl
    · have hne : ∀ y ∈ l, y.2.fd ≠ fd := by simpa using hfd
      exact hsame (Except.ok.inj (hcall.symm.trans (h.del_absent hne))) hrep

/-- The calls of a callback. -/
theorem Represents.performs (calls : List (SchedCall κ)) : ∀ {s : SchedHeap κ} {l}, Represents s l →
    ∃ s' l', calls.foldlM SchedCall.perform s = .ok s' ∧ Represents s' l' ∧
      l'.map Prod.snd = calls.foldl SchedCall.run (l.map Prod.snd) ∧ l.map Prod.fst <+: l'.map Prod.fst := by
  induction calls with
  | nil => exact fun h => ⟨_, _, rfl, h, rfl, List.prefix_rfl⟩
  | cons c calls ih =>
    intro s l h
    obtain ⟨s₁, l₁, hcall, hrep₁, hl₁, hplaces₁⟩ := h.perform c
    obtain ⟨s', l', hcalls, hrep', hl', hplaces'⟩ := ih hrep₁
    refine ⟨s', l', ?_, hrep', ?_, hplaces₁.trans hplaces'⟩
    · rw [List.foldlM_cons]
      exact (bind_of_ok hcall _).trans hcalls
    · rw [hl', hl₁, List.foldl_cons]

/-! ## The pass -/

/-- The loop over the nodes is at the pass `p`. -/
structure Passes (d : Dispatching κ σ) (p : Pass κ σ) (l : List (ℕ × SchedEntry κ)) : Prop where
  sched : Represents d.sched l
  entries : l.map Prod.snd = p.schedEntry
  readfds : d.readfds = p.readfds
  app : d.app = p.app
  invoked : d.invoked = p.invoked.map fun c => (c.callback, c.fd)

/-- **A round of the loop over the nodes** is a turn of the pass: what the callback adds and deletes leaves the
node where it is, and the next one is read behind it. -/
theorem visits (behave : Behaviour κ σ) :
    Visits Passes Pass.schedEntry (dispatchEntry behave) (dispatchBody behave) where
  values h := h.entries
  done _ := rfl
  round := by
    intro d p l i a x h hi
    have ha : (l.map Prod.fst)[i]? = some a := by rw [List.getElem?_map, hi]; rfl
    obtain ⟨x', hx', hread⟩ := h.sched.holds.place Fault.badAccess ha
    obtain rfl : x = x' := by
      rw [hi] at hx'
      exact (Prod.mk.inj (Option.some.inj hx')).2
    by_cases hcall : x.dirty = false ∧ x.fd ∈ d.readfds
    · obtain ⟨s', l', hcalls, hrep', hl', hplaces⟩ := h.sched.performs (behave x.callback x.fd d.app).2
      have ha' : (l'.map Prod.fst)[i]? = some a := by
        obtain ⟨rest, hrest⟩ := hplaces
        rw [← hrest, List.getElem?_append_left (List.getElem?_eq_some_iff.1 ha).1, ha]
      obtain ⟨y, hy, hread'⟩ := hrep'.holds.place Fault.badAccess ha'
      -- the descriptor of an entry does not change
      have hfd : y.fd = x.fd := by
        obtain ⟨y', hy', hfd, -⟩ := extends_run (behave x.callback x.fd d.app).2 (l.map Prod.snd) i x
          (by rw [List.getElem?_map, hi]; rfl)
        rw [← hl', List.getElem?_map, hy] at hy'
        rw [← hfd, ← Option.some.inj hy']
      have hturn : dispatchEntry behave i x p = ⟨(behave x.callback x.fd p.app).2.foldl SchedCall.run p.schedEntry,
          p.readfds.erase x.fd, (behave x.callback x.fd p.app).1, p.invoked ++ [⟨i, x.callback, x.fd⟩]⟩ := by
        rw [h.readfds] at hcall
        exact if_pos hcall
      rw [hturn]
      refine ⟨⟨s', d.readfds.erase x.fd, (behave x.callback x.fd d.app).1, d.invoked ++ [(x.callback, x.fd)]⟩, l', ?_,
        hrep', ?_, ?_, ?_, ?_⟩
      · simp only [dispatchBody, hread, bind, Except.bind, if_pos hcall]
        rw [hcalls]
        simp only [hread', hfd]
      · rw [hl', h.entries, h.app]
      · rw [h.readfds]
      · rw [h.app]
      · rw [h.invoked, List.map_append]
        rfl
    · refine ⟨d, l, ?_, ?_⟩
      · simp only [dispatchBody, hread, bind, Except.bind, if_neg hcall]
      · have hskip : dispatchEntry behave i x p = p := by
          rw [h.readfds] at hcall
          exact if_neg hcall
        rw [hskip]
        exact h

/-- **The dispatch loop on the nodes ends**, as the pass does. -/
theorem Represents.dispatch (h : Represents s l) (behave : Behaviour κ σ) (readfds : Finset ℤ) (app : σ) :
    ∃ d l', Returns (fun fuel => loop .diverges (dispatchBody behave) fuel (s.schedEntry, ⟨s, readfds, app, []⟩)) d ∧
      Passes d (dispatched behave ⟨l.map Prod.snd, readfds, app, []⟩) l' := by
  have hstart : Passes ⟨s, readfds, app, []⟩ ⟨l.map Prod.snd, readfds, app, []⟩ l := ⟨h, rfl, rfl, rfl, rfl⟩
  have hend := Nat.find_spec (exists_last behave ⟨l.map Prod.snd, readfds, app, []⟩)
  rw [h.holds.chain.pointer_eq]
  exact (visits behave).returns .diverges hstart hend

end SchedHeap

/-! ## The whole loop -/

/-- What the loop has in memory is the list of the round, and the rest of the program is the same. -/
def SchedLoop.Holds (s : SchedLoop κ σ) (t : List (SchedEntry κ) × σ) : Prop :=
  (∃ l, s.sched.Represents l ∧ l.map Prod.snd = t.1) ∧ s.app = t.2

/-- **One round** in memory is a round on the list. -/
theorem SchedLoop.Holds.round {s : SchedLoop κ σ} {t : List (SchedEntry κ) × σ} (h : s.Holds t) (behave : Behaviour κ σ)
    (result : Option (Finset ℤ)) :
    ∃ s', Returns (fun fuel => s.round behave fuel result) ((roundOf behave t result).1, s') ∧
      s'.Holds (roundOf behave t result).2 := by
  obtain ⟨⟨l, hrep, hl⟩, happ⟩ := h
  obtain ⟨c, hclean, hrep', hreadfds, hmax⟩ := hrep.cleanUp s.entPrev
  have hkept : (l.filter fun y => !y.2.dirty).map Prod.snd = (schedSweep t.1).kept := by
    rw [schedSweep_kept, ← hl, List.filter_map]
    rfl
  rw [hl] at hreadfds hmax
  cases result with
  | none =>
    refine ⟨⟨c.sched, c.entPrev, s.app⟩, ⟨0, fun fuel _ => ?_⟩, ⟨_, hrep', hkept⟩, happ⟩
    simp only [SchedLoop.round, hclean, bind, Except.bind, roundOf, hreadfds, hmax]
  | some readfds =>
    obtain ⟨d, l', hloop, hd⟩ := hrep'.dispatch behave readfds s.app
    have hpass : dispatched behave ⟨(l.filter fun y => !y.2.dirty).map Prod.snd, readfds, s.app, []⟩ =
        dispatched behave (selected t.1 readfds t.2) := by rw [hkept, happ]; rfl
    rw [hpass] at hd
    refine ⟨⟨d.sched, c.entPrev, d.app⟩, ?_, ⟨l', hd.sched, hd.entries⟩, hd.app⟩
    have hround : ∀ fuel, s.round behave fuel (some readfds) =
        (loop .diverges (SchedHeap.dispatchBody behave) fuel (c.sched.schedEntry, ⟨c.sched, readfds, s.app, []⟩)).bind
          fun d => .ok (⟨c.maxFd + 1, c.readfds, d.invoked⟩, ⟨d.sched, c.entPrev, d.app⟩) := by
      intro fuel
      simp only [SchedLoop.round, hclean, bind, Except.bind]
    simp only [hround]
    refine hloop.bind ?_
    simp only [roundOf, hd.invoked, hreadfds, hmax]
    exact returns_const _

/-- The rounds on the list: what each has asked and run, and what is left in the end. -/
noncomputable def roundsOf (behave : Behaviour κ σ) (t : List (SchedEntry κ) × σ) :
    List (Option (Finset ℤ)) → List (SchedRound κ) × List (SchedEntry κ) × σ
  | [] => ([], t)
  | result :: results =>
    let r := roundOf behave t result
    let rest := roundsOf behave r.2 results
    (r.1 :: rest.1, rest.2)

theorem SchedLoop.Holds.rounds (behave : Behaviour κ σ) (results : List (Option (Finset ℤ))) :
    ∀ {s : SchedLoop κ σ} {t : List (SchedEntry κ) × σ}, s.Holds t →
      ∃ s', Returns (fun fuel => runs (SchedLoop.round behave fuel) s results) ((roundsOf behave t results).1, s') ∧
        s'.Holds (roundsOf behave t results).2 := by
  induction results with
  | nil => exact fun h => ⟨_, returns_const _, h⟩
  | cons result results ih =>
    intro s t h
    obtain ⟨s₁, hround, h₁⟩ := h.round behave result
    obtain ⟨s', hrest, h'⟩ := ih h₁
    refine ⟨s', hround.bind ?_, h'⟩
    have hmap := hrest.bind (k := fun _ rs => .ok ((roundOf behave t result).1 :: rs.1, rs.2)) (returns_const _)
    exact hmap

end AtlasClient
