import AtlasClient.Spec.Dispatch
import AtlasClient.Spec.SchedHeap

/-!
# The scheduler's main loop in memory

`atlas_sched_loop` on the nodes of the list, with the variables that it keeps from one round to the next. A round
is given what `select` answers.

* `dispatchBody`: one round of the loop that runs the callbacks, which change the nodes.
* `round`: one round of `while (1)`.
-/

namespace AtlasClient

open LinkedList Loop

variable {κ σ : Type}

/-- A callback's call of the scheduler. -/
def SchedCall.perform (s : SchedHeap κ) : SchedCall κ → Except Fault (SchedHeap κ)
  | .add fd cb => s.atlasSchedAddEntry fd cb
  | .del fd => s.atlasSchedDelEntry fd

namespace SchedHeap

/-- The loop over the entries when `select` has returned. `invoked` is the history: each callback that has been run,
with the descriptor that it was given. -/
structure Dispatching (κ σ : Type) where
  sched : SchedHeap κ
  readfds : Finset ℤ
  app : σ
  invoked : List (κ × ℤ)

/-- `ent->fd` and `ent->next` are read when the callback has returned. -/
def dispatchBody (behave : Behaviour κ σ) :
    Option ℕ × Dispatching κ σ → Except Fault ((Option ℕ × Dispatching κ σ) ⊕ Dispatching κ σ)
  | (none, d) => .ok (.inr d)
  | (some ent, d) => do
    let node ← d.sched.read .badAccess ent
    if node.value.dirty = false ∧ node.value.fd ∈ d.readfds then do
      let (app, calls) := behave node.value.callback node.value.fd d.app
      let sched ← calls.foldlM SchedCall.perform d.sched
      let after ← sched.read .badAccess ent
      .ok (.inl (after.next, ⟨sched, d.readfds.erase after.value.fd, app,
        d.invoked ++ [(node.value.callback, node.value.fd)]⟩))
    else .ok (.inl (node.next, d))

end SchedHeap

/-- What is left from one round to the next: the list, `ent_prev`, and the rest of the program. -/
structure SchedLoop (κ σ : Type) where
  sched : SchedHeap κ
  entPrev : Option ℕ
  app : σ

/-- What a round has asked of `select`, and the callbacks that it has run. -/
structure SchedRound (κ : Type) where
  nfds : ℤ
  readfds : Finset ℤ
  invoked : List (κ × ℤ)

/-- A round of `atlas_sched_loop`. `result` are the descriptors that `select` reports, `none` when what it returns is
not positive. The callbacks add entries behind those that are walked, so that the walk is a function of its fuel. -/
def SchedLoop.round (behave : Behaviour κ σ) (fuel : ℕ) (s : SchedLoop κ σ) (result : Option (Finset ℤ)) :
    Except Fault (SchedRound κ × SchedLoop κ σ) := do
  let c ← s.sched.cleanUp s.entPrev
  match result with
  | none => .ok (⟨c.maxFd + 1, c.readfds, []⟩, ⟨c.sched, c.entPrev, s.app⟩)
  | some readfds => do
    let d ← loop .diverges (SchedHeap.dispatchBody behave) fuel (c.sched.schedEntry, ⟨c.sched, readfds, s.app, []⟩)
    .ok (⟨c.maxFd + 1, c.readfds, d.invoked⟩, ⟨d.sched, c.entPrev, d.app⟩)

end AtlasClient
