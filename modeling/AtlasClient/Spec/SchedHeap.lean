import AtlasClient.Lib.Memory
import AtlasClient.Spec.Bytes
import AtlasClient.Spec.Scheduler
import Mathlib.Data.Finset.Insert

/-!
# The scheduler's list in memory

`scheduler/atlas_scheduler.c` with the nodes of the list and their addresses; `Spec.Scheduler` is the list
without them.

* `atlasSchedAddEntry`, `atlasSchedDelEntry`: the walks to the last entry and to the entry of a descriptor.
* `cleanUp`: the loop at the start of a round of `atlas_sched_loop`, which unlinks and releases the dirty entries.
-/

namespace AtlasClient

open LinkedList Loop

variable {κ : Type}

/-- The memory of the scheduler, and the pointer to its first entry. -/
structure SchedHeap (κ : Type) extends Memory (SchedEntry κ) where
  schedEntry : Option ℕ

namespace SchedHeap

def init : SchedHeap κ := ⟨.init, none⟩

/-! ## Adding and deleting -/

def atlasSchedAddEntry (fd : ℤ) (cb : Option κ) (s : SchedHeap κ) : Except Fault (SchedHeap κ) :=
  match cb with
  | none => .ok s
  | some cb =>
    if fd < 0 then .ok s
    else do
      let (schedEntry, memory) ← s.append .badAccess .diverges ⟨fd, cb, false⟩ s.schedEntry
      .ok ⟨memory, schedEntry⟩

/-- `p->dirty = 1` for the first entry of the descriptor. -/
def atlasSchedDelEntry (fd : ℤ) (s : SchedHeap κ) : Except Fault (SchedHeap κ) := do
  match ← s.find .badAccess .diverges (fun ent => ent.fd = fd) s.schedEntry with
  | none => .ok s
  | some (p, _) => do
    let memory ← s.modify .badAccess p fun ent => { ent with dirty := true }
    .ok ⟨memory, s.schedEntry⟩

/-! ## The clean-up loop -/

/-- The variables of `atlas_sched_loop`. `entPrev` is `none` as long as it is not initialised. `readfds` has the
bits that `FD_SET` writes, also those that are not in an `fd_set` (`bits_inside`). -/
structure CleanUp (κ : Type) where
  sched : SchedHeap κ
  ent : Option ℕ
  entPrev : Option ℕ
  readfds : Finset ℤ
  maxFd : ℤ

/-- One round of the loop. `ent->next` is read before the entry is released. -/
def cleanUpBody (c : CleanUp κ) : Except Fault (CleanUp κ ⊕ CleanUp κ) :=
  match c.ent with
  | none => .ok (.inr c)
  | some ent => do
    let node ← c.sched.read .badAccess ent
    let entNext := node.next
    if node.value.dirty then do
      let (schedEntry, memory) ← c.sched.unlink .badAccess ent c.entPrev c.sched.schedEntry
      let memory ← memory.free .badAccess ent
      .ok (.inl { c with sched := ⟨memory, schedEntry⟩, ent := entNext })
    else
      .ok (.inl { c with
        maxFd := if node.value.fd > c.maxFd then node.value.fd else c.maxFd
        readfds := insert node.value.fd c.readfds
        entPrev := some ent
        ent := entNext })

/-- The loop, from what `entPrev` holds: nothing in the first round of `atlas_sched_loop`, then what the round
before has left there. A list has at most as many nodes as there are addresses, which bounds it. -/
def cleanUp (entPrev : Option ℕ) (s : SchedHeap κ) : Except Fault (CleanUp κ) :=
  loop .diverges cleanUpBody (s.brk + 1) ⟨s, s.schedEntry, entPrev, ∅, 0⟩

end SchedHeap

end AtlasClient
