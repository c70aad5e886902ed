import AtlasClient.Lib.NodeWalk
import AtlasClient.Spec.Bytes
import AtlasClient.Spec.Scheduler
import Mathlib.Data.Finset.Card

/-!
# The dispatch pass

The second half of a round of `atlas_sched_loop`: `select` has returned, and the callbacks of
the ready entries run. They add and delete entries of the list that is being walked.
-/

namespace AtlasClient

open NodeWalk

/-- What a callback can do to the list. -/
inductive SchedCall (κ : Type)
  | add (fd : ℤ) (cb : Option κ)
  | del (fd : ℤ)
  deriving DecidableEq, Repr

variable {κ σ : Type}

def SchedCall.run (schedEntry : List (SchedEntry κ)) : SchedCall κ → List (SchedEntry κ)
  | .add fd cb => atlasSchedAddEntry fd cb schedEntry
  | .del fd => atlasSchedDelEntry fd schedEntry

/-- What the callbacks do: to the rest of the program, and to the list, in this order. -/
abbrev Behaviour (κ σ : Type) := κ → ℤ → σ → σ × List (SchedCall κ)

/-- A call of a callback, with the place of its entry. -/
structure Invocation (κ : Type) where
  place : ℕ
  callback : κ
  fd : ℤ
  deriving DecidableEq, Repr

/-- The state of the pass. Entries are unlinked only by the next sweep, so that until then an entry
is named by its place in the list. `invoked` is the history. -/
structure Pass (κ σ : Type) where
  schedEntry : List (SchedEntry κ)
  readfds : Finset ℤ
  app : σ
  invoked : List (Invocation κ)
  deriving DecidableEq

/-- When `select` has returned: the list as the sweep left it, and the descriptors reported. -/
def selected (schedEntry : List (SchedEntry κ)) (readfds : Finset ℤ) (app : σ) : Pass κ σ :=
  ⟨(schedSweep schedEntry).kept, readfds, app, []⟩

/-- `FD_CLR` comes after the callback. -/
def dispatchEntry (behave : Behaviour κ σ) (i : ℕ) (ent : SchedEntry κ) (s : Pass κ σ) : Pass κ σ :=
  if ent.dirty = false ∧ ent.fd ∈ s.readfds then
    let (app, calls) := behave ent.callback ent.fd s.app
    { schedEntry := calls.foldl SchedCall.run s.schedEntry
      readfds := s.readfds.erase ent.fd
      app := app
      invoked := s.invoked ++ [⟨i, ent.callback, ent.fd⟩] }
  else s

def dispatch (behave : Behaviour κ σ) (rounds : ℕ) (s : Pass κ σ) : Except Fault (Pass κ σ) :=
  walk Pass.schedEntry (dispatchEntry behave) .diverges rounds s

end AtlasClient
