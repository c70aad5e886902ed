import AtlasClient.Lib.FirstMatch
import Mathlib.Data.Int.Notation

/-!
# The scheduler

`scheduler/atlas_scheduler.c`. The list `sched_entry` is a `List`; the callback type is
a parameter. `schedSweep` is the clean-up loop at the start of a round of
`atlas_sched_loop`, before `select`.
-/

namespace AtlasClient

open FirstMatch

structure SchedEntry (κ : Type) where
  fd : ℤ
  callback : κ
  dirty : Bool
  deriving DecidableEq, Repr

variable {κ : Type}

/-- A `NULL` callback is `none`. -/
def atlasSchedAddEntry (fd : ℤ) (cb : Option κ) (schedEntry : List (SchedEntry κ)) :
    List (SchedEntry κ) :=
  match cb with
  | none => schedEntry
  | some cb => if fd < 0 then schedEntry else schedEntry ++ [⟨fd, cb, false⟩]

theorem atlasSchedAddEntry_eq {fd : ℤ} (h : 0 ≤ fd) (cb : κ) (schedEntry : List (SchedEntry κ)) :
    atlasSchedAddEntry fd (some cb) schedEntry = schedEntry ++ [⟨fd, cb, false⟩] := if_neg (by omega)

def atlasSchedDelEntry (fd : ℤ) (schedEntry : List (SchedEntry κ)) : List (SchedEntry κ) :=
  updFirst (fun p => p.fd = fd) (fun p => { p with dirty := true }) schedEntry

/-- What the clean-up loop has built when it reaches an entry: the entries kept, the
descriptors set in `readfds`, and `max_fd`. -/
structure Sweep (κ : Type) where
  kept : List (SchedEntry κ)
  readfds : List ℤ
  maxFd : ℤ

def sweepEntry (s : Sweep κ) (ent : SchedEntry κ) : Sweep κ :=
  if ent.dirty then s
  else
    { kept := s.kept ++ [ent]
      readfds := s.readfds ++ [ent.fd]
      maxFd := if ent.fd > s.maxFd then ent.fd else s.maxFd }

def schedSweep (schedEntry : List (SchedEntry κ)) : Sweep κ :=
  schedEntry.foldl sweepEntry ⟨[], [], 0⟩

end AtlasClient
