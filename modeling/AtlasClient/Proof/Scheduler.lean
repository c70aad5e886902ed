import AtlasClient.Lib.Run
import AtlasClient.Spec.Scheduler
import Mathlib.Logic.Function.Basic

/-!
# The scheduler list as a map

`SchedMap` is what the scheduler is for: the callback of each descriptor that has been
added and not deleted since. The list refines it as long as no descriptor is deleted
while a stale entry with its number is still in the list (`refines_iff`):
`atlas_sched_del_entry` marks the first entry with the number, dirty or not, so the
live one behind a stale one survives its deletion (`stale_entry_shadows`).
-/

namespace AtlasClient

open FirstMatch Machine

variable {κ : Type}

/-- What can happen to the list. -/
inductive SchedOp (κ : Type)
  | add (fd : ℤ) (cb : Option κ)
  | del (fd : ℤ)
  | sweep
  deriving DecidableEq, Repr

/-- The descriptors that have been added and not deleted since, with their callbacks. -/
abbrev SchedMap (κ : Type) := ℤ → Option κ

def SchedMap.step (m : SchedMap κ) : SchedOp κ → SchedMap κ
  | .add fd (some cb) => if fd < 0 then m else Function.update m fd (some cb)
  | .add _ none => m
  | .del fd => Function.update m fd none
  | .sweep => m

/-- The list beside the map. -/
structure SchedState (κ : Type) where
  entries : List (SchedEntry κ)
  map : SchedMap κ

def SchedState.init : SchedState κ := ⟨[], fun _ => none⟩

def SchedState.step (s : SchedState κ) (op : SchedOp κ) : SchedState κ where
  entries := match op with
    | .add fd cb => atlasSchedAddEntry fd cb s.entries
    | .del fd => atlasSchedDelEntry fd s.entries
    | .sweep => (schedSweep s.entries).kept
  map := s.map.step op

/-- A descriptor is added only when it has no live entry. -/
def SchedState.Legal (s : SchedState κ) : SchedOp κ → Prop
  | .add fd _ => ∀ ent ∈ s.entries, ent.fd = fd → ent.dirty = true
  | _ => True

instance (s : SchedState κ) (op : SchedOp κ) : Decidable (s.Legal op) := by
  cases op <;> unfold SchedState.Legal <;> infer_instance

/-- The live entries are exactly the pairs of the map, one for each descriptor. -/
structure Refines (s : SchedState κ) : Prop where
  mem_iff : ∀ fd cb, ⟨fd, cb, false⟩ ∈ s.entries ↔ s.map fd = some cb
  one : ((s.entries.filter fun ent => !ent.dirty).map SchedEntry.fd).Nodup

/-- What the operation must achieve: the list refines the map; after a deletion the descriptor
has no live entry; `select` watches exactly the descriptors of the map. -/
def SchedState.Faithful (s : SchedState κ) (op : SchedOp κ) : Prop :=
  Refines (s.step op) ∧
    match op with
    | .add _ _ => True
    | .del fd => ∀ ent ∈ (s.step op).entries, ent.fd = fd → ent.dirty = true
    | .sweep => ∀ fd, fd ∈ (schedSweep s.entries).readfds ↔ ((s.step op).map fd).isSome

/-- A descriptor with a live entry is deleted only when no stale entry carries its number. -/
def SchedState.NoStale (s : SchedState κ) : SchedOp κ → Prop
  | .del fd => ¬ ((∃ ent ∈ s.entries, ent.fd = fd ∧ ent.dirty = true) ∧
      ∃ ent ∈ s.entries, ent.fd = fd ∧ ent.dirty = false)
  | _ => True

/-! ## The sweep -/

theorem sweepEntry_foldl (l : List (SchedEntry κ)) : ∀ s : Sweep κ,
    (l.foldl sweepEntry s).kept = s.kept ++ l.filter (fun ent => !ent.dirty) ∧
      (l.foldl sweepEntry s).readfds =
        s.readfds ++ (l.filter fun ent => !ent.dirty).map SchedEntry.fd := by
  induction l with
  | nil => intro s; simp
  | cons ent l ih =>
    intro s
    rw [List.foldl_cons]
    obtain ⟨h1, h2⟩ := ih (sweepEntry s ent)
    rw [h1, h2]
    cases hd : ent.dirty <;> simp [sweepEntry, hd]

/-- **The sweep keeps the live entries in order.** -/
theorem schedSweep_kept (l : List (SchedEntry κ)) :
    (schedSweep l).kept = l.filter fun ent => !ent.dirty := by
  unfold schedSweep
  rw [(sweepEntry_foldl l _).1]
  simp

theorem schedSweep_readfds (l : List (SchedEntry κ)) :
    (schedSweep l).readfds = (l.filter fun ent => !ent.dirty).map SchedEntry.fd := by
  unfold schedSweep
  rw [(sweepEntry_foldl l _).2]
  simp

/-- `max_fd` is the greatest descriptor so far, and 0 before the first one. -/
def Sweep.MaxOf (s : Sweep κ) : Prop :=
  (∀ fd ∈ s.readfds, fd ≤ s.maxFd) ∧ (s.maxFd ∈ s.readfds ∨ s.readfds = [] ∧ s.maxFd = 0)

theorem Sweep.MaxOf.entry {s : Sweep κ} {ent : SchedEntry κ} (h : s.MaxOf) (hfd : 0 ≤ ent.fd) :
    (sweepEntry s ent).MaxOf := by
  unfold sweepEntry
  split
  · exact h
  · obtain ⟨hle, hmem⟩ := h
    refine ⟨fun fd hm => ?_, Or.inl ?_⟩
    · simp only [List.mem_append, List.mem_singleton] at hm ⊢
      rcases hm with hm | rfl
      · have := hle fd hm
        split <;> omega
      · split <;> omega
    · simp only [List.mem_append, List.mem_singleton]
      rcases hmem with hmem | ⟨-, hzero⟩
      · split
        · exact Or.inr rfl
        · exact Or.inl hmem
      · split
        · exact Or.inr rfl
        · exact Or.inr (by omega)

/-- **`max_fd` is the maximum** of the descriptors that are watched. -/
theorem schedSweep_maxOf {l : List (SchedEntry κ)} (h : ∀ ent ∈ l, 0 ≤ ent.fd) : (schedSweep l).MaxOf := by
  refine List.foldlRecOn l sweepEntry ⟨(fun _ hfd => by cases hfd), Or.inr ⟨rfl, rfl⟩⟩ fun s hs ent hent => ?_
  exact hs.entry (h ent hent)

/-! ## The invariant -/

/-- Of two entries with one descriptor the earlier is dirty. -/
def StaleFirst (l : List (SchedEntry κ)) : Prop :=
  l.Pairwise fun a b => a.fd = b.fd → a.dirty = true

/-- The invariant behind the refinement. -/
structure SchedInv (s : SchedState κ) : Prop where
  stale : StaleFirst s.entries
  mem_iff : ∀ fd cb, ⟨fd, cb, false⟩ ∈ s.entries ↔ s.map fd = some cb

theorem schedInv_init : SchedInv (SchedState.init : SchedState κ) :=
  ⟨List.Pairwise.nil, by simp [SchedState.init]⟩

theorem StaleFirst.nodup {l : List (SchedEntry κ)} (h : StaleFirst l) :
    ((l.filter fun ent => !ent.dirty).map SchedEntry.fd).Nodup := by
  rw [List.Nodup, List.pairwise_map, List.pairwise_filter]
  refine h.imp ?_
  intro a b hab ha _ heq
  have := hab heq
  simp [this] at ha

theorem SchedInv.refines {s : SchedState κ} (h : SchedInv s) : Refines s := ⟨h.mem_iff, h.stale.nodup⟩

theorem mem_updFirst_dirty {fd : ℤ} {l : List (SchedEntry κ)} (hs : StaleFirst l) {x : SchedEntry κ}
    (hns : ¬ ((∃ ent ∈ l, ent.fd = fd ∧ ent.dirty = true) ∧ ∃ ent ∈ l, ent.fd = fd ∧ ent.dirty = false))
    (hx : x.dirty = false) : x ∈ atlasSchedDelEntry fd l ↔ x ∈ l ∧ x.fd ≠ fd := by
  unfold atlasSchedDelEntry
  by_cases h : ∃ ent ∈ l, ent.fd = fd
  · obtain ⟨pre, a, post, rfl, hpre, ha⟩ := exists_split (p := fun p : SchedEntry κ => p.fd = fd)
      (by simpa using h)
    simp only [decide_eq_false_iff_not, decide_eq_true_eq] at hpre ha
    rw [updFirst_split (by simpa using hpre) (by simpa using ha)]
    -- behind the first entry with the number there is no live one
    have hpost : x ∈ post → x.fd ≠ fd := by
      intro hm hfd
      have hdirty : a.dirty = true :=
        (List.pairwise_append.1 hs).2.1 |> List.pairwise_cons.1 |>.1 x hm (ha.trans hfd.symm)
      exact hns ⟨⟨a, by simp, ha, hdirty⟩, ⟨x, by simp [hm], hfd, hx⟩⟩
    constructor
    · intro hm
      rcases List.mem_append.1 hm with hm | hm
      · exact ⟨by simp [hm], hpre x hm⟩
      · rcases List.mem_cons.1 hm with rfl | hm
        · simp at hx
        · exact ⟨by simp [hm], hpost hm⟩
    · rintro ⟨hm, hne⟩
      rcases List.mem_append.1 hm with hm | hm
      · simp [hm]
      · rcases List.mem_cons.1 hm with rfl | hm
        · exact absurd ha hne
        · simp [hm]
  · have hnone : ∀ y ∈ l, y.fd ≠ fd := fun y hy hfd => h ⟨y, hy, hfd⟩
    rw [updFirst_of_forall (by simpa using hnone)]
    exact ⟨fun hm => ⟨hm, hnone x hm⟩, fun hm => hm.1⟩

theorem StaleFirst.del {fd : ℤ} {l : List (SchedEntry κ)} (hs : StaleFirst l) :
    StaleFirst (atlasSchedDelEntry fd l) := by
  unfold atlasSchedDelEntry
  by_cases h : ∃ ent ∈ l, ent.fd = fd
  · obtain ⟨pre, a, post, rfl, hpre, ha⟩ := exists_split (p := fun p : SchedEntry κ => p.fd = fd)
      (by simpa using h)
    rw [updFirst_split hpre ha]
    unfold StaleFirst at hs ⊢
    rw [List.pairwise_append, List.pairwise_cons] at hs ⊢
    obtain ⟨h1, ⟨h2, h3⟩, h4⟩ := hs
    refine ⟨h1, ⟨fun b _ _ => rfl, h3⟩, ?_⟩
    intro x hx y hy
    rcases List.mem_cons.1 hy with rfl | hy
    · exact h4 x hx a (by simp)
    · exact h4 x hx y (by simp [hy])
  · rw [updFirst_of_forall (by simpa using h)]; exact hs

theorem StaleFirst.add {fd : ℤ} {cb : Option κ} {l : List (SchedEntry κ)} (hs : StaleFirst l)
    (hl : ∀ ent ∈ l, ent.fd = fd → ent.dirty = true) : StaleFirst (atlasSchedAddEntry fd cb l) := by
  unfold atlasSchedAddEntry
  split
  · exact hs
  · split
    · exact hs
    · unfold StaleFirst at hs ⊢
      rw [List.pairwise_append]
      exact ⟨hs, List.pairwise_singleton _ _, by simpa using hl⟩

/-- **One operation keeps the invariant**, unless it deletes behind a stale entry. -/
theorem schedInv_step {s : SchedState κ} {op : SchedOp κ} (h : SchedInv s) (hl : s.Legal op)
    (hns : s.NoStale op) : SchedInv (s.step op) := by
  cases op with
  | add fd cb =>
    refine ⟨h.stale.add hl, ?_⟩
    intro fd' cb'
    have hm := h.mem_iff fd' cb'
    simp only [SchedState.step, SchedMap.step, atlasSchedAddEntry]
    rcases cb with _ | cb
    · exact hm
    · simp only
      split
      · exact hm
      · rw [List.mem_append, hm]
        by_cases hfd : fd' = fd
        · -- the map had nothing here: a live entry would contradict legality
          subst hfd
          have hnone : s.map fd' ≠ some cb' := fun heq => by
            have := hl _ ((h.mem_iff fd' cb').2 heq) rfl
            simp at this
          simp [hnone, eq_comm]
        · simp [hfd]
  | del fd =>
    refine ⟨h.stale.del, ?_⟩
    intro fd' cb'
    have hm := mem_updFirst_dirty h.stale hns (x := ⟨fd', cb', false⟩) rfl
    simp only [SchedState.step, SchedMap.step, hm, h.mem_iff, Function.update_apply]
    by_cases hfd : fd' = fd <;> simp [hfd]
  | sweep =>
    refine ⟨?_, ?_⟩
    · simp only [SchedState.step, schedSweep_kept]
      exact h.stale.filter _
    · intro fd' cb'
      have hm := h.mem_iff fd' cb'
      simp only [SchedState.step, SchedMap.step, schedSweep_kept, List.mem_filter]
      simpa using hm

/-- An operation that keeps the invariant does what it must. -/
theorem faithful_of_inv {s : SchedState κ} {op : SchedOp κ} (h : SchedInv (s.step op)) :
    s.Faithful op := by
  refine ⟨h.refines, ?_⟩
  cases op with
  | add fd cb => trivial
  | del fd =>
    intro ent hent hfd
    by_contra hd
    have hmap := (h.mem_iff fd ent.callback).1 (by
      have : ent = ⟨fd, ent.callback, false⟩ := by cases ent; simp_all
      rw [← this]; exact hent)
    simp [SchedState.step, SchedMap.step] at hmap
  | sweep =>
    intro fd
    simp only [schedSweep_readfds]
    have hkept : (s.step .sweep).entries = s.entries.filter fun ent => !ent.dirty := schedSweep_kept _
    rw [← hkept, List.mem_map]
    constructor
    · rintro ⟨ent, hent, rfl⟩
      have hd : ent.dirty = false := by
        rw [hkept, List.mem_filter] at hent; simpa using hent.2
      have hmap := (h.mem_iff ent.fd ent.callback).1 (by
        have : ent = ⟨ent.fd, ent.callback, false⟩ := by cases ent; simp_all
        rw [← this]; exact hent)
      rw [hmap]; rfl
    · intro hsome
      obtain ⟨cb, hcb⟩ := Option.isSome_iff_exists.1 hsome
      exact ⟨_, (h.mem_iff fd cb).2 hcb, rfl⟩

/-- A deletion behind a stale entry leaves the live entry. -/
theorem not_faithful_of_stale {s : SchedState κ} {op : SchedOp κ} (h : SchedInv s)
    (hf : s.Faithful op) : s.NoStale op := by
  cases op with
  | add fd cb => trivial
  | sweep => trivial
  | del fd =>
    rintro ⟨⟨d, hd, hdfd, hdd⟩, ⟨v, hv, hvfd, hvd⟩⟩
    obtain ⟨pre, a, post, hl, hpre, ha⟩ := exists_split (p := fun p : SchedEntry κ => p.fd = fd)
      ⟨d, hd, by simpa using hdfd⟩
    simp only [decide_eq_true_eq, decide_eq_false_iff_not] at hpre ha
    -- the live entry is not the first one with its number
    have hva : v ∈ post := by
      rw [hl] at hv hd
      rcases List.mem_append.1 hv with hv | hv
      · exact absurd hvfd (hpre v hv)
      · rcases List.mem_cons.1 hv with rfl | hv
        · have hs := h.stale
          rw [hl] at hs
          rcases List.mem_append.1 hd with hd | hd
          · exact absurd hdfd (hpre d hd)
          · rcases List.mem_cons.1 hd with rfl | hd
            · rw [hvd] at hdd; cases hdd
            · have := (List.pairwise_append.1 hs).2.1 |> List.pairwise_cons.1 |>.1 d hd (hvfd.trans hdfd.symm)
              rw [hvd] at this; cases this
        · exact hv
    have hin : v ∈ (s.step (.del fd)).entries := by
      simp only [SchedState.step, atlasSchedDelEntry, hl]
      rw [updFirst_split (by simpa using hpre) (by simpa using ha)]
      simp [hva]
    have := hf.2 v hin hvfd
    rw [hvd] at this; cases this

/-- **The list refines the map exactly when no descriptor is deleted behind a stale entry.** In
every history in which a descriptor is added only when it has no live entry: the live entries are
the added-and-not-since-deleted pairs after every operation, a deletion leaves no live entry and
every `select` watches the descriptors of the map, if and only if every deletion of a descriptor
with a live entry comes after a sweep of its stale entries. -/
theorem refines_iff (ops : List (SchedOp κ))
    (hl : Along SchedState.step SchedState.Legal SchedState.init ops) :
    Along SchedState.step SchedState.Faithful SchedState.init ops ↔
      Along SchedState.step SchedState.NoStale SchedState.init ops := by
  refine along_exact SchedInv SchedState.Legal ?_ ?_ schedInv_init hl
  · intro s op h hl hc
    have hinv := schedInv_step h hl hc
    exact ⟨faithful_of_inv hinv, hinv⟩
  · intro s op h _ hf
    exact not_faithful_of_stale h hf

/-- A descriptor that is deleted, handed out again and deleted, with sweeps in between. -/
theorem refines_iff_recycled :
    Along SchedState.step SchedState.Faithful (SchedState.init : SchedState ℕ)
        [.add 5 (some 0), .del 5, .sweep, .add 5 (some 1), .del 5] ↔
      Along SchedState.step SchedState.NoStale SchedState.init
        [.add 5 (some 0), .del 5, .sweep, .add 5 (some 1), .del 5] :=
  refines_iff _ (by decide)

/-- **The live entry survives behind the stale one.** Descriptor 5 is deleted, handed out again
and deleted again before a sweep: the history is legal, and the second deletion leaves an entry
for a closed descriptor. -/
theorem stale_entry_shadows :
    ¬ ∀ ops : List (SchedOp ℕ), Along SchedState.step SchedState.Legal SchedState.init ops →
      Along SchedState.step SchedState.Faithful SchedState.init ops := by
  intro h
  have hrun := h [.add 5 (some 0), .del 5, .add 5 (some 1), .del 5] (by decide)
  have hdel := hrun.2.2.2.1.2 ⟨5, 1, false⟩ (by decide) rfl
  exact absurd hdel (by decide)

end AtlasClient
