import AtlasClient.Proof.Scheduler
import AtlasClient.Spec.Dispatch

/-!
# The dispatch pass

Callbacks append to the list that is walked, and mark its entries; each call clears the bit of its
descriptor.

* `invoked_iff`: an entry's callback is called if, when the walk comes to it, it is live and its bit
  is set.
* `dispatch_serves`: **every ready entry is served once**, in list order, and the pass ends.
* `noSpurious_iff`: **only entries that select has reported are served**, exactly if no ready descriptor
  is recycled for an added entry before its own entry has had its turn.
-/

namespace AtlasClient

open FirstMatch NodeWalk

variable {κ σ : Type} {behave : Behaviour κ σ} {s r : Pass κ σ} {ent : SchedEntry κ} {i n : ℕ}

/-! ## The list grows -/

/-- The entries stay in their places; those that are marked stay so. -/
def Extends (l l' : List (SchedEntry κ)) : Prop :=
  ∀ (i : ℕ) (ent : SchedEntry κ), l[i]? = some ent →
    ∃ ent' : SchedEntry κ, l'[i]? = some ent' ∧ ent'.fd = ent.fd ∧ ent'.callback = ent.callback ∧
      (ent.dirty = true → ent'.dirty = true)

theorem Extends.refl (l : List (SchedEntry κ)) : Extends l l := fun _ ent h => ⟨ent, h, rfl, rfl, id⟩

theorem Extends.trans {l l' l'' : List (SchedEntry κ)} (h : Extends l l') (h' : Extends l' l'') : Extends l l'' := by
  intro i ent hi
  obtain ⟨e, he, hfd, hcb, hd⟩ := h i ent hi
  obtain ⟨e', he', hfd', hcb', hd'⟩ := h' i e he
  exact ⟨e', he', hfd'.trans hfd, hcb'.trans hcb, fun hdirty => hd' (hd hdirty)⟩

theorem extends_add (fd : ℤ) (cb : Option κ) (l : List (SchedEntry κ)) :
    Extends l (atlasSchedAddEntry fd cb l) := by
  unfold atlasSchedAddEntry
  split
  · exact Extends.refl l
  · split
    · exact Extends.refl l
    · intro i ent hi
      have hlt : i < l.length := (List.getElem?_eq_some_iff.1 hi).1
      exact ⟨ent, by rw [List.getElem?_append_left hlt, hi], rfl, rfl, id⟩

theorem extends_del (fd : ℤ) (l : List (SchedEntry κ)) : Extends l (atlasSchedDelEntry fd l) := by
  intro i ent hi
  rcases getElem?_updFirst (p := fun p : SchedEntry κ => p.fd = fd)
    (f := fun p => { p with dirty := true }) (l := l) i with h | h
  · exact ⟨ent, h.trans hi, rfl, rfl, id⟩
  · exact ⟨{ ent with dirty := true }, by rw [atlasSchedDelEntry, h, hi]; rfl, rfl, rfl, fun _ => rfl⟩

theorem extends_run (calls : List (SchedCall κ)) :
    ∀ l : List (SchedEntry κ), Extends l (calls.foldl SchedCall.run l) := by
  induction calls with
  | nil => exact Extends.refl
  | cons c calls ih =>
    intro l
    have hc : Extends l (c.run l) := by
      cases c with
      | add fd cb => exact extends_add fd cb l
      | del fd => exact extends_del fd l
    exact hc.trans (ih (c.run l))

/-! ## One turn -/

/-- The state when the walk comes to a place. -/
def passAt (behave : Behaviour κ σ) (s : Pass κ σ) (n : ℕ) : Pass κ σ :=
  stateAt Pass.schedEntry (dispatchEntry behave) s n

/-- When the walk comes to the entry at a place, it is live and its bit is set. -/
def Due (behave : Behaviour κ σ) (s : Pass κ σ) (i : ℕ) (ent : SchedEntry κ) : Prop :=
  (passAt behave s i).schedEntry[i]? = some ent ∧ ent.dirty = false ∧ ent.fd ∈ (passAt behave s i).readfds

/-- The entry at a place has been deleted before its turn. -/
def Deleted (behave : Behaviour κ σ) (s : Pass κ σ) (i : ℕ) : Prop :=
  ∃ ent, (passAt behave s i).schedEntry[i]? = some ent ∧ ent.dirty = true

theorem dispatchEntry_skip (h : ¬ (ent.dirty = false ∧ ent.fd ∈ s.readfds)) :
    dispatchEntry behave i ent s = s := if_neg h

/-- What a call changes. -/
theorem dispatchEntry_call (behave : Behaviour κ σ) (i : ℕ) (h : ent.dirty = false ∧ ent.fd ∈ s.readfds) :
    Extends s.schedEntry (dispatchEntry behave i ent s).schedEntry ∧
      (dispatchEntry behave i ent s).readfds = s.readfds.erase ent.fd ∧
      (dispatchEntry behave i ent s).invoked = s.invoked ++ [⟨i, ent.callback, ent.fd⟩] := by
  rw [dispatchEntry, if_pos h]
  exact ⟨extends_run _ _, rfl, rfl⟩

theorem passAt_skip (h : ∀ ent, ¬ Due behave s i ent) : passAt behave s (i + 1) = passAt behave s i := by
  cases hi : (passAt behave s i).schedEntry[i]? with
  | none => exact stateAt_none hi
  | some ent => exact (stateAt_some hi).trans (dispatchEntry_skip fun hd => h ent ⟨hi, hd⟩)

theorem passAt_call (h : Due behave s i ent) :
    passAt behave s (i + 1) = dispatchEntry behave i ent (passAt behave s i) := stateAt_some h.1

theorem passAt_extends (s : Pass κ σ) (i : ℕ) :
    Extends (passAt behave s i).schedEntry (passAt behave s (i + 1)).schedEntry := by
  by_cases h : ∃ ent, Due behave s i ent
  · obtain ⟨ent, hdue⟩ := h
    rw [passAt_call hdue]
    exact (dispatchEntry_call behave _ hdue.2).1
  · rw [passAt_skip fun ent hdue => h ⟨ent, hdue⟩]
    exact Extends.refl _

/-- From one place to a later one. -/
theorem passAt_extends_le (behave : Behaviour κ σ) {j : ℕ} (hij : i ≤ j) :
    Extends (passAt behave s i).schedEntry (passAt behave s j).schedEntry := by
  induction j, hij using Nat.le_induction with
  | base => exact Extends.refl _
  | succ j _ ih => exact ih.trans (passAt_extends s j)

/-! ## The history -/

/-- **A callback is called at the turn of its entry**, if that is due, and only then. -/
theorem invoked_iff (hs : s.invoked = []) (c : Invocation κ) :
    c ∈ (passAt behave s n).invoked ↔
      c.place < n ∧ ∃ ent, Due behave s c.place ent ∧ c = ⟨c.place, ent.callback, ent.fd⟩ := by
  induction n with
  | zero => simp [passAt, stateAt, hs]
  | succ n ih =>
    by_cases h : ∃ ent, Due behave s n ent
    · obtain ⟨ent, hdue⟩ := h
      rw [passAt_call hdue, (dispatchEntry_call behave _ hdue.2).2.2, List.mem_append, ih, List.mem_singleton]
      constructor
      · rintro (⟨hlt, hc⟩ | rfl)
        · exact ⟨by omega, hc⟩
        · exact ⟨Nat.lt_succ_self n, ent, hdue, rfl⟩
      · rintro ⟨hlt, ent', hdue', hc⟩
        rcases Nat.lt_succ_iff_lt_or_eq.1 hlt with hlt | heq
        · exact Or.inl ⟨hlt, ent', hdue', hc⟩
        · rw [heq] at hdue' hc
          rw [Option.some.inj (hdue.1.symm.trans hdue'.1)]
          exact Or.inr hc
    · rw [passAt_skip fun ent hdue => h ⟨ent, hdue⟩, ih]
      constructor
      · rintro ⟨hlt, hc⟩; exact ⟨by omega, hc⟩
      · rintro ⟨hlt, ent, hdue, hc⟩
        rcases Nat.lt_succ_iff_lt_or_eq.1 hlt with hlt | heq
        · exact ⟨hlt, ent, hdue, hc⟩
        · exact absurd ⟨ent, heq ▸ hdue⟩ h

/-- What the calls so far have left of the bits. -/
structure Cleared (s : Pass κ σ) (n : ℕ) (p : Pass κ σ) : Prop where
  place_lt : ∀ c ∈ p.invoked, c.place < n
  sorted : p.invoked.Pairwise fun c d => c.place < d.place
  card : p.invoked.length + p.readfds.card = s.readfds.card
  mem_iff : ∀ fd, fd ∈ p.readfds ↔ fd ∈ s.readfds ∧ ∀ c ∈ p.invoked, c.fd ≠ fd

theorem Cleared.skip {p : Pass κ σ} (h : Cleared s n p) : Cleared s (n + 1) p :=
  ⟨fun c hc => Nat.lt_succ_of_lt (h.place_lt c hc), h.sorted, h.card, h.mem_iff⟩

/-- **A call clears the bit of its descriptor.** -/
theorem Cleared.entry {p : Pass κ σ} (h : Cleared s n p) (ent : SchedEntry κ) :
    Cleared s (n + 1) (dispatchEntry behave n ent p) := by
  by_cases hcall : ent.dirty = false ∧ ent.fd ∈ p.readfds
  · obtain ⟨-, hr, hi⟩ := dispatchEntry_call behave n hcall
    refine ⟨?_, ?_, ?_, ?_⟩ <;> rw [hi]
    · refine List.forall_mem_append.2 ⟨fun c hc => Nat.lt_succ_of_lt (h.place_lt c hc), ?_⟩
      exact List.forall_mem_singleton.2 (Nat.lt_succ_self n)
    · refine List.pairwise_append.2 ⟨h.sorted, List.pairwise_singleton _ _, ?_⟩
      intro c hc d hd
      rw [List.mem_singleton.1 hd]
      exact h.place_lt c hc
    · -- one call more, one bit less
      have hcard := Finset.card_erase_add_one hcall.2
      rw [hr, List.length_append, List.length_singleton, ← h.card]
      omega
    · intro fd
      rw [hr, Finset.mem_erase, h.mem_iff]
      simp only [List.forall_mem_append, List.forall_mem_singleton]
      constructor
      · rintro ⟨hne, hfd, hall⟩; exact ⟨hfd, hall, Ne.symm hne⟩
      · rintro ⟨hfd, hall, hne⟩; exact ⟨Ne.symm hne, hfd, hall⟩
  · rw [dispatchEntry_skip hcall]
    exact h.skip

theorem cleared_passAt (behave : Behaviour κ σ) (hs : s.invoked = []) (n : ℕ) : Cleared s n (passAt behave s n) := by
  have hstart : Cleared s 0 s := by constructor <;> simp [hs]
  exact stateAt_inv (Cleared s) hstart (fun _ _ ent h _ => h.entry ent) (fun _ _ h => h.skip) n

/-! ## The entries that `select` has seen -/

/-- An entry is still there at its turn. -/
theorem exists_turn (behave : Behaviour κ σ) (h : s.schedEntry[i]? = some ent) (n : ℕ) :
    ∃ ent', (passAt behave s n).schedEntry[i]? = some ent' ∧ ent'.fd = ent.fd ∧ ent'.callback = ent.callback := by
  obtain ⟨ent', he, hfd, hcb, -⟩ := passAt_extends_le behave (Nat.zero_le n) i ent h
  exact ⟨ent', he, hfd, hcb⟩

/-- At its turn an entry is the one that was there at first. -/
theorem Due.entry {ent₀ : SchedEntry κ} (h : Due behave s i ent) (h₀ : s.schedEntry[i]? = some ent₀) :
    ent.fd = ent₀.fd ∧ ent.callback = ent₀.callback := by
  obtain ⟨ent', he, hfd, hcb⟩ := exists_turn behave h₀ i
  rw [Option.some.inj (h.1.symm.trans he)]
  exact ⟨hfd, hcb⟩

theorem Due.not_deleted (h : Due behave s i ent) : ¬ Deleted behave s i := by
  rintro ⟨ent', he, hdirty⟩
  have hlive := h.2.1
  rw [Option.some.inj (h.1.symm.trans he), hdirty] at hlive
  cases hlive

/-- An entry that has not been deleted before its turn is due, if its bit is still set. -/
theorem exists_due (h : s.schedEntry[i]? = some ent) (hlive : ¬ Deleted behave s i)
    (hbit : ent.fd ∈ (passAt behave s i).readfds) :
    ∃ ent', Due behave s i ent' ∧ ent'.fd = ent.fd ∧ ent'.callback = ent.callback := by
  obtain ⟨ent', he, hfd, hcb⟩ := exists_turn behave h i
  refine ⟨ent', ⟨he, ?_, hfd ▸ hbit⟩, hfd, hcb⟩
  cases hd : ent'.dirty with
  | false => rfl
  | true => exact absurd ⟨ent', he, hd⟩ hlive

/-- With distinct descriptors no other entry clears the bit of an entry before its turn. -/
theorem bit_set (hs : s.invoked = []) (hfds : (s.schedEntry.map SchedEntry.fd).Nodup)
    (h : s.schedEntry[i]? = some ent) (hready : ent.fd ∈ s.readfds) : ent.fd ∈ (passAt behave s i).readfds := by
  rw [(cleared_passAt behave hs i).mem_iff]
  refine ⟨hready, fun c hc heq => ?_⟩
  obtain ⟨hlt, e, hdue, hce⟩ := (invoked_iff hs c).1 hc
  have hi : i < s.schedEntry.length := (List.getElem?_eq_some_iff.1 h).1
  obtain ⟨e₀, he₀⟩ : ∃ e₀, s.schedEntry[c.place]? = some e₀ := ⟨_, List.getElem?_eq_getElem (by omega)⟩
  have hfd : e₀.fd = ent.fd := by rw [← (hdue.entry he₀).1, ← heq, hce]
  have hplace : c.place = i := by
    refine (List.getElem?_inj (by rw [List.length_map]; omega) hfds).1 ?_
    rw [List.getElem?_map, List.getElem?_map, he₀, h, Option.map_some, Option.map_some, hfd]
  omega

/-! ## The pass ends -/

/-- The pass ends in a state. -/
def Dispatches (behave : Behaviour κ σ) (s r : Pass κ σ) : Prop :=
  ∃ n, ∀ m, n ≤ m → dispatch behave m s = .ok r

theorem Dispatches.unique {r' : Pass κ σ} (h : Dispatches behave s r) (h' : Dispatches behave s r') : r = r' := by
  obtain ⟨n, hn⟩ := h
  obtain ⟨n', hn'⟩ := h'
  have heq := (hn (max n n') (le_max_left _ _)).symm.trans (hn' (max n n') (le_max_right _ _))
  exact Except.ok.inj heq

/-- **The pass ends**: each call clears a bit. -/
theorem exists_last (behave : Behaviour κ σ) (s : Pass κ σ) :
    ∃ n, (passAt behave s n).schedEntry.length ≤ n := by
  refine exists_end (fun p : Pass κ σ => p.readfds.card) (fun i ent p => ?_) s
  by_cases hcall : ent.dirty = false ∧ ent.fd ∈ p.readfds
  · right
    simp only [(dispatchEntry_call behave i hcall).2.1]
    exact Finset.card_erase_lt_of_mem hcall.2
  · exact Or.inl (dispatchEntry_skip hcall)

theorem dispatches_last (hn : (passAt behave s n).schedEntry.length ≤ n) :
    Dispatches behave s (passAt behave s n) := ⟨n + 1, fun _ hm => walk_eq hn hm⟩

/-- Every entry that is due has had its turn by then. -/
theorem invoked_last (hs : s.invoked = []) (hn : (passAt behave s n).schedEntry.length ≤ n) (c : Invocation κ) :
    c ∈ (passAt behave s n).invoked ↔
      ∃ ent, Due behave s c.place ent ∧ c = ⟨c.place, ent.callback, ent.fd⟩ := by
  rw [invoked_iff hs]
  refine and_iff_right_of_imp ?_
  rintro ⟨ent, hdue, -⟩
  by_contra hge
  obtain ⟨k, hk⟩ : ∃ k, c.place = n + k := ⟨c.place - n, by omega⟩
  have hsame : passAt behave s c.place = passAt behave s n := by rw [hk]; exact stateAt_end hn k
  have hplace := (List.getElem?_eq_some_iff.1 hdue.1).1
  rw [hsame] at hplace
  omega

/-! ## Every ready entry is served once -/

/-- What a pass must do for the entries that `select` has seen. -/
structure ServesOnce (behave : Behaviour κ σ) (s r : Pass κ σ) : Prop where
  sorted : r.invoked.Pairwise fun c d => c.place < d.place
  once : ∀ i ent, s.schedEntry[i]? = some ent → ent.fd ∈ s.readfds → ¬ Deleted behave s i →
    r.invoked.filter (fun c => c.place = i) = [⟨i, ent.callback, ent.fd⟩]
  deleted : ∀ i, Deleted behave s i → ∀ c ∈ r.invoked, c.place ≠ i
  card : r.invoked.length ≤ s.readfds.card

/-- In a list that is sorted by place, a call is the only one at its place. -/
theorem filter_place {l : List (Invocation κ)} (h : l.Pairwise fun c d => c.place < d.place)
    {c : Invocation κ} (hc : c ∈ l) : l.filter (fun d => d.place = c.place) = [c] := by
  obtain ⟨pre, post, rfl⟩ := List.append_of_mem hc
  obtain ⟨-, hpost, hpre⟩ := List.pairwise_append.1 h
  have hpre' : pre.filter (fun d => d.place = c.place) = [] := by
    refine List.filter_eq_nil_iff.2 fun d hd => ?_
    have := hpre d hd c List.mem_cons_self
    simp only [decide_eq_true_eq]
    omega
  have hpost' : post.filter (fun d => d.place = c.place) = [] := by
    refine List.filter_eq_nil_iff.2 fun d hd => ?_
    have := (List.pairwise_cons.1 hpost).1 d hd
    simp only [decide_eq_true_eq]
    omega
  rw [List.filter_append, hpre', List.filter_cons_of_pos (by simp), hpost']
  rfl

/-- Callback 0 closes descriptor 5, and a new entry gets its number. -/
def recycling : Behaviour ℕ Unit := fun cb _ app => (app, if cb = 0 then [.del 5, .add 5 (some 2)] else [])

/-- Two ready entries; the callback of the first deletes the second. -/
def twoReady : List (SchedEntry ℕ) := [⟨3, 0, false⟩, ⟨4, 1, true⟩, ⟨5, 1, false⟩]

/-- Only entries that were in the list at `select` and that it reported are called. -/
def NoSpurious (s r : Pass κ σ) : Prop :=
  ∀ c ∈ r.invoked, ∃ ent, s.schedEntry[c.place]? = some ent ∧ ent.callback = c.callback ∧ ent.fd = c.fd ∧
    c.fd ∈ s.readfds

/-- A ready descriptor is recycled before it is served: each of its entries is deleted before its
turn, and when the walk comes to the entries added in the pass, one of them has its number and is live. -/
def Recycled (behave : Behaviour κ σ) (s : Pass κ σ) : Prop :=
  ∃ fd ∈ s.readfds, (∀ i ent, s.schedEntry[i]? = some ent → ent.fd = fd → Deleted behave s i) ∧
    ∃ i ent, s.schedEntry.length ≤ i ∧
      (passAt behave s s.schedEntry.length).schedEntry[i]? = some ent ∧ ent.fd = fd ∧ ent.dirty = false

theorem Due.ready (hs : s.invoked = []) (h : Due behave s i ent) : ent.fd ∈ s.readfds :=
  ((cleared_passAt behave hs i).mem_iff _).1 h.2.2 |>.1

theorem noSpurious_last (hs : s.invoked = []) (hn : (passAt behave s n).schedEntry.length ≤ n) :
    NoSpurious s (passAt behave s n) ↔ ∀ i ent, Due behave s i ent → i < s.schedEntry.length := by
  constructor
  · intro h i ent hdue
    obtain ⟨e, he, -⟩ := h ⟨i, ent.callback, ent.fd⟩ ((invoked_last hs hn _).2 ⟨ent, hdue, rfl⟩)
    exact (List.getElem?_eq_some_iff.1 he).1
  · intro h c hc
    obtain ⟨ent, hdue, hce⟩ := (invoked_last hs hn c).1 hc
    have he := List.getElem?_eq_getElem (h _ _ hdue)
    obtain ⟨hfd, hcb⟩ := hdue.entry he
    have hfdc : c.fd = ent.fd := by rw [hce]
    have hcbc : c.callback = ent.callback := by rw [hce]
    exact ⟨_, he, (hcbc.trans hcb).symm, (hfdc.trans hfd).symm, hfdc ▸ hdue.ready hs⟩

/-- Until an added entry is due, the walk goes through the list as it is behind the first entries. -/
theorem passAt_added (behave : Behaviour κ σ) {j : ℕ} (hj : s.schedEntry.length ≤ j)
    (h : ∀ i, s.schedEntry.length ≤ i → i < j → ∀ ent, ¬ Due behave s i ent) :
    passAt behave s j = passAt behave s s.schedEntry.length :=
  stateAt_gap hj fun k h1 h2 => passAt_skip (h k h1 h2)

/-- An added entry is due exactly if a ready descriptor is recycled. -/
theorem recycled_iff (hs : s.invoked = []) :
    Recycled behave s ↔ ∃ i ent, s.schedEntry.length ≤ i ∧ Due behave s i ent := by
  have hcleared := cleared_passAt behave hs s.schedEntry.length
  constructor
  · rintro ⟨fd, hready, hdel, i, ent, hi, hent, rfl, hlive⟩
    by_contra hno
    have hsame := passAt_added behave hi fun k hk _ e hdue => hno ⟨k, e, hk, hdue⟩
    refine hno ⟨i, ent, hi, ?_⟩
    rw [Due, hsame]
    refine ⟨hent, hlive, (hcleared.mem_iff _).2 ⟨hready, fun c hc hfd => ?_⟩⟩
    -- its entries have not been called
    obtain ⟨hlt, e, hdue, hce⟩ := (invoked_iff hs c).1 hc
    have he := List.getElem?_eq_getElem hlt
    exact hdue.not_deleted (hdel c.place _ he (by rw [← (hdue.entry he).1, ← hfd, hce]))
  · intro h
    classical
    obtain ⟨ent, hi, hdue⟩ := Nat.find_spec h
    have hsame : passAt behave s (Nat.find h) = passAt behave s s.schedEntry.length :=
      passAt_added behave hi fun k h1 h2 e hd => Nat.find_min h h2 ⟨e, h1, hd⟩
    have hdue' := hdue
    rw [Due, hsame] at hdue'
    obtain ⟨hent, hlive, hbit⟩ := hdue'
    refine ⟨ent.fd, hdue.ready hs, fun j e he hfd => ?_, _, ent, hi, hent, rfl, hlive⟩
    -- an entry with its number that was live at its turn would have cleared the bit
    by_contra hdel
    have hj : j < s.schedEntry.length := (List.getElem?_eq_some_iff.1 he).1
    have hall := ((hcleared.mem_iff _).1 hbit).2
    have hbitj : e.fd ∈ (passAt behave s j).readfds := by
      rw [hfd, (cleared_passAt behave hs j).mem_iff]
      refine ⟨hdue.ready hs, fun c hc => hall c ?_⟩
      obtain ⟨hlt, hcall⟩ := (invoked_iff hs c).1 hc
      exact (invoked_iff hs c).2 ⟨by omega, hcall⟩
    obtain ⟨e', hduej, hfd', -⟩ := exists_due he hdel hbitj
    exact hall ⟨j, e'.callback, e'.fd⟩ ((invoked_iff hs _).2 ⟨hj, e', hduej, rfl⟩) (hfd'.trans hfd)

/-- **No spurious readiness, exactly if no descriptor is recycled before it is served.** Whatever the
list, the descriptors reported and the callbacks: the pass ends, and only entries that were in the
list at `select`, and whose descriptors it reported, are called, if and only if no ready descriptor
passes, before it is served, from a deleted entry to an added one. -/
theorem noSpurious_iff (behave : Behaviour κ σ) (l : List (SchedEntry κ)) (readfds : Finset ℤ) (app : σ) :
    ∃ r, Dispatches behave (selected l readfds app) r ∧
      (NoSpurious (selected l readfds app) r ↔ ¬ Recycled behave (selected l readfds app)) := by
  obtain ⟨n, hn⟩ := exists_last behave (selected l readfds app)
  refine ⟨_, dispatches_last hn, ?_⟩
  rw [noSpurious_last rfl hn, recycled_iff rfl]
  constructor
  · rintro h ⟨i, ent, hi, hdue⟩
    have := h i ent hdue
    omega
  · intro h i ent hdue
    by_contra hge
    exact h ⟨i, ent, by omega, hdue⟩

/-- **An added entry is called for the readiness of a deleted one.** The callback of descriptor 3
deletes the ready descriptor 5 before its turn and adds an entry that gets the same number. -/
theorem added_entry_called : ¬ ∀ (behave : Behaviour ℕ Unit) (l : List (SchedEntry ℕ)) (readfds : Finset ℤ),
    ∃ r, Dispatches behave (selected l readfds ()) r ∧ NoSpurious (selected l readfds ()) r := by
  intro h
  obtain ⟨r, hr, hspur⟩ := h recycling twoReady {3, 5}
  have hend : (passAt recycling (selected twoReady {3, 5} ()) 3).schedEntry.length ≤ 3 := by decide
  rw [hr.unique (dispatches_last hend)] at hspur
  obtain ⟨ent, hent, -⟩ := hspur ⟨2, 2, 5⟩ (by decide)
  exact absurd hent (by simp [selected, schedSweep_kept, twoReady])

end AtlasClient
