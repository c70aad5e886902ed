import AtlasClient.Proof.Command
import Mathlib.Data.List.Induction
import Mathlib.Logic.Relation

/-!
# Malformed batches

`setRawCheck` takes the validation loop apart at its checks, so that the pointer and the counter
can be compared between any two of them; `setRawBody` is four checks (`loop_checks`).

* `SetRawInv`: pointer, counter and iterations at every check.
* `setRaw_bounds`: **the validation stays inside the buffer and ends**, whatever the bytes, and so
  does the walk over what it has accepted.
-/

namespace AtlasClient

open Framing Loop Relation

variable {e : Endian} {buf : Bytes}

/-! ## The loop, check by check -/

/-- What is checked next: the condition of the loop, or the rest against the type, the length or
the value of a command. -/
inductive Check
  | loop
  | type
  | length
  | value (cmdLen : UInt16)
  deriving DecidableEq, Repr

/-- The variables of the loop, and how many iterations have been begun. -/
structure SetRawState where
  check : Check
  p : ℕ
  tmpLen : UInt16
  rounds : ℕ
  deriving DecidableEq, Repr

def SetRawState.start (len : UInt16) : SetRawState := ⟨.loop, 0, len, 0⟩

def setRawCheck (e : Endian) (buf : Bytes) (s : SetRawState) : Except Fault (SetRawState ⊕ AtlasStatus) :=
  match s.check with
  | .loop =>
    if s.tmpLen = 0 then .ok (.inr .ok)
    else .ok (.inl { s with check := .type, rounds := s.rounds + 1 })
  | .type =>
    if s.tmpLen < 2 then .ok (.inr .corruptedCommand)
    else .ok (.inl { s with check := .length, p := s.p + 2, tmpLen := s.tmpLen - 2 })
  | .length =>
    if s.tmpLen < 2 then .ok (.inr .corruptedCommand)
    else do
      let cmdLen ← (read16 e buf s.p).map (ntohs e)
      .ok (.inl { s with check := .value cmdLen, p := s.p + 2, tmpLen := s.tmpLen - 2 })
  | .value cmdLen =>
    if s.tmpLen < cmdLen then .ok (.inr .corruptedCommand)
    else .ok (.inl { s with check := .loop, p := s.p + cmdLen.toNat, tmpLen := s.tmpLen - cmdLen })

/-- The states that the validation of a buffer goes through. -/
def SetRawReaches (e : Endian) (buf : Bytes) (len : UInt16) : SetRawState → Prop :=
  ReflTransGen (fun s s' => setRawCheck e buf s = .ok (.inl s')) (.start len)

/-- Where the checks are after an iteration: at the end of the loop, or at its condition again. -/
def checksAfter (e : Endian) (buf : Bytes) (rounds n : ℕ) : (ℕ × UInt16) ⊕ AtlasStatus → Except Fault AtlasStatus
  | .inr status => .ok status
  | .inl (p, tmpLen) => loop .diverges (setRawCheck e buf) n ⟨.loop, p, tmpLen, rounds + 1⟩

/-- **An iteration is four checks**, or fewer if one of them ends the loop. -/
theorem body_checks {p rounds : ℕ} {tmpLen : UInt16} {r : (ℕ × UInt16) ⊕ AtlasStatus}
    (h : setRawBody e buf (p, tmpLen) = .ok r) (n : ℕ) :
    loop .diverges (setRawCheck e buf) (n + 4) ⟨.loop, p, tmpLen, rounds⟩ = checksAfter e buf rounds n r := by
  simp only [setRawBody] at h
  by_cases h0 : tmpLen = 0
  · have hend : setRawCheck e buf ⟨.loop, p, tmpLen, rounds⟩ = .ok (.inr .ok) := if_pos h0
    rw [if_pos h0] at h
    cases h
    exact loop_done hend
  have htype : setRawCheck e buf ⟨.loop, p, tmpLen, rounds⟩ = .ok (.inl ⟨.type, p, tmpLen, rounds + 1⟩) := if_neg h0
  rw [if_neg h0] at h
  rw [loop_next htype]
  by_cases h1 : tmpLen < 2
  · have hend : setRawCheck e buf ⟨.type, p, tmpLen, rounds + 1⟩ = .ok (.inr .corruptedCommand) := if_pos h1
    rw [if_pos h1] at h
    cases h
    exact loop_done hend
  have hlength : setRawCheck e buf ⟨.type, p, tmpLen, rounds + 1⟩ =
      .ok (.inl ⟨.length, p + 2, tmpLen - 2, rounds + 1⟩) := if_neg h1
  rw [if_neg h1] at h
  rw [loop_next hlength]
  by_cases h2 : tmpLen - 2 < 2
  · have hend : setRawCheck e buf ⟨.length, p + 2, tmpLen - 2, rounds + 1⟩ = .ok (.inr .corruptedCommand) :=
      if_pos h2
    rw [if_pos h2] at h
    cases h
    exact loop_done hend
  rw [if_neg h2] at h
  obtain ⟨cmdLen, hread, h⟩ := bind_ok.1 h
  have hvalue : setRawCheck e buf ⟨.length, p + 2, tmpLen - 2, rounds + 1⟩ =
      .ok (.inl ⟨.value cmdLen, p + 2 + 2, tmpLen - 2 - 2, rounds + 1⟩) := by
    simp only [setRawCheck, if_neg h2, hread, bind, Except.bind]
  rw [loop_next hvalue]
  by_cases h3 : tmpLen - 2 - 2 < cmdLen
  · have hend : setRawCheck e buf ⟨.value cmdLen, p + 2 + 2, tmpLen - 2 - 2, rounds + 1⟩ =
        .ok (.inr .corruptedCommand) := if_pos h3
    rw [if_pos h3] at h
    cases h
    exact loop_done hend
  · have hnext : setRawCheck e buf ⟨.value cmdLen, p + 2 + 2, tmpLen - 2 - 2, rounds + 1⟩ =
        .ok (.inl ⟨.loop, p + 2 + 2 + cmdLen.toNat, tmpLen - 2 - 2 - cmdLen, rounds + 1⟩) := if_neg h3
    rw [if_neg h3] at h
    cases h
    exact loop_next hnext

/-- **The loop of `atlas_cmd_batch_set_raw` is the loop over its checks**, four for an iteration. -/
theorem loop_checks {status : AtlasStatus} : ∀ {k p rounds : ℕ} {tmpLen : UInt16},
    loop .diverges (setRawBody e buf) k (p, tmpLen) = .ok status →
      loop .diverges (setRawCheck e buf) (4 * k) ⟨.loop, p, tmpLen, rounds⟩ = .ok status := by
  intro k
  induction k with
  | zero => intro p rounds tmpLen h; cases h
  | succ k ih =>
    intro p rounds tmpLen h
    rw [loop] at h
    cases hb : setRawBody e buf (p, tmpLen) with
    | error f => rw [hb] at h; cases h
    | ok r =>
      rw [hb] at h
      rw [Nat.mul_succ, body_checks hb]
      rcases r with ⟨p', tmpLen'⟩ | status'
      · exact ih h
      · exact h

/-! ## The property -/

/-- At a check of a buffer of exactly the given length: the step makes no access outside, the counter
is the length minus the offset and is not diminished by more than it holds, and the iterations
are at most a quarter of the length and one. -/
structure SetRawSafe (e : Endian) (buf : Bytes) (s : SetRawState) : Prop where
  reads : ∃ x, setRawCheck e buf s = .ok x
  counter : s.p + s.tmpLen.toNat = buf.length
  advance : ∀ s', setRawCheck e buf s = .ok (.inl s') →
    s.p ≤ s'.p ∧ s'.p - s.p ≤ s.tmpLen.toNat ∧ s'.tmpLen.toNat = s.tmpLen.toNat - (s'.p - s.p)
  rounds : s.rounds ≤ buf.length / 4 + 1

/-- The `n`-th call of the loop over a batch; the first one is given `NULL`. -/
def getN (e : Endian) (b : AtlasCmdBatch) : ℕ → Except Fault (AtlasCmdBatch × Option ℕ)
  | 0 => atlasCmdBatchGet e b none
  | n + 1 => do
    let (b, cmd) ← getN e b n
    match cmd with
    | none => .ok (b, none)
    | some off => atlasCmdBatchGet e b (some off)

/-- Every header and value that the loop exposes lies inside a block of `len` bytes, and the loop
ends within a quarter of the length. -/
structure WalksInside (e : Endian) (len : ℕ) (b : AtlasCmdBatch) : Prop where
  inside : ∀ n, ∃ b' cmd, getN e b n = .ok (b', cmd) ∧ b'.buf_.length = len ∧
    ∀ off, cmd = some off → ∃ c, cmdAt e b' off = .ok c ∧ off + 4 + c.length.toNat ≤ len
  ends : ∃ n ≤ len / 4, ∃ b', getN e b n = .ok (b', none)

/-! ## The validation -/

/-- How many bytes of its iteration are behind a check. -/
def Check.passed : Check → ℕ
  | .loop => 4
  | .type => 0
  | .length => 2
  | .value _ => 4

/-- Pointer, counter and iterations at a check. Every iteration that is over took four bytes. -/
structure SetRawInv (len : ℕ) (s : SetRawState) : Prop where
  counter : s.p + s.tmpLen.toNat = len
  rounds : 4 * s.rounds + s.check.passed ≤ s.p + 4

theorem toNat_sub_two {n : UInt16} (h : ¬ n < 2) : 2 ≤ n.toNat ∧ (n - 2).toNat = n.toNat - 2 := by
  have hle := UInt16.not_lt.1 h
  exact ⟨UInt16.le_iff_toNat_le.1 hle, UInt16.toNat_sub_of_le _ _ hle⟩

theorem SetRawInv.reads {s : SetRawState} (h : SetRawInv buf.length s) : ∃ x, setRawCheck e buf s = .ok x := by
  have hc := h.counter
  obtain ⟨check, p, tmpLen, rounds⟩ := s
  unfold setRawCheck
  cases check with
  | loop => dsimp only; split <;> exact ⟨_, rfl⟩
  | type => dsimp only; split <;> exact ⟨_, rfl⟩
  | value cmdLen => dsimp only; split <;> exact ⟨_, rfl⟩
  | length =>
    dsimp only at hc ⊢
    split
    · exact ⟨_, rfl⟩
    · rename_i hlt
      have htwo := (toNat_sub_two hlt).1
      have hp : p + 2 ≤ buf.length := by omega
      obtain ⟨v, hv⟩ := read16_ok e hp
      exact ⟨_, by rw [hv]; rfl⟩

/-- **What one check does** to pointer, counter and iterations. -/
theorem check_step {s s' : SetRawState} (h : setRawCheck e buf s = .ok (.inl s')) :
    s.p ≤ s'.p ∧ s'.p - s.p ≤ s.tmpLen.toNat ∧ s'.tmpLen.toNat = s.tmpLen.toNat - (s'.p - s.p) ∧
      4 * s'.rounds + s'.check.passed + s.p ≤ 4 * s.rounds + s.check.passed + s'.p := by
  obtain ⟨check, p, tmpLen, rounds⟩ := s
  unfold setRawCheck at h
  cases check with
  | loop =>
    dsimp only at h
    split at h
    · cases h
    · cases h
      simp only [Check.passed]
      omega
  | type =>
    dsimp only at h
    split at h
    · cases h
    · rename_i hlt
      obtain ⟨h2, hsub⟩ := toNat_sub_two hlt
      cases h
      simp only [Check.passed, hsub]
      omega
  | length =>
    dsimp only at h
    split at h
    · cases h
    · rename_i hlt
      obtain ⟨h2, hsub⟩ := toNat_sub_two hlt
      obtain ⟨cmdLen, -, h⟩ := bind_ok.1 h
      cases h
      simp only [Check.passed, hsub]
      omega
  | value cmdLen =>
    dsimp only at h
    split at h
    · cases h
    · rename_i hlt
      have hle := UInt16.not_lt.1 hlt
      have hle' := UInt16.le_iff_toNat_le.1 hle
      cases h
      simp only [Check.passed, UInt16.toNat_sub_of_le _ _ hle]
      omega

theorem setRawInv_start {len : UInt16} (hlen : len.toNat = buf.length) : SetRawInv buf.length (.start len) :=
  ⟨by simp [SetRawState.start, hlen], by simp [SetRawState.start, Check.passed]⟩

theorem SetRawInv.step {s s' : SetRawState} {len : ℕ} (hs : SetRawInv len s)
    (h : setRawCheck e buf s = .ok (.inl s')) : SetRawInv len s' := by
  have hc := hs.counter
  have hr := hs.rounds
  obtain ⟨h1, h2, h3, h4⟩ := check_step h
  exact ⟨by omega, by omega⟩

/-- **The invariant holds at every check.** -/
theorem SetRawReaches.inv {len : UInt16} (hlen : len.toNat = buf.length) {s : SetRawState}
    (h : SetRawReaches e buf len s) : SetRawInv buf.length s := by
  induction h with
  | refl => exact setRawInv_start hlen
  | tail _ hstep ih => exact ih.step hstep

theorem SetRawInv.safe {s : SetRawState} (h : SetRawInv buf.length s) : SetRawSafe e buf s := by
  refine ⟨h.reads, h.counter, ?_, ?_⟩
  · intro s' hs'
    obtain ⟨h1, h2, h3, -⟩ := check_step hs'
    exact ⟨h1, h2, h3⟩
  · have hc := h.counter
    have hr := h.rounds
    omega

/-! ## The walk -/

/-- Commands as they stand in the buffer once their headers have been converted. -/
def hostEncode (e : Endian) (cmds : List Cmd) : Bytes := cmds.flatMap (Cmd.hostForm e)

theorem hostEncode_length (e : Endian) (cmds : List Cmd) : (hostEncode e cmds).length = (encode cmds).length := by
  induction cmds with
  | nil => rfl
  | cons c cs ih =>
    rw [encode_cons, List.length_append, c.bytes_length, ← ih, ← c.hostForm_length e]
    simp [hostEncode]

theorem hostEncode_snoc (e : Endian) (cmds : List Cmd) (c : Cmd) :
    hostEncode e (cmds ++ [c]) = hostEncode e cmds ++ c.hostForm e := by
  simp [hostEncode]

variable {b : AtlasCmdBatch}

/-- The batch when the loop stands on a command. -/
theorem getN_on {post : List Cmd} {c : Cmd} : ∀ {pre : List Cmd}, Holds b (pre ++ c :: post) →
    getN e b pre.length = .ok (⟨b.length_, hostEncode e pre ++ (c.hostForm e ++ encode post)⟩,
      some (hostEncode e pre).length) := by
  intro pre
  induction pre using List.reverseRecOn generalizing c post with
  | nil =>
    intro h
    obtain ⟨len, buf⟩ := b
    have hbuf := h.buf
    simp only [List.nil_append, encode_cons] at hbuf
    subst hbuf
    exact get_first e c (encode post) len
  | append_singleton pre d ih =>
    intro h
    have hsplit : (pre ++ [d]) ++ c :: post = pre ++ d :: c :: post := by simp
    rw [hsplit] at h
    have hlen := h.len
    rw [h.buf, encode_append, encode_cons, encode_cons, List.length_append, ← hostEncode_length e,
      ← List.length_append] at hlen
    rw [List.length_append, List.length_singleton, getN]
    rw [ih h, hostEncode_snoc, encode_cons]
    exact get_next e (hostEncode e pre) d c (encode post) b.length_ hlen

/-- From the last command on, the loop has ended. -/
theorem getN_end {pre : List Cmd} {c : Cmd} (h : Holds b (pre ++ [c])) : ∀ k,
    getN e b (pre.length + 1 + k) = .ok (⟨b.length_, hostEncode e (pre ++ [c])⟩, none) := by
  intro k
  induction k with
  | zero =>
    have hlen := h.len
    rw [h.buf, encode_append, encode_cons, encode_nil, List.append_nil, List.length_append, ← hostEncode_length e,
      ← List.length_append] at hlen
    have hlast := get_last e (hostEncode e pre) c b.length_ hlen
    rw [Nat.add_zero, getN, getN_on h, encode_nil, hostEncode_snoc]
    rw [List.append_nil] at hlast ⊢
    exact hlast
  | succ k ih =>
    rw [← Nat.add_assoc, getN, ih]
    rfl

/-- **The walk over a batch stays inside it and ends.** -/
theorem Holds.walksInside {cmds : List Cmd} (h : Holds b cmds) (hne : cmds ≠ []) :
    WalksInside e (encode cmds).length b := by
  have hlen : 4 * cmds.length ≤ (encode cmds).length := length_le_encode cmds
  obtain ⟨pre, c, rfl⟩ : ∃ pre c, cmds = pre ++ [c] := ⟨_, _, (List.dropLast_append_getLast hne).symm⟩
  rw [List.length_append, List.length_singleton] at hlen
  refine ⟨fun n => ?_, pre.length + 1, by omega, _, getN_end h 0⟩
  by_cases hn : n < (pre ++ [c]).length
  · -- the loop stands on the command number `n`
    obtain ⟨pre', d, post, hsplit, hpre⟩ : ∃ pre' d post, pre ++ [c] = pre' ++ d :: post ∧ pre'.length = n :=
      ⟨(pre ++ [c]).take n, (pre ++ [c])[n], (pre ++ [c]).drop (n + 1),
        by rw [List.getElem_cons_drop, List.take_append_drop], by rw [List.length_take]; omega⟩
    rw [hsplit] at h ⊢
    subst hpre
    refine ⟨_, _, getN_on h, ?_, ?_⟩
    · simp only [List.length_append, hostEncode_length, d.hostForm_length, encode_append, encode_cons,
        d.bytes_length]
    · rintro off ⟨⟩
      refine ⟨_, cmdAt_spec e _ d _ _, ?_⟩
      simp only [hostEncode_length, encode_append, encode_cons, List.length_append, d.bytes_length, d.size_eq,
        d.value_length]
      omega
  · obtain ⟨k, rfl⟩ : ∃ k, n = pre.length + 1 + k := ⟨n - (pre.length + 1), by simp at hn; omega⟩
    exact ⟨_, _, getN_end h k, hostEncode_length e _, by simp⟩

/-! ## The result -/

/-- **Malformed input is handled safely and the walks end.** For every buffer of 1 to 65535 bytes:
at each check of the validation no read is outside the buffer, the counter is the length minus
the offset, no subtraction underflows, and at most a quarter of the length plus one iterations
have begun; the loop ends. What is accepted is walked inside the buffer, and the walk yields
`NULL` within a quarter of the length. -/
theorem setRaw_bounds (e : Endian) (buf : Bytes) (hpos : 1 ≤ buf.length) (hmax : buf.length ≤ 65535) :
    (∀ s, SetRawReaches e buf (UInt16.ofNat buf.length) s → SetRawSafe e buf s) ∧
    (∃ n status, loop .diverges (setRawCheck e buf) n (.start (UInt16.ofNat buf.length)) = .ok status ∧
      ∀ b, ∃ b', atlasCmdBatchSetRaw e b buf (UInt16.ofNat buf.length) = .ok (status, b')) ∧
    ∀ b b', atlasCmdBatchSetRaw e b buf (UInt16.ofNat buf.length) = .ok (.ok, b') →
      WalksInside e buf.length b' := by
  have hlen : (UInt16.ofNat buf.length).toNat = buf.length := by
    rw [UInt16.toNat_ofNat', Nat.mod_eq_of_lt (by omega)]
  have hne : buf ≠ [] := by rintro rfl; simp at hpos
  refine ⟨fun s hs => (hs.inv hlen).safe, ⟨4 * (buf.length + 1), verdict buf, ?_, ?_⟩, ?_⟩
  · have hloop := setRawLoop_spec e [] (buf.length + 1) [] buf _ hlen (by omega)
    rw [List.nil_append, List.append_nil] at hloop
    exact loop_checks hloop
  · intro b
    have hspec := setRaw_spec e b buf [] _ hlen hne
    rw [List.append_nil] at hspec
    rcases hspec with ⟨hv, h⟩ | ⟨hv, h⟩
    · exact ⟨_, by rw [hv]; exact h⟩
    · exact ⟨_, by rw [hv]; exact h⟩
  · intro b b' h
    rw [← List.append_nil buf] at h
    obtain ⟨cmds, hcmds, hcne, hholds⟩ := setRaw_holds (by rw [List.append_nil]; exact hlen) h
    rw [hcmds]
    exact hholds.walksInside hcne

/-- A reputation command with its sensor type and the question for the identity, with the batch they are accepted
into. -/
theorem setRaw_bounds_two : WalksInside .little 10 ⟨10, [5, 220, 0, 2, 0, 101, 3, 235, 0, 0]⟩ :=
  (setRaw_bounds .little [5, 220, 0, 2, 0, 101, 3, 235, 0, 0] (by decide) (by decide)).2.2 atlasCmdBatchNew _ (by rfl)

end AtlasClient
