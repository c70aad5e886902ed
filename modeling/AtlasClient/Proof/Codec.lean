import AtlasClient.Proof.Command

/-!
# Encoding and decoding batches

* `setRaw_parses`: `atlas_cmd_batch_set_raw` accepts exactly the concatenations of one
  or more commands, and the loop over the batch yields the unique parse.
* `decode_encode`: what is added to a batch is what another batch yields, also on top of
  a received batch, and also inside a value.
-/

namespace AtlasClient

open Framing

/-- The number of bytes the commands take. -/
def encodedSize (cmds : List Cmd) : ℕ := (cmds.map fun c => 4 + c.value.length).sum

theorem encode_length (cmds : List Cmd) : (encode cmds).length = encodedSize cmds := by
  induction cmds with
  | nil => rfl
  | cons c cs ih =>
    rw [encode_cons, List.length_append, c.bytes_length, c.size_eq, ih]
    simp [encodedSize]

/-- The bytes are a batch of exactly these types and values. -/
def IsBatch (bs : Bytes) (l : List (UInt16 × Bytes)) : Prop :=
  ∃ cmds : List Cmd, bs = encode cmds ∧ cmds.map (fun c => (c.type, c.value)) = l

/-- A batch that holds commands yields them, and its buffer read into another batch does too. -/
theorem yield_getBuf (e : Endian) {b : AtlasCmdBatch} {cmds : List Cmd} (h : Holds b cmds) (hne : cmds ≠ []) :
    ∃ b₂, atlasCmdBatchSetRaw e atlasCmdBatchNew (atlasCmdBatchGetBuf b).1 (atlasCmdBatchGetBuf b).2 =
      .ok (.ok, b₂) ∧ yieldCmds e b₂ = .ok (cmds.map Cmd.args) := by
  obtain ⟨b₂, hraw, h₂⟩ := setRaw_encode e atlasCmdBatchNew hne h.length_lt
  have hlen : b.length_ = UInt16.ofNat (encode cmds).length := by rw [h.eq_mk]
  refine ⟨b₂, ?_, yieldCmds_eq e h₂ hne⟩
  simp only [atlasCmdBatchGetBuf, h.buf, hlen]
  exact hraw

/-- **The parser accepts exactly the grammar and yields the unique parse.** A buffer of 1 to
65535 bytes is accepted iff it is a concatenation of commands; then the loop over the batch
yields those commands, and adding what it yields to a new batch gives the buffer back. Any
other buffer is rejected as corrupted, a zero length as invalid, and the batch is unchanged. -/
theorem setRaw_parses (e : Endian) (buf : Bytes) (hpos : 1 ≤ buf.length) (hmax : buf.length ≤ 65535) :
    ((∃ b, atlasCmdBatchSetRaw e atlasCmdBatchNew buf (UInt16.ofNat buf.length) = .ok (.ok, b)) ↔
      ∃ cmds : List Cmd, cmds ≠ [] ∧ buf = encode cmds) ∧
    (∀ cmds : List Cmd, cmds ≠ [] → buf = encode cmds →
      ∃ b b', atlasCmdBatchSetRaw e atlasCmdBatchNew buf (UInt16.ofNat buf.length) = .ok (.ok, b) ∧
        yieldCmds e b = .ok (cmds.map Cmd.args) ∧
        addCmds e atlasCmdBatchNew (cmds.map Cmd.args) = .ok b' ∧
        atlasCmdBatchGetBuf b' = (buf, UInt16.ofNat buf.length)) ∧
    ((¬ ∃ cmds : List Cmd, cmds ≠ [] ∧ buf = encode cmds) →
      ∀ b, atlasCmdBatchSetRaw e b buf (UInt16.ofNat buf.length) = .ok (.corruptedCommand, b)) ∧
    (∀ b raw, atlasCmdBatchSetRaw e b raw 0 = .ok (.invalidInput, b)) := by
  have hne : buf ≠ [] := by rintro rfl; simp at hpos
  have hlen : (UInt16.ofNat buf.length).toNat = buf.length := by
    rw [UInt16.toNat_ofNat', Nat.mod_eq_of_lt (by omega)]
  have hnonempty : ∀ cmds : List Cmd, buf = encode cmds → cmds ≠ [] := by
    rintro cmds rfl rfl; exact hne rfl
  have hgood : ∀ cmds : List Cmd, buf = encode cmds →
      ∃ b, atlasCmdBatchSetRaw e atlasCmdBatchNew buf (UInt16.ofNat buf.length) = .ok (.ok, b) ∧
        Holds b cmds := by
    rintro cmds rfl
    exact setRaw_encode e _ (hnonempty cmds rfl) (by omega)
  have hbad : (¬ ∃ cmds : List Cmd, cmds ≠ [] ∧ buf = encode cmds) →
      ∀ b, atlasCmdBatchSetRaw e b buf (UInt16.ofNat buf.length) = .ok (.corruptedCommand, b) := by
    intro hno b
    have henc : ¬ IsEncoding cmdHeader buf := fun ⟨cmds, hc⟩ => hno ⟨cmds, hnonempty cmds hc, hc⟩
    simpa using setRaw_rejects e b hlen hne henc []
  refine ⟨⟨?_, ?_⟩, ?_, hbad, ?_⟩
  · rintro ⟨b, hb⟩
    by_contra hno
    rw [hbad hno] at hb; cases hb
  · rintro ⟨cmds, -, hc⟩
    obtain ⟨b, hb, -⟩ := hgood cmds hc
    exact ⟨b, hb⟩
  · intro cmds hc0 hc
    obtain ⟨b, hb, hholds⟩ := hgood cmds hc
    obtain ⟨b', hb', hholds'⟩ := addCmds_ok (e := e) cmds holds_new (by rw [List.nil_append, ← hc]; omega)
    refine ⟨b, b', hb, yieldCmds_eq e hholds hc0, hb', ?_⟩
    rw [hholds'.eq_mk]
    simp [atlasCmdBatchGetBuf, hc]
  · intro b raw; simp [atlasCmdBatchSetRaw]

/-- A reputation command with its sensor type, and the question for the identity. -/
theorem setRaw_parses_two : ∃ b b',
    atlasCmdBatchSetRaw .little atlasCmdBatchNew [5, 220, 0, 2, 0, 101, 3, 235, 0, 0] 10 = .ok (.ok, b) ∧
    yieldCmds .little b = .ok [(1500, 2, [0, 101]), (1003, 0, [])] ∧
    addCmds .little atlasCmdBatchNew [(1500, 2, [0, 101]), (1003, 0, [])] = .ok b' ∧
    atlasCmdBatchGetBuf b' = ([5, 220, 0, 2, 0, 101, 3, 235, 0, 0], 10) :=
  (setRaw_parses .little [5, 220, 0, 2, 0, 101, 3, 235, 0, 0] (by decide) (by decide)).2.1
    [Cmd.of 1500 [0, 101] (by decide), Cmd.of 1003 [] (by decide)] (by simp) (by decide)

/-- **Decoding undoes encoding.** Commands added in order to a new batch, or to a batch filled by
`atlas_cmd_batch_set_raw`, are what another batch yields from its bytes; a yielded value that is
itself an encoding decodes to the inner commands, whatever follows it in memory. -/
theorem decode_encode (e : Endian) (old new : List Cmd) (hne : old ++ new ≠ [])
    (hfit : encodedSize (old ++ new) ≤ 65535) :
    (∃ b b₂, addCmds e atlasCmdBatchNew ((old ++ new).map Cmd.args) = .ok b ∧
      atlasCmdBatchSetRaw e atlasCmdBatchNew (atlasCmdBatchGetBuf b).1 (atlasCmdBatchGetBuf b).2 =
        .ok (.ok, b₂) ∧
      yieldCmds e b₂ = .ok ((old ++ new).map Cmd.args)) ∧
    (old ≠ [] → ∃ b₀ b b₂,
      atlasCmdBatchSetRaw e atlasCmdBatchNew (encode old) (UInt16.ofNat (encode old).length) =
        .ok (.ok, b₀) ∧
      addCmds e b₀ (new.map Cmd.args) = .ok b ∧
      atlasCmdBatchSetRaw e atlasCmdBatchNew (atlasCmdBatchGetBuf b).1 (atlasCmdBatchGetBuf b).2 =
        .ok (.ok, b₂) ∧
      yieldCmds e b₂ = .ok (old.map Cmd.args ++ new.map Cmd.args)) ∧
    (∀ c ∈ old ++ new, ∀ inner : List Cmd, inner ≠ [] → c.value = encode inner → ∀ rest, ∃ b₃,
      atlasCmdBatchSetRaw e atlasCmdBatchNew (c.value ++ rest) c.length = .ok (.ok, b₃) ∧
      yieldCmds e b₃ = .ok (inner.map Cmd.args)) := by
  have hsize : (encode (old ++ new)).length < 65536 := by rw [encode_length]; omega
  refine ⟨?_, ?_, ?_⟩
  · obtain ⟨b, hb, hholds⟩ := addCmds_ok (e := e) (old ++ new) holds_new (by simpa using hsize)
    obtain ⟨b₂, hraw, hy⟩ := yield_getBuf e hholds (by simpa using hne)
    exact ⟨b, b₂, hb, hraw, by simpa using hy⟩
  · intro hold
    have hle : (encode old).length < 65536 := by
      rw [encode_append, List.length_append] at hsize; omega
    obtain ⟨b₀, hraw₀, h₀⟩ := setRaw_encode e atlasCmdBatchNew hold hle
    obtain ⟨b, hb, hholds⟩ := addCmds_ok (e := e) new h₀ hsize
    obtain ⟨b₂, hraw, hy⟩ := yield_getBuf e hholds hne
    exact ⟨b₀, b, b₂, hraw₀, hb, hraw, by rw [hy, List.map_append]⟩
  · intro c _ inner hin hval rest
    have hlen : c.length.toNat = c.value.length := c.value_length.symm
    have hne' : c.value ≠ [] := by rw [hval, Ne, encode_eq_nil]; exact hin
    exact ⟨_, setRaw_accepts e atlasCmdBatchNew hlen hne' ⟨inner, hval⟩ rest, yieldCmds_eq e ⟨hval, hlen⟩ hin⟩

/-- A policy command with its nested batch, encoded and decoded. -/
theorem decode_encode_policy :
    ∃ b b₂, addCmds .little atlasCmdBatchNew
        [(1000, 6, encode [Cmd.of 1100 [2, 0] (by decide)])] = .ok b ∧
      atlasCmdBatchSetRaw .little atlasCmdBatchNew (atlasCmdBatchGetBuf b).1 (atlasCmdBatchGetBuf b).2 =
        .ok (.ok, b₂) ∧
      yieldCmds .little b₂ = .ok [(1000, 6, encode [Cmd.of 1100 [2, 0] (by decide)])] :=
  (decode_encode .little [] [Cmd.of 1000 (encode [Cmd.of 1100 [2, 0] (by decide)]) (by decide)]
    (by simp) (by decide)).1

end AtlasClient
