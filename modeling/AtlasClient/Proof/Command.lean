import AtlasClient.Spec.Command

/-!
# The command codec

* `add_eq`, `add_ok`: `atlas_cmd_batch_add` appends the encoding of one command.
* `setRaw_spec`: `atlas_cmd_batch_set_raw` accepts exactly the non-empty encodings.
* `cmdLoop_eq`: a loop over a batch is a fold over its commands, whatever the handler
  does, and ends within its rounds.
-/

namespace AtlasClient

open Framing Loop

variable {e : Endian}

/-- The batch holds the encoding of `cmds`, and its length field says so. -/
structure Holds (b : AtlasCmdBatch) (cmds : List Cmd) : Prop where
  buf : b.buf_ = encode cmds
  len : b.length_.toNat = b.buf_.length

theorem holds_new : Holds atlasCmdBatchNew [] := ⟨rfl, rfl⟩

theorem Holds.length_lt {b : AtlasCmdBatch} {cmds : List Cmd} (h : Holds b cmds) :
    (encode cmds).length < 65536 := by
  have := b.length_.toNat_lt
  have := h.len
  rw [h.buf] at this; omega

/-- A batch is determined by the commands it holds. -/
theorem Holds.eq_mk {b : AtlasCmdBatch} {cmds : List Cmd} (h : Holds b cmds) :
    b = ⟨UInt16.ofNat (encode cmds).length, encode cmds⟩ := by
  obtain ⟨l, buf⟩ := b
  have hb := h.buf
  have hl := h.len
  simp only at hb hl
  subst hb
  congr 1
  apply UInt16.toNat_inj.1
  rw [hl, UInt16.toNat_ofNat', Nat.mod_eq_of_lt h.length_lt]

/-! ## Adding a command -/

/-- A block is read from its start up to a given length. -/
theorem readAt_head (s post : Bytes) {n : ℕ} (hn : n = s.length) : readAt (s ++ post) 0 n = .ok s := by
  rw [hn]
  exact readAt_append [] s post

/-- The value is read, whatever stands behind it. -/
theorem Cmd.read_value (c : Cmd) (post : Bytes) : readAt (c.value ++ post) 0 c.length.toNat = .ok c.value :=
  readAt_head c.value post c.value_length.symm

theorem Cmd.read_value_alone (c : Cmd) : readAt c.value 0 c.length.toNat = .ok c.value := by
  simpa using c.read_value []

theorem realloc_append (buf : Bytes) (n : ℕ) : realloc buf (buf.length + n) = buf ++ List.replicate n 0 := by
  unfold realloc
  rw [List.take_of_length_le (by omega), Nat.add_sub_cancel_left]

/-- **`atlas_cmd_batch_add` appends the bytes of the command**, if the block still fits 16 bits. -/
theorem add_eq {b : AtlasCmdBatch} (hl : b.length_.toNat = b.buf_.length) (c : Cmd)
    (hfit : b.buf_.length + c.size < 65536) :
    ∃ b', atlasCmdBatchAdd e b c.type c.length c.value = .ok b' ∧ b'.buf_ = b.buf_ ++ c.bytes ∧
      b'.length_.toNat = b.buf_.length + c.size := by
  have hc := c.value_length
  rw [c.size_eq] at hfit
  have hnew : (b.length_ + 4 + c.length).toNat = b.buf_.length + (2 + (2 + c.value.length)) := by
    simp only [UInt16.toNat_add, UInt16.toNat_ofNat]
    omega
  have hval := c.read_value_alone
  -- the grown block: old bytes, then room for type, length and value
  set t : Bytes := List.replicate 2 0
  set l : Bytes := List.replicate 2 0
  set v : Bytes := List.replicate c.value.length 0
  have hre : realloc b.buf_ (b.length_ + 4 + c.length).toNat = b.buf_ ++ (t ++ (l ++ v)) := by
    rw [hnew, realloc_append]
    simp only [t, l, v, List.append_cancel_left_eq]
    rw [List.replicate_add, List.replicate_add]
  have h1 : writeAt (b.buf_ ++ (t ++ (l ++ v))) (b.length_.toNat + 4) c.value =
      .ok (b.buf_ ++ (t ++ (l ++ c.value))) := by
    have := writeAt_append (b.buf_ ++ (t ++ l)) v c.value [] (by simp [v])
    simpa [hl, t, l] using this
  have h2 : writeAt (b.buf_ ++ (t ++ (l ++ c.value))) b.length_.toNat (hostBytes e (htons e c.type)) =
      .ok (b.buf_ ++ (netBytes c.type ++ (l ++ c.value))) := by
    rw [hl, hostBytes_htons]; exact writeAt_append _ _ _ _ rfl
  have h3 : writeAt (b.buf_ ++ (netBytes c.type ++ (l ++ c.value))) (b.length_.toNat + 2)
      (hostBytes e (htons e c.length)) = .ok (b.buf_ ++ c.bytes) := by
    have := writeAt_append (b.buf_ ++ netBytes c.type) l (netBytes c.length) c.value rfl
    simpa [hl, hostBytes_htons, c.bytes_eq] using this
  refine ⟨⟨b.length_ + 4 + c.length, b.buf_ ++ c.bytes⟩, ?_, rfl, ?_⟩
  · simp only [atlasCmdBatchAdd, hre, hval, bind, Except.bind, h1, h2, h3]
    rfl
  · rw [hnew, c.size_eq]; omega

theorem add_ok {b : AtlasCmdBatch} {cmds : List Cmd} (h : Holds b cmds) (c : Cmd)
    (hfit : (encode (cmds ++ [c])).length < 65536) :
    ∃ b', atlasCmdBatchAdd e b c.type c.length c.value = .ok b' ∧ Holds b' (cmds ++ [c]) := by
  have henc : encode (cmds ++ [c]) = b.buf_ ++ c.bytes := by simp [h.buf]
  rw [henc, List.length_append, c.bytes_length] at hfit
  obtain ⟨b', hadd, hbuf, hlen⟩ := add_eq (e := e) h.len c hfit
  refine ⟨b', hadd, hbuf.trans henc.symm, ?_⟩
  rw [hlen, hbuf, List.length_append, c.bytes_length]

/-- What `atlas_cmd_batch_add` is given for a command. -/
def Cmd.args (c : Cmd) : UInt16 × UInt16 × Bytes := (c.type, c.length, c.value)

/-- **Adding a list of commands appends its encoding.** -/
theorem addCmds_ok : ∀ (new : List Cmd) {b : AtlasCmdBatch} {old : List Cmd}, Holds b old →
    (encode (old ++ new)).length < 65536 →
    ∃ b', addCmds e b (new.map Cmd.args) = .ok b' ∧ Holds b' (old ++ new) := by
  intro new
  induction new with
  | nil => intro b old h _; exact ⟨b, rfl, by simpa using h⟩
  | cons c cs ih =>
    intro b old h hfit
    have hsplit : old ++ c :: cs = (old ++ [c]) ++ cs := by simp
    rw [hsplit] at hfit ⊢
    have hle : (encode (old ++ [c])).length ≤ (encode (old ++ [c] ++ cs)).length := by
      rw [encode_append (old ++ [c]) cs, List.length_append]; omega
    obtain ⟨b₁, h₁, hb₁⟩ := add_ok (e := e) h c (by omega)
    obtain ⟨b₂, h₂, hb₂⟩ := ih hb₁ hfit
    refine ⟨b₂, ?_, hb₂⟩
    simp only [addCmds, List.map_cons, List.foldlM_cons, Cmd.args, h₁, bind, Except.bind] at h₂ ⊢
    exact h₂

/-! ## Validation -/

/-- What the first four bytes of a stream say as a header. -/
theorem short_of_cons {a b c d : UInt8} {r : Bytes} (h : r.length < (word c d).toNat) :
    Short cmdHeader (a :: b :: c :: d :: r) :=
  ⟨by simp, Or.inr (by simp [cmdHeader]; omega)⟩

/-- A complete command at the head of a stream. -/
theorem frame_of_cons {a b c d : UInt8} {r : Bytes} (h : (word c d).toNat ≤ r.length) :
    ∃ f : Cmd, f.size = 4 + (word c d).toNat ∧
      a :: b :: c :: d :: r = f.bytes ++ r.drop (word c d).toNat := by
  have hlen : (r.take (word c d).toNat).length = (word c d).toNat := by rw [List.length_take]; omega
  refine ⟨⟨(word a b, word c d), r.take (word c d).toNat, hlen⟩, ?_, ?_⟩
  · rw [Cmd.size_eq]; simp [Cmd.value, hlen]
  · simp [Cmd.bytes_eq, Cmd.type, Cmd.length, Cmd.value, netBytes, List.take_append_drop]

theorem short_of_length {s : Bytes} (h0 : s ≠ []) (h : s.length < 4) : Short cmdHeader s :=
  ⟨h0, Or.inl h⟩

open Classical in
/-- The status of the validation: whether the bytes are an encoding. -/
noncomputable def verdict (s : Bytes) : AtlasStatus :=
  if IsEncoding cmdHeader s then .ok else .corruptedCommand

theorem verdict_short {s : Bytes} (h : Short cmdHeader s) : verdict s = .corruptedCommand :=
  if_neg h.not_isEncoding

theorem verdict_nil : verdict [] = .ok := if_pos isEncoding_nil

theorem verdict_frame (f : Cmd) (r : Bytes) : verdict (f.bytes ++ r) = verdict r := by
  have h := isEncoding_append (F := cmdHeader) f r
  unfold verdict
  by_cases hr : IsEncoding cmdHeader r
  · rw [if_pos hr, if_pos (h.2 hr)]
  · rw [if_neg hr, if_neg (fun hf => hr (h.1 hf))]

/-- **One round of the validation**, with the bytes `s` left to look at: it ends with the
verdict on `s`, or it steps over one command. -/
theorem setRawBody_spec (e : Endian) (pre s post : Bytes) (n : UInt16) (hn : n.toNat = s.length) :
    setRawBody e (pre ++ (s ++ post)) (pre.length, n) = .ok (.inr (verdict s)) ∨
      ∃ (f : Cmd) (r : Bytes) (n' : UInt16), s = f.bytes ++ r ∧ n'.toNat = r.length ∧
        setRawBody e (pre ++ (s ++ post)) (pre.length, n) = .ok (.inl ((pre ++ f.bytes).length, n')) := by
  have h2 : (2 : UInt16).toNat = 2 := rfl
  match s, hn with
  | [], hn =>
    have h0 : n = 0 := UInt16.toNat_inj.1 (by simpa using hn)
    exact Or.inl (by simp [setRawBody, h0, verdict_nil])
  | [a], hn =>
    have h0 : n = 1 := UInt16.toNat_inj.1 (by simpa using hn)
    have hv := verdict_short (short_of_length (s := [a]) (by simp) (by simp))
    exact Or.inl (by simp [setRawBody, h0, hv])
  | [a, b], hn =>
    have h0 : n = 2 := UInt16.toNat_inj.1 (by simpa using hn)
    have hv := verdict_short (short_of_length (s := [a, b]) (by simp) (by simp))
    exact Or.inl (by simp [setRawBody, h0, hv])
  | [a, b, c], hn =>
    have h0 : n = 3 := UInt16.toNat_inj.1 (by simpa using hn)
    have hv := verdict_short (short_of_length (s := [a, b, c]) (by simp) (by simp))
    exact Or.inl (by simp [setRawBody, h0, hv])
  | a :: b :: c :: d :: r, hn =>
    simp only [List.length_cons] at hn
    have hn0 : n ≠ 0 := by rintro rfl; simp at hn
    have hlt : ¬ n < 2 := by rw [UInt16.lt_iff_toNat_lt, h2]; omega
    have hs : (n - 2).toNat = r.length + 2 := by
      rw [UInt16.toNat_sub_of_le _ _ (UInt16.not_lt.1 hlt), h2]; omega
    have hlt' : ¬ n - 2 < 2 := by rw [UInt16.lt_iff_toNat_lt, h2]; omega
    have hs' : (n - 2 - 2).toNat = r.length := by
      rw [UInt16.toNat_sub_of_le _ _ (UInt16.not_lt.1 hlt'), h2]; omega
    -- the length field of the command
    have hread : (read16 e (pre ++ (a :: b :: c :: d :: r ++ post)) (pre.length + 2)).map (ntohs e) =
        .ok (word c d) := by
      have := read16_append e (pre ++ [a, b]) c d (r ++ post)
      simp only [List.append_assoc, List.cons_append, List.nil_append, List.length_append,
        List.length_cons, List.length_nil] at this
      simp [this, Except.map]
    simp only [setRawBody, hn0, hlt, hlt', if_false, hread, bind, Except.bind]
    by_cases hc : n - 2 - 2 < word c d
    · left
      rw [if_pos hc, verdict_short (short_of_cons _)]
      rw [UInt16.lt_iff_toNat_lt, hs'] at hc; exact hc
    · right
      have hle := UInt16.not_lt.1 hc
      have hle' : (word c d).toNat ≤ r.length := by rw [← hs']; exact UInt16.le_iff_toNat_le.1 hle
      obtain ⟨f, hf, heq⟩ := frame_of_cons (a := a) (b := b) hle'
      refine ⟨f, r.drop (word c d).toNat, n - 2 - 2 - word c d, heq, ?_, ?_⟩
      · rw [UInt16.toNat_sub_of_le _ _ hle, hs', List.length_drop]
      · rw [if_neg hc, List.length_append, f.bytes_length, hf]
        congr 3; omega

/-- The validation loop ends within its rounds, with the verdict on the bytes it is given. -/
theorem setRawLoop_spec (e : Endian) (post : Bytes) : ∀ (k : ℕ) (pre s : Bytes) (n : UInt16),
    n.toNat = s.length → s.length < k →
    loop .diverges (setRawBody e (pre ++ (s ++ post))) k (pre.length, n) = .ok (verdict s) := by
  intro k
  induction k with
  | zero => intro pre s n _ h; exact absurd h (Nat.not_lt_zero _)
  | succ k ih =>
    intro pre s n hn hk
    rcases setRawBody_spec e pre s post n hn with h | ⟨f, r, n', rfl, hn', h⟩
    · exact loop_done h
    · have hpos := f.size_pos
      rw [List.length_append, f.bytes_length] at hk
      rw [loop_next h, verdict_frame]
      have := ih (pre ++ f.bytes) r n' hn' (by omega)
      simpa only [List.append_assoc] using this

/-- **`atlas_cmd_batch_set_raw` accepts exactly the encodings** of one or more commands, and
leaves the batch alone otherwise. -/
theorem setRaw_spec (e : Endian) (b : AtlasCmdBatch) (s post : Bytes) (len : UInt16)
    (hlen : len.toNat = s.length) (hs : s ≠ []) :
    (verdict s = .ok ∧ atlasCmdBatchSetRaw e b (s ++ post) len = .ok (.ok, ⟨len, s⟩)) ∨
      (verdict s = .corruptedCommand ∧
        atlasCmdBatchSetRaw e b (s ++ post) len = .ok (.corruptedCommand, b)) := by
  have hl := setRawLoop_spec e post (len.toNat + 1) [] s len hlen (by omega)
  simp only [List.nil_append, List.length_nil] at hl
  have h0 : ¬ (s ++ post = [] ∨ len = 0) := by
    rintro (h | rfl)
    · exact hs (List.append_eq_nil_iff.1 h).1
    · exact hs (List.length_eq_zero_iff.1 hlen.symm)
  have hcopy := readAt_head s post hlen
  simp only [atlasCmdBatchSetRaw, if_neg h0, hl, bind, Except.bind]
  by_cases h : IsEncoding cmdHeader s
  · have hv : verdict s = .ok := if_pos h
    exact Or.inl ⟨hv, by simp [hv, hcopy]⟩
  · have hv : verdict s = .corruptedCommand := if_neg h
    exact Or.inr ⟨hv, by simp [hv]⟩

/-- **A batch is accepted**, whatever stands behind it. -/
theorem setRaw_accepts (e : Endian) (b : AtlasCmdBatch) {s : Bytes} {len : UInt16} (hlen : len.toNat = s.length)
    (hs : s ≠ []) (henc : IsEncoding cmdHeader s) (post : Bytes) :
    atlasCmdBatchSetRaw e b (s ++ post) len = .ok (.ok, ⟨len, s⟩) := by
  rcases setRaw_spec e b s post len hlen hs with ⟨-, hraw⟩ | ⟨hv, -⟩
  · exact hraw
  · rw [verdict, if_pos henc] at hv; cases hv

/-- **Anything else is rejected.** -/
theorem setRaw_rejects (e : Endian) (b : AtlasCmdBatch) {s : Bytes} {len : UInt16} (hlen : len.toNat = s.length)
    (hs : s ≠ []) (henc : ¬ IsEncoding cmdHeader s) (post : Bytes) :
    atlasCmdBatchSetRaw e b (s ++ post) len = .ok (.corruptedCommand, b) := by
  rcases setRaw_spec e b s post len hlen hs with ⟨hv, -⟩ | ⟨-, hraw⟩
  · rw [verdict, if_neg henc] at hv; cases hv
  · exact hraw

theorem setRaw_encode (e : Endian) (b : AtlasCmdBatch) {cmds : List Cmd} (hne : cmds ≠ [])
    (hfit : (encode cmds).length < 65536) :
    ∃ b', atlasCmdBatchSetRaw e b (encode cmds) (UInt16.ofNat (encode cmds).length) = .ok (.ok, b') ∧
      Holds b' cmds := by
  have hlen : (UInt16.ofNat (encode cmds).length).toNat = (encode cmds).length := by
    rw [UInt16.toNat_ofNat', Nat.mod_eq_of_lt hfit]
  have hraw := setRaw_accepts e b hlen (by rw [Ne, encode_eq_nil]; exact hne) ⟨cmds, rfl⟩ []
  rw [List.append_nil] at hraw
  exact ⟨_, hraw, rfl, hlen⟩

/-- **A whole message** is read into a batch of its commands, or it has none. -/
theorem setRaw_message (e : Endian) (b : AtlasCmdBatch) {buf : Bytes} (hne : buf ≠ []) (hlt : buf.length < 65536) :
    (∃ (cmds : List Cmd) (b' : AtlasCmdBatch), cmds ≠ [] ∧ buf = encode cmds ∧ Holds b' cmds ∧
      atlasCmdBatchSetRaw e b buf (UInt16.ofNat buf.length) = .ok (.ok, b')) ∨
    (¬ IsEncoding cmdHeader buf ∧
      atlasCmdBatchSetRaw e b buf (UInt16.ofNat buf.length) = .ok (.corruptedCommand, b)) := by
  by_cases henc : IsEncoding cmdHeader buf
  · left
    obtain ⟨cmds, rfl⟩ := henc
    have hcmds : cmds ≠ [] := fun h => hne (encode_eq_nil.2 h)
    obtain ⟨b', hraw, hh⟩ := setRaw_encode e b hcmds hlt
    exact ⟨cmds, b', hcmds, rfl, hh, hraw⟩
  · right
    refine ⟨henc, ?_⟩
    have hlen : (UInt16.ofNat buf.length).toNat = buf.length := by rw [UInt16.toNat_ofNat', Nat.mod_eq_of_lt hlt]
    simpa using setRaw_rejects e b hlen hne henc []

/-- **What is accepted is a batch**, and the batch holds it. -/
theorem setRaw_holds {e : Endian} {b b' : AtlasCmdBatch} {s post : Bytes} {len : UInt16} (hlen : len.toNat = s.length)
    (h : atlasCmdBatchSetRaw e b (s ++ post) len = .ok (.ok, b')) :
    ∃ cmds : List Cmd, s = encode cmds ∧ cmds ≠ [] ∧ Holds b' cmds := by
  have hs : s ≠ [] := by
    rintro rfl
    have h0 : len = 0 := UInt16.toNat_inj.1 hlen
    rw [h0] at h
    simp only [atlasCmdBatchSetRaw, or_true, if_true] at h
    cases h
  by_cases henc : IsEncoding cmdHeader s
  · have hraw := setRaw_accepts e b hlen hs henc post
    rw [h] at hraw
    cases hraw
    obtain ⟨cmds, hc⟩ := henc
    exact ⟨cmds, hc, fun h0 => hs (by rw [hc, h0]; rfl), ⟨hc, hlen⟩⟩
  · have hraw := setRaw_rejects e b hlen hs henc post
    rw [h] at hraw
    cases hraw

/-- The bytes that are read when a length is cut to 16 bits. -/
theorem take_append_rest (bs : Bytes) : ∃ post, bs = bs.take (bs.length % 65536) ++ post ∧
    (UInt16.ofNat bs.length).toNat = (bs.take (bs.length % 65536)).length := by
  refine ⟨bs.drop (bs.length % 65536), (List.take_append_drop _ _).symm, ?_⟩
  have hle := Nat.mod_le bs.length 65536
  rw [UInt16.toNat_ofNat', List.length_take]
  omega

/-! ## Walking -/

/-- A command as it stands in the buffer once its header has been converted. -/
def Cmd.hostForm (e : Endian) (c : Cmd) : Bytes :=
  hostBytes e c.type ++ (hostBytes e c.length ++ c.value)

theorem Cmd.hostForm_length (e : Endian) (c : Cmd) : (c.hostForm e).length = c.size := by
  simp [Cmd.hostForm, c.size_eq]; omega

theorem ntohHeader_spec (e : Endian) (pre : Bytes) (c : Cmd) (post : Bytes) :
    ntohHeader e (pre ++ (c.bytes ++ post)) pre.length = .ok (pre ++ (c.hostForm e ++ post)) := by
  have h1 := read16_append e pre (hi c.type) (lo c.type) (netBytes c.length ++ (c.value ++ post))
  have h2 := writeAt_append pre (netBytes c.type) (hostBytes e c.type)
    (netBytes c.length ++ (c.value ++ post)) (by simp)
  have h3 := read16_append e (pre ++ hostBytes e c.type) (hi c.length) (lo c.length) (c.value ++ post)
  have h4 := writeAt_append (pre ++ hostBytes e c.type) (netBytes c.length) (hostBytes e c.length)
    (c.value ++ post) (by simp)
  simp only [List.append_assoc, List.length_append, hostBytes_length] at h3 h4
  have hb : pre ++ (c.bytes ++ post) =
      pre ++ hi c.type :: lo c.type :: (netBytes c.length ++ (c.value ++ post)) := by
    simp [c.bytes_eq, netBytes]
  have hb' : pre ++ (netBytes c.type ++ (netBytes c.length ++ (c.value ++ post))) =
      pre ++ hi c.type :: lo c.type :: (netBytes c.length ++ (c.value ++ post)) := rfl
  have hb'' : pre ++ (hostBytes e c.type ++ (netBytes c.length ++ (c.value ++ post))) =
      pre ++ (hostBytes e c.type ++ hi c.length :: lo c.length :: (c.value ++ post)) := rfl
  rw [hb'] at h2
  rw [hb'', ] at h4
  simp only [ntohHeader, hb, h1, bind, Except.bind, ntohs_ofHost, word_hi_lo, h2]
  rw [hb'', h3]
  simp only [ntohs_ofHost, word_hi_lo, h4, Cmd.hostForm, List.append_assoc]

theorem cmdAt_spec (e : Endian) (pre : Bytes) (c : Cmd) (post : Bytes) (len : UInt16) :
    cmdAt e ⟨len, pre ++ (c.hostForm e ++ post)⟩ pre.length =
      .ok ⟨c.type, c.length, c.value ++ post⟩ := by
  have h1 := read16_host e pre c.type (hostBytes e c.length ++ (c.value ++ post))
  have h2 := read16_host e (pre ++ hostBytes e c.type) c.length (c.value ++ post)
  simp only [List.append_assoc, List.length_append, hostBytes_length] at h2
  have h3 : (pre ++ (hostBytes e c.type ++ (hostBytes e c.length ++ (c.value ++ post)))).drop
      (pre.length + 4) = c.value ++ post := by
    rw [← List.drop_drop, List.drop_left, ← List.append_assoc, List.drop_left' (by simp)]
  simp only [cmdAt, Cmd.hostForm, List.append_assoc, h1, h2, h3, bind, Except.bind]

/-- The first command of a batch. -/
theorem get_first (e : Endian) (c : Cmd) (post : Bytes) (len : UInt16) :
    atlasCmdBatchGet e ⟨len, c.bytes ++ post⟩ none = .ok (⟨len, c.hostForm e ++ post⟩, some 0) := by
  have := ntohHeader_spec e [] c post
  simp only [List.nil_append, List.length_nil] at this
  simp only [atlasCmdBatchGet, this, bind, Except.bind]

/-- The length of the current command, read back by `atlas_cmd_batch_get`. -/
theorem read16_length (e : Endian) (pre : Bytes) (c : Cmd) (post : Bytes) :
    read16 e (pre ++ (c.hostForm e ++ post)) (pre.length + 2) = .ok c.length := by
  have h := read16_host e (pre ++ hostBytes e c.type) c.length (c.value ++ post)
  simp only [List.append_assoc, List.length_append, hostBytes_length] at h
  simp only [Cmd.hostForm, List.append_assoc, h]

/-- From a command to the next one. -/
theorem get_next (e : Endian) (pre : Bytes) (c d : Cmd) (post : Bytes) (len : UInt16)
    (hlen : len.toNat = (pre ++ (c.bytes ++ (d.bytes ++ post))).length) :
    atlasCmdBatchGet e ⟨len, pre ++ (c.hostForm e ++ (d.bytes ++ post))⟩ (some pre.length) =
      .ok (⟨len, (pre ++ c.hostForm e) ++ (d.hostForm e ++ post)⟩,
        some (pre ++ c.hostForm e).length) := by
  have hp : pre.length + (4 + c.length.toNat) = (pre ++ c.hostForm e).length := by
    rw [List.length_append, c.hostForm_length, c.size_eq, c.value_length]
  have hin : ¬ len.toNat ≤ (pre ++ c.hostForm e).length := by
    have := d.size_pos
    simp only [List.length_append, c.hostForm_length, c.bytes_length, d.bytes_length] at hlen ⊢
    omega
  have h := ntohHeader_spec e (pre ++ c.hostForm e) d post
  rw [List.append_assoc] at h
  simp only [atlasCmdBatchGet, read16_length, bind, Except.bind, hp, if_neg hin, h]

/-- From the last command to `NULL`. -/
theorem get_last (e : Endian) (pre : Bytes) (c : Cmd) (len : UInt16)
    (hlen : len.toNat = (pre ++ c.bytes).length) :
    atlasCmdBatchGet e ⟨len, pre ++ (c.hostForm e ++ [])⟩ (some pre.length) =
      .ok (⟨len, pre ++ (c.hostForm e ++ [])⟩, none) := by
  have hout : len.toNat = pre.length + (4 + c.length.toNat) := by
    rw [hlen, List.length_append, c.bytes_length, c.size_eq, c.value_length]
  simp only [atlasCmdBatchGet, read16_length, bind, Except.bind,
    if_pos (Nat.le_of_eq hout)]

variable {α : Type}

/-- The handler applied to the commands in order. It sees the memory behind each value:
the commands that follow, still in network order. -/
def foldCmds (handle : AtlasCmd → α → Except Fault (α ⊕ α)) : List Cmd → α → Except Fault α
  | [], a => .ok a
  | c :: cs, a => do
    match ← handle ⟨c.type, c.length, c.value ++ encode cs⟩ a with
    | .inr a => .ok a
    | .inl a => foldCmds handle cs a

theorem foldCmds_cons {handle : AtlasCmd → α → Except Fault (α ⊕ α)} {c : Cmd} {cs : List Cmd} {a a' : α}
    (h : handle ⟨c.type, c.length, c.value ++ encode cs⟩ a = .ok (.inl a')) :
    foldCmds handle (c :: cs) a = foldCmds handle cs a' := by
  simp only [foldCmds, h, bind, Except.bind]

section cmdBody

variable {handle : AtlasCmd → α → Except Fault (α ⊕ α)} {b b' : AtlasCmdBatch} {off : ℕ}
  {next : Option ℕ} {cmd : AtlasCmd} {a a' : α}

theorem cmdBody_go (hcmd : cmdAt e b off = .ok cmd) (h : handle cmd a = .ok (.inl a'))
    (hget : atlasCmdBatchGet e b (some off) = .ok (b', next)) :
    cmdBody e handle (b, some off, a) = .ok (.inl (b', next, a')) := by
  simp only [cmdBody, hcmd, h, hget, bind, Except.bind]

theorem cmdBody_exit (hcmd : cmdAt e b off = .ok cmd) (h : handle cmd a = .ok (.inr a')) :
    cmdBody e handle (b, some off, a) = .ok (.inr (b, a')) := by
  simp only [cmdBody, hcmd, h, bind, Except.bind]

theorem cmdBody_fail {f : Fault} (hcmd : cmdAt e b off = .ok cmd) (h : handle cmd a = .error f) :
    cmdBody e handle (b, some off, a) = .error f := by
  simp only [cmdBody, hcmd, h, bind, Except.bind]

theorem cmdBody_end : cmdBody e handle (b, none, a) = .ok (.inr (b, a)) := rfl

end cmdBody

theorem cmdLoop_from (e : Endian) (handle : AtlasCmd → α → Except Fault (α ⊕ α)) (len : UInt16) :
    ∀ (cs : List Cmd) (k : ℕ) (pre : Bytes) (c : Cmd) (a : α), cs.length + 1 < k →
      len.toNat = (pre ++ (c.bytes ++ encode cs)).length →
      (loop .diverges (cmdBody e handle) k (⟨len, pre ++ (c.hostForm e ++ encode cs)⟩,
        some pre.length, a)).map Prod.snd = foldCmds handle (c :: cs) a := by
  intro cs
  induction cs with
  | nil =>
    intro k pre c a hk hlen
    obtain ⟨k, rfl⟩ : ∃ m, k = m + 2 := ⟨k - 2, by simp at hk; omega⟩
    simp only [encode_nil, List.append_nil] at hlen
    have hcmd := cmdAt_spec e pre c [] len
    have hget := get_last e pre c len hlen
    rw [foldCmds, encode_nil]
    cases h : handle ⟨c.type, c.length, c.value ++ []⟩ a with
    | error f => rw [loop_fail (cmdBody_fail hcmd h)]; rfl
    | ok r =>
      rcases r with a' | a'
      · rw [loop_next (cmdBody_go hcmd h hget), loop_done cmdBody_end]; rfl
      · rw [loop_done (cmdBody_exit hcmd h)]; rfl
  | cons d cs ih =>
    intro k pre c a hk hlen
    obtain ⟨k, rfl⟩ : ∃ m, k = m + 1 := ⟨k - 1, by omega⟩
    rw [encode_cons] at hlen
    have hcmd := cmdAt_spec e pre c (d.bytes ++ encode cs) len
    have hget := get_next e pre c d (encode cs) len hlen
    rw [foldCmds, encode_cons]
    cases h : handle ⟨c.type, c.length, c.value ++ (d.bytes ++ encode cs)⟩ a with
    | error f => rw [loop_fail (cmdBody_fail hcmd h)]; rfl
    | ok r =>
      rcases r with a' | a'
      · rw [loop_next (cmdBody_go hcmd h hget)]
        exact ih k (pre ++ c.hostForm e) d a' (by simpa using hk) (by
          simpa [c.hostForm_length, c.bytes_length, Nat.add_assoc] using hlen)
      · rw [loop_done (cmdBody_exit hcmd h)]; rfl

/-- **A loop over a batch is a fold over its commands**, and it ends within its rounds. -/
theorem cmdLoop_eq (e : Endian) (handle : AtlasCmd → α → Except Fault (α ⊕ α)) {b : AtlasCmdBatch}
    {cmds : List Cmd} (h : Holds b cmds) (hne : cmds ≠ []) (a : α) :
    (cmdLoop e handle b a).map Prod.snd = foldCmds handle cmds a := by
  rcases cmds with _ | ⟨c, cs⟩
  · exact absurd rfl hne
  · obtain ⟨len, buf⟩ := b
    have hbuf := h.buf
    have hlen := h.len
    simp only [encode_cons] at hbuf hlen
    subst hbuf
    have hrounds : cs.length + 1 < len.toNat + 1 := by
      have : 4 * cs.length ≤ (encode cs).length := length_le_encode cs
      simp only [List.length_append, c.bytes_length, c.size_eq] at hlen
      omega
    simp only [cmdLoop, get_first, bind, Except.bind]
    exact cmdLoop_from e handle len cs _ [] c a hrounds (by simpa using hlen)

/-- A handler that never ends the loop early and does not fail on the commands of the batch. -/
theorem foldCmds_total {f : Cmd → α → α} {handle : AtlasCmd → α → Except Fault (α ⊕ α)} :
    ∀ (cmds : List Cmd) (a : α), (∀ c ∈ cmds, ∀ (post : Bytes) (a : α),
      handle ⟨c.type, c.length, c.value ++ post⟩ a = .ok (.inl (f c a))) →
      foldCmds handle cmds a = .ok (cmds.foldl (fun a c => f c a) a) := by
  intro cmds
  induction cmds with
  | nil => intro a _; rfl
  | cons c cs ih =>
    intro a h
    simp only [foldCmds, h c (by simp), bind, Except.bind, List.foldl_cons]
    exact ih _ fun d hd => h d (by simp [hd])

/-- A fold that succeeds is a loop that does. -/
theorem cmdLoop_ok {handle : AtlasCmd → α → Except Fault (α ⊕ α)} {b : AtlasCmdBatch} {cmds : List Cmd}
    (h : Holds b cmds) (hne : cmds ≠ []) {a a' : α} (hf : foldCmds handle cmds a = .ok a') :
    ∃ b', cmdLoop e handle b a = .ok (b', a') := by
  have hloop := cmdLoop_eq e handle h hne a
  rw [hf] at hloop
  cases hl : cmdLoop e handle b a with
  | error f => rw [hl] at hloop; cases hloop
  | ok r =>
    rw [hl] at hloop
    obtain ⟨b', a'⟩ := r
    cases hloop
    exact ⟨b', rfl⟩

/-- So the loop over a batch succeeds. -/
theorem cmdLoop_total {f : Cmd → α → α} {handle : AtlasCmd → α → Except Fault (α ⊕ α)} {b : AtlasCmdBatch}
    {cmds : List Cmd} (h : Holds b cmds) (hne : cmds ≠ []) (a : α)
    (hh : ∀ c ∈ cmds, ∀ (post : Bytes) (a : α),
      handle ⟨c.type, c.length, c.value ++ post⟩ a = .ok (.inl (f c a))) :
    ∃ b', cmdLoop e handle b a = .ok (b', cmds.foldl (fun a c => f c a) a) :=
  cmdLoop_ok h hne (foldCmds_total cmds a hh)

/-- **The loop yields exactly the commands of the batch, in order.** -/
theorem yieldCmds_eq (e : Endian) {b : AtlasCmdBatch} {cmds : List Cmd} (h : Holds b cmds)
    (hne : cmds ≠ []) : yieldCmds e b = .ok (cmds.map Cmd.args) := by
  have hloop := cmdLoop_eq e (fun cmd acc => do
    let v ← readAt cmd.value 0 cmd.length.toNat
    .ok (.inl (acc ++ [(cmd.type, cmd.length, v)]))) h hne []
  rw [foldCmds_total (f := fun c acc => acc ++ [c.args]) cmds []] at hloop
  · have hfold : cmds.foldl (fun acc c => acc ++ [c.args]) [] = cmds.map Cmd.args := by
      have : ∀ (cs : List Cmd) acc, cs.foldl (fun acc c => acc ++ [c.args]) acc = acc ++ cs.map Cmd.args := by
        intro cs
        induction cs with
        | nil => intro acc; simp
        | cons c cs ih => intro acc; simp [ih]
      simpa using this cmds []
    rw [hfold] at hloop
    unfold yieldCmds
    revert hloop
    cases cmdLoop e _ b [] with
    | error f => intro hloop; cases hloop
    | ok r => intro hloop; simpa [Except.map, bind, Except.bind] using hloop
  · intro c _ post acc
    simp [c.read_value post, bind, Except.bind, Cmd.args]

/-- **What the handler keeps, the loop keeps**, on any batch. -/
theorem cmdLoop_inv {handle : AtlasCmd → α → Except Fault (α ⊕ α)} {I : α → Prop}
    (hh : ∀ cmd a x, I a → handle cmd a = .ok x → I (x.elim id id)) {b b' : AtlasCmdBatch} {a a' : α}
    (ha : I a) (h : cmdLoop e handle b a = .ok (b', a')) : I a' := by
  simp only [cmdLoop, bind] at h
  obtain ⟨⟨b₁, cmd⟩, -, h⟩ := bind_ok.1 h
  refine loop_inv (fun s => I s.2.2) (fun r => I r.2) ?_ (s := (b₁, cmd, a)) ha h
  rintro ⟨b₂, _ | off, a₂⟩ y hi hs
  · cases hs
    exact hi
  · -- one command handled, the cursor moved on
    simp only [cmdBody, bind] at hs
    obtain ⟨c, -, hs⟩ := bind_ok.1 hs
    obtain ⟨x, hx, hs⟩ := bind_ok.1 hs
    have hix := hh c a₂ x hi hx
    rcases x with a₃ | a₃
    · obtain ⟨⟨b₃, next⟩, -, hs⟩ := bind_ok.1 hs
      cases hs
      exact hix
    · cases hs
      exact hix

end AtlasClient
