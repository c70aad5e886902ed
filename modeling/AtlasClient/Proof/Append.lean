import AtlasClient.Lib.Run
import AtlasClient.Proof.Command

/-!
# Appending to a batch

The life of a batch: commands are added, buffers are read into it, and it is walked. The new
length is an `int` sum stored in 16 bits; `realloc` is given the stored length, and the old
length is the offset at which the command is written.

* `Sized`: the length field is the size of the block. Every operation keeps it.
* `appends_iff`: **appending never corrupts a batch** exactly as long as the sum fits 16 bits.
-/

namespace AtlasClient

open Framing Loop Machine

variable {e : Endian} {b b' : AtlasCmdBatch}

/-! ## The machine -/

/-- What can happen to a batch. The argument of `get` is the offset of a command, or `NULL`. -/
inductive BatchOp
  | add (c : Cmd)
  | setRaw (buf : Bytes) (len : UInt16)
  | get (currentCmd : Option ℕ)

def BatchOp.apply (e : Endian) (b : AtlasCmdBatch) : BatchOp → Except Fault AtlasCmdBatch
  | .add c => atlasCmdBatchAdd e b c.type c.length c.value
  | .setRaw buf len => (atlasCmdBatchSetRaw e b buf len).map Prod.snd
  | .get currentCmd => (atlasCmdBatchGet e b currentCmd).map Prod.fst

/-- After a fault there is no batch any more. -/
def batchStep (e : Endian) (s : Except Fault AtlasCmdBatch) (op : BatchOp) : Except Fault AtlasCmdBatch :=
  s.bind fun b => op.apply e b

/-! ## The property -/

/-- Every byte is written inside the block that is allocated for the new length, and then either the
batch is as before, or it is longer by the command and begins with the old bytes. -/
def Appends (e : Endian) (b : AtlasCmdBatch) (c : Cmd) : Prop :=
  ∃ b', atlasCmdBatchAdd e b c.type c.length c.value = .ok b' ∧ b'.buf_.length = b'.length_.toNat ∧
    (b' = b ∨ (b'.length_.toNat = b.length_.toNat + 4 + c.length.toNat ∧ b.buf_ <+: b'.buf_))

def AppendsAt (e : Endian) : Except Fault AtlasCmdBatch → BatchOp → Prop
  | .ok b, .add c => Appends e b c
  | _, _ => True

/-- The new length fits 16 bits. -/
def FitsAt : Except Fault AtlasCmdBatch → BatchOp → Prop
  | .ok b, .add c => b.length_.toNat + 4 + c.length.toNat ≤ 65535
  | _, _ => True

/-! ## The invariant -/

/-- The length field is the size of the block. -/
def AtlasCmdBatch.Sized (b : AtlasCmdBatch) : Prop := b.length_.toNat = b.buf_.length

theorem writeAt_length {buf buf' bs : Bytes} {off : ℕ} (h : writeAt buf off bs = .ok buf') :
    buf'.length = buf.length := by
  unfold writeAt at h
  split at h
  · cases h
    simp only [List.length_append, List.length_take, List.length_drop]
    omega
  · cases h

theorem ntohHeader_length {buf buf' : Bytes} {off : ℕ} (h : ntohHeader e buf off = .ok buf') :
    buf'.length = buf.length := by
  simp only [ntohHeader, bind] at h
  obtain ⟨type, -, h⟩ := bind_ok.1 h
  obtain ⟨buf₁, h₁, h⟩ := bind_ok.1 h
  obtain ⟨length, -, h⟩ := bind_ok.1 h
  exact (writeAt_length h).trans (writeAt_length h₁)

/-- A cursor changes neither the length field nor the size of the block. -/
theorem get_sized {cur next : Option ℕ} (h : atlasCmdBatchGet e b cur = .ok (b', next)) :
    b'.length_ = b.length_ ∧ b'.buf_.length = b.buf_.length := by
  cases cur with
  | none =>
    simp only [atlasCmdBatchGet, bind] at h
    obtain ⟨buf, hbuf, h⟩ := bind_ok.1 h
    cases h
    exact ⟨rfl, ntohHeader_length hbuf⟩
  | some cur =>
    simp only [atlasCmdBatchGet, bind] at h
    obtain ⟨length, -, h⟩ := bind_ok.1 h
    split at h
    · cases h; exact ⟨rfl, rfl⟩
    · obtain ⟨buf, hbuf, h⟩ := bind_ok.1 h
      cases h
      exact ⟨rfl, ntohHeader_length hbuf⟩

theorem readAt_length {buf bs : Bytes} {off n : ℕ} (h : readAt buf off n = .ok bs) :
    off + n ≤ buf.length ∧ bs.length = n := by
  unfold readAt at h
  split at h
  · cases h
    refine ⟨by assumption, ?_⟩
    rw [List.length_take, List.length_drop]; omega
  · cases h

/-- `atlas_cmd_batch_set_raw` leaves the batch alone, or it accepts the bytes it was given. -/
theorem setRaw_cases {buf : Bytes} {len : UInt16} {status : AtlasStatus}
    (h : atlasCmdBatchSetRaw e b buf len = .ok (status, b')) :
    (status ≠ .ok ∧ b' = b) ∨ (status = .ok ∧ len.toNat ≤ buf.length ∧ b'.Sized) := by
  unfold atlasCmdBatchSetRaw at h
  split at h
  · cases h; exact Or.inl ⟨by decide, rfl⟩
  · simp only [bind] at h
    obtain ⟨st, -, h⟩ := bind_ok.1 h
    split at h
    · obtain ⟨copy, hcopy, h⟩ := bind_ok.1 h
      cases h
      obtain ⟨hle, hlen⟩ := readAt_length hcopy
      exact Or.inr ⟨rfl, by omega, hlen.symm⟩
    · cases h; exact Or.inl ⟨by assumption, rfl⟩

/-! ## Adding -/

/-- **The wrapped length.** The sum does not fit, so the block is cut below the old length, and the
value is written behind its end. -/
theorem add_wraps (b : AtlasCmdBatch) (c : Cmd) (hbig : 65536 ≤ b.length_.toNat + 4 + c.length.toNat) :
    atlasCmdBatchAdd e b c.type c.length c.value = .error .badAccess := by
  have hc := c.value_length
  have h1 := b.length_.toNat_lt
  have h2 := c.length.toNat_lt
  have hval := c.read_value_alone
  have hnew : (b.length_ + 4 + c.length).toNat < b.length_.toNat + 4 := by
    simp only [UInt16.toNat_add, UInt16.toNat_ofNat]
    omega
  have hblock : (realloc b.buf_ (b.length_ + 4 + c.length).toNat).length = (b.length_ + 4 + c.length).toNat := by
    simp only [realloc, List.length_append, List.length_take, List.length_replicate]
    omega
  have hout : writeAt (realloc b.buf_ (b.length_ + 4 + c.length).toNat) (b.length_.toNat + 4) c.value =
      .error .badAccess := by
    unfold writeAt
    rw [hblock, if_neg (by omega)]
  simp only [atlasCmdBatchAdd, hval, bind, Except.bind, hout]

/-- **One command is appended** exactly if the new length fits. -/
theorem appends_cmd_iff (hb : b.Sized) (c : Cmd) :
    Appends e b c ↔ b.length_.toNat + 4 + c.length.toNat ≤ 65535 := by
  have hsize : c.size = 4 + c.length.toNat := by rw [c.size_eq, c.value_length]
  constructor
  · rintro ⟨b', hadd, -⟩
    by_contra hbig
    rw [add_wraps b c (by omega)] at hadd
    cases hadd
  · intro hfit
    unfold AtlasCmdBatch.Sized at hb
    obtain ⟨b', hadd, hbuf, hlen⟩ := add_eq (e := e) hb c (by omega)
    refine ⟨b', hadd, ?_, Or.inr ⟨by omega, ?_⟩⟩
    · rw [hlen, hbuf, List.length_append, c.bytes_length]
    · rw [hbuf]; exact List.prefix_append _ _

/-- **One operation keeps the size.** -/
theorem BatchOp.sized {op : BatchOp} (hb : b.Sized) (h : op.apply e b = .ok b') : b'.Sized := by
  cases op with
  | add c =>
    by_cases hfit : b.length_.toNat + 4 + c.length.toNat ≤ 65535
    · obtain ⟨b₁, hadd, hsize, -⟩ := (appends_cmd_iff (e := e) hb c).2 hfit
      rw [BatchOp.apply, hadd] at h
      cases h
      exact hsize.symm
    · rw [BatchOp.apply, add_wraps b c (by omega)] at h
      cases h
  | setRaw buf len =>
    simp only [BatchOp.apply, Except.map] at h
    split at h
    · cases h
    · rename_i r hr
      cases h
      rcases setRaw_cases hr with ⟨-, h⟩ | ⟨-, -, h⟩
      · rw [h]; exact hb
      · exact h
  | get cur =>
    simp only [BatchOp.apply, Except.map] at h
    split at h
    · cases h
    · rename_i r hr
      cases h
      obtain ⟨h1, h2⟩ := get_sized hr
      unfold AtlasCmdBatch.Sized
      rw [h1, h2]; exact hb

/-- What a history keeps: the batch, if there is one, is sized. -/
def SizedInv (s : Except Fault AtlasCmdBatch) : Prop := ∀ b, s = .ok b → b.Sized

theorem sizedInv_step {s : Except Fault AtlasCmdBatch} (op : BatchOp) (h : SizedInv s) :
    SizedInv (batchStep e s op) := by
  intro b' hb'
  obtain ⟨b, hs, hop⟩ := bind_ok.1 hb'
  exact BatchOp.sized (h b hs) hop

theorem sizedInv_new : SizedInv (.ok atlasCmdBatchNew) := by
  rintro b ⟨⟩
  rfl

theorem appendsAt_iff {s : Except Fault AtlasCmdBatch} (h : SizedInv s) (op : BatchOp) :
    AppendsAt e s op ↔ FitsAt s op := by
  cases s with
  | error f => exact Iff.rfl
  | ok b =>
    cases op with
    | add c => exact appends_cmd_iff (h b rfl) c
    | setRaw buf len => exact Iff.rfl
    | get cur => exact Iff.rfl

/-- **Appending never corrupts a batch, exactly as long as the new length fits 16 bits.** In every
history of a batch, every command that is added is written inside the block and appended to the old
bytes if and only if at each of them the old length plus four plus the length is below 2^16. -/
theorem appends_iff (e : Endian) (ops : List BatchOp) :
    Along (batchStep e) (AppendsAt e) (.ok atlasCmdBatchNew) ops ↔
      Along (batchStep e) FitsAt (.ok atlasCmdBatchNew) ops := by
  refine along_exact_all SizedInv ?_ ?_ sizedInv_new
  · intro s op hs hfit
    exact ⟨(appendsAt_iff hs op).2 hfit, sizedInv_step op hs⟩
  · intro s op hs happ
    exact (appendsAt_iff hs op).1 happ

/-- A command with a value of zeros. -/
def Cmd.zeros (type : UInt16) (n : ℕ) (h : n < 65536) : Cmd := Cmd.of type (List.replicate n 0) (by simpa using h)

theorem Cmd.zeros_length (type : UInt16) (n : ℕ) (h : n < 65536) : (Cmd.zeros type n h).length.toNat = n := by
  rw [← Cmd.value_length]; simp [Cmd.zeros]

/-- A batch of one command is full when the next one is added. -/
theorem appends_second {c d : Cmd} (hc : c.size < 65536)
    (h : Along (batchStep e) (AppendsAt e) (.ok atlasCmdBatchNew) [.add c, .add d]) : c.size + d.size ≤ 65535 := by
  obtain ⟨b, hadd, hbuf, hlen⟩ := add_eq (e := e) holds_new.len c (by simpa [atlasCmdBatchNew] using hc)
  have hb : b.Sized := by
    unfold AtlasCmdBatch.Sized
    rw [hlen, hbuf, List.length_append, c.bytes_length]
  have happ : Appends e b d := by
    have hsecond := h.2.1
    rw [batchStep, bind_of_ok rfl, BatchOp.apply, hadd] at hsecond
    exact hsecond
  have hfit := (appends_cmd_iff hb d).1 happ
  rw [hlen] at hfit
  have hd : d.size = 4 + d.length.toNat := by rw [d.size_eq, d.value_length]
  simp only [atlasCmdBatchNew, List.length_nil] at hfit
  omega

/-- **A batch of 65535 bytes is cut to three.** A command with an empty value is added to a command
of 65531 bytes. -/
theorem append_wraps :
    ¬ ∀ ops : List BatchOp, Along (batchStep .little) (AppendsAt .little) (.ok atlasCmdBatchNew) ops := by
  intro h
  have hfirst : (Cmd.zeros 2 65531 (by decide)).size = 65535 := by
    rw [Cmd.size_eq, Cmd.value_length, Cmd.zeros_length]
  have hsecond : (Cmd.zeros 2 0 (by decide)).size = 4 := by
    rw [Cmd.size_eq, Cmd.value_length, Cmd.zeros_length]
  have hle := appends_second (by rw [hfirst]; decide) (h [.add (Cmd.zeros 2 65531 (by decide)),
    .add (Cmd.zeros 2 0 (by decide))])
  rw [hfirst, hsecond] at hle
  exact absurd hle (by decide)

end AtlasClient
