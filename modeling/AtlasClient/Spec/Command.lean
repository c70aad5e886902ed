import AtlasClient.Lib.Frames
import AtlasClient.Lib.Loop
import AtlasClient.Spec.Bytes
import AtlasClient.Spec.Status

/-!
# Command batches

`commands/atlas_command.c` and the command types of `commands/atlas_command_types.h`.
A command pointer is an offset into the buffer of its batch: `atlas_cmd_batch_get`
converts the header it returns in place, and the caller reads type and length from
the buffer afterwards.

* `Cmd`: one command of the wire format, as a frame (`cmdHeader`).
* `atlasCmdBatchAdd`, `atlasCmdBatchSetRaw`, `atlasCmdBatchGet`: the C functions.
* `cmdLoop`: the loop `cmd = atlas_cmd_batch_get(batch, NULL); while (cmd) { … }`.
-/

namespace AtlasClient

open Framing Loop

/-! ## The wire format -/

/-- A command header: 2-byte type and 2-byte length, in network order. -/
def cmdHeader : Header UInt8 (UInt16 × UInt16) where
  size := 4
  size_pos := by decide
  enc h := netBytes h.1 ++ netBytes h.2
  dec bs := (word (bs.getD 0 0) (bs.getD 1 0), word (bs.getD 2 0) (bs.getD 3 0))
  len h := h.2.toNat
  enc_length _ := rfl
  dec_enc h := by simp [netBytes]
  enc_dec bs hbs := by
    obtain ⟨a, b, c, d, rfl⟩ : ∃ a b c d, bs = [a, b, c, d] := by
      match bs, hbs with
      | [a, b, c, d], _ => exact ⟨a, b, c, d, rfl⟩
    simp [netBytes]

/-- A command: a type and a value whose length fits 16 bits. -/
abbrev Cmd := Frame cmdHeader

namespace Cmd

def type (c : Cmd) : UInt16 := c.hdr.1

def length (c : Cmd) : UInt16 := c.hdr.2

def value (c : Cmd) : Bytes := c.body

/-- The command of a type and a value. -/
def of (type : UInt16) (value : Bytes) (h : value.length < 65536) : Cmd where
  hdr := (type, UInt16.ofNat value.length)
  body := value
  fits := by simp [cmdHeader, Nat.mod_eq_of_lt h]

@[simp] theorem of_value (t : UInt16) (v : Bytes) (h) : (of t v h).value = v := rfl

theorem value_length (c : Cmd) : c.value.length = c.length.toNat := c.fits

theorem bytes_eq (c : Cmd) : c.bytes = netBytes c.type ++ (netBytes c.length ++ c.value) := by
  simp [Frame.bytes, cmdHeader, type, length, value]

theorem size_eq (c : Cmd) : c.size = 4 + c.value.length := rfl

end Cmd

/-! ## The batch -/

structure AtlasCmdBatch where
  length_ : UInt16
  buf_ : Bytes
  deriving DecidableEq, Repr

def atlasCmdBatchNew : AtlasCmdBatch := ⟨0, []⟩

/-- `value` is the block the value pointer points to. The new length is computed as an
`int` and stored in 16 bits. -/
def atlasCmdBatchAdd (e : Endian) (cmdBatch : AtlasCmdBatch) (type length : UInt16) (value : Bytes) :
    Except Fault AtlasCmdBatch := do
  let newLen := cmdBatch.length_ + 4 + length
  let buf := realloc cmdBatch.buf_ newLen.toNat
  let p := cmdBatch.length_.toNat
  let v ← readAt value 0 length.toNat
  let buf ← writeAt buf (p + 4) v
  let buf ← writeAt buf p (hostBytes e (htons e type))
  let buf ← writeAt buf (p + 2) (hostBytes e (htons e length))
  return ⟨newLen, buf⟩

def atlasCmdBatchGetBuf (cmdBatch : AtlasCmdBatch) : Bytes × UInt16 :=
  (cmdBatch.buf_, cmdBatch.length_)

/-- One round of the validation loop of `atlas_cmd_batch_set_raw`, from the offset `p`
with `tmpLen` bytes left. -/
def setRawBody (e : Endian) (buf : Bytes) :
    ℕ × UInt16 → Except Fault ((ℕ × UInt16) ⊕ AtlasStatus)
  | (p, tmpLen) =>
    if tmpLen = 0 then .ok (.inr .ok)
    else if tmpLen < 2 then .ok (.inr .corruptedCommand)
    else
      let p := p + 2
      let tmpLen := tmpLen - 2
      if tmpLen < 2 then .ok (.inr .corruptedCommand)
      else do
        let cmdLen ← (read16 e buf p).map (ntohs e)
        let p := p + 2
        let tmpLen := tmpLen - 2
        if tmpLen < cmdLen then .ok (.inr .corruptedCommand)
        else .ok (.inl (p + cmdLen.toNat, tmpLen - cmdLen))

def atlasCmdBatchSetRaw (e : Endian) (cmdBatch : AtlasCmdBatch) (buf : Bytes) (len : UInt16) :
    Except Fault (AtlasStatus × AtlasCmdBatch) :=
  if buf = [] ∨ len = 0 then .ok (.invalidInput, cmdBatch)
  else do
    let status ← loop .diverges (setRawBody e buf) (len.toNat + 1) (0, len)
    if status = .ok then
      let copy ← readAt buf 0 len.toNat
      .ok (.ok, ⟨len, copy⟩)
    else .ok (status, cmdBatch)

/-- Convert the header at `off` from network to host order, in the buffer. -/
def ntohHeader (e : Endian) (buf : Bytes) (off : ℕ) : Except Fault Bytes := do
  let type ← read16 e buf off
  let buf ← writeAt buf off (hostBytes e (ntohs e type))
  let length ← read16 e buf (off + 2)
  writeAt buf (off + 2) (hostBytes e (ntohs e length))

/-- The batch is returned too: its buffer is changed. -/
def atlasCmdBatchGet (e : Endian) (cmdBatch : AtlasCmdBatch) (currentCmd : Option ℕ) :
    Except Fault (AtlasCmdBatch × Option ℕ) :=
  match currentCmd with
  | none => do
    let buf ← ntohHeader e cmdBatch.buf_ 0
    .ok ({ cmdBatch with buf_ := buf }, some 0)
  | some cur => do
    let length ← read16 e cmdBatch.buf_ (cur + 2)
    let p := cur + (4 + length.toNat)
    if cmdBatch.length_.toNat ≤ p then .ok (cmdBatch, none)
    else do
      let buf ← ntohHeader e cmdBatch.buf_ p
      .ok ({ cmdBatch with buf_ := buf }, some p)

/-! ## Walking a batch -/

/-- What a caller sees through a command pointer. `value` is the memory from the value
on, to the end of the block: a caller may read past `length`. -/
structure AtlasCmd where
  type : UInt16
  length : UInt16
  value : Bytes
  deriving DecidableEq, Repr

def cmdAt (e : Endian) (cmdBatch : AtlasCmdBatch) (off : ℕ) : Except Fault AtlasCmd := do
  let type ← read16 e cmdBatch.buf_ off
  let length ← read16 e cmdBatch.buf_ (off + 2)
  .ok ⟨type, length, cmdBatch.buf_.drop (off + 4)⟩

variable {α : Type}

/-- One round of a loop over the commands; `handle` ends the loop with `inr`. -/
def cmdBody (e : Endian) (handle : AtlasCmd → α → Except Fault (α ⊕ α)) :
    AtlasCmdBatch × Option ℕ × α →
      Except Fault ((AtlasCmdBatch × Option ℕ × α) ⊕ (AtlasCmdBatch × α))
  | (b, none, a) => .ok (.inr (b, a))
  | (b, some off, a) => do
    let cmd ← cmdAt e b off
    match ← handle cmd a with
    | .inr a => .ok (.inr (b, a))
    | .inl a => do
      let (b, next) ← atlasCmdBatchGet e b (some off)
      .ok (.inl (b, next, a))

/-- `cmd = atlas_cmd_batch_get(batch, NULL); while (cmd) { handle; cmd = atlas_cmd_batch_get(batch, cmd); }` -/
def cmdLoop (e : Endian) (handle : AtlasCmd → α → Except Fault (α ⊕ α)) (cmdBatch : AtlasCmdBatch)
    (a : α) : Except Fault (AtlasCmdBatch × α) := do
  let (b, cmd) ← atlasCmdBatchGet e cmdBatch none
  loop .diverges (cmdBody e handle) (b.length_.toNat + 1) (b, cmd, a)

/-- The loop that yields each command with its `length` value bytes. -/
def yieldCmds (e : Endian) (cmdBatch : AtlasCmdBatch) :
    Except Fault (List (UInt16 × UInt16 × Bytes)) := do
  let (_, cmds) ← cmdLoop e (fun cmd acc => do
    let v ← readAt cmd.value 0 cmd.length.toNat
    .ok (.inl (acc ++ [(cmd.type, cmd.length, v)]))) cmdBatch []
  .ok cmds

/-- Add commands in order. -/
def addCmds (e : Endian) (cmdBatch : AtlasCmdBatch) (cmds : List (UInt16 × UInt16 × Bytes)) :
    Except Fault AtlasCmdBatch :=
  cmds.foldlM (fun b c => atlasCmdBatchAdd e b c.1 c.2.1 c.2.2) cmdBatch

end AtlasClient
