import Mathlib.Algebra.Order.Ring.Int
import Mathlib.Data.List.Basic

/-!
# Bytes, byte order and memory

A block of memory is the list of its bytes, `NULL` is the block without bytes. An
access outside a block is undefined behaviour in C; here it is a `Fault`.
-/

namespace AtlasClient

abbrev Bytes := List UInt8

/-- The byte order of the host. -/
inductive Endian
  | little
  | big
  deriving DecidableEq, Repr

/-- Undefined behaviour of the C program, and loops that are cut off. -/
inductive Fault
  /-- an access through `NULL` or outside a block -/
  | badAccess
  /-- signed overflow -/
  | intOverflow
  /-- a number that is out of the range of the type it is converted to, where the program stops -/
  | outOfRange
  /-- a loop that is still running after the rounds it was given -/
  | diverges
  deriving DecidableEq, Repr

/-! ## 16-bit words -/

/-- The high byte of a word. -/
def hi (v : UInt16) : UInt8 := UInt8.ofNat (v.toNat / 256)

/-- The low byte of a word. -/
def lo (v : UInt16) : UInt8 := UInt8.ofNat v.toNat

/-- The word with the given high and low byte. -/
def word (h l : UInt8) : UInt16 := UInt16.ofNat (h.toNat * 256 + l.toNat)

theorem word_toNat (h l : UInt8) : (word h l).toNat = h.toNat * 256 + l.toNat := by
  have := h.toNat_lt; have := l.toNat_lt
  simp only [word, UInt16.toNat_ofNat']
  omega

@[simp] theorem word_hi_lo (v : UInt16) : word (hi v) (lo v) = v := by
  have := v.toNat_lt
  apply UInt16.toNat_inj.1
  rw [word_toNat]
  simp only [hi, lo, UInt8.toNat_ofNat']
  omega

@[simp] theorem hi_word (h l : UInt8) : hi (word h l) = h := by
  have := h.toNat_lt; have := l.toNat_lt
  apply UInt8.toNat_inj.1
  simp only [hi, word_toNat, UInt8.toNat_ofNat']
  omega

@[simp] theorem lo_word (h l : UInt8) : lo (word h l) = l := by
  have := h.toNat_lt; have := l.toNat_lt
  apply UInt8.toNat_inj.1
  simp only [lo, word_toNat, UInt8.toNat_ofNat']
  omega

/-- The two bytes of a word in network order. -/
def netBytes (v : UInt16) : Bytes := [hi v, lo v]

/-- The two bytes of a word in the host's memory. -/
def hostBytes (e : Endian) (v : UInt16) : Bytes :=
  match e with
  | .little => [lo v, hi v]
  | .big => [hi v, lo v]

/-- The word the host reads from two bytes of its memory. -/
def ofHost (e : Endian) (a b : UInt8) : UInt16 :=
  match e with
  | .little => word b a
  | .big => word a b

/-- The four bytes of a 32-bit word in the host's memory. -/
def hostBytes32 (e : Endian) (v : UInt32) : Bytes :=
  let b (i : ℕ) : UInt8 := UInt8.ofNat (v.toNat / 256 ^ i)
  match e with
  | .little => [b 0, b 1, b 2, b 3]
  | .big => [b 3, b 2, b 1, b 0]

def htons (e : Endian) (v : UInt16) : UInt16 :=
  match e with
  | .little => word (lo v) (hi v)
  | .big => v

def ntohs (e : Endian) (v : UInt16) : UInt16 := htons e v

@[simp] theorem netBytes_length (v : UInt16) : (netBytes v).length = 2 := rfl

@[simp] theorem hostBytes_length (e : Endian) (v : UInt16) : (hostBytes e v).length = 2 := by
  cases e <;> rfl

/-- What is converted by `htons` stands in memory in network order. -/
@[simp] theorem hostBytes_htons (e : Endian) (v : UInt16) : hostBytes e (htons e v) = netBytes v := by
  cases e <;> simp [hostBytes, htons, netBytes]

/-- Two bytes in network order, read by the host and converted. -/
@[simp] theorem ntohs_ofHost (e : Endian) (a b : UInt8) : ntohs e (ofHost e a b) = word a b := by
  cases e <;> simp [ntohs, htons, ofHost]

/-! ## Memory -/

/-- `n` bytes of a block from an offset on. -/
def readAt (buf : Bytes) (off n : ℕ) : Except Fault Bytes :=
  if off + n ≤ buf.length then .ok ((buf.drop off).take n) else .error .badAccess

/-- The host's word at an offset of a block. -/
def read16 (e : Endian) (buf : Bytes) (off : ℕ) : Except Fault UInt16 :=
  match buf[off]?, buf[off + 1]? with
  | some a, some b => .ok (ofHost e a b)
  | _, _ => .error .badAccess

/-- Overwrite a block from an offset on. -/
def writeAt (buf : Bytes) (off : ℕ) (bs : Bytes) : Except Fault Bytes :=
  if off + bs.length ≤ buf.length then .ok (buf.take off ++ bs ++ buf.drop (off + bs.length))
  else .error .badAccess

/-- The string in a block, up to the first NUL. -/
def cString (buf : Bytes) : Bytes := buf.takeWhile (· ≠ 0)

/-- A block without NUL is read past its end. -/
def strlen (buf : Bytes) : Except Fault ℕ :=
  if 0 ∈ buf then .ok (cString buf).length else .error .badAccess

/-- Resize a block. What is added is indeterminate in C; every caller overwrites it. -/
def realloc (buf : Bytes) (n : ℕ) : Bytes := buf.take n ++ List.replicate (n - buf.length) 0

theorem readAt_append (pre mid post : Bytes) :
    readAt (pre ++ (mid ++ post)) pre.length mid.length = .ok mid := by
  unfold readAt
  rw [if_pos (by simp), List.drop_left, List.take_left]

theorem read16_ok (e : Endian) {buf : Bytes} {off : ℕ} (h : off + 2 ≤ buf.length) : ∃ v, read16 e buf off = .ok v := by
  refine ⟨ofHost e buf[off] buf[off + 1], ?_⟩
  unfold read16
  rw [List.getElem?_eq_getElem (by omega), List.getElem?_eq_getElem (by omega)]

theorem read16_append (e : Endian) (pre : Bytes) (a b : UInt8) (post : Bytes) :
    read16 e (pre ++ a :: b :: post) pre.length = .ok (ofHost e a b) := by
  unfold read16
  rw [List.getElem?_append_right (Nat.le_refl _), List.getElem?_append_right (Nat.le_add_right _ _)]
  simp

/-- A word the host has stored is the word it reads. -/
theorem read16_host (e : Endian) (pre : Bytes) (v : UInt16) (post : Bytes) :
    read16 e (pre ++ (hostBytes e v ++ post)) pre.length = .ok v := by
  cases e <;> simp [hostBytes, read16_append, ofHost]

theorem writeAt_append (pre old new post : Bytes) (h : new.length = old.length) :
    writeAt (pre ++ (old ++ post)) pre.length new = .ok (pre ++ (new ++ post)) := by
  unfold writeAt
  rw [if_pos (by simp [h]), List.take_left, ← List.drop_drop, List.drop_left, h, List.drop_left,
    List.append_assoc]

end AtlasClient
