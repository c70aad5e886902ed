import Mathlib.Data.List.Basic

/-!
# Self-delimiting frames

A stream of frames: each frame is a header of fixed size followed by as many body
elements as the header announces. Nothing else is assumed of the header.

* `encode_injective`: a stream is the encoding of at most one list of frames.
* `isEncoding_append`, `Short.not_isEncoding`: whether a stream is an encoding is
  decided at its head: by the rest after a frame, and not at all by less than one
  frame (`Short`).
-/

namespace Framing

variable {β H : Type*}

/-- A header of fixed size, with its codec, that announces the length of a body. -/
structure Header (β H : Type*) where
  size : ℕ
  size_pos : 0 < size
  enc : H → List β
  dec : List β → H
  len : H → ℕ
  enc_length : ∀ h, (enc h).length = size
  dec_enc : ∀ h, dec (enc h) = h
  enc_dec : ∀ bs, bs.length = size → enc (dec bs) = bs

/-- A header with a body of the length it announces. -/
structure Frame (F : Header β H) where
  hdr : H
  body : List β
  fits : body.length = F.len hdr

variable {F : Header β H}

theorem Frame.ext' {f g : Frame F} (hh : f.hdr = g.hdr) (hb : f.body = g.body) : f = g := by
  cases f; cases g; simp_all

/-- The frame as it stands in the stream. -/
def Frame.bytes (f : Frame F) : List β := F.enc f.hdr ++ f.body

/-- The number of elements the frame takes. -/
def Frame.size (f : Frame F) : ℕ := F.size + f.body.length

theorem Frame.bytes_length (f : Frame F) : f.bytes.length = f.size := by
  simp [Frame.bytes, Frame.size, F.enc_length]

theorem Frame.size_pos (f : Frame F) : 0 < f.size :=
  Nat.lt_of_lt_of_le F.size_pos (Nat.le_add_right _ _)

/-- The stream of a list of frames. -/
def encode (fs : List (Frame F)) : List β := fs.flatMap Frame.bytes

@[simp] theorem encode_nil : encode ([] : List (Frame F)) = [] := rfl

@[simp] theorem encode_cons (f : Frame F) (fs : List (Frame F)) :
    encode (f :: fs) = f.bytes ++ encode fs := by simp [encode]

@[simp] theorem encode_append (fs gs : List (Frame F)) :
    encode (fs ++ gs) = encode fs ++ encode gs := by simp [encode]

theorem encode_eq_nil {fs : List (Frame F)} : encode fs = [] ↔ fs = [] := by
  constructor
  · intro h
    rcases fs with _ | ⟨f, fs⟩
    · rfl
    · have h0 := congrArg List.length h
      have := f.size_pos
      simp [f.bytes_length] at h0; omega
  · rintro rfl; rfl

theorem length_le_encode (fs : List (Frame F)) : F.size * fs.length ≤ (encode fs).length := by
  induction fs with
  | nil => simp
  | cons f fs ih =>
    have : F.size ≤ f.size := Nat.le_add_right _ _
    simp only [encode_cons, List.length_append, f.bytes_length, List.length_cons, Nat.mul_succ]
    omega

/-- The head of a stream determines its first frame. -/
theorem bytes_append_inj {f g : Frame F} {r s : List β} (h : f.bytes ++ r = g.bytes ++ s) :
    f = g ∧ r = s := by
  simp only [Frame.bytes, List.append_assoc] at h
  have hl : (F.enc f.hdr).length = (F.enc g.hdr).length := by rw [F.enc_length, F.enc_length]
  obtain ⟨he, h⟩ := List.append_inj h hl
  have hh : f.hdr = g.hdr := by rw [← F.dec_enc f.hdr, he, F.dec_enc]
  obtain ⟨hb, h⟩ := List.append_inj h (by rw [f.fits, g.fits, hh])
  exact ⟨Frame.ext' hh hb, h⟩

/-- **A stream is the encoding of at most one list of frames.** -/
theorem encode_injective : ∀ {fs gs : List (Frame F)}, encode fs = encode gs → fs = gs := by
  intro fs
  induction fs with
  | nil => intro gs h; exact (encode_eq_nil.1 h.symm).symm
  | cons f fs ih =>
    intro gs h
    rcases gs with _ | ⟨g, gs⟩
    · exact encode_eq_nil.1 h
    · rw [encode_cons, encode_cons] at h
      obtain ⟨rfl, hrest⟩ := bytes_append_inj h
      rw [ih hrest]

/-- A non-empty stream that ends before its first frame does. -/
def Short (F : Header β H) (bs : List β) : Prop :=
  bs ≠ [] ∧ (bs.length < F.size ∨ bs.length < F.size + F.len (F.dec (bs.take F.size)))

/-- The stream is the encoding of some list of frames. -/
def IsEncoding (F : Header β H) (bs : List β) : Prop := ∃ fs : List (Frame F), bs = encode fs

theorem isEncoding_nil : IsEncoding F [] := ⟨[], rfl⟩

theorem take_bytes (f : Frame F) (rest : List β) : (f.bytes ++ rest).take F.size = F.enc f.hdr := by
  rw [Frame.bytes, List.append_assoc, List.take_left' (F.enc_length f.hdr)]

theorem Short.not_bytes {f : Frame F} {rest : List β} : ¬ Short F (f.bytes ++ rest) := by
  rintro ⟨-, h⟩
  rw [take_bytes, F.dec_enc, ← f.fits, List.length_append, f.bytes_length, Frame.size] at h
  omega

/-- A stream that ends inside its first frame encodes nothing. -/
theorem Short.not_isEncoding {bs : List β} (h : Short F bs) : ¬ IsEncoding F bs := by
  rintro ⟨fs, rfl⟩
  rcases fs with _ | ⟨f, fs⟩
  · exact h.1 rfl
  · rw [encode_cons] at h; exact h.not_bytes

/-- A frame at the head does not change whether the rest is an encoding. -/
theorem isEncoding_append (f : Frame F) (rest : List β) :
    IsEncoding F (f.bytes ++ rest) ↔ IsEncoding F rest := by
  constructor
  · rintro ⟨fs, h⟩
    rcases fs with _ | ⟨g, gs⟩
    · have := congrArg List.length h
      have := f.size_pos
      simp [f.bytes_length] at *; omega
    · rw [encode_cons] at h
      exact ⟨gs, (bytes_append_inj h).2⟩
  · rintro ⟨fs, rfl⟩; exact ⟨f :: fs, (encode_cons f fs).symm⟩

end Framing
