import AtlasClient.Spec.Identity
import Mathlib.Data.List.TakeDrop
import Mathlib.Data.List.TakeWhile

/-!
# Credentials across a restart

Neither the result of a `write` nor the length of a `read` is checked against what was to
be transferred.

* `getIdentity_ok`, `getPsk_ok`: what a successful half of `atlas_identity_init` leaves in
  the file and in the buffer.
* `credentials_iff`: **a second start yields the same credentials** exactly when each file
  was read, or written, as far as its string goes.
-/

namespace AtlasClient

variable {libs : IdentityLibs} {calls calls₂ : IdentityCalls} {s s' : IdentityState}

/-! ## Strings -/

theorem cString_take (buf : Bytes) (n : ℕ) : cString (buf.take n) = (cString buf).take n :=
  List.take_takeWhile.symm

/-- Zeros behind a block do not change its string. -/
theorem cString_zeros (buf : Bytes) (n : ℕ) : cString (buf ++ List.replicate n 0) = cString buf := by
  have hnil : cString (List.replicate n 0) = [] := by cases n <;> simp [cString, List.replicate_succ]
  unfold cString at hnil ⊢
  rw [List.takeWhile_append, hnil, List.append_nil]
  split
  · rename_i h
    exact (List.takeWhile_prefix _).eq_of_length h |>.symm
  · rfl

theorem cString_of_notMem {buf : Bytes} (h : (0 : UInt8) ∉ buf) : cString buf = buf := by
  unfold cString
  rw [List.takeWhile_eq_self_iff]
  intro b hb
  have hne : b ≠ 0 := fun h0 => h (h0 ▸ hb)
  simpa using hne

theorem cString_terminated {buf : Bytes} (h : (0 : UInt8) ∉ buf) (rest : Bytes) :
    cString (buf ++ 0 :: rest) = buf := by
  unfold cString
  rw [List.takeWhile_append_of_pos fun b hb => by simpa using fun h0 : b = 0 => h (h0 ▸ hb)]
  simp

@[simp] theorem cString_overwrite_zeroed (bs : Bytes) : cString (overwrite zeroed bs) = cString bs := by
  unfold overwrite zeroed
  rw [List.drop_replicate]
  exact cString_zeros bs _

/-! ## The first start -/

/-- A string of `len` bytes has been written to its file, in front of zeros. -/
structure FileCalls.Written (calls : FileCalls) (len : ℕ) (content string : Bytes) : Prop where
  length_eq : string.length = len
  chars : (0 : UInt8) ∉ string
  content_eq : ∃ n, content = (string ++ List.replicate n 0).take calls.write

/-- What a successful half of `atlas_identity_init` leaves in the file and in the buffer. -/
def FileCalls.Kept (calls : FileCalls) (len : ℕ) (file file' : Option Bytes) (string : Bytes) : Prop :=
  ∃ content, file' = some content ∧
    match calls.opened file with
    | some c => c = content ∧ calls.delivered content ≠ [] ∧ string = cString (calls.delivered content)
    | none => calls.Written len content string

theorem FileCalls.opened_eq {calls : FileCalls} {file : Option Bytes} {content : Bytes}
    (h : calls.opened file = some content) : file = some content := by
  unfold FileCalls.opened at h
  split at h
  · exact h
  · cases h

theorem getIdentity_ok (h : getIdentity libs calls s = (.ok, s')) :
    calls.identityFile.Kept 36 s.identityFile s'.identityFile s'.credentials.1 ∧ s'.pskFile = s.pskFile := by
  unfold getIdentity at h
  unfold FileCalls.Kept
  cases ho : calls.identityFile.opened s.identityFile with
  | some content =>
    simp only [ho, Prod.mk.injEq] at h
    obtain ⟨hst, rfl⟩ := h
    have hne : calls.identityFile.delivered content ≠ [] := by
      intro hnil
      rw [if_pos hnil] at hst; cases hst
    exact ⟨⟨content, FileCalls.opened_eq ho, rfl, hne, by simp [IdentityState.credentials]⟩, rfl⟩
  | none =>
    simp only [ho, atlasGenerateIdentity] at h
    cases hw : calls.identityFile.openWrite with
    | false => simp [hw] at h
    | true =>
      simp only [hw, Bool.not_true, Bool.false_eq_true, if_false, Prod.mk.injEq] at h
      obtain ⟨-, rfl⟩ := h
      have hc := libs.uuid_chars calls.uuid
      have hstr : cString (overwrite s.identity (libs.uuidUnparseLower calls.uuid ++ [0])) =
          libs.uuidUnparseLower calls.uuid := by
        unfold overwrite
        rw [List.append_assoc]
        exact cString_terminated hc _
      refine ⟨⟨_, rfl, ?_⟩, rfl⟩
      simp only [IdentityState.credentials, hstr]
      exact ⟨libs.uuid_length _, hc, 0, by simp⟩

theorem getPsk_ok (h : getPsk libs calls s = (.ok, s')) :
    calls.pskFile.Kept 44 s.pskFile s'.pskFile s'.credentials.2 ∧ s'.identityFile = s.identityFile ∧
      s'.identity = s.identity := by
  unfold getPsk at h
  unfold FileCalls.Kept
  cases ho : calls.pskFile.opened s.pskFile with
  | some content =>
    simp only [ho, Prod.mk.injEq] at h
    obtain ⟨hst, rfl⟩ := h
    have hne : calls.pskFile.delivered content ≠ [] := by
      intro hnil
      rw [if_pos hnil] at hst; cases hst
    exact ⟨⟨content, FileCalls.opened_eq ho, rfl, hne, by simp [IdentityState.credentials]⟩, rfl, rfl⟩
  | none =>
    simp only [ho, atlasGeneratePsk] at h
    cases hw : calls.pskFile.openWrite with
    | false => simp [hw] at h
    | true =>
      cases hr : calls.rand with
      | none => simp [hw, hr] at h
      | some randBytes =>
        simp only [hw, hr, Bool.not_true, Bool.false_eq_true, if_false, Prod.mk.injEq] at h
        obtain ⟨-, rfl⟩ := h
        have hc := libs.base64_chars randBytes
        have hl := libs.base64_length randBytes
        have hpsk : toBase64 libs randBytes zeroed 64 = libs.base64 randBytes ++ List.replicate 21 0 := by
          unfold toBase64 overwrite zeroed
          rw [List.take_of_length_le (by omega), List.drop_replicate, hl]
        have hstr : cString (toBase64 libs randBytes zeroed 64) = libs.base64 randBytes := by
          rw [hpsk, cString_zeros, cString_of_notMem hc]
        refine ⟨⟨_, rfl, ?_⟩, rfl, rfl⟩
        simp only [IdentityState.credentials, hstr]
        exact ⟨hl, hc, 21, by rw [hpsk]⟩

/-! ## The second start -/

/-- The file can be opened and read. -/
def FileCalls.Reads (calls : FileCalls) : Prop := calls.openRead = true ∧ ∃ n, calls.read = some n ∧ 64 ≤ n

theorem FileCalls.Reads.opened {calls : FileCalls} (h : calls.Reads) (file : Option Bytes) :
    calls.opened file = file := if_pos h.1

theorem FileCalls.Reads.delivered {calls : FileCalls} (h : calls.Reads) (content : Bytes) :
    calls.delivered content = content.take 64 := by
  obtain ⟨-, n, hn, hle⟩ := h
  unfold FileCalls.delivered
  rw [hn, Option.getD_some, List.take_take, Nat.min_eq_right hle]

/-- **The second start succeeds** on two files that are not empty, and yields their strings. -/
theorem restart_spec (libs : IdentityLibs) (hi : calls₂.identityFile.Reads) (hp : calls₂.pskFile.Reads)
    {content content' : Bytes} (h1 : s.identityFile = some content) (h2 : s.pskFile = some content')
    (v : Bytes × Bytes) :
    (∃ s₂, atlasIdentityInit libs calls₂ s.reboot = (.ok, s₂) ∧ s₂.credentials = v) ↔
      (content.take 64 ≠ [] ∧ cString (content.take 64) = v.1) ∧
        content'.take 64 ≠ [] ∧ cString (content'.take 64) = v.2 := by
  unfold atlasIdentityInit
  simp only [getIdentity, getPsk, IdentityState.reboot, hi.opened, hp.opened, hi.delivered, hp.delivered, h1, h2]
  by_cases hc : content.take 64 = []
  · simp [hc]
  by_cases hc' : content'.take 64 = []
  · simp [hc, hc']
  · simp [hc, hc', IdentityState.credentials, Prod.ext_iff]

/-! ## Both -/

/-- The credential is loaded, or written, as far as its string goes. -/
def FileCalls.Whole (calls : FileCalls) (len : ℕ) (file : Option Bytes) : Prop :=
  match calls.opened file with
  | some content => (cString (content.take 64)).length ≤ calls.read.getD 0
  | none => len ≤ calls.write

instance (calls : FileCalls) (len : ℕ) (file : Option Bytes) : Decidable (calls.Whole len file) := by
  unfold FileCalls.Whole
  split <;> infer_instance

/-- **One file** yields its string again exactly when the credential was transferred whole. -/
theorem FileCalls.Kept.again_iff {calls : FileCalls} {len : ℕ} {file file' : Option Bytes} {string content : Bytes}
    (h : calls.Kept len file file' string) (hlen : 0 < len ∧ len ≤ 64) (hc : file' = some content) :
    (content.take 64 ≠ [] ∧ cString (content.take 64) = string) ↔ calls.Whole len file := by
  obtain ⟨c, hc', h⟩ := h
  obtain rfl : c = content := Option.some.inj (hc'.symm.trans hc)
  unfold FileCalls.Whole
  cases ho : calls.opened file with
  | some d =>
    rw [ho] at h
    obtain ⟨rfl, hne, hstring⟩ := h
    have hcut : string = (cString (d.take 64)).take (calls.read.getD 0) := by
      rw [hstring, FileCalls.delivered, cString_take]
    rw [hcut, eq_comm, List.take_eq_self_iff]
    refine and_iff_right fun hnil => hne ?_
    rw [FileCalls.delivered, hnil, List.take_nil]
  | none =>
    rw [ho] at h
    obtain ⟨hl, hz, n, hcontent⟩ := h
    have hstring : cString (c.take 64) = string.take calls.write := by
      rw [hcontent, cString_take, cString_take, cString_zeros, cString_of_notMem hz,
        List.take_of_length_le (by rw [List.length_take]; omega)]
    rw [hstring, List.take_eq_self_iff, hl]
    refine and_iff_right_of_imp fun hle hnil => ?_
    -- an empty file would have an empty string
    have h0 := congrArg List.length hstring
    rw [hnil, List.length_take, hl, Nat.min_eq_right hle] at h0
    exact hlen.1.ne h0

/-- Both credentials are transferred whole: an identity of 36 bytes, a PSK of 44. -/
structure IdentityCalls.Whole (calls : IdentityCalls) (s : IdentityState) : Prop where
  identity : calls.identityFile.Whole 36 s.identityFile
  psk : calls.pskFile.Whole 44 s.pskFile

theorem init_ok (h : atlasIdentityInit libs calls s = (.ok, s')) :
    ∃ s₁, getIdentity libs calls s = (.ok, s₁) ∧ getPsk libs calls s₁ = (.ok, s') := by
  unfold atlasIdentityInit at h
  rcases h1 : getIdentity libs calls s with ⟨st, s₁⟩
  rcases h2 : getPsk libs calls s₁ with ⟨st', s₂⟩
  simp only [h1, h2] at h
  by_cases hst : st = .ok
  swap
  · rw [if_pos hst] at h
    exact absurd (congrArg Prod.fst h) hst
  by_cases hst' : st' = .ok
  swap
  · rw [if_neg (not_not_intro hst), if_pos hst'] at h
    exact absurd (congrArg Prod.fst h) hst'
  rw [if_neg (not_not_intro hst), if_neg (not_not_intro hst')] at h
  refine ⟨s₁, by rw [hst], ?_⟩
  rw [h2, hst']
  exact h

/-- **Credentials survive a restart, and exactly when.** For every content of the two files, every
outcome of the calls and every random bytes: if `atlas_identity_init` succeeds, then in a new
process, when its files can be opened and read, it succeeds again with the same identity and
the same PSK, if and only if each credential was read as far as the string in its file goes,
or, where it was generated, written in full. -/
theorem credentials_iff (h : atlasIdentityInit libs calls s = (.ok, s')) (hi : calls₂.identityFile.Reads)
    (hp : calls₂.pskFile.Reads) :
    (∃ s₂, atlasIdentityInit libs calls₂ s'.reboot = (.ok, s₂) ∧ s₂.credentials = s'.credentials) ↔
      calls.Whole s := by
  obtain ⟨s₁, h1, h2⟩ := init_ok h
  obtain ⟨hk1, hpsk⟩ := getIdentity_ok h1
  obtain ⟨hk2, hfile, hbuf⟩ := getPsk_ok h2
  rw [hpsk] at hk2
  -- what the first half has left is still there
  have hcred : s'.credentials.1 = s₁.credentials.1 := congrArg cString hbuf
  rw [← hfile, ← hcred] at hk1
  have ⟨content, hc, _⟩ := hk1
  have ⟨content', hc', _⟩ := hk2
  rw [restart_spec libs hi hp hc hc', hk1.again_iff (by decide) hc, hk2.again_iff (by decide) hc']
  exact ⟨fun h => ⟨h.1, h.2⟩, fun h => ⟨h.identity, h.psk⟩⟩

/-- Calls on files that can be opened and read, with room for `n` bytes. -/
def roomFor (n : ℕ) : FileCalls := ⟨true, some 64, true, n, true⟩

theorem roomFor_reads (n : ℕ) : (roomFor n).Reads := ⟨rfl, 64, rfl, le_rfl⟩

/-- A start with room for `n` bytes in each file. -/
def startWith (n : ℕ) : IdentityCalls :=
  ⟨roomFor n, roomFor n, ⟨List.replicate 16 7, rfl⟩, some ⟨List.replicate 32 9, rfl⟩⟩

/-- Neither file is there yet. -/
def firstBoot : IdentityState := ⟨none, none, zeroed, zeroed⟩

/-- The files and buffers after a first start. -/
def booted (n : ℕ) : IdentityState := (atlasIdentityInit .standard (startWith n) firstBoot).2

theorem credentials_iff_firstBoot :
    (∃ s₂, atlasIdentityInit .standard (startWith 0) (booted 65).reboot = (.ok, s₂) ∧
        s₂.credentials = (booted 65).credentials) ↔
      (startWith 65).Whole firstBoot :=
  have hok : atlasIdentityInit .standard (startWith 65) firstBoot = (.ok, booted 65) := rfl
  credentials_iff hok (roomFor_reads 0) (roomFor_reads 0)

/-- **A full disk**: both files are created, nothing is written, and the first start succeeds. -/
theorem full_disk_loses_credentials :
    ¬ ∀ (libs : IdentityLibs) (calls calls₂ : IdentityCalls) (s s' : IdentityState),
      atlasIdentityInit libs calls s = (.ok, s') → calls₂.identityFile.Reads → calls₂.pskFile.Reads →
        ∃ s₂, atlasIdentityInit libs calls₂ s'.reboot = (.ok, s₂) ∧ s₂.credentials = s'.credentials := by
  intro hall
  obtain ⟨s₂, h, -⟩ := hall .standard (startWith 0) (startWith 0) firstBoot (booted 0) rfl
    (roomFor_reads 0) (roomFor_reads 0)
  have hst : (atlasIdentityInit .standard (startWith 0) (booted 0).reboot).1 = .ok := congrArg Prod.fst h
  have hfails : (atlasIdentityInit .standard (startWith 0) (booted 0).reboot).1 = .identityFileError := rfl
  cases hst.symm.trans hfails

end AtlasClient
