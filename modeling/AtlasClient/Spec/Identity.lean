import AtlasClient.Spec.Bytes
import AtlasClient.Spec.Status

/-!
# The identity

`identity/atlas_identity.c`: the client's identity and its pre-shared key, each in a file
that is generated when it cannot be opened. libuuid and OpenSSL are a parameter
(`IdentityLibs`), and what the system does to each call is another (`IdentityCalls`).
-/

namespace AtlasClient

/-- Overwrite the beginning of a block. -/
def overwrite (buf bs : Bytes) : Bytes := bs ++ buf.drop bs.length

/-! ## The libraries -/

abbrev Uuid := { u : Bytes // u.length = 16 }

abbrev RandBytes := { bs : Bytes // bs.length = 32 }

/-- `uuid_unparse_lower` without the NUL, and base64 in one line. -/
structure IdentityLibs where
  uuidUnparseLower : Uuid → Bytes
  base64 : RandBytes → Bytes
  uuid_length : ∀ u, (uuidUnparseLower u).length = 36
  uuid_chars : ∀ u, (0 : UInt8) ∉ uuidUnparseLower u
  base64_length : ∀ bs, (base64 bs).length = 44
  base64_chars : ∀ bs, (0 : UInt8) ∉ base64 bs

/-! ## The system -/

/-- What becomes of the calls on one file. -/
structure FileCalls where
  /-- `open` for reading, if the file exists -/
  openRead : Bool
  /-- `read` returns at most that many bytes; `none` is an error -/
  read : Option ℕ
  openWrite : Bool
  /-- `write` writes at most that many bytes -/
  write : ℕ
  remove : Bool
  deriving DecidableEq, Repr

structure IdentityCalls where
  identityFile : FileCalls
  pskFile : FileCalls
  uuid : Uuid
  /-- `none` is a failure of `RAND_bytes` -/
  rand : Option RandBytes

/-- The two files and the two static buffers of 65 bytes. -/
structure IdentityState where
  identityFile : Option Bytes
  pskFile : Option Bytes
  identity : Bytes
  psk : Bytes
  deriving DecidableEq, Repr

def zeroed : Bytes := List.replicate 65 0

/-- The files in a new process. -/
def IdentityState.reboot (s : IdentityState) : IdentityState := { s with identity := zeroed, psk := zeroed }

/-- `atlas_identity_get` and `atlas_psk_get`. -/
def IdentityState.credentials (s : IdentityState) : Bytes × Bytes := (cString s.identity, cString s.psk)

/-- What a reader of a file gets into 64 bytes of a zeroed buffer; `none` if it cannot be opened. -/
def FileCalls.opened (calls : FileCalls) (file : Option Bytes) : Option Bytes :=
  if calls.openRead then file else none

/-- The bytes that `read` delivers; an error delivers none. -/
def FileCalls.delivered (calls : FileCalls) (content : Bytes) : Bytes :=
  (content.take 64).take (calls.read.getD 0)

/-! ## The functions -/

section functions

variable (libs : IdentityLibs) (calls : IdentityCalls)

/-- The result of `write` is not looked at. -/
def atlasGenerateIdentity (s : IdentityState) : AtlasStatus × IdentityState :=
  if !calls.identityFile.openWrite then (.identityFileError, s)
  else
    let identity := overwrite s.identity (libs.uuidUnparseLower calls.uuid ++ [0])
    (.ok, { s with
      identity := identity
      identityFile := some ((cString identity).take calls.identityFile.write) })

def toBase64 (input : RandBytes) (out : Bytes) (outLen : ℕ) : Bytes :=
  overwrite out ((libs.base64 input).take outLen)

def atlasGeneratePsk (s : IdentityState) : AtlasStatus × IdentityState :=
  if !calls.pskFile.openWrite then (.pskFileError, s)
  else
    -- `open` has emptied the file
    let s := { s with pskFile := some [] }
    match calls.rand with
    | none => (.pskFileError, s)
    | some randBytes =>
      let psk := toBase64 libs randBytes zeroed 64
      (.ok, { s with psk := psk, pskFile := some (psk.take calls.pskFile.write) })

/-- `atlas_identity_init` up to the PSK. -/
def getIdentity (s : IdentityState) : AtlasStatus × IdentityState :=
  match calls.identityFile.opened s.identityFile with
  | none =>
    let (status, s) := atlasGenerateIdentity libs calls s
    (if status ≠ .ok then .identityFileError else .ok, s)
  | some content =>
    let bs := calls.identityFile.delivered content
    (if bs = [] then .identityFileError else .ok, { s with identity := overwrite zeroed bs })

/-- `atlas_identity_init` from the PSK on. -/
def getPsk (s : IdentityState) : AtlasStatus × IdentityState :=
  match calls.pskFile.opened s.pskFile with
  | none =>
    let (status, s) := atlasGeneratePsk libs calls s
    (if status ≠ .ok then .pskFileError else .ok, s)
  | some content =>
    let bs := calls.pskFile.delivered content
    (if bs = [] then .pskFileError else .ok, { s with psk := overwrite zeroed bs })

/-- The `ERR` label. -/
def removeFiles (s : IdentityState) : IdentityState :=
  { s with
    identityFile := if calls.identityFile.remove then none else s.identityFile
    pskFile := if calls.pskFile.remove then none else s.pskFile }

def atlasIdentityInit (s : IdentityState) : AtlasStatus × IdentityState :=
  let (status, s) := getIdentity libs calls s
  if status ≠ .ok then (status, removeFiles calls s)
  else
    let (status, s) := getPsk libs calls s
    if status ≠ .ok then (status, removeFiles calls s)
    else (.ok, s)

end functions

/-! ## The libraries' texts -/

def hexDigit (n : ℕ) : UInt8 := UInt8.ofNat (if n < 10 then 48 + n else 87 + n)

def hexByte (b : UInt8) : Bytes := [hexDigit (b.toNat / 16), hexDigit (b.toNat % 16)]

/-- Five groups of hexadecimal digits with hyphens in between. -/
def uuidText (u : Bytes) : Bytes :=
  let digits (i n : ℕ) : Bytes := ((u.drop i).take n).flatMap hexByte
  digits 0 4 ++ [45] ++ digits 4 2 ++ [45] ++ digits 6 2 ++ [45] ++ digits 8 2 ++ [45] ++ digits 10 6

/-- The alphabet of base64. -/
def base64Char (n : ℕ) : UInt8 :=
  UInt8.ofNat
    (if n < 26 then 65 + n else if n < 52 then 71 + n else if n < 62 then n - 4 else if n = 62 then 43 else 47)

def base64Text : Bytes → Bytes
  | a :: b :: c :: rest =>
    let v := a.toNat * 65536 + b.toNat * 256 + c.toNat
    base64Char (v / 262144) :: base64Char (v / 4096 % 64) :: base64Char (v / 64 % 64) :: base64Char (v % 64) ::
      base64Text rest
  | [a, b] =>
    let v := a.toNat * 1024 + b.toNat * 4
    [base64Char (v / 4096), base64Char (v / 64 % 64), base64Char (v % 64), 61]
  | [a] =>
    let v := a.toNat * 16
    [base64Char (v / 64), base64Char (v % 64), 61, 61]
  | [] => []

theorem hexDigit_ne_zero {n : ℕ} (h : n < 16) : hexDigit n ≠ 0 := by
  revert n
  decide

theorem zero_notMem_hexByte (b : UInt8) : (0 : UInt8) ∉ hexByte b := by
  have hb := b.toNat_lt
  simp only [hexByte, List.mem_cons, List.not_mem_nil, or_false, not_or]
  exact ⟨(hexDigit_ne_zero (by omega)).symm, (hexDigit_ne_zero (by omega)).symm⟩

theorem uuidText_chars (u : Bytes) : (0 : UInt8) ∉ uuidText u := by
  simp [uuidText, zero_notMem_hexByte]

theorem uuidText_length {u : Bytes} (h : u.length = 16) : (uuidText u).length = 36 := by
  simp [uuidText, hexByte, List.length_flatMap, h]

theorem base64Char_ne_zero {n : ℕ} (h : n < 64) : base64Char n ≠ 0 := by
  revert n
  decide

theorem base64Text_chars (bs : Bytes) : (0 : UInt8) ∉ base64Text bs := by
  induction bs using base64Text.induct with
  | case1 a b c rest ih =>
    have ha := a.toNat_lt; have hb := b.toNat_lt; have hc := c.toNat_lt
    simp only [base64Text, List.mem_cons, not_or]
    refine ⟨(base64Char_ne_zero ?_).symm, (base64Char_ne_zero ?_).symm, (base64Char_ne_zero ?_).symm,
      (base64Char_ne_zero ?_).symm, ih⟩ <;> omega
  | case2 a b =>
    have ha := a.toNat_lt; have hb := b.toNat_lt
    simp only [base64Text, List.mem_cons, List.not_mem_nil, or_false, not_or]
    refine ⟨(base64Char_ne_zero ?_).symm, (base64Char_ne_zero ?_).symm, (base64Char_ne_zero ?_).symm,
      by decide⟩ <;> omega
  | case3 a =>
    have ha := a.toNat_lt
    simp only [base64Text, List.mem_cons, List.not_mem_nil, or_false, not_or]
    refine ⟨(base64Char_ne_zero ?_).symm, (base64Char_ne_zero ?_).symm, by decide, by decide⟩ <;> omega
  | case4 => simp [base64Text]

theorem base64Text_length (bs : Bytes) : (base64Text bs).length = 4 * ((bs.length + 2) / 3) := by
  induction bs using base64Text.induct with
  | case1 a b c rest ih => simp only [base64Text, List.length_cons, ih]; omega
  | case2 a b => simp [base64Text]
  | case3 a => simp [base64Text]
  | case4 => simp [base64Text]

/-- The texts that the libraries document. -/
def IdentityLibs.standard : IdentityLibs where
  uuidUnparseLower u := uuidText u.1
  base64 bs := base64Text bs.1
  uuid_length u := uuidText_length u.2
  uuid_chars u := uuidText_chars u.1
  base64_length bs := by rw [base64Text_length, bs.2]
  base64_chars bs := base64Text_chars bs.1

end AtlasClient
