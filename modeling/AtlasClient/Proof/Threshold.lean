import AtlasClient.Proof.Command
import AtlasClient.Spec.Alert
import Mathlib.Data.List.Induction

/-!
# Threshold alerts

* `thresholdCmds_last`: the loop over a request keeps the last command of each kind.
* `parsesBoth_iff`: **a request is parsed as it must be** unless it has a scan rate and no
  threshold: the check is on the out-parameter and not on the string.
* `storesRequested_iff`: **the number stored is the one requested** exactly when the threshold is the
  decimal representation of a 16-bit number, or the request is rejected.
* `rejectedUnchanged_iff`: **a rejected request changes nothing** unless it is rejected for a number below
  the range of `long`, which has been stored by then.
-/

namespace AtlasClient

open Framing Loop

variable {e : Endian} {long : LongType} {cmds : List Cmd} {c d : Cmd} {v : ThresholdVars}

/-! ## The commands of a request -/

def Cmd.IsScanRate (c : Cmd) : Prop := c.type = AtlasCmdType.telemetryAlertIntScanRate ∧ c.length = 2

def Cmd.IsThreshold (c : Cmd) : Prop := c.type = AtlasCmdType.telemetryAlertThreshold ∧ 0 < c.length

instance Cmd.decidableIsScanRate (c : Cmd) : Decidable c.IsScanRate :=
  inferInstanceAs (Decidable (c.type = AtlasCmdType.telemetryAlertIntScanRate ∧ c.length = 2))

instance Cmd.decidableIsThreshold (c : Cmd) : Decidable c.IsThreshold :=
  inferInstanceAs (Decidable (c.type = AtlasCmdType.telemetryAlertThreshold ∧ 0 < c.length))

/-- The last command of a kind. -/
def LastOf (p : Cmd → Prop) (cmds : List Cmd) (c : Cmd) : Prop :=
  ∃ pre post, cmds = pre ++ c :: post ∧ p c ∧ ∀ d ∈ post, ¬ p d

variable {p : Cmd → Prop}

theorem lastOf_snoc (hc : p c) : LastOf p (cmds ++ [c]) c := ⟨cmds, [], rfl, hc, by simp⟩

theorem LastOf.snoc (h : LastOf p cmds d) (hc : ¬ p c) : LastOf p (cmds ++ [c]) d := by
  obtain ⟨pre, post, rfl, hd, hpost⟩ := h
  exact ⟨pre, post ++ [c], by simp, hd, List.forall_mem_append.2 ⟨hpost, List.forall_mem_singleton.2 hc⟩⟩

theorem LastOf.mem (h : LastOf p cmds c) : c ∈ cmds ∧ p c := by
  obtain ⟨pre, post, rfl, hc, -⟩ := h
  exact ⟨by simp, hc⟩

/-- There is only one last command. -/
theorem LastOf.unique (hc : LastOf p cmds c) (hd : LastOf p cmds d) : c = d := by
  obtain ⟨pre, post, rfl, hpc, hpost⟩ := hc
  obtain ⟨pre', post', heq, hpd, hpost'⟩ := hd
  rcases List.append_eq_append_iff.1 heq with ⟨mid, -, h⟩ | ⟨mid, -, h⟩
  · rcases mid with _ | ⟨x, mid⟩
    · exact (List.cons.inj h).1
    · obtain ⟨-, rfl⟩ := List.cons.inj h
      exact absurd hpd (hpost d (by simp))
  · rcases mid with _ | ⟨x, mid⟩
    · exact (List.cons.inj h).1.symm
    · obtain ⟨-, rfl⟩ := List.cons.inj h
      exact absurd hpc (hpost' c (by simp))

/-! ## The loop -/

/-- What one command does to the variables. -/
def thresholdStep (c : Cmd) (v : ThresholdVars) : ThresholdVars :=
  if c.IsScanRate then { v with scanRate := word (c.value.getD 0 0) (c.value.getD 1 0), scanFound := true }
  else if c.IsThreshold then { v with threshold := some (c.value ++ [0]) }
  else v

/-- A command of length two has two bytes. -/
theorem Cmd.two_bytes (h : c.length = 2) : ∃ x y, c.value = [x, y] := by
  have hlen := c.value_length
  rw [h] at hlen
  match c.value, hlen with
  | [x, y], _ => exact ⟨x, y, rfl⟩

theorem thresholdCmd_eq (e : Endian) (c : Cmd) (post : Bytes) (v : ThresholdVars) :
    thresholdCmd e ⟨c.type, c.length, c.value ++ post⟩ v = .ok (.inl (thresholdStep c v)) := by
  have hcmd : thresholdCmd e ⟨c.type, c.length, c.value ++ post⟩ v =
      if c.IsScanRate then (read16 e (c.value ++ post) 0).bind fun scanRate =>
        .ok (.inl { v with scanRate := ntohs e scanRate, scanFound := true })
      else if c.IsThreshold then (readAt (c.value ++ post) 0 c.length.toNat).bind fun value =>
        .ok (.inl { v with threshold := some (value ++ [0]) })
      else .ok (.inl v) := rfl
  rw [hcmd, thresholdStep]
  by_cases hs : c.IsScanRate
  · obtain ⟨x, y, hxy⟩ := c.two_bytes hs.2
    have hread : read16 e (c.value ++ post) 0 = .ok (ofHost e x y) := by
      rw [hxy]; exact read16_append e [] x y post
    rw [if_pos hs, if_pos hs, bind_of_ok hread, ntohs_ofHost, hxy]
    rfl
  rw [if_neg hs, if_neg hs]
  by_cases ht : c.IsThreshold
  · rw [if_pos ht, if_pos ht, bind_of_ok (c.read_value post)]
  · rw [if_neg ht, if_neg ht]

/-- The variables after the commands: the last of each kind, or what they were. -/
structure Latest (cmds : List Cmd) (scanRate : UInt16) (v : ThresholdVars) : Prop where
  rate : (∀ c ∈ cmds, ¬ c.IsScanRate) ∧ v.scanFound = false ∧ v.scanRate = scanRate ∨
    ∃ c, LastOf Cmd.IsScanRate cmds c ∧ v.scanFound = true ∧ c.value = netBytes v.scanRate
  threshold : (∀ c ∈ cmds, ¬ c.IsThreshold) ∧ v.threshold = none ∨
    ∃ c, LastOf Cmd.IsThreshold cmds c ∧ v.threshold = some (c.value ++ [0])

/-- **One command more.** -/
theorem Latest.step {scanRate : UInt16} (h : Latest cmds scanRate v) :
    Latest (cmds ++ [c]) scanRate (thresholdStep c v) := by
  unfold thresholdStep
  by_cases hs : c.IsScanRate
  · obtain ⟨x, y, hxy⟩ := c.two_bytes hs.2
    have hnot : ¬ c.IsThreshold := fun ht => absurd (hs.1.symm.trans ht.1) (by decide)
    rw [if_pos hs]
    refine ⟨Or.inr ⟨c, lastOf_snoc hs, rfl, by simp [hxy, netBytes]⟩, ?_⟩
    rcases h.threshold with ⟨hno, hnone⟩ | ⟨d, hd, hsome⟩
    · exact Or.inl ⟨List.forall_mem_append.2 ⟨hno, List.forall_mem_singleton.2 hnot⟩, hnone⟩
    · exact Or.inr ⟨d, hd.snoc hnot, hsome⟩
  rw [if_neg hs]
  have hrate : (∀ x ∈ cmds ++ [c], ¬ x.IsScanRate) ∧ v.scanFound = false ∧ v.scanRate = scanRate ∨
      ∃ d, LastOf Cmd.IsScanRate (cmds ++ [c]) d ∧ v.scanFound = true ∧ d.value = netBytes v.scanRate := by
    rcases h.rate with ⟨hno, hr⟩ | ⟨d, hd, hr⟩
    · exact Or.inl ⟨List.forall_mem_append.2 ⟨hno, List.forall_mem_singleton.2 hs⟩, hr⟩
    · exact Or.inr ⟨d, hd.snoc hs, hr⟩
  by_cases ht : c.IsThreshold
  · rw [if_pos ht]
    exact ⟨hrate, Or.inr ⟨c, lastOf_snoc ht, rfl⟩⟩
  · rw [if_neg ht]
    refine ⟨hrate, ?_⟩
    rcases h.threshold with ⟨hno, hnone⟩ | ⟨d, hd, hsome⟩
    · exact Or.inl ⟨List.forall_mem_append.2 ⟨hno, List.forall_mem_singleton.2 ht⟩, hnone⟩
    · exact Or.inr ⟨d, hd.snoc ht, hsome⟩

/-- **The loop keeps the last command of each kind.** -/
theorem thresholdCmds_last (scanRate : UInt16) (cmds : List Cmd) :
    Latest cmds scanRate (cmds.foldl (fun v c => thresholdStep c v) ⟨scanRate, false, none⟩) := by
  induction cmds using List.reverseRecOn with
  | nil => exact ⟨Or.inl ⟨by simp, rfl, rfl⟩, Or.inl ⟨by simp, rfl⟩⟩
  | append_singleton cmds c ih =>
    rw [List.foldl_append]
    exact ih.step

/-! ## The parser -/

variable {buf : Bytes} {bufLen scanRate : UInt16}

/-- The bytes given to the parser are these commands. A pointer that is `NULL` gives none. -/
def HoldsCmds (buf : Bytes) (bufLen : UInt16) (cmds : List Cmd) : Prop := buf.take bufLen.toNat = encode cmds

theorem HoldsCmds.unique {cmds' : List Cmd} (h : HoldsCmds buf bufLen cmds) (h' : HoldsCmds buf bufLen cmds') :
    cmds = cmds' := encode_injective (h.symm.trans h')

theorem HoldsCmds.eq_nil (h : HoldsCmds buf bufLen cmds) (h0 : buf = [] ∨ bufLen = 0) : cmds = [] := by
  have hnil : buf.take bufLen.toNat = [] := by rcases h0 with rfl | rfl <;> simp
  rw [HoldsCmds, hnil] at h
  exact encode_eq_nil.1 h.symm

/-- **A buffer is read into a batch** of the commands that it holds, or it holds none. -/
theorem setRaw_holdsCmds (e : Endian) (h0 : ¬ (buf = [] ∨ bufLen = 0)) (hle : bufLen.toNat ≤ buf.length) :
    (∃ cmds, cmds ≠ [] ∧ HoldsCmds buf bufLen cmds ∧ Holds ⟨bufLen, buf.take bufLen.toNat⟩ cmds ∧
      atlasCmdBatchSetRaw e atlasCmdBatchNew buf bufLen = .ok (.ok, ⟨bufLen, buf.take bufLen.toNat⟩)) ∨
    ((∀ cmds, ¬ HoldsCmds buf bufLen cmds) ∧
      atlasCmdBatchSetRaw e atlasCmdBatchNew buf bufLen = .ok (.corruptedCommand, atlasCmdBatchNew)) := by
  have htake : bufLen.toNat = (buf.take bufLen.toNat).length := by rw [List.length_take]; omega
  have hne : buf.take bufLen.toNat ≠ [] := by
    intro h
    rw [h] at htake
    exact h0 (Or.inr (UInt16.toNat_inj.1 htake))
  by_cases henc : IsEncoding cmdHeader (buf.take bufLen.toNat)
  · left
    have hraw := setRaw_accepts e atlasCmdBatchNew htake hne henc (buf.drop bufLen.toNat)
    rw [List.take_append_drop] at hraw
    obtain ⟨cmds, hcmds⟩ := henc
    exact ⟨cmds, by rintro rfl; exact hne hcmds, hcmds, ⟨hcmds, htake⟩, hraw⟩
  · right
    have hraw := setRaw_rejects e atlasCmdBatchNew htake hne henc (buf.drop bufLen.toNat)
    rw [List.take_append_drop] at hraw
    exact ⟨fun cmds hcmds => henc ⟨cmds, hcmds⟩, hraw⟩

/-- **What the parser does**: it rejects what has no scan rate, and yields the last commands of a batch
that has one. -/
theorem thresholdParse_cases (e : Endian) (hlen : buf = [] ∨ bufLen.toNat ≤ buf.length) (scanRate : UInt16) :
    ((∀ cmds, HoldsCmds buf bufLen cmds → ∀ c ∈ cmds, ¬ c.IsScanRate) ∧ ∃ status, status ≠ .ok ∧
      atlasAlertThresholdCmdParse e buf bufLen (some scanRate) (some none) = .ok (status, some scanRate, some none)) ∨
    ∃ cmds v, HoldsCmds buf bufLen cmds ∧ Latest cmds scanRate v ∧ v.scanFound = true ∧
      atlasAlertThresholdCmdParse e buf bufLen (some scanRate) (some none) =
        .ok (.ok, some v.scanRate, some v.threshold) := by
  by_cases h0 : buf = [] ∨ bufLen = 0
  · left
    refine ⟨fun cmds hcmds c hc => ?_, .invalidInput, by decide, if_pos h0⟩
    rw [HoldsCmds.eq_nil hcmds h0] at hc
    cases hc
  have hle : bufLen.toNat ≤ buf.length := hlen.resolve_left fun h => h0 (Or.inl h)
  simp only [atlasAlertThresholdCmdParse, if_neg h0, bind]
  rcases setRaw_holdsCmds e h0 hle with ⟨cmds, hcne, hcmds, hholds, hraw⟩ | ⟨hno, hraw⟩
  · obtain ⟨b', hloop⟩ := cmdLoop_total (e := e) hholds hcne ⟨scanRate, false, none⟩
      (fun c _ post v => thresholdCmd_eq e c post v)
    have hlast := thresholdCmds_last scanRate cmds
    rw [bind_of_ok hraw]
    simp only [ne_eq, not_true_eq_false, if_false]
    rw [bind_of_ok hloop]
    cases hf : (cmds.foldl (fun v c => thresholdStep c v) ⟨scanRate, false, none⟩).scanFound with
    | true => exact Or.inr ⟨cmds, _, hcmds, hlast, hf, by simp only [Bool.not_true, Bool.false_eq_true, if_false]⟩
    | false =>
      left
      rcases hlast.rate with ⟨hno, -, hrate⟩ | ⟨c, -, hfound, -⟩
      · refine ⟨fun cmds' h' => HoldsCmds.unique h' hcmds ▸ hno, .corruptedCommand, by decide, ?_⟩
        simp only [Bool.not_false, if_true, hrate]
      · rw [hf] at hfound; cases hfound
  · left
    rw [bind_of_ok hraw]
    refine ⟨fun cmds hcmds => absurd hcmds (hno cmds), .corruptedCommand, by decide, ?_⟩
    simp only [ne_eq, reduceCtorEq, not_false_eq_true, if_true]

/-- The property for one buffer: `ATLAS_OK` exactly for a batch with both parts, then the last of each;
on an error the out-parameters are as before. -/
def ParsesBoth (e : Endian) (buf : Bytes) (bufLen scanRate : UInt16) : Prop :=
  ∃ status rate threshold,
    atlasAlertThresholdCmdParse e buf bufLen (some scanRate) (some none) = .ok (status, some rate, some threshold) ∧
    (status = .ok ↔ ∃ cmds, HoldsCmds buf bufLen cmds ∧ (∃ c ∈ cmds, c.IsScanRate) ∧ ∃ c ∈ cmds, c.IsThreshold) ∧
    (status = .ok → ∃ cmds c d, HoldsCmds buf bufLen cmds ∧ LastOf Cmd.IsScanRate cmds c ∧ c.value = netBytes rate ∧
      LastOf Cmd.IsThreshold cmds d ∧ threshold = some (d.value ++ [0])) ∧
    (status ≠ .ok → rate = scanRate ∧ threshold = none)

/-- The buffer is a batch with a scan rate and without a threshold. -/
def LacksThreshold (buf : Bytes) (bufLen : UInt16) : Prop :=
  ∃ cmds, HoldsCmds buf bufLen cmds ∧ (∃ c ∈ cmds, c.IsScanRate) ∧ ∀ c ∈ cmds, ¬ c.IsThreshold

/-- **A threshold request is parsed as it must be, unless the threshold is missing.** For every buffer
of at least the given length, or `NULL`: the parser succeeds exactly on batches with both parts,
with the last of each, and leaves the out-parameters alone on an error, if and only if the buffer
is not a batch with a scan rate and without a threshold. -/
theorem parsesBoth_iff (e : Endian) (scanRate : UInt16) (hlen : buf = [] ∨ bufLen.toNat ≤ buf.length) :
    ParsesBoth e buf bufLen scanRate ↔ ¬ LacksThreshold buf bufLen := by
  rcases thresholdParse_cases e hlen scanRate with ⟨hno, status, hne, hparse⟩ | ⟨cmds, v, hcmds, hlast, hfound, hparse⟩
  · -- rejected, with or without a threshold
    refine iff_of_true ⟨status, scanRate, none, hparse, ?_, fun h => absurd h hne, fun _ => ⟨rfl, rfl⟩⟩ ?_
    · refine iff_of_false hne ?_
      rintro ⟨cmds, hcmds, ⟨c, hc, hrate⟩, -⟩
      exact hno cmds hcmds c hc hrate
    · rintro ⟨cmds, hcmds, ⟨c, hc, hrate⟩, -⟩
      exact hno cmds hcmds c hc hrate
  obtain ⟨c, hc, hvalue⟩ : ∃ c, LastOf Cmd.IsScanRate cmds c ∧ c.value = netBytes v.scanRate := by
    rcases hlast.rate with ⟨-, hf, -⟩ | ⟨c, hc, -, hvalue⟩
    · rw [hfound] at hf; cases hf
    · exact ⟨c, hc, hvalue⟩
  rcases hlast.threshold with ⟨hnone, -⟩ | ⟨d, hd, hsome⟩
  · -- accepted without a threshold
    refine iff_of_false ?_ (not_not.2 ⟨cmds, hcmds, ⟨c, hc.mem⟩, hnone⟩)
    rintro ⟨status, rate, threshold, heq, hiff, -⟩
    rw [hparse] at heq
    cases heq
    obtain ⟨cmds', hcmds', -, x, hx, hthreshold⟩ := hiff.1 rfl
    exact hnone x (hcmds.unique hcmds' ▸ hx) hthreshold
  · refine iff_of_true ⟨.ok, v.scanRate, v.threshold, hparse, ?_, ?_, fun h => absurd rfl h⟩ ?_
    · exact iff_of_true rfl ⟨cmds, hcmds, ⟨c, hc.mem⟩, d, hd.mem⟩
    · exact fun _ => ⟨cmds, c, d, hcmds, hc, hvalue, hd, hsome⟩
    · rintro ⟨cmds', hcmds', -, hno⟩
      exact hno d (hcmds.unique hcmds' ▸ hd.mem.1) hd.mem.2

/-- A request with a scan rate of 60 and the threshold 100. -/
theorem parsesBoth_request : ParsesBoth .little [2, 2, 0, 2, 0, 60, 2, 3, 0, 3, 49, 48, 48] 13 0 ↔
    ¬ LacksThreshold [2, 2, 0, 2, 0, 60, 2, 3, 0, 3, 49, 48, 48] 13 :=
  parsesBoth_iff .little 0 (Or.inr (by decide))

/-- **A request without a threshold is accepted.** The string that the caller then converts is `NULL`. -/
theorem missing_threshold_accepted :
    ¬ ∀ (buf : Bytes) (bufLen scanRate : UInt16), bufLen.toNat ≤ buf.length →
      ParsesBoth .little buf bufLen scanRate := by
  intro h
  obtain ⟨status, rate, threshold, hparse, -, hok, -⟩ := h [2, 2, 0, 2, 0, 60] 6 0 (by decide)
  have heq : atlasAlertThresholdCmdParse .little [2, 2, 0, 2, 0, 60] 6 (some 0) (some none) =
      .ok (.ok, some 60, some none) := by rfl
  rw [heq] at hparse
  cases hparse
  obtain ⟨-, -, d, -, -, -, -, hsome⟩ := hok rfl
  cases hsome

/-! ## The number -/

variable {payload t : Bytes} {procs : UInt16} {w : Client}

/-- The bytes of a payload that the end-point parses: its length is cut to 16 bits. -/
def PayloadCmds (payload : Bytes) (cmds : List Cmd) : Prop := HoldsCmds payload (UInt16.ofNat payload.length) cmds

/-- The threshold string of a payload: the last threshold value, up to a NUL. -/
def ThresholdString (payload t : Bytes) : Prop :=
  ∃ cmds d, PayloadCmds payload cmds ∧ LastOf Cmd.IsThreshold cmds d ∧ t = cString (d.value ++ [0])

theorem ThresholdString.unique {t' : Bytes} (h : ThresholdString payload t) (h' : ThresholdString payload t') :
    t = t' := by
  obtain ⟨cmds, d, hcmds, hd, rfl⟩ := h
  obtain ⟨cmds', d', hcmds', hd', rfl⟩ := h'
  rw [hd.unique (hcmds.unique hcmds' ▸ hd')]

/-- The property for one payload: the end-point answers, and `OK` only when the threshold string is the
decimal representation of a 16-bit number, which is the one it has stored. -/
def StoresRequested (e : Endian) (long : LongType) (payload : Bytes) (procs : UInt16) (w : Client) : Prop :=
  ∃ status procs' w', atlasThresholdAlertProcsCb e long payload procs w = .ok (status, procs', w') ∧
    (status = .ok → ∃ t n, ThresholdString payload t ∧ IsDecimal t n ∧ n ≤ 65535 ∧ procs'.toNat = n)

/-- The payload is not a batch with a scan rate. -/
def LacksScanRate (payload : Bytes) : Prop := ∀ cmds, PayloadCmds payload cmds → ∀ c ∈ cmds, ¬ c.IsScanRate

theorem ofInt_toNat (v : ℤ) : ((UInt16.ofInt v).toNat : ℤ) = v % 2 ^ 16 := by
  rw [UInt16.ofInt, UInt16.toNat_ofNat']
  omega

/-- A 16-bit number is never an end of the range of `long`: only a zero is taken for an error. -/
theorem procs_check (long : LongType) (procs : UInt16) (erange : Bool) :
    (((erange : Prop) ∧ ((procs.toNat : ℤ) = long.max ∨ (procs.toNat : ℤ) = long.min)) ∨ (erange ∧ procs = 0)) ↔
      (erange ∧ procs = 0) := by
  have hmax := long.le_max
  have hmin := long.min_le
  have hlt := procs.toNat_lt
  refine ⟨?_, Or.inr⟩
  rintro (⟨-, h | h⟩ | h)
  · omega
  · omega
  · exact h

/-- **When the stored number is taken for an error**: below the range of `long`, and only there. -/
theorem strtol_check (long : LongType) (t : Bytes) :
    ((strtol long t).2 = true ∧ UInt16.ofInt (strtol long t).1 = 0) ↔ subjectValue t < long.min := by
  have hmax := long.le_max
  have hmin := long.min_le
  have hzero : ∀ v : ℤ, UInt16.ofInt v = 0 ↔ v % 2 ^ 16 = 0 := by
    intro v
    rw [← UInt16.toNat_inj, ← ofInt_toNat]
    simp
  rw [hzero]
  unfold strtol
  split
  · -- the largest `long` is stored as 65535
    refine iff_of_false ?_ (by omega)
    rintro ⟨-, h⟩
    rw [long.max_mod] at h
    omega
  · split
    · exact iff_of_true ⟨rfl, long.min_mod⟩ (by assumption)
    · refine iff_of_false ?_ (by assumption)
      rintro ⟨h, -⟩
      cases h

/-- The number of a string in range is the one that is stored. -/
theorem IsDecimal.stored {n : ℕ} (h : IsDecimal t n) (hn : n ≤ 65535) (long : LongType) :
    (UInt16.ofInt (strtol long t).1).toNat = n := by
  have hmax := long.le_max
  have hmin := long.min_le
  have hv : strtol long t = ((n : ℤ), false) := by
    rw [strtol, h.subjectValue, if_neg (by omega), if_neg (by omega)]
  have hmod := ofInt_toNat (n : ℤ)
  rw [hv]
  dsimp only
  omega

/-- **What the end-point does**: it rejects, it converts a threshold, or it converts `NULL`. -/
theorem procsCb_cases (e : Endian) (long : LongType) (payload : Bytes) (procs : UInt16) (w : Client) :
    (LacksScanRate payload ∧ atlasThresholdAlertProcsCb e long payload procs w = .ok (.notAcceptableHere, procs, w)) ∨
    (¬ LacksScanRate payload ∧ (∀ t, ¬ ThresholdString payload t) ∧
      atlasThresholdAlertProcsCb e long payload procs w = .error .badAccess) ∨
    ∃ t w', ¬ LacksScanRate payload ∧ ThresholdString payload t ∧ atlasThresholdAlertProcsCb e long payload procs w =
      if subjectValue t < long.min then .ok (.notAcceptableHere, UInt16.ofInt (strtol long t).1, w)
      else .ok (.ok, UInt16.ofInt (strtol long t).1, w') := by
  have hlen : payload = [] ∨ (UInt16.ofNat payload.length).toNat ≤ payload.length := by
    right
    rw [UInt16.toNat_ofNat']
    exact Nat.mod_le _ _
  rcases thresholdParse_cases e hlen 0 with ⟨hno, status, hne, hparse⟩ | ⟨cmds, v, hcmds, hlast, hfound, hparse⟩
  · left
    refine ⟨hno, ?_⟩
    simp only [atlasThresholdAlertProcsCb, bind]
    rw [bind_of_ok hparse]
    exact if_pos hne
  right
  have hrate : ¬ LacksScanRate payload := by
    rcases hlast.rate with ⟨-, hf, -⟩ | ⟨c, hc, -⟩
    · rw [hfound] at hf; cases hf
    · exact fun h => h cmds hcmds c hc.mem.1 hc.mem.2
  rcases hlast.threshold with ⟨hno, hnone⟩ | ⟨d, hd, hsome⟩
  · left
    rw [hnone] at hparse
    refine ⟨hrate, ?_, ?_⟩
    · rintro t ⟨cmds', d, hcmds', hd, -⟩
      exact hno d (hcmds.unique hcmds' ▸ hd.mem.1) hd.mem.2
    · simp only [atlasThresholdAlertProcsCb, bind]
      rw [bind_of_ok hparse]
      rfl
  · right
    rw [hsome] at hparse
    refine ⟨cString (d.value ++ [0]),
      atlasTelemetryThresholdSet (some "gateway/telemetry/sysinfo/procs") v.scanRate w, hrate,
      ⟨cmds, d, hcmds, hd, rfl⟩, ?_⟩
    simp only [atlasThresholdAlertProcsCb, bind]
    rw [bind_of_ok hparse]
    simp only [ne_eq, not_true_eq_false, if_false]
    by_cases hmin : subjectValue (cString (d.value ++ [0])) < long.min
    · rw [if_pos hmin, if_pos ((procs_check ..).2 ((strtol_check ..).2 hmin))]
    · rw [if_neg hmin, if_neg fun h => hmin ((strtol_check ..).1 ((procs_check ..).1 h))]

/-- **The number stored is the one requested, or the request is rejected.** For every payload: the
end-point answers, and `OK` only for the decimal representation of a number up to 65535, which it
stores, if and only if the payload is not a batch with a scan rate, or its threshold string is such
a representation or a number below the range of `long`. -/
theorem storesRequested_iff (e : Endian) (long : LongType) (payload : Bytes) (procs : UInt16) (w : Client) :
    StoresRequested e long payload procs w ↔ LacksScanRate payload ∨
      ∃ t, ThresholdString payload t ∧ ((∃ n ≤ 65535, IsDecimal t n) ∨ subjectValue t < long.min) := by
  rcases procsCb_cases e long payload procs w with ⟨hlacks, hcb⟩ | ⟨hrate, hno, hcb⟩ | ⟨t, w', hrate, ht, hcb⟩
  · exact iff_of_true ⟨_, _, _, hcb, fun h => by cases h⟩ (Or.inl hlacks)
  · -- the string is `NULL`
    refine iff_of_false ?_ ?_
    · rintro ⟨status, procs', w', h, -⟩
      rw [hcb] at h
      cases h
    · rintro (h | ⟨t, ht, -⟩)
      · exact hrate h
      · exact hno t ht
  by_cases hmin : subjectValue t < long.min
  · rw [if_pos hmin] at hcb
    exact iff_of_true ⟨_, _, _, hcb, fun h => by cases h⟩ (Or.inr ⟨t, ht, Or.inr hmin⟩)
  rw [if_neg hmin] at hcb
  constructor
  · rintro ⟨status, procs', w'', h, hok⟩
    rw [hcb] at h
    cases h
    obtain ⟨t', n, ht', hdec, hn, -⟩ := hok rfl
    exact Or.inr ⟨t', ht', Or.inl ⟨n, hn, hdec⟩⟩
  · rintro (h | ⟨t', ht', hcond⟩)
    · exact absurd h hrate
    · obtain rfl := ht.unique ht'
      obtain ⟨n, hn, hdec⟩ := hcond.resolve_right hmin
      exact ⟨_, _, _, hcb, fun _ => ⟨t, n, ht, hdec, hn, hdec.stored hn long⟩⟩

/-- A request with a scan rate of 60 and a threshold of five digits. -/
def Cmd.request (t : Bytes) (h : t.length < 65536) : List Cmd := [Cmd.of 514 [0, 60] (by decide), Cmd.of 515 t h]

/-- **A threshold of 65536 is stored as zero**, and the request is answered with `OK`. -/
theorem threshold_truncated : ¬ ∀ (payload : Bytes) (procs : UInt16) (w : Client),
    StoresRequested .little ⟨64, by decide⟩ payload procs w := by
  intro h
  set payload : Bytes := [2, 2, 0, 2, 0, 60, 2, 3, 0, 5, 54, 53, 53, 51, 54] with hp
  have hcmds : PayloadCmds payload (Cmd.request [54, 53, 53, 51, 54] (by decide)) := by rfl
  have ht : ThresholdString payload [54, 53, 53, 51, 54] :=
    ⟨_, _, hcmds, ⟨[Cmd.of 514 [0, 60] (by decide)], [], rfl, by decide, by simp⟩, by decide⟩
  have hvalue : subjectValue [54, 53, 53, 51, 54] = 65536 := by decide
  obtain ⟨status, procs', w', hcb, hok⟩ := h payload 7 (Client.init Os.calm)
  rcases procsCb_cases .little ⟨64, by decide⟩ payload 7 (Client.init Os.calm) with
    ⟨hlacks, -⟩ | ⟨-, hno, -⟩ | ⟨t, w'', -, ht', hcb'⟩
  · exact hlacks _ hcmds (Cmd.of 514 [0, 60] (by decide)) (by simp [Cmd.request]) (by decide)
  · exact hno _ ht
  obtain rfl := ht.unique ht'
  have hmin := LongType.min_le ⟨64, by decide⟩
  rw [hcb, if_neg (by omega)] at hcb'
  cases hcb'
  obtain ⟨t, n, htn, hdec, hn, -⟩ := hok rfl
  obtain rfl := ht.unique htn
  have hbig := hdec.2.2
  rw [← hbig] at hn
  exact absurd hn (by decide)

/-! ## Rejected requests -/

/-- The threshold alarms, the alarm list and the scheduler list of two states are the same. -/
structure SameAlerts (w w' : Client) : Prop where
  thresholdIds : w'.app.features.map Telemetry.thresholdId = w.app.features.map Telemetry.thresholdId
  alarmEntry : w'.net.alarmEntry = w.net.alarmEntry
  schedEntry : w'.net.schedEntry = w.net.schedEntry

/-- The property for one request: an answer other than `OK` leaves the threshold and the lists alone. -/
def RejectedUnchanged (e : Endian) (long : LongType) (payload : Bytes) (procs : UInt16) (w : Client) : Prop :=
  ∀ status procs' w', atlasThresholdAlertProcsCb e long payload procs w = .ok (status, procs', w') → status ≠ .ok →
    procs' = procs ∧ SameAlerts w w'

/-- The payload has a scan rate, and a threshold below the range of `long`. -/
def BelowLong (long : LongType) (payload : Bytes) : Prop :=
  ¬ LacksScanRate payload ∧ ∃ t, ThresholdString payload t ∧ subjectValue t < long.min

/-- **Below the range**, zero is stored and then the request is rejected. -/
theorem procsCb_below (e : Endian) (h : BelowLong long payload) (procs : UInt16) (w : Client) :
    atlasThresholdAlertProcsCb e long payload procs w = .ok (.notAcceptableHere, 0, w) := by
  obtain ⟨hrate, t, ht, hmin⟩ := h
  rcases procsCb_cases e long payload procs w with ⟨hlacks, -⟩ | ⟨-, hno, -⟩ | ⟨t', w₁, -, ht', hcb⟩
  · exact absurd hlacks hrate
  · exact absurd ht (hno t)
  · obtain rfl := ht'.unique ht
    have hzero : UInt16.ofInt (strtol long t').1 = 0 := ((strtol_check long t').2 hmin).2
    rw [hcb, if_pos hmin, hzero]

/-- **Otherwise** a request that is rejected has changed nothing. -/
theorem procsCb_above (e : Endian) (h : ¬ BelowLong long payload) {status : AtlasCoapResponse} {procs' : UInt16}
    {w' : Client} (hcb : atlasThresholdAlertProcsCb e long payload procs w = .ok (status, procs', w'))
    (hne : status ≠ .ok) : procs' = procs ∧ w' = w := by
  rcases procsCb_cases e long payload procs w with ⟨-, hcb'⟩ | ⟨-, -, hcb'⟩ | ⟨t, w₁, hrate, ht, hcb'⟩
  · rw [hcb'] at hcb
    cases hcb
    exact ⟨rfl, rfl⟩
  · rw [hcb'] at hcb
    cases hcb
  · rw [if_neg fun hmin => h ⟨hrate, t, ht, hmin⟩] at hcb'
    rw [hcb'] at hcb
    cases hcb
    exact absurd rfl hne

/-- **A rejected request changes nothing, unless its number is below the range.** For every payload and
every state: an answer other than `OK` leaves the threshold, the alarms and the lists as they were, if
and only if the payload does not have a scan rate and a threshold below the range of `long`, or the
threshold in force is zero, which is what is stored for such a number before it is rejected. -/
theorem rejectedUnchanged_iff (e : Endian) (long : LongType) (payload : Bytes) (procs : UInt16) (w : Client) :
    RejectedUnchanged e long payload procs w ↔ ¬ BelowLong long payload ∨ procs = 0 := by
  constructor
  · intro h
    by_cases hbelow : BelowLong long payload
    · exact Or.inr (h _ _ _ (procsCb_below e hbelow procs w) (by decide)).1.symm
    · exact Or.inl hbelow
  · intro h status procs' w' hcb hne
    by_cases hbelow : BelowLong long payload
    · rw [procsCb_below e hbelow procs w] at hcb
      cases hcb
      exact ⟨(h.resolve_left (not_not.2 hbelow)).symm, rfl, rfl, rfl⟩
    · obtain ⟨rfl, rfl⟩ := procsCb_above e hbelow hcb hne
      exact ⟨rfl, rfl, rfl, rfl⟩

/-- The text of the number one below the range of a `long` of 64 bits. -/
def belowText : Bytes := [45, 57, 50, 50, 51, 51, 55, 50, 48, 51, 54, 56, 53, 52, 55, 55, 53, 56, 48, 57]

/-- **A rejected request sets the threshold to zero.** -/
theorem rejected_threshold_stored : ¬ ∀ (payload : Bytes) (procs : UInt16) (w : Client),
    RejectedUnchanged .little ⟨64, by decide⟩ payload procs w := by
  intro h
  set payload : Bytes := [2, 2, 0, 2, 0, 60, 2, 3, 0, 20] ++ belowText
  have hcmds : PayloadCmds payload (Cmd.request belowText (by decide)) := by rfl
  have ht : ThresholdString payload belowText :=
    ⟨_, _, hcmds, ⟨[Cmd.of 514 [0, 60] (by decide)], [], rfl, by decide, by simp⟩, by decide⟩
  have hrate : ¬ LacksScanRate payload := fun hlacks =>
    hlacks _ hcmds (Cmd.of 514 [0, 60] (by decide)) (by simp [Cmd.request]) (by decide)
  have hmin : subjectValue belowText < LongType.min ⟨64, by decide⟩ := by decide
  have hcb := procsCb_below .little ⟨hrate, _, ht, hmin⟩ 7 (Client.init Os.calm)
  exact absurd (h payload 7 _ _ _ _ hcb (by decide)).1 (by decide)

end AtlasClient
