import AtlasClient.Spec.Strtol
import AtlasClient.Spec.Telemetry

/-!
# Alert requests

The two parsers of `telemetry/atlas_alert_utils.c` and the threshold end-point of
`telemetry/atlas_telemetry_sysinfo.c`. The variable `procs_threshold` is passed in and returned.
-/

namespace AtlasClient

namespace AtlasCmdType

def telemetryAlertExtPushRate : UInt16 := 513
def telemetryAlertIntScanRate : UInt16 := 514
def telemetryAlertThreshold : UInt16 := 515

end AtlasCmdType

/-! ## Push alerts -/

/-- The out-parameter and the flag `push_found`. -/
structure PushVars where
  pushRate : UInt16
  pushFound : Bool
  deriving DecidableEq, Repr

/-- The body of the loop over the commands. -/
def pushCmd (e : Endian) (cmd : AtlasCmd) (v : PushVars) : Except Fault (PushVars ⊕ PushVars) :=
  if cmd.type = AtlasCmdType.telemetryAlertExtPushRate ∧ cmd.length = 2 then do
    let pushRate ← read16 e cmd.value 0
    .ok (.inr ⟨ntohs e pushRate, true⟩)
  else .ok (.inl v)

/-- An out-parameter is what it points to, `none` when it is `NULL`. -/
def atlasAlertPushCmdParse (e : Endian) (buf : Bytes) (bufLen : UInt16) (pushRate : Option UInt16) :
    Except Fault (AtlasStatus × Option UInt16) :=
  if buf = [] ∨ bufLen = 0 then .ok (.invalidInput, pushRate)
  else match pushRate with
    | none => .ok (.invalidInput, none)
    | some pushRate => do
      let (status, cmdBatch) ← atlasCmdBatchSetRaw e atlasCmdBatchNew buf bufLen
      if status ≠ .ok then .ok (.corruptedCommand, some pushRate)
      else
        let (_, v) ← cmdLoop e (pushCmd e) cmdBatch ⟨pushRate, false⟩
        .ok (if v.pushFound then .ok else .corruptedCommand, some v.pushRate)

/-! ## Threshold alerts -/

/-- The out-parameters and the flag `scan_found`. `threshold` is the block of a string. -/
structure ThresholdVars where
  scanRate : UInt16
  scanFound : Bool
  threshold : Option Bytes
  deriving DecidableEq, Repr

/-- The body of the loop over the commands. -/
def thresholdCmd (e : Endian) (cmd : AtlasCmd) (v : ThresholdVars) :
    Except Fault (ThresholdVars ⊕ ThresholdVars) :=
  if cmd.type = AtlasCmdType.telemetryAlertIntScanRate ∧ cmd.length = 2 then do
    let scanRate ← read16 e cmd.value 0
    .ok (.inl { v with scanRate := ntohs e scanRate, scanFound := true })
  else if cmd.type = AtlasCmdType.telemetryAlertThreshold ∧ 0 < cmd.length then do
    let value ← readAt cmd.value 0 cmd.length.toNat
    .ok (.inl { v with threshold := some (value ++ [0]) })
  else .ok (.inl v)

def atlasAlertThresholdCmdParse (e : Endian) (buf : Bytes) (bufLen : UInt16) (scanRate : Option UInt16)
    (threshold : Option (Option Bytes)) :
    Except Fault (AtlasStatus × Option UInt16 × Option (Option Bytes)) :=
  if buf = [] ∨ bufLen = 0 then .ok (.invalidInput, scanRate, threshold)
  else match scanRate, threshold with
    | some scanRate, some _ => do
      let (status, cmdBatch) ← atlasCmdBatchSetRaw e atlasCmdBatchNew buf bufLen
      if status ≠ .ok then .ok (.corruptedCommand, some scanRate, some none)
      else
        let (_, v) ← cmdLoop e (thresholdCmd e) cmdBatch ⟨scanRate, false, none⟩
        if !v.scanFound then .ok (.corruptedCommand, some v.scanRate, some none)
        -- the last check is on the out-parameter, which is not `NULL` here
        else .ok (.ok, some v.scanRate, some v.threshold)
    | _, _ => .ok (.invalidInput, scanRate, threshold)

/-- `scan_rate` is not initialised; it is read only after it has been set. The length of the payload
is cut to 16 bits, and so is what `strtol` returns. -/
def atlasThresholdAlertProcsCb (e : Endian) (long : LongType) (reqPayload : Bytes) (procsThreshold : UInt16)
    (w : Client) : Except Fault (AtlasCoapResponse × UInt16 × Client) := do
  let (status, scanRate, threshold) ←
    atlasAlertThresholdCmdParse e reqPayload (UInt16.ofNat reqPayload.length) (some 0) (some none)
  if status ≠ .ok then .ok (.notAcceptableHere, procsThreshold, w)
  else match scanRate, threshold with
    | some scanRate, some (some threshold) =>
      let (value, erange) := strtol long (cString threshold)
      let procsThreshold := UInt16.ofInt value
      if (erange ∧ ((procsThreshold.toNat : ℤ) = long.max ∨ (procsThreshold.toNat : ℤ) = long.min)) ∨
          (erange ∧ procsThreshold = 0) then
        .ok (.notAcceptableHere, procsThreshold, w)
      else
        .ok (.ok, procsThreshold, atlasTelemetryThresholdSet (some "gateway/telemetry/sysinfo/procs") scanRate w)
    -- `strtol` is given `NULL`
    | _, _ => .error .badAccess

end AtlasClient
