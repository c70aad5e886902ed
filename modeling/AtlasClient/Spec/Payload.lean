import AtlasClient.Spec.Alert
import AtlasClient.Spec.Strtok

/-!
# Telemetry payloads

The payload callbacks of the telemetry features: `telemetry/atlas_telemetry_hostname.c`,
`atlas_telemetry_kern_info.c`, `atlas_telemetry_sysinfo.c` and `atlas_telemetry_packets_info.c`. What the
system answers is a parameter, and no payload is the block without bytes. An `unsigned long` has 64 bits here.

* `featurePayload`: the batch of the identity and the text of a feature.
* `sysinfoPayload`: what ten of the eleven `sysinfo` callbacks do; the eleventh has a threshold.
* `payloadCallback`: the callback at each place of `telemetryPaths`.
-/

namespace AtlasClient

open Loop

namespace AtlasCmdType

def telemetryHostname : UInt16 := 500
def telemetryKernInfo : UInt16 := 501
def telemetrySysinfoUptime : UInt16 := 502
def telemetrySysinfoTotalram : UInt16 := 503
def telemetrySysinfoFreeram : UInt16 := 504
def telemetrySysinfoSharedram : UInt16 := 505
def telemetrySysinfoBufferram : UInt16 := 506
def telemetrySysinfoTotalswap : UInt16 := 507
def telemetrySysinfoFreeswap : UInt16 := 508
def telemetrySysinfoProcs : UInt16 := 509
def telemetrySysinfoLoad1 : UInt16 := 510
def telemetrySysinfoLoad5 : UInt16 := 511
def telemetrySysinfoLoad15 : UInt16 := 512
def telemetryPacketsPerMinute : UInt16 := 516
def telemetryPacketsAvg : UInt16 := 517

end AtlasCmdType

/-! ## Strings -/

/-- The text that `%u` and `%lu` print. -/
def decimal (n : ℕ) : Bytes := (Nat.toDigits 10 n).map fun c => UInt8.ofNat c.toNat

/-- At most `n` characters, and NULs up to `n`. -/
def strncpy (dst s : Bytes) (n : ℕ) : Except Fault Bytes :=
  writeAt dst 0 ((s ++ List.replicate (n - s.length) 0).take n)

/-- At most `n` characters behind the string in `dst`, and a NUL. -/
def strncat (dst s : Bytes) (n : ℕ) : Except Fault Bytes := do
  let len ← strlen dst
  writeAt dst len (s.take n ++ [0])

/-! ## What the system answers -/

/-- What the callbacks use of `struct sysinfo`. -/
structure Sysinfo where
  uptime : Int64
  loads : Vector UInt64 3
  totalram : UInt64
  freeram : UInt64
  sharedram : UInt64
  bufferram : UInt64
  totalswap : UInt64
  freeswap : UInt64
  procs : UInt16
  deriving DecidableEq

/-- The strings of `struct utsname`, without their NULs. -/
structure Utsname where
  sysname : Bytes
  nodename : Bytes
  release : Bytes
  version : Bytes
  machine : Bytes
  strings : ∀ s ∈ [sysname, nodename, release, version, machine], 0 ∉ s

/-- What a `read` of 32 bytes puts into a buffer; no bytes are the end of the file. -/
abbrev HostnameRead := { bs : Bytes // bs.length ≤ 32 }

/-! ## The callbacks -/

variable (cfg : Cfg)

/-- `feature` is the block of the string. -/
def featurePayload (type : UInt16) (feature : Bytes) : Except Fault Bytes := do
  let len ← strlen feature
  cmdBatchBytes cfg.endian [stringCmd AtlasCmdType.identity cfg.identity, (type, UInt16.ofNat len, feature)]

/-- `sprintf` into a zeroed buffer of `ATLAS_SYSINFO_FEATURE_MAX_LEN + 1` bytes. -/
def numberPayload (type : UInt16) (n : ℕ) : Except Fault Bytes := do
  let feature ← strcpy (List.replicate 33 0) (decimal n)
  featurePayload cfg type feature

/-- One round of `for (i = strlen(hostname) - 1; i >= 0; i--)`. -/
def newlineBody (hostname : Bytes) (i : ℤ) : Except Fault (ℤ ⊕ Bytes) :=
  if i < 0 then .ok (.inr hostname)
  else
    match hostname[i.toNat]? with
    | none => .error .badAccess
    | some c => if c = 10 then .ok (.inr (hostname.set i.toNat 0)) else .ok (.inl (i - 1))

def removeNewline (hostname : Bytes) : Except Fault Bytes := do
  let len ← strlen hostname
  loop .diverges (newlineBody hostname) (len + 1) (len - 1)

/-- `file` is what `open` and `read` deliver, `none` when either fails. -/
def atlasTelemetryPayloadHostname (file : Option HostnameRead) (useThreshold : Bool) : Except Fault Bytes :=
  if useThreshold then .ok []
  else
    match file with
    | none => .ok []
    | some bs =>
      if bs.1 = [] then .ok []
      else do
        let hostname ← writeAt (List.replicate 33 0) 0 bs.1
        let hostname ← removeNewline hostname
        featurePayload cfg AtlasCmdType.telemetryHostname hostname

/-- `strncat(kern_info, s, sizeof(kern_info) - strlen(kern_info) - 1)` -/
def appendKernInfo (kernInfo s : Bytes) : Except Fault Bytes := do
  let len ← strlen kernInfo
  strncat kernInfo s (129 - len - 1)

def atlasTelemetryPayloadKernInfo (uname : Option Utsname) (useThreshold : Bool) : Except Fault Bytes :=
  if useThreshold then .ok []
  else
    match uname with
    | none => .ok []
    | some buffer => do
      let kernInfo ← strncpy (List.replicate 129 0) buffer.sysname 128
      let kernInfo ← [[32], buffer.nodename, [32], buffer.release, [32], buffer.version, [32],
        buffer.machine].foldlM appendKernInfo kernInfo
      featurePayload cfg AtlasCmdType.telemetryKernInfo kernInfo

/-- A callback that has no threshold and prints `value`. -/
def sysinfoPayload (type : UInt16) (value : Sysinfo → ℕ) (sysinfo : Option Sysinfo) (useThreshold : Bool) :
    Except Fault Bytes :=
  if useThreshold then .ok []
  else
    match sysinfo with
    | none => .ok []
    | some info => numberPayload cfg type (value info)

/-- `uptime` is a `long`, and printed as an `unsigned long`. -/
def atlasTelemetryPayloadUptime :=
  sysinfoPayload cfg AtlasCmdType.telemetrySysinfoUptime fun info => info.uptime.toUInt64.toNat

def atlasTelemetryPayloadTotalram :=
  sysinfoPayload cfg AtlasCmdType.telemetrySysinfoTotalram fun info => info.totalram.toNat

def atlasTelemetryPayloadFreeram :=
  sysinfoPayload cfg AtlasCmdType.telemetrySysinfoFreeram fun info => info.freeram.toNat

def atlasTelemetryPayloadSharedram :=
  sysinfoPayload cfg AtlasCmdType.telemetrySysinfoSharedram fun info => info.sharedram.toNat

def atlasTelemetryPayloadBufferram :=
  sysinfoPayload cfg AtlasCmdType.telemetrySysinfoBufferram fun info => info.bufferram.toNat

def atlasTelemetryPayloadTotalswap :=
  sysinfoPayload cfg AtlasCmdType.telemetrySysinfoTotalswap fun info => info.totalswap.toNat

def atlasTelemetryPayloadFreeswap :=
  sysinfoPayload cfg AtlasCmdType.telemetrySysinfoFreeswap fun info => info.freeswap.toNat

def atlasTelemetryPayloadLoad1 :=
  sysinfoPayload cfg AtlasCmdType.telemetrySysinfoLoad1 fun info => info.loads[0].toNat

def atlasTelemetryPayloadLoad5 :=
  sysinfoPayload cfg AtlasCmdType.telemetrySysinfoLoad5 fun info => info.loads[1].toNat

def atlasTelemetryPayloadLoad15 :=
  sysinfoPayload cfg AtlasCmdType.telemetrySysinfoLoad15 fun info => info.loads[2].toNat

/-- With thresholds there is a payload from `procs_threshold` on. -/
def atlasTelemetryPayloadProcs (procsThreshold : UInt16) (sysinfo : Option Sysinfo) (useThreshold : Bool) :
    Except Fault Bytes :=
  match sysinfo with
  | none => .ok []
  | some info =>
    if useThreshold ∧ info.procs < procsThreshold then .ok []
    else numberPayload cfg AtlasCmdType.telemetrySysinfoProcs info.procs.toNat

/-- `use_threshold` is not looked at. -/
def atlasTelemetryPayloadPacketsPerMinute (packetsPerMin : UInt16) (_useThreshold : Bool) : Except Fault Bytes :=
  numberPayload cfg AtlasCmdType.telemetryPacketsPerMinute packetsPerMin.toNat

/-- `use_threshold` is not looked at. -/
def atlasTelemetryPayloadPacketsAvg (packetsAvg : UInt16) (_useThreshold : Bool) : Except Fault Bytes :=
  numberPayload cfg AtlasCmdType.telemetryPacketsAvg packetsAvg.toNat

/-! ## All features -/

/-- What the callbacks read. -/
structure Readings where
  hostname : Option HostnameRead
  uname : Option Utsname
  sysinfo : Option Sysinfo
  procsThreshold : UInt16
  packetsPerMin : UInt16
  packetsAvg : UInt16

/-- The callback of the feature at a place of `telemetryPaths`. -/
def payloadCallback (r : Readings) : ℕ → Bool → Except Fault Bytes
  | 0 => atlasTelemetryPayloadHostname cfg r.hostname
  | 1 => atlasTelemetryPayloadKernInfo cfg r.uname
  | 2 => atlasTelemetryPayloadUptime cfg r.sysinfo
  | 3 => atlasTelemetryPayloadTotalram cfg r.sysinfo
  | 4 => atlasTelemetryPayloadFreeram cfg r.sysinfo
  | 5 => atlasTelemetryPayloadSharedram cfg r.sysinfo
  | 6 => atlasTelemetryPayloadBufferram cfg r.sysinfo
  | 7 => atlasTelemetryPayloadTotalswap cfg r.sysinfo
  | 8 => atlasTelemetryPayloadFreeswap cfg r.sysinfo
  | 9 => atlasTelemetryPayloadProcs cfg r.procsThreshold r.sysinfo
  | 10 => atlasTelemetryPayloadLoad1 cfg r.sysinfo
  | 11 => atlasTelemetryPayloadLoad5 cfg r.sysinfo
  | 12 => atlasTelemetryPayloadLoad15 cfg r.sysinfo
  | 13 => atlasTelemetryPayloadPacketsPerMinute cfg r.packetsPerMin
  | 14 => atlasTelemetryPayloadPacketsAvg cfg r.packetsAvg
  | _ => fun _ => .ok []

end AtlasClient
