import AtlasClient.Spec.Machine

/-!
# The data plane library

`data_plane/atlas_client.c`: the packet statistics, and the messages of a registration, of a
reputation request and of a feedback. An `int` is an integer; an operation whose result is no
`int` is a fault.
-/

namespace AtlasClient

/-! ## Integers -/

/-- The values of an `int`. -/
def IsInt (v : ℤ) : Prop := -2 ^ 31 ≤ v ∧ v < 2 ^ 31

instance (v : ℤ) : Decidable (IsInt v) := by unfold IsInt; infer_instance

def addInt (a b : ℤ) : Except Fault ℤ := if IsInt (a + b) then .ok (a + b) else .error .intOverflow

/-- Division by zero is undefined as the overflow of `INT_MIN / -1` is. -/
def divInt (a b : ℤ) : Except Fault ℤ :=
  if b ≠ 0 ∧ IsInt (a.tdiv b) then .ok (a.tdiv b) else .error .intOverflow

/-- An `int` in memory. -/
def intBytes (e : Endian) (v : ℤ) : Bytes := hostBytes32 e (UInt32.ofInt v)

/-! ## Statistics -/

structure Statistics where
  payloadSamples : ℤ
  payloadTotal : ℤ
  payloadAvg : ℤ
  deriving DecidableEq, Repr

def Statistics.init : Statistics := ⟨0, 0, 0⟩

def atlasPktReceived (payloadLen : ℤ) (s : Statistics) : Except Fault Statistics := do
  let samples ← addInt s.payloadSamples 1
  let total ← addInt s.payloadTotal payloadLen
  let avg ← divInt total samples
  return ⟨samples, total, avg⟩

/-- The message that is written to the socket, and the statistics afterwards. -/
def sendStatisticsCommand (e : Endian) (s : Statistics) : Except Fault (Bytes × Statistics) := do
  let buf ← cmdBatchBytes e
    [(AtlasCmdType.dataPlanePacketsPerMinute, 4, intBytes e s.payloadSamples),
      (AtlasCmdType.dataPlanePacketsAvg, 4, intBytes e s.payloadAvg)]
  return (buf, ⟨0, 0, 0⟩)

/-- The length of a received payload. -/
abbrev PayloadLen := { n : ℕ // n < 2 ^ 31 }

/-- Calls of the library, in the order of the mutex. -/
inductive StatEvent
  | pkt (payloadLen : PayloadLen)
  | report

/-- The library and the process of the connector. -/
structure Reporting where
  stats : Statistics
  client : Client

/-- A report is delivered to `atlas_data_plane_read_cb` on the descriptor `fd`. -/
def Reporting.step (cfg : Cfg) (fd : ℤ) (s : Reporting) : StatEvent → Except Fault Reporting
  | .pkt payloadLen => do
    let stats ← atlasPktReceived payloadLen.1 s.stats
    return { s with stats := stats }
  | .report => do
    let (buf, stats) ← sendStatisticsCommand cfg.endian s.stats
    let client ← atlasDataPlaneReadCb cfg fd (some buf) s.client
    return ⟨stats, client⟩

/-- Undefined behaviour ends a run. -/
def Reporting.run (cfg : Cfg) (fd : ℤ) (s : Reporting) (es : List StatEvent) : Except Fault Reporting :=
  es.foldlM (Reporting.step cfg fd) s

/-! ## Registration -/

/-- The values that `atlas_init` is given. -/
structure ClientInfo where
  qos : UInt16
  packetsPerMin : UInt16
  packetsMaxlen : UInt16
  deriving DecidableEq, Repr

/-- The message of `send_registration_command`. The values are in the host's byte order. -/
def sendRegistrationCommand (e : Endian) (client : ClientInfo) : Except Fault Bytes := do
  let inner ← cmdBatchBytes e
    [(AtlasCmdType.dataPlanePolicyQos, 2, hostBytes e client.qos),
      (AtlasCmdType.dataPlanePolicyPacketsPerMinute, 2, hostBytes e client.packetsPerMin),
      (AtlasCmdType.dataPlanePolicyPacketsMaxlen, 2, hostBytes e client.packetsMaxlen)]
  cmdBatchBytes e [(AtlasCmdType.dataPlanePolicy, UInt16.ofNat inner.length, inner)]

/-! ## Reputation requests -/

/-- The message of `atlas_reputation_request`. -/
def reputationRequestMessage (e : Endian) (sensorType : UInt16) : Except Fault Bytes :=
  cmdBatchBytes e [(AtlasCmdType.dataPlaneFeatureReputation, 2, hostBytes e (htons e sensorType))]

/-! ## Feedback -/

/-- The identity is an array of 64 characters; the sensor type is an enumeration, stored in
32 bits. -/
structure AtlasFeedback where
  identity : Bytes
  sensorType : UInt32
  sensorScore : UInt16
  timeScore : UInt16
  identity_length : identity.length = 64

/-- The message of `send_feedback_command`. `htons` takes the low half of the sensor type. -/
def sendFeedbackCommand (e : Endian) (feedback : AtlasFeedback) : Except Fault Bytes := do
  let htonsBytes v := hostBytes e (htons e v)
  let len ← strlen feedback.identity
  let inner ← cmdBatchBytes e
    [(AtlasCmdType.dataPlaneFeedbackIdentity, UInt16.ofNat len, feedback.identity),
      (AtlasCmdType.dataPlaneFeedbackSensorType, 2, htonsBytes feedback.sensorType.toUInt16),
      (AtlasCmdType.dataPlaneFeedbackSensor, 2, htonsBytes feedback.sensorScore),
      (AtlasCmdType.dataPlaneFeedbackResponseTime, 2, htonsBytes feedback.timeScore)]
  cmdBatchBytes e [(AtlasCmdType.dataPlaneFeedback, UInt16.ofNat inner.length, inner)]

end AtlasClient
