import AtlasClient.Lib.Loop
import AtlasClient.Spec.DataPlane
import AtlasClient.Spec.Strtok

/-!
# The data plane application

`data_plane/atlas_data_plane.c`: the messages of the MQTT broker, the reputation window and the subscriptions.
`strtok` keeps its place in one static variable. Each function runs by itself here: the callback of the MQTT
client may also use `strtok` while `subscribe_topics` or `set_reputation` does, and that is left out. Floating-point
numbers are those of IEEE 754, and `long` has 64 bits.

* `handleData`: a sample of another device, and whether the window records it.
* `msgarrvd`: where a message goes.
* `subscribeTopics`: the topics of the `--subscribe` argument.
-/

namespace AtlasClient

open Loop

/-- The size of an `ATLAS_DATA_PLANE_BUFFER_LEN` buffer. -/
abbrev dataPlaneBufferLen : ℕ := 256

/-- `ATLAS_DATA_PLANE_FEEDBACK_MAX` -/
abbrev dataPlaneFeedbackMax : ℕ := 256

/-- A buffer that is initialised with zeros. -/
def zeroBuffer : Bytes := List.replicate dataPlaneBufferLen 0

theorem zeroBuffer_length : zeroBuffer.length = dataPlaneBufferLen := List.length_replicate

/-- `:` -/
abbrev colon : Bytes := [58]

/-- `,` -/
abbrev comma : Bytes := [44]

theorem zero_not_mem_colon : 0 ∉ colon := by decide

theorem zero_not_mem_comma : 0 ∉ comma := by decide

/-! ## The reputation window -/

structure Timespec where
  tvSec : ℤ
  tvNsec : ℤ
  deriving DecidableEq, Repr

/-- An entry of the feedback array. The array is cleared at the start, and an identity is written by `strcpy`
only. -/
structure FeedbackEntry where
  feedback : AtlasFeedback
  terminated : 0 ∈ feedback.identity

/-- The entry that `memset` leaves. -/
def FeedbackEntry.zero : FeedbackEntry where
  feedback := ⟨List.replicate 64 0, 0, 0, 0, List.length_replicate⟩
  terminated := List.mem_replicate.2 ⟨Nat.succ_ne_zero 63, rfl⟩

/-- What `handle_data` uses of `reputation_t`. -/
structure Reputation where
  targetValue : Int32
  windowSize : Int32
  feedbackActive : Bool
  sensorVal : Vector Float32 dataPlaneFeedbackMax
  feedback : Vector FeedbackEntry dataPlaneFeedbackMax
  feedbackLength : ℕ
  windowStart : Timespec

/-- What `set_reputation` leaves for these two arguments. -/
def setReputation (windowSize targetValue : Int32) : Reputation where
  targetValue := targetValue
  windowSize := windowSize
  feedbackActive := false
  sensorVal := Vector.replicate _ 0
  feedback := Vector.replicate _ .zero
  feedbackLength := 0
  windowStart := ⟨0, 0⟩

/-- `reputation_query_task` starts a feedback window. -/
def Reputation.openWindow (now : Timespec) (rep : Reputation) : Reputation :=
  { rep with feedbackActive := true, feedbackLength := 0, windowStart := now }

def getSensorFeedback (value : Float) : UInt16 :=
  if value < 0.2 then 98
  else if value < 0.6 then 95
  else if value < 0.8 then 90
  else if value < 1 then 85
  else if value < 1.3 then 80
  else if value < 1.5 then 50
  else if value < 2 then 35
  else if value < 2.5 then 20
  else if value < 3 then 10
  else 0

/-- A number that is out of range has no conversion in C. -/
def toLong (x : Float) : Option ℤ :=
  if -9223372036854775808 ≤ x ∧ x < 9223372036854775808 then some x.toInt64.toInt else none

def toUint16 (x : Float) : Option UInt16 := if -1 < x ∧ x < 65536 then some x.toUInt16 else none

def diffInMs (t1 t2 : Timespec) : Option ℤ :=
  let diff : Timespec :=
    if t2.tvNsec - t1.tvNsec < 0 then ⟨t2.tvSec - t1.tvSec - 1, t2.tvNsec - t1.tvNsec + 1000000000⟩
    else ⟨t2.tvSec - t1.tvSec, t2.tvNsec - t1.tvNsec⟩
  toLong (Float.ofInt diff.tvSec * 1000.0 + Float.ofInt diff.tvNsec / 1000000.0)

/-- The distance to the target value, if there is one, as a score. -/
def sensorScore (targetValue : Int32) (value : Float) (old : UInt16) : UInt16 :=
  if targetValue ≠ -1 then
    let value := value - Float.ofInt targetValue.toInt
    getSensorFeedback (if value < 0 then value * -1 else value)
  else old

/-- The time since the start of the window as a score. C leaves it undefined when the product or one of the conversions
is out of range: it is so when the window is over, and when its size is 0. -/
def timeScore (windowStart ts : Timespec) (windowSize : Int32) : Option UInt16 := do
  let diff ← diffInMs windowStart ts
  let size := windowSize.toInt * 1000
  if IsInt size then toUint16 (100 - Float.ofInt diff / Float.ofInt size * 100) else none

/-- What the program does where the time score is undefined: it stores some value, or it stops. -/
abbrev UndefinedScore := Timespec → Timespec → Int32 → Option UInt16

/-- A program that never stops there. -/
def UndefinedScore.storing (stored : Timespec → Timespec → Int32 → UInt16) : UndefinedScore :=
  fun windowStart ts windowSize => some (stored windowStart ts windowSize)

/-- The time score that is written to an entry. -/
def storedTimeScore (undefined : UndefinedScore) (windowStart ts : Timespec) (windowSize : Int32) : Option UInt16 :=
  (timeScore windowStart ts windowSize).or (undefined windowStart ts windowSize)

/-- `strcpy` to the identity of an entry. -/
def FeedbackEntry.setIdentity (clientid : Bytes) (entry : FeedbackEntry) : Except Fault FeedbackEntry :=
  match h : strcpy entry.feedback.identity clientid with
  | .error f => .error f
  | .ok identity => .ok
      { feedback :=
          { entry.feedback with
            identity := identity
            identity_length := (strcpy_block h).1.trans entry.feedback.identity_length }
        terminated := (strcpy_block h).2 }

/-- The duplicate scan. Its places are in the array where `feedback_length` is at most its size. -/
def Reputation.delivered (clientid : Bytes) (rep : Reputation) : Bool :=
  (rep.feedback.toList.take rep.feedbackLength).any fun entry => clientid = cString entry.feedback.identity

section
variable (undefined : UndefinedScore)

/-- The writes to the two arrays at `feedback_length`, with their scores. -/
def Reputation.append (clientid : Bytes) (value : Float) (ts : Timespec) (rep : Reputation) :
    Except Fault Reputation :=
  if h : rep.feedbackLength < dataPlaneFeedbackMax then do
    let entry ← rep.feedback[rep.feedbackLength].setIdentity clientid
    match storedTimeScore undefined rep.windowStart ts rep.windowSize with
    | none => .error .outOfRange
    | some score =>
      let feedback : AtlasFeedback :=
        { entry.feedback with
          sensorType := 101
          sensorScore := sensorScore rep.targetValue value entry.feedback.sensorScore
          timeScore := score }
      .ok { rep with
        sensorVal := rep.sensorVal.set rep.feedbackLength value.toFloat32
        feedback := rep.feedback.set rep.feedbackLength ⟨feedback, entry.terminated⟩
        feedbackLength := rep.feedbackLength + 1 }
  else .error .badAccess

/-- What is done with a sample, under the lock. -/
def Reputation.record (clientid : Bytes) (value : Float) (ts : Timespec) (rep : Reputation) :
    Except Fault Reputation :=
  if rep.feedbackActive = false then .ok rep
  else if rep.feedbackLength > dataPlaneFeedbackMax then .ok rep
  else if rep.delivered clientid then .ok rep
  else rep.append undefined clientid value ts

end

/-! ## Messages -/

section
variable (atof : Bytes → Float) (undefined : UndefinedScore)

/-- The payload is the block of `payload_len` bytes; `ts` is the time that `clock_gettime` gives. -/
def handleData (feature payload : Option Bytes) (ts : Timespec) (rep : Reputation) : Except Fault Reputation :=
  match feature, payload with
  | some _, some payload =>
    if payload = [] then .ok rep
    else do
      let msg ← writeAt zeroBuffer 0 payload
      match ← strtok colon msg with
      | none => .ok rep
      | some (p, next) => do
        let clientid ← strcpy zeroBuffer p
        match ← strtok colon next with
        | none => .ok rep
        | some (p, _) => rep.record undefined (cString clientid) (atof p) ts
  | _, _ => .ok rep

/-- `atlas/request/` -/
def requestReputationTopic : Bytes := [97, 116, 108, 97, 115, 47, 114, 101, 113, 117, 101, 115, 116, 47]

/-- `atlas/data/` -/
def dataTopic : Bytes := [97, 116, 108, 97, 115, 47, 100, 97, 116, 97, 47]

/-- What the callback of the MQTT client changes. `requests` has the features that `handle_publish_req` is asked
to publish. -/
structure DataPlaneApp where
  stats : Statistics
  rep : Reputation
  requests : List Bytes

/-- The payload of a message; its length is an `int`. -/
abbrev MqttPayload := { payload : Bytes // payload.length < 2 ^ 31 }

/-- The topic is a string when its length is given as 0, else it is copied and ended with a NUL. -/
def topicString (topicName : Bytes) (topicLen : ℕ) : Except Fault Bytes :=
  if topicLen = 0 then if 0 ∈ topicName then .ok (cString topicName) else .error .badAccess
  else do
    let topic ← readAt topicName 0 topicLen
    .ok (cString (topic ++ [0]))

/-- `strstr` finds the prefix of a topic where the topic starts. -/
def msgarrvd (topicName : Bytes) (topicLen : ℕ) (payload : MqttPayload) (ts : Timespec) (app : DataPlaneApp) :
    Except Fault DataPlaneApp := do
  let topic ← topicString topicName topicLen
  let stats ← atlasPktReceived payload.1.length app.stats
  let app := { app with stats := stats }
  if requestReputationTopic <+: topic then
    .ok { app with requests := app.requests ++ [topic.drop requestReputationTopic.length] }
  else if dataTopic <+: topic then do
    let rep ← handleData atof undefined (some (topic.drop dataTopic.length)) (some payload.1) ts app.rep
    .ok { app with rep := rep }
  else .ok app

end

/-! ## Subscriptions -/

/-- A call of `MQTTClient_subscribe`. -/
structure Subscription where
  topic : Bytes
  qos : ℤ
  deriving DecidableEq, Repr

/-- `topic` is not initialised; it does not matter what the buffer holds before `strcpy`. -/
def subscribeTopic (p : Bytes) (qos : ℤ) : Except Fault Subscription := do
  let topic ← strcpy zeroBuffer dataTopic
  let topic ← strcat topic p
  .ok ⟨cString topic, qos⟩

/-- One round of the loop, with the token `p`. -/
def subscribeBody (qos : ℤ) : Option (Bytes × Bytes) × List Subscription →
    Except Fault ((Option (Bytes × Bytes) × List Subscription) ⊕ List Subscription)
  | (none, subscribed) => .ok (.inr subscribed)
  | (some (p, next), subscribed) => do
    let subscription ← subscribeTopic p qos
    let p ← strtok comma next
    .ok (.inl (p, subscribed ++ [subscription]))

/-- The argument is a string, given without its NUL. Each round takes a token out of it. -/
def subscribeTopics (consumeTopics : Bytes) (qos : ℤ) : Except Fault (List Subscription) := do
  let p ← strtok colon (consumeTopics ++ [0])
  loop .diverges (subscribeBody qos) (consumeTopics.length + 2) (p, [])

end AtlasClient
