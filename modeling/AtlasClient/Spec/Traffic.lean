import AtlasClient.Spec.Application
import AtlasClient.Spec.Config

/-!
# The traffic generator

`traffic_generator` of `data_plane/atlas_data_plane.c`, which reads the `--publish` argument, and what the publisher
threads send. `atof`, the text that `%f` prints and what `random` returns are given.

* `trafficGenerator`: six tokens for each feature, up to the end of the argument.
* `publishFeatureValue`: the message with a simulated value, or with a packet of a forced length.
* `handlePublishReq`, `requestReputationVal`: the value that is asked for, and the question.
-/

namespace AtlasClient

open Loop

/-! ## The argument -/

/-- `publish_info_t`, but for the thread and its lock. `feature` is the string in its array. -/
structure PublishInfo where
  feature : Bytes
  publishRate : ℤ
  baseValue : Float32
  deviation : Float32
  qos : ℤ
  packetLength : ℤ
  publishMsg : Option Bytes

/-- An entry that is not used. -/
def PublishInfo.zero : PublishInfo := ⟨[], 0, 0, 0, 0, 0, none⟩

/-- `ATLAS_DATA_PLANE_FEATURE_MAX_LEN` -/
abbrev featureMaxLen : ℕ := 32

/-- `ATLAS_PUBLISH_FEATURES_MAX` -/
abbrev publishFeaturesMax : ℕ := 32

/-- `publish_str`, and the calls of `MQTTClient_subscribe`. -/
structure Traffic where
  publishStr : Vector PublishInfo publishFeaturesMax
  subscribed : List Subscription

/-- `malloc` of an `int`. A negative one is a size that no block has. What the block holds at first does not matter. -/
def mallocInt (size : ℤ) : Option Bytes := if size < 0 then none else some (List.replicate size.toNat 0)

/-- The next token, which is read without a check for `NULL`. -/
def nextToken (next : Bytes) : Except Fault (Bytes × Bytes) := do
  match ← strtok colon next with
  | none => .error .badAccess
  | some t => .ok t

/-- The topic that is built in a buffer of `ATLAS_DATA_PLANE_BUFFER_LEN`. -/
def requestTopic (feature : Bytes) : Except Fault Bytes := do
  let topic ← strcpy zeroBuffer requestReputationTopic
  let topic ← strcat topic feature
  .ok (cString topic)

section
variable (atof : Bytes → Float) (long : LongType)

/-- The entry that begins with the token `p`, and where the next call of `strtok` starts. -/
def publishEntry (p next : Bytes) : Except Fault (PublishInfo × Bytes) := do
  let feature ← strcpy (List.replicate featureMaxLen 0) p
  let (publishRate, next) ← nextToken next
  let (baseValue, next) ← nextToken next
  let (deviation, next) ← nextToken next
  let (qos, next) ← nextToken next
  let (length, next) ← nextToken next
  let packetLength : ℤ := if length = ascii "default" then 0 else atoi long length
  let size : ℤ := if length = ascii "default" then dataPlaneBufferLen + 1 else packetLength
  .ok (⟨cString feature, atoi long publishRate, (atof baseValue).toFloat32, (atof deviation).toFloat32, atoi long qos,
    packetLength, mallocInt size⟩, next)

/-- One round of the loop. -/
def trafficBody : ℕ × Option (Bytes × Bytes) × Traffic → Except Fault ((ℕ × Option (Bytes × Bytes) × Traffic) ⊕ Traffic)
  | (_, none, traffic) => .ok (.inr traffic)
  | (index, some (p, next), traffic) =>
    if h : index < publishFeaturesMax then do
      let (info, next) ← publishEntry atof long p next
      let topic ← requestTopic info.feature
      let p ← strtok colon next
      .ok (.inl (index + 1, p, ⟨traffic.publishStr.set index info h, traffic.subscribed ++ [⟨topic, 2⟩]⟩))
    else .error .badAccess

/-- The argument is a string, given without its NUL. Each round takes tokens out of it. -/
def trafficGenerator (publishArg : Bytes) : Except Fault Traffic := do
  let p ← strtok colon (publishArg ++ [0])
  loop .diverges (trafficBody atof long) (publishArg.length + 2) (0, p, ⟨Vector.replicate _ .zero, []⟩)

end

/-! ## Messages -/

/-- What is given to `MQTTClient_publishMessage`. -/
structure MqttMessage where
  topic : Bytes
  payload : Bytes
  qos : ℤ
  deriving DecidableEq, Repr

/-- `r` is what `random` returns, divided by `RAND_MAX`. -/
def randomNumberGenerator (baseValue deviation r : Float32) : Float32 :=
  let randInterval := 2 * deviation
  let lower := baseValue - deviation
  randInterval * r + lower

section
variable (text : Float32 → Bytes)

/-- The content of `publish_msg` is written before it is read. -/
def publishFeatureValue (identity : Bytes) (r : Float32) (info : PublishInfo) : Except Fault MqttMessage := do
  let topic ← writeAt (List.replicate (dataPlaneBufferLen + 1) 0) 0 (dataTopic ++ info.feature ++ [0])
  match info.publishMsg with
  | none => .error .badAccess
  | some publishMsg =>
    if info.packetLength = 0 then do
      let value := randomNumberGenerator info.baseValue info.deviation r
      let publishMsg ← writeAt publishMsg 0 (identity ++ colon ++ text value ++ [0])
      let len ← strlen publishMsg
      let payload ← readAt publishMsg 0 len
      .ok ⟨cString topic, payload, info.qos⟩
    else do
      let publishMsg ← writeAt publishMsg 0 (List.replicate info.packetLength.toNat 48)
      let payload ← readAt publishMsg 0 info.packetLength.toNat
      .ok ⟨cString topic, payload, info.qos⟩

/-- The first entry with the feature, among those that are not used too. -/
def handlePublishReq (identity : Bytes) (r : Float32) (feature : Option Bytes) (traffic : Traffic) :
    Except Fault (Option MqttMessage) :=
  match feature with
  | none => .ok none
  | some feature =>
    match traffic.publishStr.toList.find? fun info => info.feature = feature with
    | none => .ok none
    | some info => (publishFeatureValue text identity r info).map some

end

def requestReputationVal (feature : Bytes) : Except Fault MqttMessage := do
  let topic ← requestTopic feature
  .ok ⟨topic, ascii "REQUEST", 2⟩

end AtlasClient
