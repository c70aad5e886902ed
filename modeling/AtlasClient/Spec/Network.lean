import AtlasClient.Spec.Query
import Mathlib.Logic.Function.Basic

/-!
# The data plane network

The devices that run `data_plane/atlas_data_plane.c`, and the broker between them. A message that has been published can
be delivered to every device, at any time and any number of times: the broker, the network and the subscriptions are not
modelled further.

* `Station.publish`, `Station.msgarrvd`, `Station.task`, `Station.report`: what the threads of one device do.
* `Network.step`: one step of one device.
-/

namespace AtlasClient

/-- A device that runs the data plane application. `feature` is that of the reputation query. -/
structure Station where
  identity : Bytes
  traffic : Traffic
  feature : Bytes
  stats : Statistics
  query : QueryTask

/-- What a step of a device sends to the broker, and the entries that it gives to `atlas_reputation_feedback`. -/
structure StationOutput where
  published : List MqttMessage
  submitted : List (List FeedbackEntry)

section
variable (atof : Bytes → Float) (undefined : UndefinedScore) (text : Float32 → Bytes)

/-- The thread of an entry of the publish argument. There is a subscription for each of them. -/
def Station.publish (k : Fin publishFeaturesMax) (r : Float32) (s : Station) : Except Fault (StationOutput × Station) :=
  if k.1 < s.traffic.subscribed.length then do
    let message ← publishFeatureValue text s.identity r (s.traffic.publishStr.get k)
    .ok (⟨[message], []⟩, s)
  else .ok (⟨[], []⟩, s)

/-- The callback. The topic is a string, and its length is given as 0. -/
def Station.msgarrvd (message : MqttMessage) (r : Float32) (ts : Timespec) (s : Station) :
    Except Fault (StationOutput × Station) :=
  if h : message.payload.length < 2 ^ 31 then do
    let app ← AtlasClient.msgarrvd atof undefined (message.topic ++ [0]) 0 ⟨message.payload, h⟩ ts
      ⟨s.stats, s.query.rep, []⟩
    let replies ← app.requests.mapM fun feature => handlePublishReq text s.identity r (some feature) s.traffic
    .ok (⟨replies.filterMap id, []⟩, { s with stats := app.stats, query := { s.query with rep := app.rep } })
  else .ok (⟨[], []⟩, s)

/-- The reputation query. -/
def Station.task (now : Timespec) (s : Station) : Except Fault (StationOutput × Station) :=
  let next := s.query.next now
  match next.1 with
  | .none => .ok (⟨[], []⟩, { s with query := next.2 })
  | .requested => do
    let message ← requestReputationVal s.feature
    .ok (⟨[message], []⟩, { s with query := next.2 })
  | .submitted feedback => .ok (⟨[], [feedback]⟩, { s with query := next.2 })

/-- The thread of the library that reports the statistics. -/
def Station.report (e : Endian) (s : Station) : Except Fault (StationOutput × Station) := do
  let sent ← sendStatisticsCommand e s.stats
  .ok (⟨[], []⟩, { s with stats := sent.2 })

end

/-- A message of a device. -/
structure Publication (ι : Type) where
  origin : ι
  message : MqttMessage

/-- The devices, what they have published, and the entries that they have submitted. -/
structure Network (ι : Type) where
  stations : ι → Station
  published : List (Publication ι)
  submitted : List (ι × List FeedbackEntry)

inductive NetworkEvent (ι : Type)
  | publish (i : ι) (k : Fin publishFeaturesMax) (r : Float32)
  | deliver (i : ι) (place : ℕ) (r : Float32) (ts : Timespec)
  | task (i : ι) (now : Timespec)
  | report (i : ι)

namespace Network

variable {ι : Type} [DecidableEq ι] (e : Endian) (atof : Bytes → Float) (undefined : UndefinedScore)
  (text : Float32 → Bytes)

/-- A step of the device `i`. -/
def act (i : ι) (f : Station → Except Fault (StationOutput × Station)) (w : Network ι) : Except Fault (Network ι) := do
  let r ← f (w.stations i)
  .ok
    { stations := Function.update w.stations i r.2
      published := w.published ++ r.1.published.map fun message => ⟨i, message⟩
      submitted := w.submitted ++ r.1.submitted.map fun feedback => (i, feedback) }

/-- `deliver` takes one of the messages that have been published. -/
def step (w : Network ι) : NetworkEvent ι → Except Fault (Network ι)
  | .publish i k r => w.act i (Station.publish text k r)
  | .deliver i place r ts =>
    match w.published[place]? with
    | none => .ok w
    | some p => w.act i (Station.msgarrvd atof undefined text p.message r ts)
  | .task i now => w.act i (Station.task now)
  | .report i => w.act i (Station.report e)

/-- A run, from when the devices have started. -/
def run (stations : ι → Station) (events : List (NetworkEvent ι)) : Except Fault (Network ι) :=
  events.foldlM (step e atof undefined text) ⟨stations, [], []⟩

end Network

end AtlasClient
