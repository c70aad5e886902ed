import AtlasClient.Spec.CoapServer
import AtlasClient.Spec.Config
import AtlasClient.Spec.Machine
import AtlasClient.Spec.Payload

/-!
# The end-points of the gateway

How `coap/atlas_coap_server.c` hands a request to a listener, and the end-points that `telemetry/` installs.
A device is the client together with its server, but for the end-point of `commands_execute/`.

* `processRequestHandler`: the listener of a resource, its callback and the response.
* `atlasTelemetryAddSysinfo`, `atlasTelemetryAddPacketsInfo`: the end-points up to the first that cannot be installed.
* `Device.step`: a pass of the client's main loop, or a request of the gateway.
-/

namespace AtlasClient

open LinkedList Loop

variable (cfg : Cfg)

/-! ## Requests -/

/-- `coap/atlas_coap_response.h` -/
def AtlasCoapResponse.value : AtlasCoapResponse → ℕ
  | .ok => 200
  | .notFound => 404
  | .notAcceptableHere => 406
  | .timeout => 407
  | .reset => 408
  | .unknown => 409

/-- `COAP_RESPONSE_CODE` -/
def AtlasCoapResponse.code (r : AtlasCoapResponse) : UInt8 := UInt8.ofNat ((r.value / 100) <<< 5 ||| r.value % 100)

/-- What is sent back. -/
structure CoapReply where
  code : UInt8
  payload : Bytes
  deriving DecidableEq, Repr

namespace CoapServer

variable {Cb σ : Type}

/-- A callback is given the path and the payload, and returns the response with its payload. `uriPath` is what
`coap_get_uri_path` returns; it is copied behind a NUL. There is no response to a request that is dropped. -/
def processRequestHandler (callback : Cb → Bytes → Bytes → σ → Except Fault (AtlasCoapResponse × Bytes × σ))
    (resource : ℕ) (uriPath : Option Bytes) (reqPayload : Bytes) (listener : Option ℕ) (s : CoapServer Cb) (w : σ) :
    Except Fault (Option CoapReply × σ) :=
  match uriPath with
  | none => .ok (none, w)
  | some uriPath => do
    -- `while (listener && listener->resource != resource)`
    match ← s.find .badAccess .diverges (fun y => y.resource = resource) listener with
    | none => .ok (none, w)
    | some (listener, _) => do
      let node ← s.read .badAccess listener
      let (respCode, respPayload, w) ← callback node.value.callback (cString (uriPath ++ [0])) reqPayload w
      .ok (some ⟨respCode.code, if respCode = .ok then respPayload else []⟩, w)

/-- `get_handler`, `post_handler`, `put_handler` and `delete_handler`, each with the list of its method. -/
def handler (method : AtlasCoapMethod) (callback : Cb → Bytes → Bytes → σ →
    Except Fault (AtlasCoapResponse × Bytes × σ))
    (resource : ℕ) (uriPath : Option Bytes) (reqPayload : Bytes) (s : CoapServer Cb) (w : σ) :
    Except Fault (Option CoapReply × σ) :=
  processRequestHandler callback resource uriPath reqPayload (s.serverListeners method) s w

/-- End-points for `PUT`, one after the other until one of them cannot be installed. `resources` are the answers
of `coap_resource_init`. -/
def installAll (s : CoapServer Cb) : List (String × Cb) → (ℕ → Option ℕ) → Except Fault (CoapServer Cb)
  | [], _ => .ok s
  | (uriPath, cb) :: endpoints, resources => do
    let (status, s) ← s.atlasCoapServerAddResource (some (ascii uriPath)) .put (some cb) (resources 0)
    if status ≠ .ok then .ok s else s.installAll endpoints fun n => resources (n + 1)

end CoapServer

/-! ## The end-points -/

/-- The push alerts of `telemetry/atlas_telemetry_sysinfo.c`: the path of the end-point, and of the feature. -/
def sysinfoPushPaths : List (String × String) :=
  [("client/telemetry/sysinfo/procs/alerts/push", "gateway/telemetry/sysinfo/procs"),
    ("client/telemetry/sysinfo/uptime/alerts/push", "gateway/telemetry/sysinfo/uptime"),
    ("client/telemetry/sysinfo/freeram/alerts/push", "gateway/telemetry/sysinfo/freeram"),
    ("client/telemetry/sysinfo/sharedram/alerts/push", "gateway/telemetry/sysinfo/sharedram"),
    ("client/telemetry/sysinfo/bufferram/alerts/push", "gateway/telemetry/sysinfo/bufferram"),
    ("client/telemetry/sysinfo/totalswap/alerts/push", "gateway/telemetry/sysinfo/totalswap"),
    ("client/telemetry/sysinfo/freeswap/alerts/push", "gateway/telemetry/sysinfo/freeswap"),
    ("client/telemetry/sysinfo/load1/alerts/push", "gateway/telemetry/sysinfo/load1"),
    ("client/telemetry/sysinfo/load5/alerts/push", "gateway/telemetry/sysinfo/load5"),
    ("client/telemetry/sysinfo/load15/alerts/push", "gateway/telemetry/sysinfo/load15")]

/-- The push alerts of `telemetry/atlas_telemetry_packets_info.c`. -/
def packetsPushPaths : List (String × String) :=
  [("client/telemetry/packets_info/packets_per_min/alerts/push", "gateway/telemetry/packets_per_minute"),
    ("client/telemetry/packets_info/packets_avg/alerts/push", "gateway/telemetry/packets_avg")]

/-- The callbacks of the end-points. -/
inductive EndpointCb
  | sysinfoPushAlertCb
  | thresholdAlertProcsCb
  | packetsPushAlertCb
  deriving DecidableEq, Repr

/-- The two callbacks named `atlas_push_alert_cb`: the first end-point of the table that has the path. `push_rate`
is not initialised; it is read only after it has been set. -/
def atlasPushAlertCb (paths : List (String × String)) (uriPath reqPayload : Bytes) (w : Client) :
    Except Fault (AtlasCoapResponse × Client) := do
  let (status, pushRate) ← atlasAlertPushCmdParse cfg.endian reqPayload (UInt16.ofNat reqPayload.length) (some 0)
  if status ≠ .ok then .ok (.notAcceptableHere, w)
  else
    match paths.find? fun p => ascii p.1 = uriPath with
    | none => .ok (.ok, w)
    | some p => .ok (.ok, atlasTelemetryPushSet cfg (some p.2) (pushRate.getD 0) w)

def sysinfoEndpoints : List (String × EndpointCb) :=
  sysinfoPushPaths.map (fun p => (p.1, .sysinfoPushAlertCb)) ++
    [("client/telemetry/sysinfo/procs/alerts/threshold", .thresholdAlertProcsCb)]

def packetsEndpoints : List (String × EndpointCb) := packetsPushPaths.map fun p => (p.1, .packetsPushAlertCb)

/-- The end-points that are installed behind the features of the module. -/
def atlasTelemetryAddSysinfo (resources : ℕ → Option ℕ) (s : CoapServer EndpointCb) :
    Except Fault (CoapServer EndpointCb) :=
  s.installAll sysinfoEndpoints resources

/-- The end-points that are installed behind the features of the module. -/
def atlasTelemetryAddPacketsInfo (resources : ℕ → Option ℕ) (s : CoapServer EndpointCb) :
    Except Fault (CoapServer EndpointCb) :=
  s.installAll packetsEndpoints resources

/-! ## The device -/

/-- What the system answers when it is asked for the hostname, the kernel and its numbers. -/
structure SystemAnswer where
  hostname : Option HostnameRead
  uname : Option Utsname
  sysinfo : Option Sysinfo

/-- The client, the variable `procs_threshold` and the server with the end-points of `telemetry/`. The end-point that
`atlas_command_execute_init` installs, with its two alarms, is no part of the device: `Execute` is that module. -/
structure Device where
  client : Client
  procsThreshold : UInt16
  server : CoapServer EndpointCb

namespace Device

variable (long : LongType)

/-- What the payload callbacks read. -/
def readings (d : Device) (a : SystemAnswer) : Readings :=
  ⟨a.hostname, a.uname, a.sysinfo, d.procsThreshold, d.client.app.conn.packetsPerMin, d.client.app.conn.packetsAvg⟩

/-- The client, whose payload callbacks report what they read when the system answers `sys`, one answer for each
question. -/
def asked (sys : ℕ → SystemAnswer) (d : Device) : Client :=
  d.client.mapNet fun n => { n with os := { n.os with
    payloads := fun k place useThreshold =>
      orStay [] (payloadCallback cfg (d.readings (sys k)) place useThreshold) } }

/-- The features of `telemetry/atlas_telemetry_features.c` and their end-points, in a client that has none. -/
def atlasTelemetryFeaturesInit (sysinfoResources packetsResources : ℕ → Option ℕ) (w : Client) :
    Except Fault Device := do
  let server ← atlasTelemetryAddSysinfo sysinfoResources .init
  let server ← atlasTelemetryAddPacketsInfo packetsResources server
  .ok ⟨AtlasClient.atlasTelemetryFeaturesInit w, 0, server⟩

/-- The callback of a listener. None of them has a payload for the response. -/
def callback : EndpointCb → Bytes → Bytes → UInt16 × Client → Except Fault (AtlasCoapResponse × Bytes × UInt16 × Client)
  | .sysinfoPushAlertCb, uriPath, reqPayload, (procs, w) => do
    let (resp, w) ← atlasPushAlertCb cfg sysinfoPushPaths uriPath reqPayload w
    .ok (resp, [], procs, w)
  | .packetsPushAlertCb, uriPath, reqPayload, (procs, w) => do
    let (resp, w) ← atlasPushAlertCb cfg packetsPushPaths uriPath reqPayload w
    .ok (resp, [], procs, w)
  | .thresholdAlertProcsCb, _, reqPayload, (procs, w) => do
    let (resp, procs, w) ← atlasThresholdAlertProcsCb cfg.endian long reqPayload procs w
    .ok (resp, [], procs, w)

/-- What happens to the device: something in the client's main loop, or a request that the CoAP library hands to
the handler of the resource. -/
inductive Event
  | start
  | pdu (ctx session : ℕ) (received : CoapPdu)
  | ioDone (fd : ℤ)
  | alarm (fd : ℤ)
  | dataPlaneRead (fd : ℤ) (received : Option Bytes)
  | dataPlaneAccept (accepted : Option Fresh)
  | put (resource : ℕ) (uriPath : Option Bytes) (reqPayload : Bytes)

/-- The event of the client. -/
def Event.main : Event → Option AtlasClient.Event
  | .start => some .start
  | .pdu ctx session received => some (.pdu ctx session received)
  | .ioDone fd => some (.ioDone fd)
  | .alarm fd => some (.alarm fd)
  | .dataPlaneRead fd received => some (.dataPlaneRead fd received)
  | .dataPlaneAccept accepted => some (.dataPlaneAccept accepted)
  | .put .. => none

/-- A request of the gateway. -/
def put (sys : ℕ → SystemAnswer) (resource : ℕ) (uriPath : Option Bytes) (reqPayload : Bytes) (d : Device) :
    Except Fault (Option CoapReply × UInt16 × Client) :=
  CoapServer.handler .put (callback cfg long) resource uriPath reqPayload d.server (d.procsThreshold, d.asked cfg sys)

def step (d : Device) (e : (ℕ → SystemAnswer) × Event) : Device :=
  match e with
  | (sys, .put resource uriPath reqPayload) =>
    match d.put cfg long sys resource uriPath reqPayload with
    | .error _ => d
    | .ok (_, procs, w) => { d with client := w, procsThreshold := procs }
  | (sys, e) => { d with client := e.main.elim d.client fun e => (d.asked cfg sys).step cfg e }

end Device

end AtlasClient
