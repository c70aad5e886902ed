import AtlasClient.Spec.Client
import Mathlib.Data.List.Infix

/-!
# Telemetry features

`telemetry/atlas_telemetry.c`. What a payload callback reports is an answer of the system.
-/

namespace AtlasClient

open FirstMatch

variable (cfg : Cfg)

def mapFeatures (f : List Telemetry → List Telemetry) (w : Client) : Client :=
  w.mapApp fun a => { a with features := f a.features }

def strstr (haystack needle : String) : Bool := needle.toList <:+: haystack.toList

/-- Ask the payload callback of a feature. -/
def askPayload (feature : Telemetry) (useThreshold : Bool) (w : Client) : Bytes × Client :=
  (w.net.os.payloads.head feature.payloadCb useThreshold,
    w.mapNet fun n => { n with os := { n.os with payloads := n.os.payloads.tail } })

def atlasTelemetryPush (feature : Telemetry) (useThreshold : Bool) (w : Client) : Client :=
  if !w.app.reg.registered then w
  else
    let (payload, w) := askPayload feature useThreshold w
    if payload = [] then w
    else w.request (cfg.coapGetUri feature.uriPath) .put payload 40000 .telemetryCallback

def pushAlertAlarmCb (alarmId : ℤ) (w : Client) : Client :=
  match w.app.features.find? fun p => p.pushId = alarmId with
  | none => w
  | some p => atlasTelemetryPush cfg p false w

def thresholdAlertAlarmCb (alarmId : ℤ) (w : Client) : Client :=
  match w.app.features.find? fun p => p.thresholdId = alarmId with
  | none => w
  | some p => atlasTelemetryPush cfg p true w

def telemetryCallback (uri : String) (respStatus : AtlasCoapResponse) (w : Client) : Client :=
  if respStatus = .ok then w
  else if respStatus ≠ .timeout then w
  else match w.app.features.find? fun p => strstr uri p.uriPath with
    | none => w
    | some p => atlasTelemetryPush cfg p false w

/-- `NULL` arguments are `none`. -/
def atlasTelemetryAdd (uriPath : Option String) (payloadCb : Option ℕ) (w : Client) : Client :=
  match uriPath, payloadCb with
  | some uriPath, some payloadCb => mapFeatures (fun l => l ++ [⟨uriPath, payloadCb, -1, -1⟩]) w
  | _, _ => w

def atlasTelemetryDel (uriPath : Option String) (w : Client) : Client :=
  match uriPath with
  | none => w
  | some uriPath => mapFeatures (fun l => l.eraseP fun p => p.uriPath = uriPath) w

def atlasTelemetryPushAll (w : Client) : Client :=
  w.app.features.foldl (fun w p => atlasTelemetryPush cfg p false w) w

/-- Cancel the alarm `old`, if it is one, and set a new one. -/
def swapAlarm (old : ℤ) (ms : ℕ) (cb : AppAlarm) (n : Net AppAlarm AppCb) : ℤ × Net AppAlarm AppCb :=
  atlasAlarmSet ms (.app cb) false (if 0 ≤ old then atlasAlarmCancel old n else n)

/-- Replace an alarm of a feature; `store` stores the new id. -/
def resetAlarm (uriPath : String) (old : ℤ) (ms : ℕ) (cb : AppAlarm) (store : ℤ → Telemetry → Telemetry)
    (w : Client) : Client :=
  let (id, net) := swapAlarm old ms cb w.net
  mapFeatures (updFirst (fun p => p.uriPath = uriPath) (store id)) { w with net := net }

def atlasTelemetryPushSet (uriPath : Option String) (pushRate : UInt16) (w : Client) : Client :=
  match uriPath with
  | none => w
  | some uriPath =>
    match w.app.features.find? fun p => p.uriPath = uriPath with
    | none => w
    | some p =>
      if pushRate = 0 then atlasTelemetryPush cfg p false w
      else resetAlarm uriPath p.pushId (pushRate.toNat * 1000) .pushAlertAlarmCb
        (fun id p => { p with pushId := id }) w

def atlasTelemetryThresholdSet (uriPath : Option String) (scanRate : UInt16) (w : Client) : Client :=
  match uriPath with
  | none => w
  | some uriPath =>
    if scanRate = 0 then w
    else match w.app.features.find? fun p => p.uriPath = uriPath with
      | none => w
      | some p => resetAlarm uriPath p.thresholdId (scanRate.toNat * 1000) .thresholdAlertAlarmCb
          (fun id p => { p with thresholdId := id }) w

/-- The paths that `atlas_telemetry_features_init` registers, in its order. -/
def telemetryPaths : List String :=
  ["gateway/telemetry/hostname", "gateway/telemetry/kernel_info", "gateway/telemetry/sysinfo/uptime",
    "gateway/telemetry/sysinfo/totalram", "gateway/telemetry/sysinfo/freeram", "gateway/telemetry/sysinfo/sharedram",
    "gateway/telemetry/sysinfo/bufferram", "gateway/telemetry/sysinfo/totalswap",
    "gateway/telemetry/sysinfo/freeswap", "gateway/telemetry/sysinfo/procs", "gateway/telemetry/sysinfo/load1",
    "gateway/telemetry/sysinfo/load5", "gateway/telemetry/sysinfo/load15", "gateway/telemetry/packets_per_minute",
    "gateway/telemetry/packets_avg"]

/-- The payload callback of a feature is named by its place. -/
def atlasTelemetryFeaturesInit (w : Client) : Client :=
  telemetryPaths.zipIdx.foldl (fun w p => atlasTelemetryAdd (some p.1) (some p.2) w) w

end AtlasClient
