import AtlasClient.Spec.Register

/-!
# The client as a machine

The callbacks of the modules put together, and the events of the main loop. A response
is two kinds of events: `pdu` for each PDU that `coap_io_process` hands over, `ioDone`
for what `coap_client_sched_callback` does afterwards (`sched_eq_run`). An event that
finds no request or no alarm does nothing, so the events may come in any order.
-/

namespace AtlasClient

variable (cfg : Cfg)

def alarmCallback : AppAlarm → ℤ → Client → Client
  | .keepaliveAlarmCallback, _, w => orStay w (sendKeepaliveCommand cfg w)
  | .regAlarmCallback, _, w => orStay w (sendRegisterCommand cfg w)
  | .policyAlarmCallback, _, w => orStay w (sendPolicyCommand cfg w)
  | .pushAlertAlarmCb, alarmId, w => pushAlertAlarmCb cfg alarmId w
  | .thresholdAlertAlarmCb, alarmId, w => thresholdAlertAlarmCb cfg alarmId w

def coapCallback : AppCb → String → AtlasCoapResponse → Bytes → Client → Client
  | .regCallback, _, status, _, w => orStay w (regCallback cfg status w)
  | .keepaliveCallback, _, status, payload, w => orStay w (keepaliveCallback cfg status payload w)
  | .policyCallback, _, status, _, w => policyCallback status w
  | .telemetryCallback, uri, status, _, w => telemetryCallback cfg uri status w
  | .featureReputationCallback, _, status, payload, w =>
    orStay w (featureReputationCallback cfg status payload w)
  -- `feedback_callback` only logs
  | .feedbackCallback, _, _, _, w => w

def client : Program AppAlarm AppCb App where
  endian := cfg.endian
  alarmCb := alarmCallback cfg
  coapCb := coapCallback cfg

inductive Event
  | start
  | pdu (ctx session : ℕ) (received : CoapPdu)
  | ioDone (fd : ℤ)
  | alarm (fd : ℤ)
  | telemetryAdd (uriPath : Option String) (payloadCb : Option ℕ)
  | telemetryDel (uriPath : Option String)
  | pushSet (uriPath : Option String) (pushRate : UInt16)
  | thresholdSet (uriPath : Option String) (scanRate : UInt16)
  | dataPlaneRead (fd : ℤ) (received : Option Bytes)
  | dataPlaneAccept (accepted : Option Fresh)

def Client.step (w : Client) : Event → Client
  | .start => orStay w (atlasRegisterStart cfg w)
  | .pdu ctx session received => messageHandler (client cfg) ctx session received w
  | .ioDone fd => w.mapNet (unlinkIfDirty fd)
  | .alarm fd => (client cfg).fire fd w
  | .telemetryAdd uriPath payloadCb => atlasTelemetryAdd uriPath payloadCb w
  | .telemetryDel uriPath => atlasTelemetryDel uriPath w
  | .pushSet uriPath pushRate => atlasTelemetryPushSet cfg uriPath pushRate w
  | .thresholdSet uriPath scanRate => atlasTelemetryThresholdSet uriPath scanRate w
  | .dataPlaneRead fd received => orStay w (atlasDataPlaneReadCb cfg fd received w)
  | .dataPlaneAccept accepted => atlasDataPlaneAcceptCb accepted w

end AtlasClient
