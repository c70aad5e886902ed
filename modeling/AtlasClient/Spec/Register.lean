import AtlasClient.Spec.Connector
import AtlasClient.Spec.Telemetry

/-!
# Registration and keep-alive

`register/atlas_register.c`.
-/

namespace AtlasClient

variable (cfg : Cfg)

def mapReg (f : Register → Register) (w : Client) : Client := w.mapApp fun a => { a with reg := f a.reg }

/-- `atlas_cfg_get_local_ipPort`. -/
def localIpPort (w : Client) : Bytes × Client :=
  (w.net.os.ipPorts.head.1, w.mapNet fun n => { n with os := { n.os with ipPorts := n.os.ipPorts.tail } })

def sendKeepaliveCommand (w : Client) : Except Fault Client := do
  let (ipPort, w) := localIpPort w
  let w := mapReg (fun r => { r with kaToken := r.kaToken + 1 }) w
  let buf ← cmdBatchBytes cfg.endian
    [stringCmd AtlasCmdType.identity cfg.identity,
      (AtlasCmdType.keepalive, 2, hostBytes cfg.endian w.app.reg.kaToken),
      stringCmd AtlasCmdType.ipPort ipPort]
  return w.request (cfg.coapGetUri "gateway/keepalive") .put buf 5000 .keepaliveCallback

def sendRegisterCommand (w : Client) : Except Fault Client := do
  let (ipPort, w) := localIpPort w
  let buf ← cmdBatchBytes cfg.endian
    [stringCmd AtlasCmdType.register cfg.identity, stringCmd AtlasCmdType.ipPort ipPort]
  return w.request (cfg.coapGetUri "gateway/register") .post buf 5000 .regCallback

/-- The token of a keep-alive response is the local one. -/
def tokenMatches (respPayload : Bytes) (w : Client) : Bool :=
  match respPayload with
  | a :: b :: _ => ofHost cfg.endian a b = w.app.reg.kaToken
  | _ => false

/-- The `ERR` label of `keepalive_callback`. -/
def keepaliveErr (w : Client) : Except Fault Client :=
  let w := mapReg (fun r => { r with kaCount := r.kaCount - 1 }) w
  if w.app.reg.kaCount = 0 then
    let w := mapReg (fun r => { r with registered := false }) w
    let w := w.mapNet (atlasAlarmCancel w.app.reg.kaAlarmId)
    sendRegisterCommand cfg (mapReg (fun r => { r with kaAlarmId := -1 }) w)
  else .ok w

def keepaliveCallback (respStatus : AtlasCoapResponse) (respPayload : Bytes) (w : Client) :
    Except Fault Client :=
  if respStatus ≠ .ok then
    keepaliveErr cfg <|
      if respStatus = .notFound ∨ respStatus = .notAcceptableHere then
        mapReg (fun r => { r with kaCount := 1 }) w
      else w
  else if !tokenMatches cfg respPayload w then keepaliveErr cfg w
  else .ok (mapReg (fun r => { r with kaCount := 3 }) w)

/-- `reg_callback` after an `OK`, once the policy has been sent. -/
def regCompleted (w : Client) : Client :=
  let w := mapReg (fun r => { r with registered := true }) w
  let w := atlasTelemetryPushAll cfg w
  let (id, net) := atlasAlarmSet 20000 (.app .keepaliveAlarmCallback) false w.net
  mapReg (fun r => { r with kaAlarmId := id }) { w with net := net }

def regCallback (respStatus : AtlasCoapResponse) (w : Client) : Except Fault Client :=
  if respStatus ≠ .ok then
    .ok (w.mapNet fun n => (atlasAlarmSet 5000 (.app .regAlarmCallback) true n).2)
  else (if !w.app.reg.registered then sendPolicyCommand cfg w else .ok w).map (regCompleted cfg)

def atlasRegisterStart (w : Client) : Except Fault Client := sendRegisterCommand cfg w

end AtlasClient
