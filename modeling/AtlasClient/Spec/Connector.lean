import AtlasClient.Spec.Client

/-!
# The data plane connector

`data_plane_connector/atlas_data_plane_connector.c`. A pointer into a received command is
the memory from there to the end of its block, so that a read past a value is a fault only
when it leaves the block.
-/

namespace AtlasClient

variable (cfg : Cfg)

def Connector.setPolicyQos (qos : Bytes) (c : Connector) : Except Fault Connector := do
  return { c with policyQos := ← read16 cfg.endian qos 0 }

def Connector.setPolicyPacketsPerMin (ppm : Bytes) (c : Connector) : Except Fault Connector := do
  return { c with policyPacketsPerMin := ← read16 cfg.endian ppm 0 }

def Connector.setPolicyPacketsMaxlen (packMaxlen : Bytes) (c : Connector) : Except Fault Connector := do
  return { c with policyPacketsMaxlen := ← read16 cfg.endian packMaxlen 0 }

def Connector.setPacketsPerMin (ppm : Bytes) (c : Connector) : Except Fault Connector := do
  return { c with packetsPerMin := ← read16 cfg.endian ppm 0 }

def Connector.setPacketsAvg (packAvg : Bytes) (c : Connector) : Except Fault Connector := do
  return { c with packetsAvg := ← read16 cfg.endian packAvg 0 }

def mapConn (f : Connector → Connector) (w : Client) : Client := w.mapApp fun a => { a with conn := f a.conn }

/-- Run a setter on the connector's variables. -/
def withConn (f : Connector → Except Fault Connector) (w : Client) : Except Fault Client := do
  let c ← f w.app.conn
  return mapConn (fun _ => c) w

/-- `write(connected_socket, …)`; the result is only logged, also when the peer has closed its end. -/
def writeDataPlane (bs : Bytes) (w : Client) : Client :=
  mapConn (fun c => { c with written := c.written ++ [(c.connectedSocket, bs)] }) w

/-- The messages that have been written to a socket between two states. `Link.deliver` says which of them find the
peer at the other end. -/
def messagesSince (w w' : Client) : List Bytes :=
  ((w'.app.conn.written.drop w.app.conn.written.length).filter fun m => m.1 ≠ -1).map Prod.snd

/-! ## Policy -/

/-- The payload of a policy request. -/
def policyCmds (c : Connector) : List (UInt16 × UInt16 × Bytes) :=
  let htonsBytes v := hostBytes cfg.endian (htons cfg.endian v)
  [(AtlasCmdType.dataPlanePolicyQos, 2, htonsBytes c.policyQos),
    (AtlasCmdType.dataPlanePolicyPacketsPerMinute, 2, htonsBytes c.policyPacketsPerMin),
    (AtlasCmdType.dataPlanePolicyPacketsMaxlen, 2, htonsBytes c.policyPacketsMaxlen)]

def sendPolicyCommand (w : Client) : Except Fault Client :=
  if !w.app.conn.activePolicy then .ok w
  else do
    let buf ← cmdBatchBytes cfg.endian (policyCmds cfg w.app.conn)
    return w.request (cfg.coapGetUri "gateway/policy") .put buf 5000 .policyCallback

def policyCallback (respStatus : AtlasCoapResponse) (w : Client) : Client :=
  if respStatus ≠ .ok then
    w.mapNet fun n => (atlasAlarmSet 5000 (.app .policyAlarmCallback) true n).2
  else w

def policyHandle (cmd : AtlasCmd) (w : Client) : Except Fault (Client ⊕ Client) :=
  if cmd.type = AtlasCmdType.dataPlanePolicyQos then
    .inl <$> withConn (Connector.setPolicyQos cfg cmd.value) w
  else if cmd.type = AtlasCmdType.dataPlanePolicyPacketsPerMinute then
    .inl <$> withConn (Connector.setPolicyPacketsPerMin cfg cmd.value) w
  else if cmd.type = AtlasCmdType.dataPlanePolicyPacketsMaxlen then
    .inl <$> withConn (Connector.setPolicyPacketsMaxlen cfg cmd.value) w
  else .ok (.inl w)

def atlasDataPlaneParsePolicy (buf : Bytes) (bufLen : UInt16) (w : Client) : Except Fault Client :=
  if buf = [] ∨ bufLen = 0 then .ok w
  else do
    let (status, batch) ← atlasCmdBatchSetRaw cfg.endian atlasCmdBatchNew buf bufLen
    if status ≠ .ok then return w
    let (_, w) ← cmdLoop cfg.endian (policyHandle cfg) batch w
    sendPolicyCommand cfg (mapConn (fun c => { c with activePolicy := true }) w)

/-! ## Reputation and feedback -/

def reputationHandle (cmd : AtlasCmd) (w : Client) : Except Fault (Client ⊕ Client) :=
  if cmd.type = AtlasCmdType.dataPlaneFeatureReputation then do
    let buf ← cmdBatchBytes cfg.endian [(AtlasCmdType.dataPlaneFeatureReputation, cmd.length, cmd.value)]
    return .inl (writeDataPlane buf w)
  else .ok (.inl w)

/-- The status is not used by the caller. -/
def atlasReputationRespParse (buf : Bytes) (bufLen : UInt16) (w : Client) : Except Fault Client :=
  if buf = [] ∨ bufLen = 0 then .ok w
  else do
    let (status, batch) ← atlasCmdBatchSetRaw cfg.endian atlasCmdBatchNew buf bufLen
    if status ≠ .ok then return w
    let (_, w) ← cmdLoop cfg.endian (reputationHandle cfg) batch w
    return w

/-- The payload length is cut to 16 bits on the way to the parser. -/
def featureReputationCallback (respStatus : AtlasCoapResponse) (respPayload : Bytes) (w : Client) :
    Except Fault Client :=
  if respStatus ≠ .ok then do
    let buf ← cmdBatchBytes cfg.endian [(AtlasCmdType.dataPlaneFeatureError, 0, [])]
    return writeDataPlane buf w
  else atlasReputationRespParse cfg respPayload (UInt16.ofNat respPayload.length) w

/-- A request to the gateway that passes on a command of the data plane. -/
def forwardToGateway (type : UInt16) (path : String) (cb : AppCb) (value : Bytes) (length : UInt16)
    (w : Client) : Except Fault Client :=
  if length = 0 then .ok w
  else do
    let buf ← cmdBatchBytes cfg.endian
      [stringCmd AtlasCmdType.identity cfg.identity, (type, length, value)]
    return w.request (cfg.coapGetUri path) .put buf 5000 cb

def atlasFeatureReputationHandle (feature : Bytes) (length : UInt16) (w : Client) : Except Fault Client :=
  forwardToGateway cfg AtlasCmdType.dataPlaneFeatureReputation "gateway/reputation/feature"
    .featureReputationCallback feature length w

def atlasFeatureFeedbackHandle (feedback : Bytes) (length : UInt16) (w : Client) : Except Fault Client :=
  forwardToGateway cfg AtlasCmdType.dataPlaneFeedback "gateway/reputation/feedback"
    .feedbackCallback feedback length w

/-! ## The socket -/

def atlasDataPlaneIdentity (w : Client) : Except Fault Client := do
  let buf ← cmdBatchBytes cfg.endian [stringCmd AtlasCmdType.dataPlaneIdentity cfg.identity]
  return writeDataPlane buf w

def dataPlaneHandle (cmd : AtlasCmd) (w : Client) : Except Fault (Client ⊕ Client) :=
  if cmd.type = AtlasCmdType.dataPlanePolicy then
    .inl <$> atlasDataPlaneParsePolicy cfg cmd.value cmd.length w
  else if cmd.type = AtlasCmdType.dataPlanePacketsPerMinute then
    .inl <$> withConn (Connector.setPacketsPerMin cfg cmd.value) w
  else if cmd.type = AtlasCmdType.dataPlanePacketsAvg then
    .inl <$> withConn (Connector.setPacketsAvg cfg cmd.value) w
  else if cmd.type = AtlasCmdType.dataPlaneFeatureReputation then
    .inl <$> atlasFeatureReputationHandle cfg cmd.value cmd.length w
  else if cmd.type = AtlasCmdType.dataPlaneFeedback then
    .inl <$> atlasFeatureFeedbackHandle cfg cmd.value cmd.length w
  else if cmd.type = AtlasCmdType.dataPlaneGetIdentity then
    .inl <$> atlasDataPlaneIdentity cfg w
  else .ok (.inl w)

/-- `received` is what `read` has put into the buffer, `none` end-of-file or an error. -/
def atlasDataPlaneReadCb (fd : ℤ) (received : Option Bytes) (w : Client) : Except Fault Client :=
  match received with
  | none => .ok (w.mapNet fun n => { n with schedEntry := atlasSchedDelEntry fd n.schedEntry })
  | some buf => do
    let (status, batch) ← atlasCmdBatchSetRaw cfg.endian atlasCmdBatchNew buf (UInt16.ofNat buf.length)
    if status ≠ .ok then return w
    let (_, w) ← cmdLoop cfg.endian (dataPlaneHandle cfg) batch w
    return w

/-- `accepted` is the descriptor that `accept` returns, `none` when it fails. -/
def atlasDataPlaneAcceptCb (accepted : Option Fresh) (w : Client) : Client :=
  let w :=
    if w.app.conn.connectedSocket ≠ -1 then
      w.mapNet fun n => { n with schedEntry := atlasSchedDelEntry w.app.conn.connectedSocket n.schedEntry }
    else w
  match accepted with
  | none => mapConn (fun c => { c with connectedSocket := -1 }) w
  | some fresh =>
    let fd := w.net.newFd fresh
    (mapConn (fun c => { c with connectedSocket := fd }) w).mapNet fun n =>
      { n with schedEntry := atlasSchedAddEntry fd (some .atlasDataPlaneReadCb) n.schedEntry }

end AtlasClient
