import AtlasClient.Spec.Alarm

/-!
# The CoAP client

`coap/atlas_coap_client.c`. The request PDU is not modelled: a `CoapCall` records what it
is built from. Nor are the resets sent for unexpected tokens.

One pass of `coap_client_sched_callback` lets `coap_io_process` hand any number of PDUs
to `message_handler` and unlinks the request afterwards.
-/

namespace AtlasClient

open FirstMatch

variable {α κ σ : Type}

/-! ## Requests -/

def addRequest (ctx session : ℕ) (coapFd : Option Fresh) (uri : String) (token : UInt32) (timeout : ℕ)
    (callback : κ) (n : Net α κ) : AtlasStatus × Net α κ :=
  match coapFd with
  | none => (.generalErr, n)
  | some fresh =>
    let (alarmId, n) := atlasAlarmSet timeout .requestAlarmCb true n
    if alarmId < 0 then (.generalErr, n)
    else
      -- the number of the descriptor is not looked at before this point
      let fd := n.newFd fresh
      (.ok, { n with
        schedEntry := atlasSchedAddEntry fd (some .coapClientSchedCallback) n.schedEntry
        reqEntry := n.reqEntry ++ [⟨fd, alarmId, ctx, session, uri, token, callback, false⟩] })

/-- `NULL` arguments are `none`. -/
def atlasCoapClientRequest (uri : Option String) (timeout : ℕ) (cb : Option κ) (n : Net α κ) :
    AtlasStatus × Net α κ :=
  match uri, cb with
  | none, _ => (.coapInvalidUri, n)
  | some _, none => (.invalidCallback, n)
  | some uri, some cb =>
    let a := n.os.requests.head
    let n := { n with os := { n.os with requests := n.os.requests.tail } }
    if !a.splitUri then (.generalErr, n)
    else if !a.resolved then (.generalErr, n)
    else match a.ctx with
      | none => (.generalErr, n)
      | some ctx =>
        match a.session with
        | none => (.generalErr, n)
        | some session =>
          if !a.pdu then (.generalErr, n)
          else
            let token := n.token
            let n := { n with token := n.token + 1 }
            if !a.tokenAdded then (.generalErr, n)
            else addRequest (ctx.pick (n.reqEntry.map CoapReq.ctx))
              (session.pick (n.reqEntry.map CoapReq.session)) a.coapFd uri token timeout cb n

/-- A request of another module. The callers do no more with the status than log it. -/
def World.request (uri : String) (method : AtlasCoapMethod) (reqPayload : Bytes) (timeout : ℕ) (cb : κ)
    (w : World α κ σ) : World α κ σ :=
  let (status, net) := atlasCoapClientRequest (some uri) timeout (some cb) w.net
  { w with net := net, calls := w.calls ++ [⟨uri, method, reqPayload, timeout, cb, status⟩] }

/-! ## Responses -/

inductive CoapMessage
  | con
  | non
  | ack
  | rst
  deriving DecidableEq, Repr

/-- What `message_handler` reads of a received PDU. -/
structure CoapPdu where
  type : CoapMessage
  code : UInt8
  token : Bytes
  data : Bytes
  deriving DecidableEq, Repr

/-- `COAP_RESPONSE_CLASS`. -/
def CoapPdu.responseClass (received : CoapPdu) : ℕ := received.code.toNat / 32

def validateToken (e : Endian) (received : CoapPdu) (token : UInt32) : Bool :=
  if received.token.length ≠ 4 then false else received.token = hostBytes32 e token

/-- The status and the payload that the callback is given. -/
def CoapPdu.response (received : CoapPdu) : AtlasCoapResponse × Bytes :=
  if received.type = .rst then (.reset, [])
  else if received.responseClass = 2 then (.ok, received.data)
  else if received.responseClass = 4 then (.notFound, [])
  else (.unknown, [])

/-- The entry is the one of the context and session. -/
def CoapReq.at (ctx session : ℕ) (ent : CoapReq κ) : Bool := ent.ctx = ctx ∧ ent.session = session

def markDirty (ctx session : ℕ) (n : Net α κ) : Net α κ :=
  { n with reqEntry := updFirst (CoapReq.at ctx session) (fun ent => { ent with dirty := true }) n.reqEntry }

variable (prog : Program α κ σ)

def messageHandler (ctx session : ℕ) (received : CoapPdu) (w : World α κ σ) : World α κ σ :=
  match w.net.reqEntry.find? (CoapReq.at ctx session) with
  | none => w
  | some ent =>
    if !validateToken prog.endian received ent.token then w
    else
      prog.coapCb ent.callback ent.uri received.response.1 received.response.2 (w.mapNet (markDirty ctx session))

/-- What `coap_client_sched_callback` does after `coap_io_process`. -/
def unlinkIfDirty (fd : ℤ) (n : Net α κ) : Net α κ :=
  match n.reqEntry.find? fun p => p.coapFd = fd with
  | none => n
  | some p =>
    if p.dirty then
      atlasAlarmCancel p.alarmId
        { n with
          reqEntry := n.reqEntry.eraseP fun p => p.coapFd = fd
          schedEntry := atlasSchedDelEntry p.coapFd n.schedEntry }
    else n

/-- `pdus` are the PDUs that `coap_io_process` hands to the response handler. -/
def coapClientSchedCallback (fd : ℤ) (pdus : List CoapPdu) (w : World α κ σ) : World α κ σ :=
  match w.net.reqEntry.find? fun p => p.coapFd = fd with
  | none => w
  | some p =>
    let w := pdus.foldl (fun w received => messageHandler prog p.ctx p.session received w) w
    w.mapNet (unlinkIfDirty fd)

/-- What `request_alarm_cb` does after the callback. -/
def unlinkTimedOut (alarmId coapFd : ℤ) (n : Net α κ) : Net α κ :=
  { n with
    reqEntry := n.reqEntry.eraseP fun p => p.alarmId = alarmId
    schedEntry := atlasSchedDelEntry coapFd n.schedEntry }

def requestAlarmCb (alarmId : ℤ) (w : World α κ σ) : World α κ σ :=
  match w.net.reqEntry.find? fun p => p.alarmId = alarmId with
  | none => w
  | some p =>
    (prog.coapCb p.callback p.uri .timeout [] w).mapNet (unlinkTimedOut alarmId p.coapFd)

/-- The callback of an alarm. -/
def Program.runAlarm : AlarmCb α → ℤ → World α κ σ → World α κ σ
  | .requestAlarmCb => requestAlarmCb prog
  | .app cb => prog.alarmCb cb

/-- An alarm fires. -/
def Program.fire (fd : ℤ) (w : World α κ σ) : World α κ σ := atlasAlarmTrigger prog.runAlarm fd w

end AtlasClient
