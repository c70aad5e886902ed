import AtlasClient.Lib.ListHeap
import AtlasClient.Spec.Machine

/-!
# The CoAP client's list in memory

The list of requests in `coap/atlas_coap_client.c`, with its nodes and their addresses. `message_handler`, and with it a
callback of the application, runs while `coap_client_sched_callback` is at a node of the list, and so does the callback
that `request_alarm_cb` tells of a timeout. What they keep pointers to is here read again and unlinked.

* `RequestHeap`: the nodes, and everything else.
* `messageHandler`, `coapClientSchedCallback`, `requestAlarmCb`: the three functions that walk the list.
* `RequestHeap.turn`: a callback of the main loop, or a call of another module.
-/

namespace AtlasClient

open LinkedList

variable {α κ σ : Type}

def World.withRequests (reqEntry : List (CoapReq κ)) (w : World α κ σ) : World α κ σ :=
  w.mapNet fun n => { n with reqEntry := reqEntry }

/-- The list `req_entry` is in memory; in `world` it is empty. -/
structure RequestHeap (α κ σ : Type) where
  requests : ListHeap (CoapReq κ)
  world : World α κ σ

namespace RequestHeap

/-- Before anything has been requested. -/
def init (w : World α κ σ) : RequestHeap α κ σ := ⟨.init, w.withRequests []⟩

def mapWorld (f : World α κ σ → World α κ σ) (m : RequestHeap α κ σ) : RequestHeap α κ σ :=
  { m with world := f m.world }

/-- The program's state, with what is in the nodes. -/
def view (m : RequestHeap α κ σ) : Except Fault (World α κ σ) := do
  let reqEntry ← m.requests.values .badAccess .diverges
  .ok (m.world.withRequests reqEntry)

/-- What another module does. `add_request`, which puts a node behind the last one, is all that it calls of the list. -/
def perform (f : World α κ σ → World α κ σ) (m : RequestHeap α κ σ) : Except Fault (RequestHeap α κ σ) := do
  let w ← m.view
  let w' := f w
  let added := w'.net.reqEntry.drop w.net.reqEntry.length
  let requests ← added.foldlM (fun s entry => s.append .badAccess .diverges entry) m.requests
  .ok ⟨requests, w'.withRequests []⟩

variable (prog : Program α κ σ)

/-! ## Responses -/

def messageHandler (ctx session : ℕ) (received : CoapPdu) (m : RequestHeap α κ σ) :
    Except Fault (RequestHeap α κ σ) := do
  match ← m.requests.find .badAccess .diverges (CoapReq.at ctx session) with
  | none => .ok m
  | some (ent, _) => do
    let node ← m.requests.read .badAccess ent
    if !validateToken prog.endian received node.value.token then .ok m
    else do
      let requests ← m.requests.modify .badAccess ent fun req => { req with dirty := true }
      perform (prog.coapCb node.value.callback node.value.uri received.response.1 received.response.2)
        ⟨requests, m.world⟩

/-- The node `p` is unlinked, its descriptor and its alarm go, and then it is released. -/
def deleteRequest (p : ℕ) (pp : Option ℕ) (goes : CoapReq κ → Net α κ → Net α κ) (m : RequestHeap α κ σ) :
    Except Fault (RequestHeap α κ σ) := do
  let requests ← m.requests.unlink .badAccess p pp
  let node ← requests.read .badAccess p
  let requests ← requests.free .badAccess p
  .ok ⟨requests, m.world.mapNet (goes node.value)⟩

/-- `pdus` are the PDUs that `coap_io_process` hands to the response handler. The pointers `p` and `pp` are kept
meanwhile. -/
def coapClientSchedCallback (fd : ℤ) (pdus : List CoapPdu) (m : RequestHeap α κ σ) :
    Except Fault (RequestHeap α κ σ) := do
  match ← m.requests.find .badAccess .diverges fun req => req.coapFd = fd with
  | none => .ok m
  | some (p, pp) => do
    let node ← m.requests.read .badAccess p
    let m ← pdus.foldlM (fun m received => messageHandler prog node.value.ctx node.value.session received m) m
    let node ← m.requests.read .badAccess p
    if node.value.dirty then
      m.deleteRequest p pp fun req n =>
        atlasAlarmCancel req.alarmId { n with schedEntry := atlasSchedDelEntry req.coapFd n.schedEntry }
    else .ok m

/-! ## Timeouts -/

def requestAlarmCb (alarmId : ℤ) (m : RequestHeap α κ σ) : Except Fault (RequestHeap α κ σ) := do
  match ← m.requests.find .badAccess .diverges fun req => req.alarmId = alarmId with
  | none => .ok m
  | some (p, pp) => do
    let node ← m.requests.read .badAccess p
    let m ← perform (prog.coapCb node.value.callback node.value.uri .timeout []) m
    m.deleteRequest p pp fun req n => { n with schedEntry := atlasSchedDelEntry req.coapFd n.schedEntry }

/-- The callback of an alarm. -/
def runAlarm : AlarmCb α → ℤ → RequestHeap α κ σ → Except Fault (RequestHeap α κ σ)
  | .requestAlarmCb, alarmId, m => requestAlarmCb prog alarmId m
  | .app cb, alarmId, m => perform (prog.alarmCb cb alarmId) m

/-- `atlas_alarm_trigger`. The alarms are a list. -/
def fire (fd : ℤ) (m : RequestHeap α κ σ) : Except Fault (RequestHeap α κ σ) :=
  match m.world.net.alarmEntry.find? fun p => p.alarmId = fd with
  | none => .ok m
  | some p => do
    let m ← runAlarm prog p.callback p.alarmId m
    .ok (if p.runOnce then m.mapWorld (World.mapNet (atlasAlarmCancel p.alarmId)) else m)

end RequestHeap

/-! ## The client -/

/-- The events of the modules that do not walk the list. -/
def Event.outside : Event → Bool
  | .pdu _ _ _ => false
  | .ioDone _ => false
  | .alarm _ => false
  | _ => true

/-- What the main loop runs: a callback of the CoAP client, that of an alarm, or another one. -/
inductive Turn
  | response (fd : ℤ) (pdus : List CoapPdu)
  | alarm (fd : ℤ)
  | other (e : { e : Event // e.outside })

variable (cfg : Cfg)

def Client.turn (w : Client) : Turn → Client
  | .response fd pdus => coapClientSchedCallback (client cfg) fd pdus w
  | .alarm fd => (client cfg).fire fd w
  | .other e => w.step cfg e.1

/-- The same on the nodes. -/
def RequestHeap.turn (m : RequestHeap AppAlarm AppCb App) : Turn → Except Fault (RequestHeap AppAlarm AppCb App)
  | .response fd pdus => m.coapClientSchedCallback (client cfg) fd pdus
  | .alarm fd => m.fire (client cfg) fd
  | .other e => m.perform fun w => Client.step cfg w e.1

end AtlasClient
