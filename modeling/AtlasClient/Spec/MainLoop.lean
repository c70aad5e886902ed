import AtlasClient.Lib.NodeWalk
import AtlasClient.Lib.Run
import AtlasClient.Spec.Endpoints
import Mathlib.Data.Finset.Card

/-!
# The device in its main loop

`atlas_sched_loop` with the callbacks of the device, whose requests and alarms are those of `Device`, without the ones
of `commands_execute/`. `Device.step` takes the events in any order; here they come as the loop runs the callbacks.

* `SchedCb.events`: what a callback is to the device.
* `MainPass.visit`: one entry of the loop that runs the callbacks.
* `MainLoop.round`: one round of `while (1)`; `SelectArgs` is what it asks of `select`.
-/

namespace AtlasClient

open Machine NodeWalk

/-- What a callback is answered: by the system, by `coap_io_process` with the PDUs of a response, by `read` and by
`accept`. -/
structure Answers where
  sys : ℕ → SystemAnswer
  pdus : List ((ℕ → SystemAnswer) × CoapPdu)
  received : Option Bytes
  accepted : Option Fresh

/-- A callback of an entry with the descriptor `fd`, as events of the device. -/
def SchedCb.events (d : Device) (fd : ℤ) (a : Answers) : SchedCb → List ((ℕ → SystemAnswer) × Device.Event)
  | .atlasAlarmTrigger => [(a.sys, .alarm fd)]
  | .coapClientSchedCallback =>
    match d.client.net.reqEntry.find? fun p => p.coapFd = fd with
    | none => []
    | some p => a.pdus.map (fun received => (received.1, .pdu p.ctx p.session received.2)) ++ [(a.sys, .ioDone fd)]
  | .atlasDataPlaneAcceptCb => [(a.sys, .dataPlaneAccept a.accepted)]
  | .atlasDataPlaneReadCb => [(a.sys, .dataPlaneRead fd a.received)]

/-- A request that `atlas_coap_server_sched_callback` lets libcoap hand over. -/
structure GatewayRequest where
  sys : ℕ → SystemAnswer
  resource : ℕ
  uriPath : Option Bytes
  reqPayload : Bytes

def GatewayRequest.event (r : GatewayRequest) : (ℕ → SystemAnswer) × Device.Event :=
  (r.sys, .put r.resource r.uriPath r.reqPayload)

/-- `answers` are those of the callbacks still to come, and `history` are the events so far. -/
structure MainLoop where
  device : Device
  answers : Stream' Answers
  history : List ((ℕ → SystemAnswer) × Device.Event)

/-- The list without the entry of the CoAP server. -/
def MainLoop.schedEntry (s : MainLoop) : List (SchedEntry SchedCb) := s.device.client.net.schedEntry

def Net.withSched {α κ : Type} (schedEntry : List (SchedEntry SchedCb)) (n : Net α κ) : Net α κ :=
  { n with schedEntry := schedEntry }

def Device.withSched (schedEntry : List (SchedEntry SchedCb)) (d : Device) : Device :=
  { d with client := d.client.mapNet (Net.withSched schedEntry) }

def MainLoop.withSched (schedEntry : List (SchedEntry SchedCb)) (s : MainLoop) : MainLoop :=
  { s with device := s.device.withSched schedEntry }

variable (cfg : Cfg) (long : LongType)

def MainLoop.perform (es : List ((ℕ → SystemAnswer) × Device.Event)) (s : MainLoop) : MainLoop :=
  { s with device := run (Device.step cfg long) s.device es, history := s.history ++ es }

/-! ## A pass -/

/-- What `select` reports: the ready descriptors of the list, and the requests for the server if its socket is
ready. The entry of the server is never deleted; `place` entries of the list are in front of it. -/
structure Ready where
  readfds : Finset ℤ
  requests : Option (ℕ × List GatewayRequest)

/-- The loop over the entries. -/
structure MainPass where
  loop : MainLoop
  ready : Ready

def MainPass.schedEntry (p : MainPass) : List (SchedEntry SchedCb) := p.loop.schedEntry

/-- The entry of the server, if it comes behind `i` entries. -/
def MainPass.serve (i : ℕ) (p : MainPass) : MainPass :=
  match p.ready.requests with
  | none => p
  | some (place, requests) =>
    if place = i then ⟨p.loop.perform cfg long (requests.map GatewayRequest.event),
      { p.ready with requests := none }⟩ else p

/-- The callback of an entry. `FD_CLR` comes after it. -/
def MainPass.call (ent : SchedEntry SchedCb) (p : MainPass) : MainPass :=
  if ent.dirty = false ∧ ent.fd ∈ p.ready.readfds then
    { loop := { p.loop.perform cfg long (ent.callback.events p.loop.device ent.fd p.loop.answers.head) with
        answers := p.loop.answers.tail }
      ready := { p.ready with readfds := p.ready.readfds.erase ent.fd } }
  else p

/-- One entry, and the one of the server if it comes next. -/
def MainPass.visit (i : ℕ) (ent : SchedEntry SchedCb) (p : MainPass) : MainPass :=
  (p.call cfg long ent).serve cfg long (i + 1)

/-! ## The loop -/

/-- The first and the second argument of `select`, without the socket of the server. -/
structure SelectArgs where
  nfds : ℤ
  readfds : Finset ℤ

def MainLoop.watch (s : MainLoop) : SelectArgs :=
  let sweep := schedSweep s.schedEntry
  ⟨sweep.maxFd + 1, sweep.readfds.toFinset⟩

/-- A round. `result` is `none` when what `select` returns is not positive. -/
def MainLoop.round (fuel : ℕ) (s : MainLoop) (result : Option Ready) : Except Fault (SelectArgs × MainLoop) :=
  let kept := s.withSched (schedSweep s.schedEntry).kept
  match result with
  | none => .ok (s.watch, kept)
  | some ready => do
    let p ← walk MainPass.schedEntry (MainPass.visit cfg long) .diverges fuel (MainPass.serve cfg long 0 ⟨kept, ready⟩)
    .ok (s.watch, p.loop)

/-- When `main` comes to the loop: the registration has been started, and the listening socket of the data plane is in
the list. The features, which do not matter to the first request, are installed in `d`. -/
def MainLoop.start (sys : ℕ → SystemAnswer) (answers : Stream' Answers) (listening : Fresh) (d : Device) : MainLoop :=
  let s := MainLoop.perform cfg long [(sys, .start)] ⟨d, answers, []⟩
  s.withSched (atlasSchedAddEntry (s.device.client.net.newFd listening) (some .atlasDataPlaneAcceptCb) s.schedEntry)

end AtlasClient
