import AtlasClient.Spec.DataPlane
import Mathlib.Logic.Function.Basic

/-!
# The data plane and its connector

The two parties of a reputation request: the library, which writes a question and waits for
one message, and the connector, inside the client, which answers when the gateway does. They
are joined by connections that keep messages and their order. A connection that the library
has closed can still be read, and is, until the connector accepts the next one.

Messages carry no number, so the numbers here are for the reader: a question has that of the
call that wrote it, and a reply has that of the question whose request was being completed
when it was written.
-/

namespace AtlasClient

structure Link where
  client : Client
  /-- the number of calls of `atlas_reputation_request` -/
  calls : ℕ
  /-- the call that waits in `read` -/
  waiting : Option ℕ
  /-- the number of connections the library has opened; it holds the last one -/
  opened : ℕ
  /-- the number of connections the connector has accepted -/
  taken : ℕ
  /-- the connector holds the last one it has accepted -/
  holds : Bool
  /-- the messages of each connection that the connector has not read -/
  questions : ℕ → List (ℕ × Bytes)
  /-- the messages that the library has not read -/
  replies : List (ℕ × Bytes)
  /-- the question that a CoAP context was last created for -/
  asked : ℕ → ℕ

/-- The library has connected, and the connector has not accepted yet. -/
def Link.init (os : Os) : Link := ⟨Client.init os, 0, none, 1, 0, false, fun _ => [], [], fun _ => 0⟩

/-- Both hold the same connection. -/
def Link.Joined (s : Link) : Prop := s.holds = true ∧ s.taken = s.opened

instance (s : Link) : Decidable s.Joined := by unfold Link.Joined; infer_instance

inductive LinkEvent
  /-- `atlas_reputation_request` writes its message -/
  | request (sensorType : UInt16)
  /-- its `read` returns a message -/
  | readReply
  /-- its `read` times out or fails -/
  | readFails
  /-- the library closes its socket and connects again -/
  | reconnect
  /-- `atlas_data_plane_accept_cb` -/
  | accept (accepted : Option Fresh)
  /-- `atlas_data_plane_read_cb` -/
  | readQuestion
  /-- anything else in the client: responses of the gateway, timeouts -/
  | client (e : Event)

/-- The event is one of the data plane socket. -/
def Event.ofSocket : Event → Bool
  | .dataPlaneRead _ _ => true
  | .dataPlaneAccept _ => true
  | _ => false

/-- The request whose callback an event invokes, with the status and the payload. -/
def Client.completed (cfg : Cfg) (w : Client) : Event → Option (CoapReq AppCb × AtlasCoapResponse × Bytes)
  | .pdu ctx session received =>
    match w.net.reqEntry.find? (CoapReq.at ctx session) with
    | none => none
    | some ent => if validateToken cfg.endian received ent.token then some (ent, received.response) else none
  | .alarm fd =>
    match w.net.alarmEntry.find? fun p => p.alarmId = fd with
    | none => none
    | some a =>
      match a.callback with
      | .requestAlarmCb => (w.net.reqEntry.find? fun p => p.alarmId = fd).map fun p => (p, .timeout, [])
      | .app _ => none
  | _ => none

/-- The contexts created between two states are those of the question `k`. -/
def askedSince (k : ℕ) (w w' : Client) (asked : ℕ → ℕ) : ℕ → ℕ :=
  (w'.net.reqEntry.drop w.net.reqEntry.length).foldl (fun asked r => Function.update asked r.ctx k) asked

/-- The messages for the library when the connector has come to `w`, on behalf of the question `k`.
What is written to a connection that the library has closed is lost. -/
def Link.deliver (s : Link) (k : ℕ) (w : Client) : List (ℕ × Bytes) :=
  if s.Joined then s.replies ++ (messagesSince s.client w).map fun m => (k, m) else s.replies

def Link.step (cfg : Cfg) (s : Link) : LinkEvent → Link
  | .request sensorType =>
    match s.waiting, reputationRequestMessage cfg.endian sensorType with
    | none, .ok m =>
      { s with
        calls := s.calls + 1
        waiting := some (s.calls + 1)
        questions := Function.update s.questions s.opened (s.questions s.opened ++ [(s.calls + 1, m)]) }
    | _, _ => s
  | .readReply =>
    match s.waiting, s.replies with
    | some _, _ :: rest => { s with waiting := none, replies := rest }
    | _, _ => s
  | .readFails => { s with waiting := none }
  | .reconnect => { s with opened := s.opened + 1, replies := [] }
  | .accept accepted =>
    -- `accept` is called when a connection is waiting for it
    if s.taken = s.opened then s
    else
      { s with
        client := atlasDataPlaneAcceptCb accepted s.client
        holds := accepted.isSome
        taken := if accepted.isSome then s.taken + 1 else s.taken }
  | .readQuestion =>
    match s.holds, s.questions s.taken with
    | true, (k, m) :: rest =>
      let w := orStay s.client (atlasDataPlaneReadCb cfg s.client.app.conn.connectedSocket (some m) s.client)
      { s with
        client := w
        questions := Function.update s.questions s.taken rest
        replies := s.deliver k w
        asked := askedSince k s.client w s.asked }
    | _, _ => s
  | .client e =>
    if e.ofSocket then s
    else
      let w := s.client.step cfg e
      { s with
        client := w
        replies := s.deliver ((s.client.completed cfg e).elim 0 fun c => s.asked c.1.ctx) w }

end AtlasClient
