import AtlasClient.Spec.DataPlane

/-!
# The library's socket

`data_plane/atlas_client.c`: connecting to the client, writing with and without retries, and the calls
of the library's interface that use the socket. What the system answers is a parameter (`SocketOs`).
One thread calls the library.

* `Library.writeToSocketRetry`, `Library.socketConnect`, `Library.sendRegistrationCommand`: the mutual
  recursion of the reconnection, on fuel.
* `Library.sendIdentityCommand`, `Library.atlasInit`, `Library.atlasReputationRequest`: what waits for a reply.
* `Library.atlasReputationFeedback`: the loop over an array of feedback.
-/

namespace AtlasClient

open Loop

/-! ## What the system answers -/

/-- What `write` does with a message. -/
inductive WriteResult
  | complete
  /-- at most so many bytes of it are written, and never all -/
  | short (n : ℕ)
  | failed
  deriving DecidableEq, Repr

/-- The number of bytes that are written. -/
def WriteResult.count (len : ℕ) : WriteResult → ℕ
  | .complete => len
  | .short n => min n (len - 1)
  | .failed => 0

/-- What `write` returns. -/
def WriteResult.bytes (len : ℕ) : WriteResult → ℤ
  | .failed => -1
  | r => r.count len

/-- What `read` puts into a buffer of 2048 bytes; no bytes are the end of the file. -/
abbrev Reply := { bs : Bytes // bs.length ≤ 2048 }

/-- The answers still to come; the read of `none` is an error. -/
structure SocketOs where
  sockets : Stream' Bool
  connects : Stream' Bool
  writes : Stream' WriteResult
  reads : Stream' (Option Reply)

/-! ## The state -/

/-- On whose behalf a message is written: that of the caller, or to register a new connection. -/
inductive Sender
  | caller
  | registration
  deriving DecidableEq, Repr

/-- Bytes of a message that have gone out on a connection. -/
structure Delivery where
  conn : ℕ
  sender : Sender
  message : Bytes
  deriving DecidableEq, Repr

/-- `fd` is a connection, `none` when it is -1; connections are numbered in the order in which they are
opened. -/
structure Library where
  fd : Option ℕ
  opened : ℕ
  os : SocketOs
  written : List Delivery
  client : ClientInfo

namespace Library

/-- A write to a descriptor of -1 fails. -/
def writeToSocket (sender : Sender) (cmdBuf : Bytes) (s : Library) : ℤ × Library :=
  match s.fd with
  | none => (-1, s)
  | some conn =>
    let result := s.os.writes.head
    (result.bytes cmdBuf.length,
      { s with
        os := { s.os with writes := s.os.writes.tail }
        written :=
          if result = .failed then s.written
          else s.written ++ [⟨conn, sender, cmdBuf.take (result.count cmdBuf.length)⟩] })

/-! ## Reconnecting -/

/-- `close` and `socket`. -/
def openSocket (s : Library) : Bool × Library :=
  let os := { s.os with sockets := s.os.sockets.tail }
  if s.os.sockets.head then (true, { s with fd := some s.opened, opened := s.opened + 1, os := os })
  else (false, { s with fd := none, os := os })

/-- One round of the loop around `connect`. -/
def connectBody (s : Library) : Except Fault (Library ⊕ Library) :=
  let s' := { s with os := { s.os with connects := s.os.connects.tail } }
  .ok (if s.os.connects.head then .inr s' else .inl s')

section functions

variable (e : Endian)

mutual

/-- The write is repeated until it is complete, each time after a new connection. -/
def writeToSocketRetry : ℕ → Sender → Bytes → Library → Except Fault Library
  | 0, _, _, _ => .error .diverges
  | n + 1, sender, cmdBuf, s =>
    let (bytes, s) := s.writeToSocket sender cmdBuf
    if bytes = cmdBuf.length then .ok s
    else do
      let s ← socketConnect n s
      writeToSocketRetry n sender cmdBuf s

def socketConnect : ℕ → Library → Except Fault Library
  | 0, _ => .error .diverges
  | n + 1, s =>
    match s.openSocket with
    | (false, s) => .ok s
    | (true, s) => do
      let s ← loop .diverges connectBody n s
      sendRegistrationCommand n s

def sendRegistrationCommand : ℕ → Library → Except Fault Library
  | 0, _ => .error .diverges
  | n + 1, s => do
    let cmdBufOuter ← AtlasClient.sendRegistrationCommand e s.client
    writeToSocketRetry n .registration cmdBufOuter s

end

/-! ## Replies -/

/-- A read that delivers no bytes is an error, too. -/
def readSocket (s : Library) : Option Bytes × Library :=
  match s.fd with
  | none => (none, s)
  | some _ =>
    let s' := { s with os := { s.os with reads := s.os.reads.tail } }
    match s.os.reads.head with
    | none => (none, s')
    | some reply => (if reply.1 = [] then none else some reply.1, s')

/-- The copy of a value, in a block that is zeroed and one byte longer. -/
def copyValue (cmd : AtlasCmd) : Except Fault Bytes := do
  let value ← readAt cmd.value 0 cmd.length.toNat
  .ok (value ++ [0])

def identityReplyCmd (cmd : AtlasCmd) (identity : Option Bytes) : Except Fault (Option Bytes ⊕ Option Bytes) :=
  if cmd.type = AtlasCmdType.dataPlaneIdentity then do
    let copy ← copyValue cmd
    .ok (.inr (some copy))
  else .ok (.inl identity)

/-- What becomes of a reply: the status, and what `*identity` points to. -/
def identityReply (identity : Option Bytes) : Option Bytes → Except Fault (AtlasStatus × Option Bytes)
  | none => .ok (.socketError, identity)
  | some buf => do
    let (status, cmdBatch) ← atlasCmdBatchSetRaw e atlasCmdBatchNew buf (UInt16.ofNat buf.length)
    if status ≠ .ok then .ok (status, identity)
    else
      let (_, identity) ← cmdLoop e identityReplyCmd cmdBatch none
      .ok (status, identity)

def sendIdentityCommand (n : ℕ) (identity : Option Bytes) (s : Library) :
    Except Fault (AtlasStatus × Option Bytes × Library) := do
  let cmdBuf ← cmdBatchBytes e [(AtlasCmdType.dataPlaneGetIdentity, 0, [])]
  let s ← writeToSocketRetry e n .caller cmdBuf s
  let (reply, s) := s.readSocket
  let (status, identity) ← identityReply e identity reply
  .ok (status, identity, s)

/-- The out-parameter is what it points to, `none` when it is `NULL`. -/
def atlasInit (n : ℕ) (qos ppm packMaxlen : UInt16) (identity : Option (Option Bytes)) (s : Library) :
    Except Fault (AtlasStatus × Option (Option Bytes) × Library) :=
  match identity with
  | none => .ok (.invalidInput, none, s)
  | some identity => do
    let s ← socketConnect e n { s with client := ⟨qos, ppm, packMaxlen⟩ }
    let (status, identity, s) ← sendIdentityCommand e n identity s
    .ok (status, some identity, s)

def reputationReplyCmd (cmd : AtlasCmd) (r : AtlasStatus × Option Bytes) :
    Except Fault ((AtlasStatus × Option Bytes) ⊕ (AtlasStatus × Option Bytes)) :=
  if cmd.type = AtlasCmdType.dataPlaneFeatureReputation then do
    let copy ← copyValue cmd
    .ok (.inr (r.1, some copy))
  else if cmd.type = AtlasCmdType.dataPlaneFeatureError then .ok (.inr (.generalErr, r.2))
  else .ok (.inl r)

def reputationReply (identity : Option Bytes) : Option Bytes → Except Fault (AtlasStatus × Option Bytes)
  | none => .ok (.socketError, identity)
  | some buf => do
    let (status, cmdBatch) ← atlasCmdBatchSetRaw e atlasCmdBatchNew buf (UInt16.ofNat buf.length)
    if status ≠ .ok then .ok (status, identity)
    else
      let (_, r) ← cmdLoop e reputationReplyCmd cmdBatch (status, identity)
      .ok r

def atlasReputationRequest (sensorType : UInt16) (identity : Option (Option Bytes)) (s : Library) :
    Except Fault (AtlasStatus × Option (Option Bytes) × Library) :=
  match identity with
  | none => .ok (.invalidInput, none, s)
  | some identity => do
    let cmdBuf ← reputationRequestMessage e sensorType
    let (bytes, s) := s.writeToSocket .caller cmdBuf
    if bytes ≠ cmdBuf.length then .ok (.socketError, some identity, s)
    else
      let (reply, s) := s.readSocket
      let (status, identity) ← reputationReply e identity reply
      .ok (status, some identity, s)

/-! ## Feedback -/

def sendFeedbackCommand (feedback : AtlasFeedback) (s : Library) : Except Fault (AtlasStatus × Library) := do
  let cmdBufOuter ← AtlasClient.sendFeedbackCommand e feedback
  let (bytes, s) := s.writeToSocket .caller cmdBufOuter
  .ok (if bytes ≠ cmdBufOuter.length then .generalErr else .ok, s)

/-- One round of the loop: validate an entry and send it. The status of the sending is not used; `i` is
an `int`. -/
def feedbackBody (feedback : List AtlasFeedback) :
    ℤ × Library → Except Fault ((ℤ × Library) ⊕ (AtlasStatus × Library))
  | (i, s) =>
    match feedback[i.toNat]? with
    | none => .ok (.inr (.ok, s))
    | some entry =>
      if 100 < entry.sensorScore then .ok (.inr (.invalidInput, s))
      else if 100 < entry.timeScore then .ok (.inr (.invalidInput, s))
      -- the identity is an array and never `NULL`
      else do
        let (_, s) ← s.sendFeedbackCommand e entry
        let i ← addInt i 1
        .ok (.inl (i, s))

def atlasReputationFeedback (feedback : List AtlasFeedback) (s : Library) : Except Fault (AtlasStatus × Library) :=
  if feedback = [] then .ok (.invalidInput, s)
  else loop .diverges (feedbackBody e feedback) (feedback.length + 1) (0, s)

end functions

end Library

end AtlasClient
