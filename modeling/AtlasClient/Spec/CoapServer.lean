import AtlasClient.Lib.Memory
import AtlasClient.Spec.Bytes
import AtlasClient.Spec.Status

/-!
# The CoAP server's listeners

The lists of `coap/atlas_coap_server.c`, one for each method, with the addresses of their nodes. What the
server asks of the CoAP library is recorded.

* `atlasCoapServerAddResource`: a listener behind the last one.
* `atlasCoapServerDelResource`: the walk that unlinks and releases the listeners of a path.
-/

namespace AtlasClient

open LinkedList Loop

variable {Cb : Type}

/-- A listener, but for the pointer to the next one. Its path is a block of its own, which is allocated and
released together with it. -/
structure CoapServerListener (Cb : Type) where
  resource : ℕ
  callback : Cb
  uriPath : Bytes
  deriving DecidableEq, Repr

/-- The calls that change the context of the library. -/
inductive ContextCall
  | registerHandler (resource : ℕ) (method : AtlasCoapMethod)
  | addResource (resource : ℕ)
  | deleteResource (resource : ℕ)
  deriving DecidableEq, Repr

/-- The memory of the server, and the pointers to the first listeners of the methods. -/
structure CoapServer (Cb : Type) extends Memory (CoapServerListener Cb) where
  serverListeners : AtlasCoapMethod → Option ℕ
  calls : List ContextCall

namespace CoapServer

def init : CoapServer Cb := ⟨.init, fun _ => none, []⟩

def setHead (method : AtlasCoapMethod) (p : Option ℕ) (s : CoapServer Cb) : CoapServer Cb :=
  { s with serverListeners := Function.update s.serverListeners method p }

def call (c : ContextCall) (s : CoapServer Cb) : CoapServer Cb := { s with calls := s.calls ++ [c] }

/-! ## Adding a resource -/

/-- `resource` is what `coap_resource_init` returns. -/
def atlasCoapServerAddResource (uriPath : Option Bytes) (method : AtlasCoapMethod) (cb : Option Cb)
    (resource : Option ℕ) (s : CoapServer Cb) : Except Fault (AtlasStatus × CoapServer Cb) :=
  match uriPath, cb, resource with
  | none, _, _ => .ok (.coapInvalidUri, s)
  | some _, none, _ => .ok (.invalidCallback, s)
  | some _, some _, none => .ok (.generalErr, s)
  | some uriPath, some cb, some resource => do
    let s := (s.call (.registerHandler resource method)).call (.addResource resource)
    let (head, memory) ← s.append .badAccess .diverges ⟨resource, cb, uriPath⟩ (s.serverListeners method)
    .ok (.ok, { s with toMemory := memory }.setHead method head)

/-! ## Deleting a resource -/

/-- What is done with a listener of the path; `pp` is `none` as long as it is not initialised. -/
def remove (method : AtlasCoapMethod) (p : ℕ) (pp : Option ℕ) (node : Node (CoapServerListener Cb))
    (s : CoapServer Cb) : Except Fault (CoapServer Cb) := do
  let (head, memory) ← s.unlink .badAccess p pp (s.serverListeners method)
  let s := ({ s with toMemory := memory }.setHead method head).call (.deleteResource node.value.resource)
  let memory ← s.free .badAccess p
  .ok { s with toMemory := memory }

/-- One round of the loop. The increment reads `p->next`, whether `p` has been released or not. -/
def delBody (uriPath : Bytes) (method : AtlasCoapMethod) : Option ℕ × Option ℕ × CoapServer Cb →
    Except Fault ((Option ℕ × Option ℕ × CoapServer Cb) ⊕ CoapServer Cb)
  | (none, _, s) => .ok (.inr s)
  | (some p, pp, s) => do
    let node ← s.read .badAccess p
    let s ← if node.value.uriPath = uriPath then s.remove method p pp node else .ok s
    let node ← s.read .badAccess p
    .ok (.inl (node.next, some p, s))

/-- A list has at most as many nodes as there are addresses, which bounds the loop. -/
def atlasCoapServerDelResource (uriPath : Bytes) (method : AtlasCoapMethod) (s : CoapServer Cb) :
    Except Fault (CoapServer Cb) :=
  loop .diverges (delBody uriPath method) (s.brk + 1) (s.serverListeners method, none, s)

end CoapServer

end AtlasClient
