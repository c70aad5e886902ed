import AtlasClient.Spec.Bytes
import AtlasClient.Spec.Scheduler
import AtlasClient.Spec.Status
import Mathlib.Data.Stream.Defs

/-!
# The shared state

The lists that `alarm/`, `scheduler/` and `coap/atlas_coap_client.c` keep, and the answers
of the system and of libcoap. The answers still to come are streams (`Os`), so that a
statement about every stream is a statement about every outcome of every call.

* `Net`: the lists; `World`: the lists with the state of the other modules.
* `Program`: what the callbacks of the other modules do.
-/

namespace AtlasClient

/-! ## What the system answers -/

/-- The choice of a number that is not in use: a descriptor of the kernel, the address of a new
object. A number that is in use no longer may come again. -/
structure Fresh where
  pick : List ℕ → ℕ
  pick_notMem : ∀ used, pick used ∉ used

theorem notMem_max_succ (used : List ℕ) : used.foldr max 0 + 1 ∉ used := by
  have hle : ∀ x ∈ used, x ≤ used.foldr max 0 := by
    induction used with
    | nil => simp
    | cons a used ih =>
      intro x hx
      rcases List.mem_cons.1 hx with rfl | hx
      · exact Nat.le_max_left _ _
      · exact Nat.le_trans (ih x hx) (Nat.le_max_right _ _)
  intro h
  have := hle _ h
  omega

instance : Inhabited Fresh := ⟨⟨fun used => used.foldr max 0 + 1, notMem_max_succ⟩⟩

/-- A kernel that gives out numbers above `n`. -/
def Fresh.above (n : ℕ) : Fresh :=
  ⟨fun used => (n :: used).foldr max 0 + 1, fun used h => notMem_max_succ (n :: used) (List.mem_cons_of_mem n h)⟩

/-- What one call of `atlas_coap_client_request` is answered: by the parser of the URI, the
resolver, and libcoap's constructors. -/
structure CoapAnswer where
  splitUri : Bool
  resolved : Bool
  ctx : Option Fresh
  session : Option Fresh
  pdu : Bool
  tokenAdded : Bool
  coapFd : Option Fresh

/-- Nothing fails. -/
def CoapAnswer.Accepts (a : CoapAnswer) : Prop :=
  a.splitUri = true ∧ a.resolved = true ∧ a.ctx.isSome ∧ a.session.isSome ∧ a.pdu = true ∧
    a.tokenAdded = true ∧ a.coapFd.isSome

instance (a : CoapAnswer) : Decidable a.Accepts := by unfold CoapAnswer.Accepts; infer_instance

instance : Inhabited CoapAnswer := ⟨⟨true, true, some default, some default, true, true, some default⟩⟩

/-- Local address and port as a string: at most `ATLAS_IP_MAX_LEN - 1`, a colon, and
`ATLAS_PORT_MAX_LEN - 1` characters. -/
abbrev IpPort := { s : Bytes // s.length ≤ 21 }

instance : Inhabited IpPort := ⟨⟨[], by simp⟩⟩

/-- The answers still to come. -/
structure Os where
  /-- `timerfd_create` and `timerfd_settime`; `none` is a failure of either -/
  timers : Stream' (Option Fresh)
  requests : Stream' CoapAnswer
  /-- what the payload callback with a given name reports, with or without thresholds -/
  payloads : Stream' (ℕ → Bool → Bytes)
  ipPorts : Stream' IpPort

/-- An answer that never fails. -/
def Os.calm : Os := ⟨Stream'.const (some default), Stream'.const default, Stream'.const fun _ _ => [],
  Stream'.const default⟩

/-! ## The lists -/

/-- An alarm carries the timeout callback of the CoAP client or a callback of another module. -/
inductive AlarmCb (α : Type)
  | requestAlarmCb
  | app (cb : α)
  deriving DecidableEq, Repr

/-- `ms` is what the timer of the alarm is set to. -/
structure AlarmEntry (α : Type) where
  alarmId : ℤ
  callback : AlarmCb α
  runOnce : Bool
  ms : ℕ
  deriving DecidableEq, Repr

/-- The callbacks in the scheduler list. -/
inductive SchedCb
  | atlasAlarmTrigger
  | coapClientSchedCallback
  | atlasDataPlaneAcceptCb
  | atlasDataPlaneReadCb
  deriving DecidableEq, Repr

/-- A context and a session are named by their addresses. -/
structure CoapReq (κ : Type) where
  coapFd : ℤ
  alarmId : ℤ
  ctx : ℕ
  session : ℕ
  uri : String
  token : UInt32
  callback : κ
  dirty : Bool
  deriving DecidableEq, Repr

structure Net (α κ : Type) where
  alarmEntry : List (AlarmEntry α)
  schedEntry : List (SchedEntry SchedCb)
  reqEntry : List (CoapReq κ)
  /-- the static variable of `get_new_token` -/
  token : UInt32
  os : Os

variable {α κ σ : Type}

def Net.init (os : Os) : Net α κ := ⟨[], [], [], 0, os⟩

/-- The descriptors held by alarms and requests. -/
def Net.held (n : Net α κ) : List ℤ :=
  n.alarmEntry.map AlarmEntry.alarmId ++ n.reqEntry.map CoapReq.coapFd

/-- The descriptor number that the kernel picks. Sockets are not among the descriptors `held`, so the
runs are those of a kernel that may also pick the number of a socket. -/
def Net.newFd (n : Net α κ) (fresh : Fresh) : ℤ := fresh.pick (n.held.map Int.toNat)

/-! ## The whole -/

/-- A call of `atlas_coap_client_request` and the status it returned. -/
structure CoapCall (κ : Type) where
  uri : String
  method : AtlasCoapMethod
  reqPayload : Bytes
  timeout : ℕ
  callback : κ
  status : AtlasStatus
  deriving DecidableEq, Repr

/-- The lists, the calls made so far, and the state of the other modules. -/
structure World (α κ σ : Type) where
  net : Net α κ
  calls : List (CoapCall κ)
  app : σ

/-- What the callbacks of the other modules do. -/
structure Program (α κ σ : Type) where
  endian : Endian
  alarmCb : α → ℤ → World α κ σ → World α κ σ
  coapCb : κ → String → AtlasCoapResponse → Bytes → World α κ σ → World α κ σ

def World.mapNet (f : Net α κ → Net α κ) (w : World α κ σ) : World α κ σ := { w with net := f w.net }

def World.mapApp (f : σ → σ) (w : World α κ σ) : World α κ σ := { w with app := f w.app }

end AtlasClient
