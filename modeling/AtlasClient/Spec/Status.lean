import Mathlib.Data.Nat.Notation

/-!
# Status codes

`utils/atlas_status.h`, `coap/atlas_coap_response.h` and `coap/atlas_coap_method.h`.
-/

namespace AtlasClient

inductive AtlasStatus
  | ok
  | generalErr
  | invalidHostname
  | invalidPort
  | coapSrvDtlsNotSupported
  | coapInvalidUri
  | invalidCallback
  | invalidDtlsIdentity
  | invalidDtlsPsk
  | identityFileError
  | pskFileError
  | invalidInput
  | corruptedCommand
  | socketError
  | corruptedCommandExecutionPayload
  | deferredCommandExecution
  deriving DecidableEq, Repr

inductive AtlasCoapResponse
  | ok
  | notFound
  | notAcceptableHere
  | timeout
  | reset
  | unknown
  deriving DecidableEq, Repr

inductive AtlasCoapMethod
  | get
  | post
  | put
  | delete
  deriving DecidableEq, Repr

end AtlasClient
