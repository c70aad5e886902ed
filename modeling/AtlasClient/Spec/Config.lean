import AtlasClient.Spec.Strtol
import AtlasClient.Spec.Telemetry

/-!
# The configuration

`utils/atlas_config.c`, and `parse_options` of `atlas_main.c`. A string is the list of its bytes without
the final NUL, and `none` is `NULL`.

* `Stored`: the copy of a string, with the size of its block.
* `getopt`: what the calls of `getopt` with `":h:p:i:l:"` return.
* `parseOptions`: the configuration that a command line gives.
* `atlasCfgCoapGetUri`: the URI of a path.
-/

namespace AtlasClient

/-- The bytes of a string literal. -/
def ascii (s : String) : Bytes := s.toByteArray.data.toList

theorem ascii_append (s t : String) : ascii (s ++ t) = ascii s ++ ascii t := by
  simp [ascii]

/-- Base 10, without an end pointer; the `long` is converted to 32 bits. -/
def atoi (long : LongType) (s : Bytes) : ℤ := (strtol long s).1.bmod (2 ^ 32)

/-! ## The stored strings -/

/-- A string on the heap, and the number of bytes that have been allocated for it. Nothing checks that
`strcpy` stays inside the block. -/
structure Stored where
  allocated : ℕ
  string : Bytes
  deriving DecidableEq, Repr

/-- `malloc(strlen(s))` and `strcpy`. -/
def Stored.copy (s : Bytes) : Stored := ⟨s.length, s⟩

/-- The static variables. -/
structure Config where
  gwHostname : Option Stored
  gwPort : Option Stored
  localIface : Option Stored
  localPort : UInt16
  deriving DecidableEq, Repr

section setters

variable (long : LongType)

def atlasCfgSetHostname (hostname : Option Bytes) (cfg : Config) : AtlasStatus × Config :=
  match hostname with
  | none => (.invalidInput, cfg)
  | some hostname => (.ok, { cfg with gwHostname := some (.copy hostname) })

def atlasCfgSetPort (port : Option Bytes) (cfg : Config) : AtlasStatus × Config :=
  match port with
  | none => (.invalidInput, cfg)
  | some port =>
    let portVal := atoi long port
    if portVal ≤ 0 ∨ 65535 < portVal then (.invalidInput, cfg)
    else (.ok, { cfg with gwPort := some (.copy port) })

def atlasCfgSetLocalIface (iface : Option Bytes) (cfg : Config) : AtlasStatus × Config :=
  match iface with
  | none => (.invalidInput, cfg)
  | some iface => (.ok, { cfg with localIface := some (.copy iface) })

def atlasCfgSetLocalPort (port : Option Bytes) (cfg : Config) : AtlasStatus × Config :=
  match port with
  | none => (.invalidInput, cfg)
  | some port =>
    let portVal := atoi long port
    if portVal ≤ 0 ∨ 65535 < portVal then (.invalidInput, cfg)
    else (.ok, { cfg with localPort := UInt16.ofInt portVal })

end setters

/-! ## The command line -/

/-- The options of the command line. -/
inductive Opt
  | h
  | p
  | i
  | l
  deriving DecidableEq, Repr

def Opt.ofByte : UInt8 → Option Opt
  | 104 => some .h
  | 112 => some .p
  | 105 => some .i
  | 108 => some .l
  | _ => none

/-- What the calls of `getopt` return until it is at the end: an option and its argument, or `none` for
an option that is not known or lacks its argument; the caller exits then. Arguments that are
no options are skipped, as the GNU library does (`permute`), or end the options. -/
def getopt (permute : Bool) : List Bytes → List (Option (Opt × Bytes))
  | [] => []
  | (45 :: 45 :: []) :: _ => []
  | (45 :: c :: attached) :: args =>
    match Opt.ofByte c with
    | none => [none]
    | some opt =>
      if attached ≠ [] then some (opt, attached) :: getopt permute args
      else
        match args with
        | [] => [none]
        | optarg :: args => some (opt, optarg) :: getopt permute args
  | _ :: args => if permute then getopt permute args else []

/-- The variables of `parse_options`, and the configuration. -/
structure Options where
  cfg : Config
  hostnameOpt : Bool
  gwPortOpt : Bool
  ifaceOpt : Bool
  localPortOpt : Bool
  deriving DecidableEq, Repr

def Options.init : Options := ⟨⟨none, none, none, 0⟩, false, false, false, false⟩

/-- One round of the loop, `none` when the program exits. -/
def parseOption (long : LongType) (o : Options) : Option (Opt × Bytes) → Option Options
  | none => none
  | some (.h, optarg) =>
    if 128 < optarg.length then none
    else
      let (status, cfg) := atlasCfgSetHostname (some optarg) o.cfg
      if status ≠ .ok then none else some { o with cfg := cfg, hostnameOpt := true }
  | some (.p, optarg) =>
    let (status, cfg) := atlasCfgSetPort long (some optarg) o.cfg
    if status ≠ .ok then none else some { o with cfg := cfg, gwPortOpt := true }
  | some (.i, optarg) =>
    let (status, cfg) := atlasCfgSetLocalIface (some optarg) o.cfg
    if status ≠ .ok then none else some { o with cfg := cfg, ifaceOpt := true }
  | some (.l, optarg) =>
    let (status, cfg) := atlasCfgSetLocalPort long (some optarg) o.cfg
    if status ≠ .ok then none else some { o with cfg := cfg, localPortOpt := true }

/-- The arguments behind the name of the program; `none` when the program exits. -/
def parseOptions (long : LongType) (permute : Bool) (args : List Bytes) : Option Config := do
  let o ← (getopt permute args).foldlM (parseOption long) Options.init
  if !o.hostnameOpt || !o.gwPortOpt || !o.ifaceOpt || !o.localPortOpt then none else some o.cfg

/-! ## The URI -/

/-- What is written into the buffer, without the final NUL; `none` when nothing is. The size of the
buffer is not known here. -/
def atlasCfgCoapGetUri (path : Option Bytes) (cfg : Config) : Except Fault (Option Bytes) :=
  match path with
  | none => .ok none
  | some path =>
    match cfg.gwHostname, cfg.gwPort with
    | some hostname, some port =>
      .ok (some (ascii "coaps://" ++ hostname.string ++ ascii ":" ++ port.string ++ ascii "/" ++ path))
    | _, _ => .error .badAccess

/-- The paths the modules of the client pass, each with a buffer of 256 bytes. -/
def uriPaths : List String :=
  telemetryPaths ++ ["gateway/policy", "gateway/reputation/feature", "gateway/reputation/feedback",
    "gateway/keepalive", "gateway/register"]

end AtlasClient
