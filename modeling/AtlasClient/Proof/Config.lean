import AtlasClient.Spec.Config

/-!
# The configuration

What a command line that is accepted leaves in the static variables, and the URIs made of it.

* `parseOption_parsed`: one option; `AcceptedLine.of_parse`: the command line.
* `not_fits`: a stored string does not fit into its block.
* `wellFormed_never`: **an accepted configuration is never well formed**, and when its URIs are.
-/

namespace AtlasClient

variable {long : LongType} {permute : Bool} {args : List Bytes} {calls : List (Option (Opt × Bytes))}
  {call : Option (Opt × Bytes)} {opt : Opt} {o o' : Options} {cfg : Config} {host port iface : Bytes}

/-! ## The given options -/

/-- The argument of an option that a call of `getopt` returns. -/
def argOf (opt : Opt) : Option (Opt × Bytes) → Option Bytes
  | some (opt', optarg) => if opt' = opt then some optarg else none
  | none => none

/-- The argument the option was given last. -/
def given (opt : Opt) (calls : List (Option (Opt × Bytes))) : Option Bytes := (calls.filterMap (argOf opt)).getLast?

theorem given_append (opt opt' : Opt) (calls : List (Option (Opt × Bytes))) (optarg : Bytes) :
    given opt (calls ++ [some (opt', optarg)]) = if opt' = opt then some optarg else given opt calls := by
  unfold given
  rw [List.filterMap_append]
  by_cases h : opt' = opt
  · simp [argOf, h]
  · simp [argOf, h]

/-- A number that is accepted as a port. -/
def IsPort (long : LongType) (port : Bytes) : Prop := 0 < atoi long port ∧ atoi long port ≤ 65535

/-- The static variables hold what has been given last. -/
structure Parsed (long : LongType) (calls : List (Option (Opt × Bytes))) (o : Options) : Prop where
  hostname : o.cfg.gwHostname = (given .h calls).map .copy
  port : o.cfg.gwPort = (given .p calls).map .copy
  iface : o.cfg.localIface = (given .i calls).map .copy
  hostnameOpt : o.hostnameOpt = (given .h calls).isSome
  gwPortOpt : o.gwPortOpt = (given .p calls).isSome
  ifaceOpt : o.ifaceOpt = (given .i calls).isSome
  localPortOpt : o.localPortOpt = (given .l calls).isSome
  host_le : ∀ host ∈ given .h calls, host.length ≤ 128
  isPort : ∀ port ∈ given .p calls, IsPort long port

theorem Parsed.init (long : LongType) : Parsed long [] .init :=
  ⟨rfl, rfl, rfl, rfl, rfl, rfl, rfl, (fun _ h => by cases h), fun _ h => by cases h⟩

theorem isPort_iff {s : Bytes} : IsPort long s ↔ ¬ (atoi long s ≤ 0 ∨ 65535 < atoi long s) := by
  rw [IsPort, not_or, not_le, not_lt]

/-- **What one option does**; the program goes on. -/
theorem parseOption_cases (h : parseOption long o call = some o') :
    (∃ host, call = some (.h, host) ∧ host.length ≤ 128 ∧
      o' = { o with cfg := { o.cfg with gwHostname := some (.copy host) }, hostnameOpt := true }) ∨
    (∃ port, call = some (.p, port) ∧ IsPort long port ∧
      o' = { o with cfg := { o.cfg with gwPort := some (.copy port) }, gwPortOpt := true }) ∨
    (∃ iface, call = some (.i, iface) ∧
      o' = { o with cfg := { o.cfg with localIface := some (.copy iface) }, ifaceOpt := true }) ∨
    ∃ port, call = some (.l, port) ∧ IsPort long port ∧
      o' = { o with cfg := { o.cfg with localPort := UInt16.ofInt (atoi long port) }, localPortOpt := true } := by
  rcases call with _ | ⟨_ | _ | _ | _, optarg⟩
  · cases h
  · simp only [parseOption, atlasCfgSetHostname] at h
    split at h
    · cases h
    · cases h
      exact Or.inl ⟨optarg, rfl, by omega, rfl⟩
  · by_cases hport : atoi long optarg ≤ 0 ∨ 65535 < atoi long optarg
    · simp only [parseOption, atlasCfgSetPort, if_pos hport] at h
      cases h
    · simp only [parseOption, atlasCfgSetPort, if_neg hport] at h
      cases h
      exact Or.inr (Or.inl ⟨optarg, rfl, isPort_iff.2 hport, rfl⟩)
  · cases h
    exact Or.inr (Or.inr (Or.inl ⟨optarg, rfl, rfl⟩))
  · by_cases hport : atoi long optarg ≤ 0 ∨ 65535 < atoi long optarg
    · simp only [parseOption, atlasCfgSetLocalPort, if_pos hport] at h
      cases h
    · simp only [parseOption, atlasCfgSetLocalPort, if_neg hport] at h
      cases h
      exact Or.inr (Or.inr (Or.inr ⟨optarg, rfl, isPort_iff.2 hport, rfl⟩))

/-- **One option.** -/
theorem parseOption_parsed (hp : Parsed long calls o) (h : parseOption long o call = some o') :
    Parsed long (calls ++ [call]) o' := by
  obtain ⟨hhost, hport, hiface, hhostOpt, hportOpt, hifaceOpt, hlocalOpt, hle, hvalid⟩ := hp
  rcases parseOption_cases h with ⟨host, rfl, hle', rfl⟩ | ⟨port, rfl, hvalid', rfl⟩ | ⟨iface, rfl, rfl⟩ |
    ⟨port, rfl, -, rfl⟩
  all_goals
    constructor <;> simp only [given_append, reduceCtorEq, if_true, if_false, Option.map_some, Option.isSome_some,
      Option.mem_def, Option.some.injEq, forall_eq', *]
    all_goals assumption

/-- **The options**, by induction on the calls still to come. -/
theorem parseLoop_parsed : ∀ {rest : List (Option (Opt × Bytes))} {calls : List (Option (Opt × Bytes))} {o : Options},
    Parsed long calls o → rest.foldlM (parseOption long) o = some o' → Parsed long (calls ++ rest) o' := by
  intro rest
  induction rest with
  | nil =>
    intro calls o hp h
    cases h
    rwa [List.append_nil]
  | cons call rest ih =>
    intro calls o hp h
    rw [List.foldlM_cons] at h
    obtain ⟨o₁, hone, hrest⟩ := Option.bind_eq_some_iff.1 h
    have := ih (parseOption_parsed hp hone) hrest
    rwa [List.append_assoc] at this

/-- The command line is accepted: all four options are given, the host name is not too long, and the port
is one. -/
structure AcceptedLine (long : LongType) (calls : List (Option (Opt × Bytes))) (cfg : Config)
    (host port iface : Bytes) :
    Prop where
  given_host : given .h calls = some host
  given_port : given .p calls = some port
  given_iface : given .i calls = some iface
  host_le : host.length ≤ 128
  isPort : IsPort long port
  stored_host : cfg.gwHostname = some (.copy host)
  stored_port : cfg.gwPort = some (.copy port)
  stored_iface : cfg.localIface = some (.copy iface)

/-- **The command line.** -/
theorem AcceptedLine.of_parse (h : parseOptions long permute args = some cfg) :
    ∃ host port iface, AcceptedLine long (getopt permute args) cfg host port iface := by
  obtain ⟨o, hloop, h⟩ := Option.bind_eq_some_iff.1 h
  have hp := parseLoop_parsed (Parsed.init long) hloop
  rw [List.nil_append] at hp
  split at h
  · cases h
  · rename_i hopts
    cases h
    rw [hp.hostnameOpt, hp.gwPortOpt, hp.ifaceOpt] at hopts
    simp only [Bool.or_eq_true, Bool.not_eq_true', not_or, Bool.not_eq_false] at hopts
    obtain ⟨host, hhost⟩ := Option.isSome_iff_exists.1 hopts.1.1.1
    obtain ⟨port, hport⟩ := Option.isSome_iff_exists.1 hopts.1.1.2
    obtain ⟨iface, hiface⟩ := Option.isSome_iff_exists.1 hopts.1.2
    exact ⟨host, port, iface, hhost, hport, hiface, hp.host_le host hhost, hp.isPort port hport,
      by rw [hp.hostname, hhost]; rfl, by rw [hp.port, hport]; rfl, by rw [hp.iface, hiface]; rfl⟩

/-! ## The blocks -/

/-- The string and its NUL are inside the block. -/
def Stored.Fits (s : Stored) : Prop := s.string.length + 1 ≤ s.allocated

/-- **A copy does not fit**: its NUL is behind the block. -/
theorem not_fits (s : Bytes) : ¬ (Stored.copy s).Fits := Nat.not_succ_le_self s.length

/-- Every stored option string fits. -/
def StringsFit (cfg : Config) : Prop :=
  ∀ s ∈ [cfg.gwHostname, cfg.gwPort, cfg.localIface], ∀ stored ∈ s, stored.Fits

theorem AcceptedLine.not_stringsFit (h : AcceptedLine long calls cfg host port iface) : ¬ StringsFit cfg :=
  fun hfit => not_fits host (hfit _ List.mem_cons_self _ h.stored_host)

/-! ## The URIs -/

/-- The URI of a path: it has the given host name, the decimal digits of the port that has been checked, and the
path, and with its NUL it is not longer than the buffer. -/
def GoodUri (long : LongType) (calls : List (Option (Opt × Bytes))) (cfg : Config) (path : Bytes) : Prop :=
  ∃ host port n, given .h calls = some host ∧ given .p calls = some port ∧
    atlasCfgCoapGetUri (some path) cfg =
      .ok (some (ascii "coaps://" ++ host ++ ascii ":" ++ port ++ ascii "/" ++ path)) ∧
    (IsDecimal port n ∧ (n : ℤ) = atoi long port ∧ 1 ≤ n ∧ n ≤ 65535) ∧
    (ascii "coaps://" ++ host ++ ascii ":" ++ port ++ ascii "/" ++ path).length + 1 ≤ 256

/-- The property for a command line that is accepted. -/
structure WellFormed (long : LongType) (calls : List (Option (Opt × Bytes))) (cfg : Config) : Prop where
  uris : ∀ path ∈ uriPaths, GoodUri long calls cfg (ascii path)
  strings : StringsFit cfg

/-- What is built from strings on the heap is the URI of the client. -/
theorem coapGetUri_ascii (c : Cfg) (hhost : cfg.gwHostname = some (.copy (ascii c.gwHostname)))
    (hport : cfg.gwPort = some (.copy (ascii c.gwPort))) (path : String) :
    atlasCfgCoapGetUri (some (ascii path)) cfg = .ok (some (ascii (c.coapGetUri path))) := by
  simp only [atlasCfgCoapGetUri, hhost, hport, Stored.copy, Cfg.coapGetUri, ascii_append]

/-- A string of digits is the port that is meant. -/
theorem IsDecimal.atoi_eq {n : ℕ} (h : IsDecimal port n) (hn : n ≤ 65535) (long : LongType) : atoi long port = n := by
  have hmax := long.le_max
  have hmin := long.min_le
  rw [atoi, strtol, h.subjectValue, if_neg (by omega), if_neg (by omega)]
  exact Int.bmod_eq_of_le (by omega) (by omega)

theorem uri_length (host port path : Bytes) :
    (ascii "coaps://" ++ host ++ ascii ":" ++ port ++ ascii "/" ++ path).length =
      host.length + port.length + path.length + 10 := by
  have hscheme : (ascii "coaps://").length = 8 := by decide
  have hcolon : (ascii ":").length = 1 := by decide
  have hslash : (ascii "/").length = 1 := by decide
  simp only [List.length_append, hscheme, hcolon, hslash]
  omega

/-- The longest path. -/
theorem uriPaths_length : (∀ path ∈ uriPaths, (ascii path).length ≤ 36) ∧
    "gateway/telemetry/packets_per_minute" ∈ uriPaths ∧ (ascii "gateway/telemetry/packets_per_minute").length = 36 := by
  decide +kernel

/-- The port is a decimal number, and short enough together with the host name. -/
def ShortDecimal (host port : Bytes) : Prop := (∃ n ≤ 65535, IsDecimal port n) ∧ host.length + port.length ≤ 209

theorem AcceptedLine.goodUris_iff (h : AcceptedLine long calls cfg host port iface) :
    (∀ path ∈ uriPaths, GoodUri long calls cfg (ascii path)) ↔ ShortDecimal host port := by
  obtain ⟨hall, hmem, hlong⟩ := uriPaths_length
  constructor
  · intro huris
    obtain ⟨host', port', n, hhost, hport, -, ⟨hdec, -, -, hle⟩, hfit⟩ := huris _ hmem
    cases h.given_host.symm.trans hhost
    cases h.given_port.symm.trans hport
    rw [uri_length, hlong] at hfit
    exact ⟨⟨n, hle, hdec⟩, by omega⟩
  · rintro ⟨⟨n, hle, hdec⟩, hshort⟩ path hpath
    have hlen := hall path hpath
    have hatoi := hdec.atoi_eq hle long
    have hpos := h.isPort.1
    refine ⟨host, port, n, h.given_host, h.given_port, ?_, ⟨hdec, hatoi.symm, by omega, hle⟩, ?_⟩
    · simp only [atlasCfgCoapGetUri, h.stored_host, h.stored_port, Stored.copy]
    · rw [uri_length]
      omega

/-- **Accepted configurations are never well formed, and when their URIs are.** For every platform, every version of
`getopt` and every command line that is accepted: the property does not hold, since the copies of the
options are one byte longer than their blocks; the URIs of all paths are well formed and
fit into their buffers if and only if the given port is a decimal number up to 65535 and the given
host name and port are at most 209 characters long together. -/
theorem wellFormed_never (long : LongType) (permute : Bool) (args : List Bytes) (cfg : Config)
    (h : parseOptions long permute args = some cfg) :
    ¬ WellFormed long (getopt permute args) cfg ∧
    ((∀ path ∈ uriPaths, GoodUri long (getopt permute args) cfg (ascii path)) ↔
      ∃ host port, given .h (getopt permute args) = some host ∧ given .p (getopt permute args) = some port ∧
        ShortDecimal host port) := by
  obtain ⟨host, port, iface, hacc⟩ := AcceptedLine.of_parse h
  refine ⟨fun hwf => hacc.not_stringsFit hwf.strings, hacc.goodUris_iff.trans ?_⟩
  constructor
  · exact fun hshort => ⟨host, port, hacc.given_host, hacc.given_port, hshort⟩
  · rintro ⟨host', port', hhost, hport, hshort⟩
    cases hacc.given_host.symm.trans hhost
    cases hacc.given_port.symm.trans hport
    exact hshort

/-- A `long` of 64 bits. -/
def lp64 : LongType := ⟨64, Nat.le_add_right 32 32⟩

/-- `-h gw -p 10100 -i eth0 -l 5683` -/
def plainLine : List Bytes :=
  [[45, 104], ascii "gw", [45, 112], ascii "10100", [45, 105], ascii "eth0", [45, 108], ascii "5683"]

theorem plainLine_accepted : parseOptions lp64 true plainLine =
    some ⟨some (.copy (ascii "gw")), some (.copy (ascii "10100")), some (.copy (ascii "eth0")), 5683⟩ := by
  decide +kernel

theorem wellFormed_never_plain : ∃ cfg, parseOptions lp64 true plainLine = some cfg ∧
    ¬ WellFormed lp64 (getopt true plainLine) cfg ∧
    ((∀ path ∈ uriPaths, GoodUri lp64 (getopt true plainLine) cfg (ascii path)) ↔
      ∃ host port, given .h (getopt true plainLine) = some host ∧ given .p (getopt true plainLine) = some port ∧
        ShortDecimal host port) :=
  ⟨_, plainLine_accepted, wellFormed_never lp64 true plainLine _ plainLine_accepted⟩

/-- **The host name of an ordinary command line** needs three bytes and has two. -/
theorem plainLine_overflows : ∃ cfg, parseOptions lp64 true plainLine = some cfg ∧
    cfg.gwHostname = some ⟨2, ascii "gw"⟩ ∧ ¬ WellFormed lp64 (getopt true plainLine) cfg :=
  ⟨_, plainLine_accepted, rfl, fun hwf => not_fits (ascii "gw") (hwf.strings _ List.mem_cons_self _ rfl)⟩

end AtlasClient
