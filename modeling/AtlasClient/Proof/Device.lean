import AtlasClient.Proof.Endpoints
import AtlasClient.Proof.Search
import AtlasClient.Proof.Telemetry
import AtlasClient.Proof.Threshold

/-!
# What the gateway's requests set

The end-points of the device, the alarms that their callbacks set, and the history of the requests.

* `put_cases`: what a request does, and what is answered.
* `Device.alarms_follow`: **after every run** the alarms of the features are those of the last requests.
-/

namespace AtlasClient

open Machine

variable {cfg : Cfg} {long : LongType}

/-! ## Rates in a history -/

/-- The last rate that was asked for and was not zero; zero, when there is none. -/
def LastRate {ε : Type*} (asks : ε → UInt16 → Prop) (es : List ε) (rate : ℕ) : Prop :=
  (rate = 0 ∧ ∀ e ∈ es, ∀ r, asks e r → r = 0) ∨
  ∃ pre e post r, es = pre ++ e :: post ∧ asks e r ∧ r ≠ 0 ∧ r.toNat = rate ∧ ∀ e' ∈ post, ∀ r', asks e' r' → r' = 0

namespace LastRate

variable {ε : Type*} {asks : ε → UInt16 → Prop} {es : List ε} {e : ε} {rate : ℕ} {r : UInt16}

theorem nil : LastRate asks [] 0 := .inl ⟨rfl, by simp⟩

/-- An event that asks for nothing but zero. -/
theorem skip (h : LastRate asks es rate) (he : ∀ r, asks e r → r = 0) : LastRate asks (es ++ [e]) rate := by
  have hend : ∀ l : List ε, (∀ e' ∈ l, ∀ r', asks e' r' → r' = 0) → ∀ e' ∈ l ++ [e], ∀ r', asks e' r' → r' = 0 := by
    intro l hl e' he'
    rcases List.mem_append.1 he' with he' | he'
    · exact hl e' he'
    · rw [List.mem_singleton.1 he']
      exact he
  rcases h with ⟨h0, hall⟩ | ⟨pre, e₁, post, r, rfl, hasks, hne, hrate, hpost⟩
  · exact .inl ⟨h0, hend es hall⟩
  · exact .inr ⟨pre, e₁, post ++ [e], r, by simp, hasks, hne, hrate, hend post hpost⟩

theorem asked (hasks : asks e r) (hne : r ≠ 0) : LastRate asks (es ++ [e]) r.toNat :=
  .inr ⟨es, e, [], r, rfl, hasks, hne, rfl, by simp⟩

/-- A rate that is not zero has been asked for. -/
theorem exists_asked (h : LastRate asks es rate) (hpos : 0 < rate) : ∃ e ∈ es, ∃ r, asks e r ∧ r.toNat = rate := by
  rcases h with ⟨h0, -⟩ | ⟨pre, e, post, r, rfl, hasks, -, hrate, -⟩
  · omega
  · exact ⟨e, by simp, r, hasks, hrate⟩

end LastRate

/-- A table of rates, one for each path, when an event asks for exactly one. -/
theorem lastRate_set {ε : Type*} {asks : ε → String → UInt16 → Prop} {es : List ε} {e : ε} {rate : String → ℕ}
    {uriPath : String} {new : UInt16} (h : ∀ path, LastRate (fun e => asks e path) es (rate path))
    (hasks : ∀ path r, asks e path r ↔ path = uriPath ∧ r = new) (path : String) :
    LastRate (fun e => asks e path) (es ++ [e]) (setRate (some uriPath) new rate path) := by
  simp only [setRate]
  split
  · rename_i h0
    refine (h path).skip fun r hr => ?_
    rw [((hasks path r).1 hr).2, h0]
  · rename_i hne
    by_cases hpath : path = uriPath
    · subst hpath
      rw [Function.update_self]
      exact LastRate.asked ((hasks path new).2 ⟨rfl, rfl⟩) hne
    · rw [Function.update_of_ne hpath]
      exact (h path).skip fun r hr => absurd ((hasks path r).1 hr).1 hpath

/-! ## What a request asks for -/

/-- The end-points for push alerts that a callback looks at. -/
def EndpointCb.pushPaths : EndpointCb → List (String × String)
  | .sysinfoPushAlertCb => sysinfoPushPaths
  | .packetsPushAlertCb => packetsPushPaths
  | .thresholdAlertProcsCb => []

/-- A payload with a push rate: it is a batch, and the first push rate of the batch is that. -/
def HasPushRate (payload : Bytes) (rate : UInt16) : Prop :=
  ∃ cmds c, PayloadCmds payload cmds ∧ FirstOf Cmd.IsPushRate cmds c ∧ c.value = netBytes rate

/-- A payload with a scan rate: it is a batch, and the last scan rate of the batch is that. -/
def HasScanRate (payload : Bytes) (rate : UInt16) : Prop :=
  ∃ cmds c, PayloadCmds payload cmds ∧ LastOf Cmd.IsScanRate cmds c ∧ c.value = netBytes rate

/-- A request for the end-point `y` with the path `path` asks that a feature be pushed at a rate. -/
def AsksPush (y : CoapServerListener EndpointCb) (path payload : Bytes) (uriPath : String) (rate : UInt16) : Prop :=
  (∃ endpoint, y.callback.pushPaths.find? (fun p => ascii p.1 = cString path) = some (endpoint, uriPath)) ∧
    HasPushRate payload rate

/-- A request asks that the number of processes be compared with a threshold at a rate. The threshold must not be below
the range of `long`. -/
def AsksScan (long : LongType) (y : CoapServerListener EndpointCb) (payload : Bytes) (uriPath : String)
    (rate : UInt16) : Prop :=
  y.callback = .thresholdAlertProcsCb ∧ uriPath = "gateway/telemetry/sysinfo/procs" ∧
    (∃ t, ThresholdString payload t ∧ long.min ≤ subjectValue t) ∧ HasScanRate payload rate

theorem netBytes_injective {v v' : UInt16} (h : netBytes v = netBytes v') : v = v' := by
  simp only [netBytes, List.cons.injEq, and_true] at h
  rw [← word_hi_lo v, ← word_hi_lo v', h.1, h.2]

theorem HasPushRate.unique {payload : Bytes} {rate rate' : UInt16} (h : HasPushRate payload rate)
    (h' : HasPushRate payload rate') : rate = rate' := by
  obtain ⟨cmds, c, hcmds, hc, hval⟩ := h
  obtain ⟨cmds', c', hcmds', hc', hval'⟩ := h'
  have hsame : c = c' := FirstOf.unique hc (HoldsCmds.unique hcmds hcmds' ▸ hc')
  exact netBytes_injective (by rw [← hval, ← hval', hsame])

theorem HasScanRate.unique {payload : Bytes} {rate rate' : UInt16} (h : HasScanRate payload rate)
    (h' : HasScanRate payload rate') : rate = rate' := by
  obtain ⟨cmds, c, hcmds, hc, hval⟩ := h
  obtain ⟨cmds', c', hcmds', hc', hval'⟩ := h'
  have hsame : c = c' := hc.unique (HoldsCmds.unique hcmds hcmds' ▸ hc')
  exact netBytes_injective (by rw [← hval, ← hval', hsame])

/-! ## The callbacks -/

variable {y : CoapServerListener EndpointCb} {path payload : Bytes} {procs : UInt16} {w : Client}

theorem payload_length (payload : Bytes) : payload = [] ∨ (UInt16.ofNat payload.length).toNat ≤ payload.length := by
  right
  rw [UInt16.toNat_ofNat']
  exact Nat.mod_le _ _

/-- **A push alert** is rejected, or sets the push alarm of the feature whose end-point has the path. -/
theorem pushAlertCb_cases (cfg : Cfg) (paths : List (String × String)) (path payload : Bytes) (w : Client) :
    ((∀ rate, ¬ HasPushRate payload rate) ∧ atlasPushAlertCb cfg paths path payload w = .ok (.notAcceptableHere, w)) ∨
    ∃ rate, HasPushRate payload rate ∧ atlasPushAlertCb cfg paths path payload w =
      .ok (.ok, (paths.find? fun p => ascii p.1 = path).elim w fun p =>
        atlasTelemetryPushSet cfg (some p.2) rate w) := by
  rcases pushParse_cases cfg.endian (payload_length payload) 0 with
    ⟨hno, status, hne, hparse⟩ | ⟨cmds, c, hcmds, hc, hparse⟩
  · left
    refine ⟨?_, ?_⟩
    · rintro rate ⟨cmds, c, hcmds, hc, -⟩
      exact hno cmds hcmds c hc.mem.1 hc.mem.2
    · simp only [atlasPushAlertCb, hparse, bind, Except.bind]
      exact if_pos hne
  · right
    refine ⟨c.word, ⟨cmds, c, hcmds, hc, c.netBytes_word hc.mem.2.2⟩, ?_⟩
    simp only [atlasPushAlertCb, hparse, bind, Except.bind]
    simp only [ne_eq, not_true_eq_false, if_false]
    cases paths.find? fun p => ascii p.1 = path <;> rfl

/-- **A threshold alert** is rejected, lacks its threshold, or sets the scan alarm of the processes. -/
theorem thresholdCb_cases (cfg : Cfg) (long : LongType) (payload : Bytes) (procs : UInt16) (w : Client) :
    (∃ procs', (∀ y uriPath rate, ¬ AsksScan long y payload uriPath rate) ∧
      atlasThresholdAlertProcsCb cfg.endian long payload procs w = .ok (.notAcceptableHere, procs', w)) ∨
    ((∀ y uriPath rate, ¬ AsksScan long y payload uriPath rate) ∧
      atlasThresholdAlertProcsCb cfg.endian long payload procs w = .error .badAccess) ∨
    ∃ t rate, ThresholdString payload t ∧ long.min ≤ subjectValue t ∧ HasScanRate payload rate ∧
      atlasThresholdAlertProcsCb cfg.endian long payload procs w =
        .ok (.ok, UInt16.ofInt (strtol long t).1,
          atlasTelemetryThresholdSet (some "gateway/telemetry/sysinfo/procs") rate w) := by
  rcases procsCb_cases cfg.endian long payload procs w with ⟨hlacks, hcb⟩ | ⟨-, hno, hcb⟩ | ⟨t, w', -, ht, hcb⟩
  · left
    refine ⟨procs, ?_, hcb⟩
    rintro y uriPath rate ⟨-, -, -, cmds, c, hcmds, hc, -⟩
    exact hlacks cmds hcmds c hc.mem.1 hc.mem.2
  · right; left
    refine ⟨?_, hcb⟩
    rintro y uriPath rate ⟨-, -, ⟨t, ht, -⟩, -⟩
    exact hno t ht
  by_cases hmin : subjectValue t < long.min
  · left
    rw [if_pos hmin] at hcb
    refine ⟨_, ?_, hcb⟩
    rintro y uriPath rate ⟨-, -, ⟨t', ht', hle⟩, -⟩
    rw [ht'.unique ht] at hle
    omega
  · right; right
    rw [if_neg hmin] at hcb
    rcases thresholdParse_cases cfg.endian (payload_length payload) 0 with
      ⟨-, status, hne, hparse⟩ | ⟨cmds, v, hcmds, hlast, hfound, hparse⟩
    · simp only [atlasThresholdAlertProcsCb, hparse, bind, Except.bind, if_pos hne] at hcb
      cases hcb
    · refine ⟨t, v.scanRate, ht, by omega, ?_, ?_⟩
      · rcases hlast.rate with ⟨-, hf, -⟩ | ⟨c, hc, -, hval⟩
        · rw [hfound] at hf
          cases hf
        · exact ⟨cmds, c, hcmds, hc, hval⟩
      · -- the rate that is set is that of the batch
        have hset : w' = atlasTelemetryThresholdSet (some "gateway/telemetry/sysinfo/procs") v.scanRate w := by
          cases hthr : v.threshold with
          | none =>
            rw [hthr] at hparse
            simp only [atlasThresholdAlertProcsCb, hparse, bind, Except.bind] at hcb
            cases hcb
          | some threshold =>
            rw [hthr] at hparse
            simp only [atlasThresholdAlertProcsCb, hparse, bind, Except.bind, ne_eq, not_true_eq_false, if_false] at hcb
            split at hcb
            · cases hcb
            · exact (Prod.mk.inj (Prod.mk.inj (Except.ok.inj hcb)).2).2.symm
        rw [hcb, hset]

/-! ## The device -/

namespace Device

variable {d : Device} {sys : ℕ → SystemAnswer} {lists : AtlasCoapMethod → List (ℕ × CoapServerListener EndpointCb)}
  {endpoints : List (CoapServerListener EndpointCb)}

/-- A request for an end-point. -/
def Event.Requests (endpoints : List (CoapServerListener EndpointCb)) (e : (ℕ → SystemAnswer) × Event)
    (y : CoapServerListener EndpointCb) (path payload : Bytes) : Prop :=
  ∃ resource, e.2 = .put resource (some path) payload ∧ endpoints.find? (fun y => y.resource = resource) = some y

/-- The push rate that an event asks for. -/
def Event.push (endpoints : List (CoapServerListener EndpointCb)) (e : (ℕ → SystemAnswer) × Event) (uriPath : String)
    (rate : UInt16) : Prop :=
  ∃ y path payload, Event.Requests endpoints e y path payload ∧ AsksPush y path payload uriPath rate

/-- The scan rate that an event asks for. -/
def Event.scan (long : LongType) (endpoints : List (CoapServerListener EndpointCb)) (e : (ℕ → SystemAnswer) × Event)
    (uriPath : String) (rate : UInt16) : Prop :=
  ∃ y path payload, Event.Requests endpoints e y path payload ∧ AsksScan long y payload uriPath rate

theorem Event.Requests.unique {e : (ℕ → SystemAnswer) × Event} {y y' : CoapServerListener EndpointCb}
    {path path' payload payload' : Bytes}
    (h : Event.Requests endpoints e y path payload) (h' : Event.Requests endpoints e y' path' payload') :
    y = y' ∧ path = path' ∧ payload = payload' := by
  obtain ⟨resource, he, hfind⟩ := h
  obtain ⟨resource', he', hfind'⟩ := h'
  rw [he] at he'
  obtain ⟨rfl, hpath, hpayload⟩ : resource = resource' ∧ some path = some path' ∧ payload = payload' := by
    simpa only [Event.put.injEq] using he'
  rw [hfind] at hfind'
  exact ⟨Option.some.inj hfind', Option.some.inj hpath, hpayload⟩

/-- What a step does to the alarms of the features, besides what the main loop does. -/
inductive Effect (cfg : Cfg) (long : LongType) (endpoints : List (CoapServerListener EndpointCb)) (d : Device)
    (e : (ℕ → SystemAnswer) × Event) (w' : Client) : Prop
  | unchanged (hw : w' = d.client ∨ w' = d.asked cfg e.1) (hpush : ∀ path r, ¬ Event.push endpoints e path r)
      (hscan : ∀ path r, ¬ Event.scan long endpoints e path r)
  | pushSet (uriPath : String) (rate : UInt16)
    (hw : w' = atlasTelemetryPushSet cfg (some uriPath) rate (d.asked cfg e.1))
      (hpush : ∀ path r, Event.push endpoints e path r ↔ path = uriPath ∧ r = rate)
      (hscan : ∀ path r, ¬ Event.scan long endpoints e path r)
  | thresholdSet (uriPath : String) (rate : UInt16)
      (hw : w' = atlasTelemetryThresholdSet (some uriPath) rate (d.asked cfg e.1))
      (hpush : ∀ path r, ¬ Event.push endpoints e path r)
      (hscan : ∀ path r, Event.scan long endpoints e path r ↔ path = uriPath ∧ r = rate)

/-- The callback of a push end-point. -/
theorem callback_push {y : CoapServerListener EndpointCb} (hy : y.callback ≠ .thresholdAlertProcsCb)
    (path payload : Bytes) (procs : UInt16) (w : Client) : callback cfg long y.callback path payload (procs, w) =
      (atlasPushAlertCb cfg y.callback.pushPaths path payload w).map fun r => (r.1, [], procs, r.2) := by
  cases hcb : y.callback with
  | thresholdAlertProcsCb => exact absurd hcb hy
  | sysinfoPushAlertCb =>
    simp only [callback, EndpointCb.pushPaths]
    cases atlasPushAlertCb cfg sysinfoPushPaths path payload w <;> rfl
  | packetsPushAlertCb =>
    simp only [callback, EndpointCb.pushPaths]
    cases atlasPushAlertCb cfg packetsPushPaths path payload w <;> rfl

/-- An event that is no request for an end-point asks for nothing. -/
theorem not_asks (long : LongType) {e : (ℕ → SystemAnswer) × Event}
    (h : ∀ y path payload, ¬ Event.Requests endpoints e y path payload) :
    (∀ path r, ¬ Event.push endpoints e path r) ∧ ∀ path r, ¬ Event.scan long endpoints e path r := by
  constructor
  · rintro path r ⟨y, p, payload, hreq, -⟩
    exact h y p payload hreq
  · rintro path r ⟨y, p, payload, hreq, -⟩
    exact h y p payload hreq

/-- A request for the end-point `y` asks for what its payload says. -/
theorem asks_iff (long : LongType) {e : (ℕ → SystemAnswer) × Event} {y : CoapServerListener EndpointCb}
    {path payload : Bytes} (h : Event.Requests endpoints e y path payload) :
    (∀ uriPath r, Event.push endpoints e uriPath r ↔ AsksPush y path payload uriPath r) ∧
      ∀ uriPath r, Event.scan long endpoints e uriPath r ↔ AsksScan long y payload uriPath r := by
  constructor
  · refine fun uriPath r => ⟨?_, fun hasks => ⟨y, path, payload, h, hasks⟩⟩
    rintro ⟨y', path', payload', h', hasks⟩
    obtain ⟨rfl, rfl, rfl⟩ := h.unique h'
    exact hasks
  · refine fun uriPath r => ⟨?_, fun hasks => ⟨y, path, payload, h, hasks⟩⟩
    rintro ⟨y', path', payload', h', hasks⟩
    obtain ⟨rfl, rfl, rfl⟩ := h.unique h'
    exact hasks

/-- A request that no end-point hears is dropped. -/
theorem put_unheard (h : d.server.Represents lists) (hlists : (lists .put).map Prod.snd = endpoints) {resource : ℕ}
    {uriPath : Option Bytes} {payload : Bytes}
    (hno : ∀ y path pl, ¬ Event.Requests endpoints (sys, .put resource uriPath payload) y path pl) :
    d.put cfg long sys resource uriPath payload = .ok (none, d.procsThreshold, d.asked cfg sys) := by
  have hlists' : (fun m => (lists m).map Prod.snd) AtlasCoapMethod.put = endpoints := hlists
  rw [put, CoapServer.handler_eq h]
  unfold Listeners.answer
  rw [hlists']
  split
  · rename_i path y hfind
    exact absurd ⟨resource, rfl, hfind⟩ (hno y path payload)
  · rfl

/-- **A request for the end-point `y`** is answered by its callback. -/
theorem put_listener (cfg : Cfg) (long : LongType) (sys : ℕ → SystemAnswer) (path payload : Bytes)
    (h : d.server.Represents lists)
    (hlists : (lists .put).map Prod.snd = endpoints) {resource : ℕ} {y : CoapServerListener EndpointCb}
    (hy : endpoints.find? (fun y => y.resource = resource) = some y) :
    d.put cfg long sys resource (some path) payload =
      (callback cfg long y.callback (cString path) payload (d.procsThreshold, d.asked cfg sys)).map fun r =>
        (some ⟨r.1.code, if r.1 = .ok then r.2.1 else []⟩, r.2.2) := by
  have hlists' : (fun m => (lists m).map Prod.snd) AtlasCoapMethod.put = endpoints := hlists
  rw [put, CoapServer.handler_eq h]
  unfold Listeners.answer
  rw [hlists', hy]

/-- A request for a push end-point. -/
theorem put_push (h : d.server.Represents lists) (hlists : (lists .put).map Prod.snd = endpoints) {resource : ℕ}
    {path payload : Bytes} {y : CoapServerListener EndpointCb}
    (hy : endpoints.find? (fun y => y.resource = resource) = some y)
    (hcb : y.callback ≠ .thresholdAlertProcsCb) : Effect cfg long endpoints d (sys, .put resource (some path) payload)
      (d.step cfg long (sys, .put resource (some path) payload)).client := by
  have hreq : Event.Requests endpoints (sys, .put resource (some path) payload) y path payload := ⟨resource, rfl, hy⟩
  obtain ⟨hpush, hscan⟩ := asks_iff long hreq
  have hnoscan : ∀ uriPath r, ¬ Event.scan long endpoints (sys, .put resource (some path) payload) uriPath r := by
    intro uriPath r hr
    exact hcb ((hscan uriPath r).1 hr).1
  have hput := put_listener cfg long sys path payload h hlists hy
  rw [callback_push hcb] at hput
  rcases pushAlertCb_cases cfg y.callback.pushPaths (cString path) payload (d.asked cfg sys) with
    ⟨hno, hresp⟩ | ⟨rate, hrate, hresp⟩
  · rw [hresp] at hput
    refine .unchanged (.inr ?_) (fun uriPath r hr => ?_) hnoscan
    · simp only [step, hput, Except.map]
    · exact hno r ((hpush uriPath r).1 hr).2
  · rw [hresp] at hput
    cases hfind : y.callback.pushPaths.find? fun p => ascii p.1 = cString path with
    | none =>
      rw [hfind] at hput
      refine .unchanged (.inr ?_) (fun uriPath r hr => ?_) hnoscan
      · simp only [step, hput, Except.map, Option.elim]
      · obtain ⟨⟨endpoint, hsome⟩, -⟩ := (hpush uriPath r).1 hr
        rw [hfind] at hsome
        cases hsome
    | some p =>
      rw [hfind] at hput
      refine .pushSet p.2 rate ?_ (fun uriPath r => (hpush uriPath r).trans ⟨?_, ?_⟩) hnoscan
      · simp only [step, hput, Except.map, Option.elim]
      · rintro ⟨⟨endpoint, hsome⟩, hr⟩
        rw [hfind] at hsome
        obtain rfl : p = (endpoint, uriPath) := Option.some.inj hsome
        exact ⟨rfl, hr.unique hrate⟩
      · rintro ⟨rfl, rfl⟩
        exact ⟨⟨p.1, hfind⟩, hrate⟩

/-- A request for the end-point of the threshold. -/
theorem put_threshold (h : d.server.Represents lists) (hlists : (lists .put).map Prod.snd = endpoints) {resource : ℕ}
    {path payload : Bytes} {y : CoapServerListener EndpointCb}
    (hy : endpoints.find? (fun y => y.resource = resource) = some y)
    (hcb : y.callback = .thresholdAlertProcsCb) : Effect cfg long endpoints d (sys, .put resource (some path) payload)
      (d.step cfg long (sys, .put resource (some path) payload)).client := by
  have hreq : Event.Requests endpoints (sys, .put resource (some path) payload) y path payload := ⟨resource, rfl, hy⟩
  obtain ⟨hpush, hscan⟩ := asks_iff long hreq
  have hnopush : ∀ uriPath r, ¬ Event.push endpoints (sys, .put resource (some path) payload) uriPath r := by
    intro uriPath r hr
    obtain ⟨⟨endpoint, hsome⟩, -⟩ := (hpush uriPath r).1 hr
    rw [hcb] at hsome
    cases hsome
  have hput := put_listener cfg long sys path payload h hlists hy
  rw [hcb] at hput
  rcases thresholdCb_cases cfg long payload d.procsThreshold (d.asked cfg sys) with
    ⟨procs', hno, hresp⟩ | ⟨hno, hresp⟩ | ⟨t, rate, ht, hmin, hrate, hresp⟩
  · simp only [callback, hresp, bind, Except.bind, Except.map] at hput
    refine .unchanged (.inr ?_) hnopush fun uriPath r hr => hno y uriPath r ((hscan uriPath r).1 hr)
    simp only [step, hput]
  · simp only [callback, hresp, bind, Except.bind, Except.map] at hput
    refine .unchanged (.inl ?_) hnopush fun uriPath r hr => hno y uriPath r ((hscan uriPath r).1 hr)
    simp only [step, hput]
  · simp only [callback, hresp, bind, Except.bind, Except.map] at hput
    refine .thresholdSet "gateway/telemetry/sysinfo/procs" rate ?_ hnopush fun uriPath r =>
      (hscan uriPath r).trans ⟨?_, ?_⟩
    · simp only [step, hput]
    · rintro ⟨-, hpath, -, hr⟩
      exact ⟨hpath, hr.unique hrate⟩
    · rintro ⟨hpath, rfl⟩
      exact ⟨hcb, hpath, ⟨t, ht, hmin⟩, hrate⟩

/-- **What a request does.** -/
theorem put_effect (cfg : Cfg) (long : LongType) (sys : ℕ → SystemAnswer) (h : d.server.Represents lists)
    (hlists : (lists .put).map Prod.snd = endpoints) (resource : ℕ) (uriPath : Option Bytes) (payload : Bytes) :
    Effect cfg long endpoints d (sys, .put resource uriPath payload)
      (d.step cfg long (sys, .put resource uriPath payload)).client := by
  by_cases hreq : ∃ y path pl, Event.Requests endpoints (sys, .put resource uriPath payload) y path pl
  · obtain ⟨y, path, pl, res, he, hy⟩ := hreq
    cases he
    by_cases hcb : y.callback = .thresholdAlertProcsCb
    · exact put_threshold h hlists hy hcb
    · exact put_push h hlists hy hcb
  · simp only [not_exists] at hreq
    obtain ⟨hpush, hscan⟩ := not_asks long hreq
    refine .unchanged (.inr ?_) hpush hscan
    simp only [step, put_unheard h hlists hreq]

/-! ### Runs -/

/-- The device after the events, and its rates. -/
structure Follows (long : LongType) (endpoints : List (CoapServerListener EndpointCb)) (d : Device)
    (pushRate scanRate : String → ℕ) (es : List ((ℕ → SystemAnswer) × Event)) : Prop where
  server : ∃ lists, d.server.Represents lists ∧ (lists .put).map Prod.snd = endpoints
  timed : TimedInv ⟨d.client, pushRate, scanRate⟩
  push : ∀ path, LastRate (fun e => Event.push endpoints e path) es (pushRate path)
  scan : ∀ path, LastRate (fun e => Event.scan long endpoints e path) es (scanRate path)

/-- The system's answers do not touch the alarms. -/
theorem asked_timed (cfg : Cfg) (sys : ℕ → SystemAnswer) {pushRate scanRate : String → ℕ}
    (h : TimedInv ⟨d.client, pushRate, scanRate⟩) :
    TimedInv ⟨d.asked cfg sys, pushRate, scanRate⟩ :=
  ⟨⟨⟨h.base.net.nodup, h.base.net.nonneg, h.base.net.own, h.base.net.alone, h.base.net.ctx⟩, h.base.kinds,
    ⟨h.base.push.live, h.base.push.alone⟩, ⟨h.base.threshold.live, h.base.threshold.alone⟩⟩,
    h.ka.imp id fun hn => ⟨hn.registered, hn.alarms, hn.reqs⟩, h.paths, h.push, h.threshold⟩

/-- What the main loop does is no request. -/
theorem main_asks (sys : ℕ → SystemAnswer) (long : LongType) (endpoints : List (CoapServerListener EndpointCb))
    {e : Event} {ev : AtlasClient.Event} (hev : e.main = some ev) : (∀ path r, ¬ Event.push endpoints (sys, e) path r) ∧
      ∀ path r, ¬ Event.scan long endpoints (sys, e) path r := by
  refine not_asks long ?_
  rintro y path payload ⟨resource, he, -⟩
  simp only at he
  rw [he] at hev
  cases hev

/-- The main loop neither adds nor deletes features, and sets no rate. -/
theorem main_kept {e : Event} {ev : AtlasClient.Event} (hev : e.main = some ev) : ev.ofTelemetry = false := by
  cases e with
  | put resource uriPath payload => cases hev
  | _ =>
    cases hev
    rfl

/-- The main loop keeps the alarms of the features. -/
theorem main_timed {pushRate scanRate : String → ℕ} (h : TimedInv ⟨d.asked cfg sys, pushRate, scanRate⟩)
    {ev : AtlasClient.Event} (hev : ev.ofTelemetry = false) :
    TimedInv ⟨(d.asked cfg sys).step cfg ev, pushRate, scanRate⟩ := by
  have hs := client_step cfg h.base h.ka ev
  exact (step_telemetryKept cfg hev h.base h.ka).inv h hs.base hs.ka h.push h.threshold

variable {pushRate scanRate : String → ℕ} {es : List ((ℕ → SystemAnswer) × Event)}

/-- **One step more.** -/
theorem Follows.step (h : Follows long endpoints d pushRate scanRate es) (e : (ℕ → SystemAnswer) × Event) :
    ∃ pushRate scanRate, Follows long endpoints (d.step cfg long e) pushRate scanRate (es ++ [e]) := by
  obtain ⟨lists, hrep, hlists⟩ := h.server
  have hserver : ∃ lists, (d.step cfg long e).server.Represents lists ∧ (lists .put).map Prod.snd = endpoints :=
    ⟨lists, by rw [step_server]; exact hrep, hlists⟩
  have hasked : TimedInv ⟨d.asked cfg e.1, pushRate, scanRate⟩ := asked_timed cfg e.1 h.timed
  obtain ⟨sys, e⟩ := e
  cases hmain : e.main with
  | some ev =>
    obtain ⟨hpush, hscan⟩ := main_asks sys long endpoints hmain
    have hclient : (d.step cfg long (sys, e)).client = (d.asked cfg sys).step cfg ev := by
      cases e with
      | put resource uriPath payload => cases hmain
      | _ => simp only [Device.step, hmain, Option.elim]
    refine ⟨pushRate, scanRate, hserver, ?_, fun path => ?_, fun path => ?_⟩
    · rw [hclient]
      exact main_timed hasked (main_kept hmain)
    · exact (h.push path).skip fun r hr => absurd hr (hpush path r)
    · exact (h.scan path).skip fun r hr => absurd hr (hscan path r)
  | none =>
    cases e with
    | put resource uriPath payload =>
      have hskip : ∀ {asks : (ℕ → SystemAnswer) × Event → String → UInt16 → Prop} {rate : String → ℕ},
          (∀ path, LastRate (fun e => asks e path) es (rate path)) →
          (∀ path r, ¬ asks (sys, .put resource uriPath payload) path r) → ∀ path, LastRate (fun e => asks e path)
            (es ++ [(sys, .put resource uriPath payload)]) (rate path) :=
        fun hrate hno path => (hrate path).skip fun r hr => absurd hr (hno path r)
      cases put_effect cfg long sys hrep hlists resource uriPath payload with
      | unchanged hw hpush hscan =>
        refine ⟨pushRate, scanRate, hserver, ?_, hskip h.push hpush, hskip h.scan hscan⟩
        rcases hw with hw | hw
        · rw [hw]
          exact h.timed
        · rw [hw]
          exact hasked
      | pushSet path rate hw hpush hscan =>
        refine ⟨setRate (some path) rate pushRate, scanRate, hserver, ?_, lastRate_set h.push hpush, hskip h.scan hscan⟩
        have hset : TimedInv (Timed.step cfg ⟨d.asked cfg sys, pushRate, scanRate⟩ (.pushSet (some path) rate)) :=
          pushSet_inv hasked (some path) rate
        rw [hw]
        exact hset
      | thresholdSet path rate hw hpush hscan =>
        refine ⟨pushRate, setRate (some path) rate scanRate, hserver, ?_, hskip h.push hpush, lastRate_set h.scan hscan⟩
        have hset : TimedInv (Timed.step cfg ⟨d.asked cfg sys, pushRate, scanRate⟩ (.thresholdSet (some path) rate)) :=
          thresholdSet_inv hasked (some path) rate
        rw [hw]
        exact hset
    | _ => cases hmain

/-- Features under distinct paths are added. -/
theorem add_timed {s : Timed} (h : TimedInv s) (l : List (String × ℕ))
    (hl : (s.client.app.features.map Telemetry.uriPath ++ l.map Prod.fst).Nodup) :
    TimedInv ⟨l.foldl (fun w p => atlasTelemetryAdd (some p.1) (some p.2) w) s.client, s.pushRate, s.scanRate⟩ := by
  induction l generalizing s with
  | nil => exact h
  | cons p l ih =>
    obtain ⟨path, cb⟩ := p
    have hnew : s.client.AddsNew (.telemetryAdd (some path) (some cb)) := by
      intro q hq heq
      exact (List.nodup_append.1 hl).2.2 _ (List.mem_map_of_mem hq) path (by simp) heq
    have hadded : TimedInv (s.step Cfg.plain (.telemetryAdd (some path) (some cb))) := telemetryAdd_inv h hnew
    refine ih hadded ?_
    simp only [Timed.step, Client.step, atlasTelemetryAdd, mapFeatures, World.mapApp, List.map_append, List.map_cons,
      List.map_nil, List.append_assoc, List.cons_append, List.nil_append]
    simpa using hl

theorem init_follows (long : LongType) (os : Os) (sysinfoResources packetsResources : ℕ → Option ℕ) :
    ∃ d₀, Device.atlasTelemetryFeaturesInit sysinfoResources packetsResources (Client.init os) = .ok d₀ ∧
      Follows long (Device.endpoints sysinfoResources packetsResources) d₀ (fun _ => 0) (fun _ => 0) [] := by
  obtain ⟨d₀, lists, hinit, -, hclient, hrep, hlists⟩ := init_spec sysinfoResources packetsResources (Client.init os)
  refine ⟨d₀, hinit, ⟨lists, hrep, hlists⟩, ?_, fun _ => .nil, fun _ => .nil⟩
  rw [hclient, ← add_features]
  have hpaths : (telemetryPaths.zipIdx.map Prod.fst).Nodup := by decide
  exact add_timed (timedInv_init os) telemetryPaths.zipIdx hpaths

/-- Only the number of processes is compared with a threshold. -/
theorem Event.scan_path {e : (ℕ → SystemAnswer) × Event} {path : String} {r : UInt16}
    (h : Event.scan long endpoints e path r) : path = "gateway/telemetry/sysinfo/procs" := by
  obtain ⟨y, p, payload, -, hasks⟩ := h
  exact hasks.2.1

/-- **The alarms follow the requests of the gateway.** Whatever end-points of the telemetry could not be installed,
whatever the system answers to any call, and after every run of the device, with any responses, timeouts, messages and
requests for these end-points in any order: each push alarm is that of exactly one feature, a push rate that was not
zero has been requested for the end-point of that feature, the period of the alarm is 1000 times the last one, and it
pushes the feature when it fires; each threshold alarm is that of the number of processes, a scan rate that was not zero
has been requested for its end-point, the period is 1000 times the last one, and it reports with the threshold; no
feature has two of either. A request that has no listener, no batch, or no rate sets nothing. The end-point of
`atlas_command_execute_init`, whose alarms run once and are of no feature, is no part of this device. -/
theorem alarms_follow (cfg : Cfg) (long : LongType) (os : Os) (sysinfoResources packetsResources : ℕ → Option ℕ)
    (es : List ((ℕ → SystemAnswer) × Event)) :
    ∃ d₀, Device.atlasTelemetryFeaturesInit sysinfoResources packetsResources (Client.init os) = .ok d₀ ∧
      ∃ pushRate scanRate : String → ℕ,
        (∀ path, LastRate (fun e => Event.push (Device.endpoints sysinfoResources packetsResources) e path) es
          (pushRate path)) ∧
        (∀ path, LastRate (fun e => Event.scan long (Device.endpoints sysinfoResources packetsResources) e path) es
          (scanRate path)) ∧
        Timed.Matched cfg ⟨(run (Device.step cfg long) d₀ es).client, pushRate, scanRate⟩ ∧
        ∀ a ∈ (run (Device.step cfg long) d₀ es).client.net.alarmsOf thresholdCb,
          ∃ p ∈ (run (Device.step cfg long) d₀ es).client.app.features,
            p.thresholdId = a.alarmId ∧ p.uriPath = "gateway/telemetry/sysinfo/procs" := by
  obtain ⟨d₀, hinit, h₀⟩ := init_follows long os sysinfoResources packetsResources
  refine ⟨d₀, hinit, ?_⟩
  have hrun : ∀ es, ∃ pushRate scanRate, Follows long (Device.endpoints sysinfoResources packetsResources)
      (run (Device.step cfg long) d₀ es) pushRate scanRate es := by
    intro es
    induction es using List.reverseRecOn with
    | nil => exact ⟨_, _, h₀⟩
    | append_singleton es e ih =>
      obtain ⟨pushRate, scanRate, h⟩ := ih
      rw [run_append]
      exact h.step e
  obtain ⟨pushRate, scanRate, h⟩ := hrun es
  refine ⟨pushRate, scanRate, h.push, h.scan, h.timed.matched, fun a ha => ?_⟩
  -- the feature has a scan rate, and somebody has asked for it
  obtain ⟨p, hp, hid, hpos, -⟩ := h.timed.threshold a ha
  obtain ⟨e, -, r, hasks, -⟩ := (h.scan p.uriPath).exists_asked hpos
  exact ⟨p, hp, hid, Event.scan_path hasks⟩

end Device

end AtlasClient
