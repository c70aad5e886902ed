import AtlasClient.Spec.Telemetry

/-!
# Timed-out telemetry is pushed again

`telemetry_callback` looks for the feature of a request by its path: the first one whose path occurs
anywhere in the URI.

* `repushes_iff`: **the feature that timed out is pushed again** exactly if no feature that is
  registered before it has a path that occurs in its URI.
-/

namespace AtlasClient

open FirstMatch

variable {cfg : Cfg} {l : List Telemetry} {f g : Telemetry}

/-! ## Paths and URIs -/

theorem strstr_append (a b c : String) : strstr (a ++ (b ++ c)) b = true := by
  refine decide_eq_true ⟨a.toList, c.toList, ?_⟩
  rw [String.toList_append, String.toList_append, List.append_assoc]

/-- The path of a feature occurs in its URI. -/
theorem strstr_uri (cfg : Cfg) (path : String) : strstr (cfg.coapGetUri path) path = true := by
  have h := strstr_append ("coaps://" ++ cfg.gwHostname ++ ":" ++ cfg.gwPort ++ "/") path ""
  rw [String.append_empty] at h
  exact h

theorem uri_injective {path path' : String} (h : cfg.coapGetUri path = cfg.coapGetUri path') : path = path' :=
  (String.append_right_inj _).1 h

/-! ## The property -/

/-- Whatever the state of a client with these features, the callback of a timed-out push of `f` does
what a push of `f` does, and nothing else. -/
def Repushes (cfg : Cfg) (l : List Telemetry) (f : Telemetry) : Prop :=
  ∀ w : Client, w.app.features = l →
    telemetryCallback cfg (cfg.coapGetUri f.uriPath) .timeout w = atlasTelemetryPush cfg f false w

/-- The features before `f` have paths that do not occur in the URI of `f`. -/
def Unshadowed (cfg : Cfg) (l : List Telemetry) (f : Telemetry) : Prop :=
  ∃ pre post, l = pre ++ f :: post ∧ ∀ g ∈ pre, strstr (cfg.coapGetUri f.uriPath) g.uriPath = false

/-! ## The first match -/

/-- The callback pushes the first feature whose path occurs in the URI. -/
theorem callback_timeout {w : Client} {pre post : List Telemetry} (hl : w.app.features = pre ++ g :: post)
    (hpre : ∀ p ∈ pre, strstr (cfg.coapGetUri f.uriPath) p.uriPath = false)
    (hg : strstr (cfg.coapGetUri f.uriPath) g.uriPath = true) :
    telemetryCallback cfg (cfg.coapGetUri f.uriPath) .timeout w = atlasTelemetryPush cfg g false w := by
  have hfind : w.app.features.find? (fun p => strstr (cfg.coapGetUri f.uriPath) p.uriPath) = some g := by
    rw [hl, List.find?_append, List.find?_eq_none.2 fun p hp => by simp [hpre p hp], Option.none_or]
    simp [hg]
  unfold telemetryCallback
  rw [if_neg (by decide), if_neg (by decide), hfind]

/-- A registered client that has something to push. -/
def pushing (l : List Telemetry) : Client :=
  ⟨Net.init { Os.calm with payloads := Stream'.const fun _ _ => [0] }, [],
    { App.init with reg := { App.init.reg with registered := true }, features := l }⟩

/-- What a push sends names its feature. -/
theorem push_uri (f : Telemetry) :
    (atlasTelemetryPush cfg f false (pushing l)).calls.map CoapCall.uri = [cfg.coapGetUri f.uriPath] := by
  have hpayload : (askPayload f false (pushing l)).1 = [0] := rfl
  unfold atlasTelemetryPush
  rw [if_neg (by simp [pushing])]
  simp only [hpayload, List.cons_ne_nil, if_false]
  rfl

/-- A feature that is found before `f` is pushed in its place. -/
theorem not_repushes {pre post : List Telemetry} (hl : l = pre ++ g :: post) (hne : g.uriPath ≠ f.uriPath)
    (hpre : ∀ p ∈ pre, strstr (cfg.coapGetUri f.uriPath) p.uriPath = false)
    (hg : strstr (cfg.coapGetUri f.uriPath) g.uriPath = true) : ¬ Repushes cfg l f := by
  intro h
  have hpush := h (pushing l) rfl
  rw [callback_timeout (w := pushing l) hl hpre hg] at hpush
  have huri := congrArg (fun w : Client => w.calls.map CoapCall.uri) hpush
  simp only [push_uri, List.cons.injEq, and_true] at huri
  exact hne (uri_injective huri)

/-- **A timed-out push is retried for the same feature exactly if no earlier feature shadows it.** For
every configuration, every list of features with distinct paths and every feature in it: the
callback of a timed-out request pushes that feature again, and no other, if and only if no feature
registered before it has a path that occurs in its URI. -/
theorem repushes_iff (cfg : Cfg) (hpaths : (l.map Telemetry.uriPath).Nodup) (hf : f ∈ l) :
    Repushes cfg l f ↔ Unshadowed cfg l f := by
  constructor
  · intro h
    obtain ⟨pre, g, post, hl, hpre, hg⟩ :=
      exists_split (p := fun p : Telemetry => strstr (cfg.coapGetUri f.uriPath) p.uriPath)
        ⟨f, hf, strstr_uri cfg f.uriPath⟩
    have hgl : g ∈ l := by rw [hl]; simp
    have hgf : g = f := by
      by_contra hne
      exact not_repushes hl (fun heq => hne (List.inj_on_of_nodup_map hpaths hgl hf heq)) hpre hg h
    subst hgf
    exact ⟨pre, post, hl, hpre⟩
  · rintro ⟨pre, post, hl, hpre⟩ w hw
    exact callback_timeout (hw.trans hl) hpre (strstr_uri cfg f.uriPath)

/-- The features of the client, as they are registered. -/
def initialFeatures : List Telemetry := (atlasTelemetryFeaturesInit (Client.init Os.calm)).app.features

theorem initialFeatures_nodup : (initialFeatures.map Telemetry.uriPath).Nodup := by decide +kernel

/-- The feature of a path, with the place of its payload callback. -/
def featureAt (n : ℕ) (path : String) : Telemetry := ⟨path, n, -1, -1⟩

/-- The five-minute load is pushed again when its push has timed out. -/
theorem load5_repushed : Repushes Cfg.plain initialFeatures (featureAt 11 "gateway/telemetry/sysinfo/load5") ↔
    Unshadowed Cfg.plain initialFeatures (featureAt 11 "gateway/telemetry/sysinfo/load5") :=
  repushes_iff Cfg.plain initialFeatures_nodup (by decide +kernel)

/-- **The one-minute load is pushed in place of the fifteen-minute load**, whose path begins with that
of the former. -/
theorem load15_shadowed : ¬ ∀ (cfg : Cfg) (l : List Telemetry), (l.map Telemetry.uriPath).Nodup →
    ∀ f ∈ l, Repushes cfg l f := by
  intro h
  have hfeatures : initialFeatures = initialFeatures.take 10 ++
      featureAt 10 "gateway/telemetry/sysinfo/load1" :: initialFeatures.drop 11 := by decide +kernel
  exact not_repushes hfeatures (f := featureAt 12 "gateway/telemetry/sysinfo/load15") (by decide +kernel)
    (by decide +kernel) (by decide +kernel) (h Cfg.plain _ initialFeatures_nodup _ (by decide +kernel))

end AtlasClient
