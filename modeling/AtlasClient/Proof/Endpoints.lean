import AtlasClient.Lib.Simulation
import AtlasClient.Proof.CoapServer
import AtlasClient.Spec.Endpoints

/-!
# The listeners of the CoAP server

The server with its lists of listeners, without addresses: what it is for. The pointers of
`coap/atlas_coap_server.c` do the same.

* `handler_eq`: a request finds the first listener of its resource.
* `server_agrees`: **every history of calls has the same results** on the lists and on the heap.
* `installAll_spec`, `Device.init_spec`: the end-points that are installed.
-/

namespace AtlasClient

open FirstMatch LinkedList Loop Simulation

variable {Cb σ : Type}

/-! ## The server without addresses -/

/-- The listeners of each method. -/
abbrev Listeners (Cb : Type) := AtlasCoapMethod → List (CoapServerListener Cb)

/-- What is asked of the server: by the modules, and by the CoAP library when a request comes. -/
inductive ServerCall (Cb : Type)
  | add (uriPath : Option Bytes) (method : AtlasCoapMethod) (cb : Option Cb) (resource : Option ℕ)
  | del (uriPath : Bytes) (method : AtlasCoapMethod)
  | request (method : AtlasCoapMethod) (resource : ℕ) (uriPath : Option Bytes) (reqPayload : Bytes)

inductive ServerResult
  | status (status : AtlasStatus)
  | done
  | reply (reply : Option CoapReply)
  deriving DecidableEq

/-- `w` is the rest of the program, that the callbacks change. -/
abbrev Callbacks (Cb σ : Type) := Cb → Bytes → Bytes → σ → Except Fault (AtlasCoapResponse × Bytes × σ)

variable (callback : Callbacks Cb σ)

/-- The server of the code. -/
def CoapServer.perform (s : CoapServer Cb × σ) : ServerCall Cb → Except Fault (ServerResult × CoapServer Cb × σ)
  | .add uriPath method cb resource =>
    (s.1.atlasCoapServerAddResource uriPath method cb resource).map fun r => (.status r.1, r.2, s.2)
  | .del uriPath method => (s.1.atlasCoapServerDelResource uriPath method).map fun t => (.done, t, s.2)
  | .request method resource uriPath reqPayload =>
    (CoapServer.handler method callback resource uriPath reqPayload s.1 s.2).map fun r => (.reply r.1, s.1, r.2)

/-- The first listener of the resource answers. -/
def Listeners.answer (method : AtlasCoapMethod) (resource : ℕ) (uriPath : Option Bytes) (reqPayload : Bytes)
    (lists : Listeners Cb) (w : σ) : Except Fault (Option CoapReply × σ) :=
  match uriPath, (lists method).find? fun y => y.resource = resource with
  | some uriPath, some y =>
    (callback y.callback (cString uriPath) reqPayload w).map fun r =>
      (some ⟨r.1.code, if r.1 = .ok then r.2.1 else []⟩, r.2.2)
  | _, _ => .ok (none, w)

/-- The server without addresses. A listener can be added, but not deleted: the code reads it when it has been
released. -/
def Listeners.perform (s : Listeners Cb × σ) : ServerCall Cb → Except Fault (ServerResult × Listeners Cb × σ)
  | .add uriPath method cb resource =>
    match uriPath, cb, resource with
    | none, _, _ => .ok (.status .coapInvalidUri, s)
    | some _, none, _ => .ok (.status .invalidCallback, s)
    | some _, some _, none => .ok (.status .generalErr, s)
    | some uriPath, some cb, some resource =>
      .ok (.status .ok, Function.update s.1 method (s.1 method ++ [⟨resource, cb, uriPath⟩]), s.2)
  | .del uriPath method => if ∃ y ∈ s.1 method, y.uriPath = uriPath then .error .badAccess else .ok (.done, s)
  | .request method resource uriPath reqPayload =>
    (s.1.answer callback method resource uriPath reqPayload s.2).map fun r => (.reply r.1, s.1, r.2)

/-! ## The same results -/

namespace CoapServer

variable {callback} {s s' : CoapServer Cb} {lists : AtlasCoapMethod → List (ℕ × CoapServerListener Cb)}

/-- The string that is copied. -/
theorem cString_copied (uriPath : Bytes) : cString (uriPath ++ [0]) = cString uriPath :=
  takeWhile_string (by simp) uriPath []

/-- **A request** finds the first listener of its resource. -/
theorem handler_eq (h : Represents s lists) (method : AtlasCoapMethod) (resource : ℕ) (uriPath : Option Bytes)
    (reqPayload : Bytes) (w : σ) : handler method callback resource uriPath reqPayload s w =
      Listeners.answer callback method resource uriPath reqPayload (fun m => (lists m).map Prod.snd) w := by
  have hholds := h.holds method
  unfold handler processRequestHandler Listeners.answer
  cases uriPath with
  | none => rfl
  | some uriPath =>
    simp only [cString_copied, List.find?_map]
    cases hfirst : (lists method).find? ((fun y => decide (y.resource = resource)) ∘ Prod.snd) with
    | none =>
      have hne : ∀ y ∈ lists method, decide (y.2.resource = resource) = false := by
        simpa using List.find?_eq_none.1 hfirst
      exact bind_of_ok (hholds.find_none Fault.badAccess Fault.diverges hne) _
    | some y =>
      obtain ⟨pre, post, hsplit, hpre, hy⟩ := find?_split hfirst
      rw [hsplit] at hholds
      have hfind := hholds.find_some (q := fun y : CoapServerListener Cb => decide (y.resource = resource))
        Fault.badAccess Fault.diverges hpre hy
      refine (bind_of_ok hfind _).trans ((bind_of_ok (hholds.read _) _).trans ?_)
      simp only [Option.map_some]
      cases callback y.2.callback (cString uriPath) reqPayload w <;> rfl

/-- The lists, with and without addresses. -/
def Forgets (s : CoapServer Cb × σ) (t : Listeners Cb × σ) : Prop :=
  (∃ lists, Represents s.1 lists ∧ ∀ m, t.1 m = (lists m).map Prod.snd) ∧ s.2 = t.2

theorem add_agrees {t : Listeners Cb} {w : σ} (h : Represents s lists) (ht : ∀ m, t m = (lists m).map Prod.snd)
    (uriPath : Option Bytes) (method : AtlasCoapMethod) (cb : Option Cb) (resource : Option ℕ) :
    Agree Forgets (perform callback (s, w) (.add uriPath method cb resource))
      (Listeners.perform callback (t, w) (.add uriPath method cb resource)) := by
  have hsame : Forgets (s, w) (t, w) := ⟨⟨lists, h, ht⟩, rfl⟩
  cases uriPath with
  | none => exact .ok hsame
  | some uriPath =>
    cases cb with
    | none => exact .ok hsame
    | some cb =>
      cases resource with
      | none => exact .ok hsame
      | some resource =>
        obtain ⟨s', hadd, hrep, -⟩ := h.add uriPath method cb resource
        simp only [perform, hadd]
        refine .ok ⟨⟨_, hrep, fun m => ?_⟩, rfl⟩
        simp only
        by_cases hm : m = method
        · subst hm
          rw [added_self, Function.update_self, ht, List.map_append]
          rfl
        · rw [added_other hm, Function.update_of_ne hm, ht]

theorem perform_agrees (s : CoapServer Cb × σ) (t : Listeners Cb × σ) (c : ServerCall Cb) (hst : Forgets s t) :
    Agree Forgets (perform callback s c) (Listeners.perform callback t c) := by
  obtain ⟨s, w⟩ := s
  obtain ⟨t, w'⟩ := t
  obtain ⟨⟨lists, h, ht⟩, hw⟩ := hst
  simp only at h ht hw
  subst hw
  cases c with
  | add uriPath method cb resource => exact add_agrees h ht uriPath method cb resource
  | del uriPath method =>
    have hspec : s.atlasCoapServerDelResource uriPath method = _ :=
      del_spec uriPath method (h.holds method).chain (h.holds method).length_le none
    have hiff : (∃ y ∈ lists method, y.2.uriPath = uriPath) ↔ ∃ y ∈ t method, y.uriPath = uriPath := by
      rw [ht]
      constructor
      · rintro ⟨y, hy, hpath⟩
        exact ⟨y.2, List.mem_map_of_mem hy, hpath⟩
      · rintro ⟨y, hy, hpath⟩
        obtain ⟨x, hx, rfl⟩ := List.mem_map.1 hy
        exact ⟨x, hx, hpath⟩
    simp only [perform, Listeners.perform, hspec, hiff]
    split
    · exact .error _
    · exact .ok ⟨⟨lists, h, ht⟩, rfl⟩
  | request method resource uriPath reqPayload =>
    have hlists : t = fun m => (lists m).map Prod.snd := funext ht
    simp only [perform, Listeners.perform, handler_eq h, ← hlists]
    cases t.answer callback method resource uriPath reqPayload w with
    | error f => exact .error f
    | ok r => exact .ok ⟨⟨lists, h, ht⟩, rfl⟩

/-- **The pointers do what the lists do.** For all callbacks, whatever they make of the rest of the program and whether
they fault, and every history of resources added and deleted and of requests, in any order: each call has the same
result on the heap and on the lists, a fault included, and the rest of the program is in the same state in the end. So a
request runs the callback of the first listener that was added with its resource under its method, with the string of
its path, and no other; one without such a listener is dropped; and nothing that has been released is touched but by the
deletion of a listener. The callbacks themselves add and delete no listeners. -/
theorem server_agrees (callback : Callbacks Cb σ) (w : σ) (calls : List (ServerCall Cb)) :
    Agree Forgets (runs (perform callback) (.init, w) calls)
      (runs (Listeners.perform callback) ((fun _ => []), w) calls) :=
  runs_agree perform_agrees calls ⟨⟨_, init_represents, fun _ => rfl⟩, rfl⟩

/-! ## The end-points -/

/-- The listeners of the end-points in front of the first that cannot be installed. -/
def installed : List (String × Cb) → (ℕ → Option ℕ) → List (CoapServerListener Cb)
  | [], _ => []
  | (uriPath, cb) :: endpoints, resources =>
    match resources 0 with
    | none => []
    | some resource => ⟨resource, cb, ascii uriPath⟩ :: installed endpoints fun n => resources (n + 1)

/-- **The end-points are installed** behind the listeners for `PUT`, up to the first one that cannot be. -/
theorem installAll_spec : ∀ (endpoints : List (String × Cb)) (resources : ℕ → Option ℕ) {s : CoapServer Cb}
    {lists : AtlasCoapMethod → List (ℕ × CoapServerListener Cb)}, Represents s lists →
    ∃ s' lists', s.installAll endpoints resources = .ok s' ∧ Represents s' lists' ∧
      (lists' .put).map Prod.snd = (lists .put).map Prod.snd ++ installed endpoints resources ∧
      ∀ m, m ≠ .put → lists' m = lists m := by
  intro endpoints
  induction endpoints with
  | nil => exact fun _ _ _ h => ⟨_, _, rfl, h, by simp [installed], fun _ _ => rfl⟩
  | cons e endpoints ih =>
    intro resources s lists h
    obtain ⟨uriPath, cb⟩ := e
    cases hres : resources 0 with
    | none => exact ⟨s, lists, by simp [installAll, hres, atlasCoapServerAddResource, bind, Except.bind], h,
        by simp [installed, hres], fun _ _ => rfl⟩
    | some resource =>
      obtain ⟨s₁, hadd, hrep, -⟩ := h.add (ascii uriPath) .put cb resource
      obtain ⟨s', lists', hinstall, hrep', hput, hother⟩ := ih (fun n => resources (n + 1)) hrep
      refine ⟨s', lists', ?_, hrep', ?_, fun m hm => ?_⟩
      · simp only [installAll, hres, hadd, bind, Except.bind, ne_eq, not_true_eq_false, if_false, hinstall]
      · rw [hput, added_self, List.map_append, List.append_assoc]
        simp [installed, hres]
      · rw [hother m hm, added_other hm]

end CoapServer

/-! ## The device -/

namespace Device

/-- The listeners for `PUT` when the features have been initialised. -/
def endpoints (sysinfoResources packetsResources : ℕ → Option ℕ) : List (CoapServerListener EndpointCb) :=
  CoapServer.installed sysinfoEndpoints sysinfoResources ++ CoapServer.installed packetsEndpoints packetsResources

theorem add_features (l : List (String × ℕ)) (w : Client) :
    l.foldl (fun w p => atlasTelemetryAdd (some p.1) (some p.2) w) w =
      mapFeatures (fun fs => fs ++ l.map fun p => ⟨p.1, p.2, -1, -1⟩) w := by
  induction l generalizing w with
  | nil => simp [mapFeatures, World.mapApp]
  | cons p l ih =>
    rw [List.foldl_cons, ih]
    simp [atlasTelemetryAdd, mapFeatures, World.mapApp]

/-- **The features are initialised**: all of them are added, whatever the server does. -/
theorem init_spec (sysinfoResources packetsResources : ℕ → Option ℕ) (w : Client) :
    ∃ d lists, Device.atlasTelemetryFeaturesInit sysinfoResources packetsResources w = .ok d ∧ d.procsThreshold = 0 ∧
      d.client = mapFeatures (fun fs => fs ++ telemetryPaths.zipIdx.map fun p => ⟨p.1, p.2, -1, -1⟩) w ∧
      d.server.Represents lists ∧ (lists .put).map Prod.snd = endpoints sysinfoResources packetsResources := by
  obtain ⟨s₁, lists₁, hs₁, h₁, hput₁, -⟩ :=
    CoapServer.installAll_spec sysinfoEndpoints sysinfoResources CoapServer.init_represents
  obtain ⟨s₂, lists₂, hs₂, h₂, hput₂, -⟩ := CoapServer.installAll_spec packetsEndpoints packetsResources h₁
  refine ⟨⟨AtlasClient.atlasTelemetryFeaturesInit w, 0, s₂⟩, lists₂, ?_, rfl, ?_, h₂, ?_⟩
  · simp only [Device.atlasTelemetryFeaturesInit, atlasTelemetryAddSysinfo, atlasTelemetryAddPacketsInfo, bind,
      Except.bind, hs₁, hs₂]
  · exact add_features _ w
  · rw [hput₂, hput₁]
    rfl

/-- Only `PUT` requests come to the listeners, and the server stays as it is. -/
theorem step_server (cfg : Cfg) (long : LongType) (d : Device) (e : (ℕ → SystemAnswer) × Event) :
    (d.step cfg long e).server = d.server := by
  obtain ⟨sys, e⟩ := e
  cases e with
  | put resource uriPath reqPayload =>
    simp only [step]
    split <;> rfl
  | _ => rfl

end Device

end AtlasClient
