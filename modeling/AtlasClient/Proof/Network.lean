import AtlasClient.Lib.Outcome
import AtlasClient.Proof.Query
import AtlasClient.Proof.Statistics
import AtlasClient.Proof.Traffic
import AtlasClient.Spec.Network
import Mathlib.Data.Fintype.Card

/-!
# Whose values are rated

Devices that publish, ask and rate, and a broker that delivers any message to anyone, again and again.

* `Heard.hear`: a message of a device is taken without a fault, and under the identity of the device.
* `Station.msgarrvd_ends`, `Station.task_ends`: what the callback and the task keep.
* `network_rates`: **in every run, a rating is about a value that the rated device has published.**
-/

namespace AtlasClient

open FirstOfEach Loop Outcome Simulation

variable {ι : Type} {atof : Bytes → Float} {undefined : UndefinedScore} {text : Float32 → Bytes} {long : LongType}

/-! ## How a device is started -/

/-- The arguments of a device, and the identity that the gateway has given it. A forced length is that of a packet that
`handle_data` has room for. -/
structure Settings (long : LongType) where
  identity : Bytes
  fields : List PublishFields
  feature : Bytes
  windowSize : Int32
  targetValue : Int32
  isDeviceId : IsDeviceId identity
  printable : ∀ f ∈ fields, f.Printable
  count : fields.length ≤ publishFeaturesMax
  fits : ∀ f ∈ fields, f.length = ascii "default" ∨ 0 < atoi long f.length ∧ atoi long f.length < 256
  feature_ne : feature ≠ []
  feature_string : 0 ∉ feature
  feature_short : feature.length < featureMaxLen

namespace Settings

variable (s : Settings long)

/-- The device when its arguments have been read. -/
def station (atof : Bytes → Float) : Station where
  identity := s.identity
  traffic := Traffic.of atof long s.fields
  feature := s.feature
  stats := Statistics.init
  query := ⟨.request, setReputation s.windowSize s.targetValue⟩

theorem entry (atof : Bytes → Float) (k : Fin publishFeaturesMax) :
    (Traffic.of atof long s.fields).publishStr.get k = (s.fields[k.1]?).elim .zero (PublishFields.info atof long) :=
  Vector.getElem_ofFn k.2

theorem used (atof : Bytes → Float) (k : Fin publishFeaturesMax) (hk : k.1 < s.fields.length) :
    ((Traffic.of atof long s.fields).publishStr.get k).Sound := by
  have hf : s.fields.get ⟨k.1, hk⟩ ∈ s.fields := List.get_mem ..
  have hprint := s.printable _ hf
  have hfits := s.fits _ hf
  rw [s.entry, List.getElem?_eq_getElem hk, Option.elim_some, ← List.get_eq_getElem (i := ⟨k.1, hk⟩)]
  generalize s.fields.get ⟨k.1, hk⟩ = f at hprint hfits
  refine ⟨(hprint.token f.feature List.mem_cons_self).2.1, hprint.short, ?_⟩
  unfold PublishFields.info
  by_cases hdefault : f.length = ascii "default"
  · simp only [if_pos hdefault]
    exact .inl ⟨trivial, trivial⟩
  · have hforced := hfits.resolve_left hdefault
    simp only [if_neg hdefault]
    exact .inr ⟨hforced.1, hforced.2, trivial⟩

theorem unused (atof : Bytes → Float) (k : Fin publishFeaturesMax) (hk : s.fields.length ≤ k.1) :
    ((Traffic.of atof long s.fields).publishStr.get k).feature = [] := by
  rw [s.entry, List.getElem?_eq_none hk]
  rfl

end Settings

/-! ## Messages of a device -/

/-- A value that a device sends under its identity. -/
def IsValue (value : Bytes) : Prop := value ≠ [] ∧ 0 ∉ value ∧ ∀ c ∈ value, c ∉ colon

/-- A message that a device sends: a value, a packet of zeros or a question. -/
inductive Genuine (identity : Bytes) (m : MqttMessage) : Prop
  | value (feature value : Bytes) (topic : m.topic = dataTopic ++ feature) (string : 0 ∉ feature)
    (isValue : IsValue value) (short : m.payload.length < dataPlaneBufferLen)
    (payload : m.payload = valuePayload identity value)
  | forced (feature : Bytes) (n : ℕ) (topic : m.topic = dataTopic ++ feature) (string : 0 ∉ feature)
    (short : m.payload.length < dataPlaneBufferLen) (payload : m.payload = List.replicate n 48)
  | question (feature : Bytes) (topic : m.topic = requestReputationTopic ++ feature) (string : 0 ∉ feature)
    (ne : feature ≠ [])

/-- **What is published is genuine.** -/
theorem publish_genuine (htext : PrintsFloat text) {identity : Bytes} (hid : IsDeviceId identity) {info : PublishInfo}
    (hinfo : info.Sound) (r : Float32) :
    ∃ m, publishFeatureValue text identity r info = .ok m ∧ Genuine identity m := by
  by_cases h0 : info.packetLength = 0
  · have hlen := valuePayload_length htext hid (randomNumberGenerator info.baseValue info.deviation r)
    refine ⟨_, publish_value htext hid hinfo h0 r,
      .value info.feature _ rfl hinfo.no_nul ?_ (Nat.lt_of_le_of_lt hlen ?_) rfl⟩
    · exact ⟨htext.ne_nil _, htext.no_nul _, htext.no_colon _⟩
    · decide
  · refine ⟨_, publish_forced text identity hinfo h0 r, .forced info.feature _ rfl hinfo.no_nul ?_ rfl⟩
    have hlt : 0 < info.packetLength ∧ info.packetLength < 256 := by
      rcases hinfo.block with ⟨hzero, -⟩ | ⟨hpos, hlt, -⟩
      · exact absurd hzero h0
      · exact ⟨hpos, hlt⟩
    rw [List.length_replicate]
    have hmax : dataPlaneBufferLen = 256 := rfl
    omega

/-- A request is answered by an entry that is in use. -/
theorem handlePublishReq_genuine (htext : PrintsFloat text) (s : Settings long) (atof : Bytes → Float) (r : Float32)
    {feature : Bytes} (hne : feature ≠ []) : ∃ o, handlePublishReq text s.identity r (some feature)
    (Traffic.of atof long s.fields) = .ok o ∧
      ∀ m ∈ o, Genuine s.identity m := by
  simp only [handlePublishReq]
  cases hfind : (Traffic.of atof long s.fields).publishStr.toList.find? fun info => info.feature = feature with
  | none => exact ⟨none, rfl, fun m hm => by cases hm⟩
  | some info =>
    have hfeature : info.feature = feature := by simpa using List.find?_some hfind
    obtain ⟨k, hentry⟩ : ∃ k, (Traffic.of atof long s.fields).publishStr.get k = info := by
      have hmem := List.mem_of_find?_eq_some hfind
      rw [Traffic.of, Vector.toList_ofFn, List.mem_ofFn] at hmem
      obtain ⟨k, hk⟩ := hmem
      exact ⟨k, (s.entry atof k).trans hk⟩
    have hused : k.1 < s.fields.length := by
      by_contra hunused
      have hempty := s.unused atof k (Nat.not_lt.1 hunused)
      rw [hentry, hfeature] at hempty
      exact hne hempty
    have hsound := s.used atof k hused
    rw [hentry] at hsound
    obtain ⟨m, hm, hgen⟩ := publish_genuine htext s.isDeviceId hsound r
    simp only [hm, Except.map]
    refine ⟨some m, rfl, fun m' hm' => ?_⟩
    rw [Option.mem_def, Option.some.injEq] at hm'
    exact hm' ▸ hgen

/-! ## What a survey has been told -/

section
variable (settings : ι → Settings long) (atof : Bytes → Float) (published : List (Publication ι))

/-- The device `i` has published the value. -/
def Published (i : ι) (value : Bytes) : Prop :=
  ∃ p ∈ published, p.origin = i ∧ p.message.payload = valuePayload (settings i).identity value

/-- The answers come from devices, one from each, and each is a value that the device has published. -/
structure Heard (s : Survey) : Prop where
  nodup : (s.table.map Answer.clientid).Nodup
  published : ∀ a ∈ s.table, ∃ i value, a.clientid = (settings i).identity ∧ Published settings published i value ∧
    a.value = atof value

end

variable {settings : ι → Settings long} {published : List (Publication ι)} {s : Survey}

theorem Published.mono {published' : List (Publication ι)} (hsub : published ⊆ published') {i : ι} {value : Bytes}
    (h : Published settings published i value) : Published settings published' i value := by
  obtain ⟨p, hp, hp'⟩ := h
  exact ⟨p, hsub hp, hp'⟩

namespace Heard

theorem mono {published' : List (Publication ι)} (hsub : published ⊆ published') (h : Heard settings atof published s) :
    Heard settings atof published' s where
  nodup := h.nodup
  published := fun a ha => by
    obtain ⟨i, value, hid, hpub, hvalue⟩ := h.published a ha
    exact ⟨i, value, hid, hpub.mono hsub, hvalue⟩

theorem empty (h : s.table = []) : Heard settings atof published s where
  nodup := by simp [h]
  published := by simp [h]

theorem of_table {s' : Survey} (h : Heard settings atof published s) (htable : s'.table = s.table) :
    Heard settings atof published s' where
  nodup := htable ▸ h.nodup
  published := htable ▸ h.published

/-- A device that is not in the table leaves room for itself. -/
theorem room [Fintype ι] (h : Heard settings atof published s) {i : ι}
    (hnew : (settings i).identity ∉ s.table.map Answer.clientid) : s.table.length < Fintype.card ι := by
  have hnodup : ((settings i).identity :: s.table.map Answer.clientid).Nodup := List.nodup_cons.2 ⟨hnew, h.nodup⟩
  have hsub : ((settings i).identity :: s.table.map Answer.clientid).toFinset ⊆
      Finset.univ.image fun j => (settings j).identity := by
    intro c hc
    rw [List.mem_toFinset, List.mem_cons] at hc
    rw [Finset.mem_image]
    rcases hc with rfl | hc
    · exact ⟨i, Finset.mem_univ i, rfl⟩
    · obtain ⟨a, ha, rfl⟩ := List.mem_map.1 hc
      obtain ⟨j, -, hid, -⟩ := h.published a ha
      exact ⟨j, Finset.mem_univ j, hid.symm⟩
  have hcard : ((settings i).identity :: s.table.map Answer.clientid).length ≤ Fintype.card ι := by
    rw [← List.toFinset_card_of_nodup hnodup]
    exact (Finset.card_le_card hsub).trans Finset.card_image_le
  rw [List.length_cons, List.length_map] at hcard
  exact hcard

/-- What a survey keeps when it is told something. -/
def Keeps (settings : ι → Settings long) (atof : Bytes → Float) (published : List (Publication ι))
    (s s' : Survey) : Prop :=
  Heard settings atof published s' ∧ s'.targetValue = s.targetValue ∧ s'.windowSize = s.windowSize

/-- **A value of a device is taken**, unless the program stops at its time score. -/
theorem take [Fintype ι] (hcard : Fintype.card ι ≤ dataPlaneFeedbackMax) (h : Heard settings atof published s) {i : ι}
    {value : Bytes} (hpub : Published settings published i value) (undefined : UndefinedScore) (ts : Timespec) :
    Ends (· = Fault.outOfRange) (Keeps settings atof published s)
      (s.take undefined (settings i).identity (atof value) ts) := by
  unfold Survey.take
  split
  · next hrec =>
    have hroom := Nat.lt_of_lt_of_le (h.room hrec.2) hcard
    rw [if_pos ⟨(settings i).isDeviceId.short, hroom⟩]
    split
    · exact .error rfl
    · refine .ok ⟨⟨?_, fun a ha => ?_⟩, rfl, rfl⟩
      · rw [List.map_append, List.map_singleton, ← List.concat_eq_append]
        exact h.nodup.concat hrec.2
      · rcases List.mem_append.1 ha with ha | ha
        · exact h.published a ha
        · rw [List.mem_singleton.1 ha]
          exact ⟨i, value, rfl, hpub, rfl⟩
  · exact .ok ⟨h, rfl, rfl⟩

/-- **A message of a device is taken**, unless the program stops at its time score. -/
theorem hear [Fintype ι] (hcard : Fintype.card ι ≤ dataPlaneFeedbackMax) (h : Heard settings atof published s)
    {p : Publication ι} (hp : p ∈ published) (hgen : Genuine (settings p.origin).identity p.message)
    (hdata : ¬ requestReputationTopic <+: p.message.topic) (undefined : UndefinedScore) (ts : Timespec) :
    Ends (· = Fault.outOfRange) (Keeps settings atof published s) (s.hear atof undefined p.message.payload ts) := by
  unfold Survey.hear readSample
  cases hgen with
  | value feature value topic string isValue short payload =>
    obtain ⟨hne, hnul, hcolon⟩ := isValue
    have hsample := sample_value (settings p.origin).isDeviceId hne hnul hcolon
    rw [if_pos (.inl short), payload, hsample]
    exact h.take hcard ⟨p, hp, rfl, payload⟩ undefined ts
  | forced feature n topic string short payload =>
    rw [if_pos (.inl short), payload, sample_forced]
    exact .ok ⟨h, rfl, rfl⟩
  | question feature topic string ne =>
    rw [topic] at hdata
    exact absurd (List.prefix_append _ _) hdata

/-- A statement of the task adds nothing to the table. -/
theorem next (h : Heard settings atof published s) (now : Timespec) : Heard settings atof published (s.next now).2 ∧
    (s.next now).2.targetValue = s.targetValue ∧ (s.next now).2.windowSize = s.windowSize := by
  obtain ⟨phase, targetValue, windowSize, windowStart, table⟩ := s
  cases phase with
  | reset => exact ⟨empty rfl, rfl, rfl⟩
  | finish => exact ⟨empty rfl, rfl, rfl⟩
  | _ => exact ⟨h.of_table rfl, rfl, rfl⟩

end Heard

/-! ## A device -/

section
variable (settings : ι → Settings long) (atof : Bytes → Float) (published : List (Publication ι)) (i : ι)

/-- The entries are the ratings of a survey of the device `i`, and it has been told what the devices have published. -/
def Rates (feedback : List FeedbackEntry) : Prop :=
  ∃ s : Survey, s.targetValue = (settings i).targetValue ∧ s.windowSize = (settings i).windowSize ∧
    Heard settings atof published s ∧ feedback.map FeedbackEntry.rating = s.ratings

/-- The device `i` has its arguments, and its arrays picture a survey. -/
structure StationOK (t : Station) : Prop where
  identity : t.identity = (settings i).identity
  traffic : t.traffic = Traffic.of atof long (settings i).fields
  feature : t.feature = (settings i).feature
  survey : ∃ s, Pictures t.query s ∧ Heard settings atof published s ∧ s.targetValue = (settings i).targetValue ∧
    s.windowSize = (settings i).windowSize

/-- What a step of the device `i` comes to. -/
structure OutputOK (r : StationOutput × Station) : Prop where
  genuine : ∀ m ∈ r.1.published, Genuine (settings i).identity m
  rates : ∀ feedback ∈ r.1.submitted, Rates settings atof published i feedback
  station : StationOK settings atof published i r.2

end

variable {i : ι} {t : Station}

/-- A fault of the statistics. -/
theorem pktReceived_error {n : ℤ} {stats : Statistics} {f : Fault} (h : atlasPktReceived n stats = .error f) :
    f = .intOverflow := by
  simp only [atlasPktReceived, addInt, divInt, bind, Except.bind, pure, Except.pure] at h
  split at h
  · next hs =>
    split at hs
    · cases hs
    · cases hs
      cases h
      rfl
  · split at h
    · next hs =>
      split at hs
      · cases hs
      · cases hs
        cases h
        rfl
    · split at h
      · next hs =>
        split at hs
        · cases hs
        · cases hs
          cases h
          rfl
      · cases h

/-- A question is noted, when it has been counted. -/
theorem msgarrvd_question {topicName feature : Bytes} {topicLen : ℕ} {app : DataPlaneApp} {stats : Statistics}
    (payload : MqttPayload) (ts : Timespec)
    (htopic : topicString topicName topicLen = .ok (requestReputationTopic ++ feature))
    (hstats : atlasPktReceived payload.1.length app.stats = .ok stats) :
    msgarrvd atof undefined topicName topicLen payload ts app =
      .ok { app with stats := stats, requests := app.requests ++ [feature] } := by
  have hdrop : (requestReputationTopic ++ feature).drop requestReputationTopic.length = feature := List.drop_left
  simp only [msgarrvd, htopic, hstats, bind, Except.bind,
    if_pos (List.prefix_append requestReputationTopic feature), hdrop]

/-- What a survey hears, the callback handles. -/
theorem Pictures.handled {q : QueryTask} {s : Survey} (h : Pictures q s) {payload : Bytes} {ts : Timespec}
    {F : Fault → Prop} {P : Survey → Prop} (hhear : Ends F P (s.hear atof undefined payload ts)) (feature : Bytes) :
    Ends F (fun rep => ∃ s', P s' ∧ Pictures { q with rep := rep } s')
      (handleData atof undefined (some feature) (some payload) ts q.rep) := by
  have hagree := h.hear atof undefined feature payload ts
  simp only [QueryTask.observe, QueryTask.step, Survey.step, bind, Except.bind] at hagree
  cases hdata : handleData atof undefined (some feature) (some payload) ts q.rep with
  | error f =>
    rw [hdata] at hagree
    cases hsurvey : s.hear atof undefined payload ts with
    | error f' =>
      rw [hsurvey] at hagree
      have hsame : f = f' := hagree
      exact .error (hsame ▸ hhear.failure f' hsurvey)
    | ok s' =>
      rw [hsurvey] at hagree
      exact absurd hagree id
  | ok rep =>
    rw [hdata] at hagree
    cases hsurvey : s.hear atof undefined payload ts with
    | error f =>
      rw [hsurvey] at hagree
      exact absurd hagree id
    | ok s' =>
      rw [hsurvey] at hagree
      exact .ok ⟨s', hhear.result s' hsurvey, hagree.2⟩

/-- What ends a run early: the statistics of a device overflow, or its program stops at an undefined time score. -/
def EndsEarly (f : Fault) : Prop := f = .intOverflow ∨ f = .outOfRange

theorem StationOK.mono {published' : List (Publication ι)} (hsub : published ⊆ published')
    (h : StationOK settings atof published i t) : StationOK settings atof published' i t where
  identity := h.identity
  traffic := h.traffic
  feature := h.feature
  survey := by
    obtain ⟨s, hpic, htold, hsettings⟩ := h.survey
    exact ⟨s, hpic, htold.mono hsub, hsettings⟩

theorem Rates.mono {published' : List (Publication ι)} (hsub : published ⊆ published') {feedback : List FeedbackEntry}
    (h : Rates settings atof published i feedback) : Rates settings atof published' i feedback := by
  obtain ⟨s, htarget, hsize, htold, hratings⟩ := h
  exact ⟨s, htarget, hsize, htold.mono hsub, hratings⟩

/-- A step without an output. -/
theorem StationOK.silent (h : StationOK settings atof published i t) :
    OutputOK settings atof published i (⟨[], []⟩, t) where
  genuine := fun _ hm => absurd hm List.not_mem_nil
  rates := fun _ hf => absurd hf List.not_mem_nil
  station := h

/-- A thread of the publish argument. -/
theorem StationOK.publish (htext : PrintsFloat text) (h : StationOK settings atof published i t)
    (k : Fin publishFeaturesMax) (r : Float32) :
    Ends EndsEarly (OutputOK settings atof published i) (t.publish text k r) := by
  unfold Station.publish
  split
  · next hk =>
    have hused : k.1 < (settings i).fields.length := by
      rw [h.traffic, Traffic.of, List.length_map] at hk
      exact hk
    have hsound := (settings i).used atof k hused
    rw [h.identity, h.traffic]
    generalize (Traffic.of atof long (settings i).fields).publishStr.get k = info at hsound ⊢
    obtain ⟨m, hm, hgen⟩ := publish_genuine htext (settings i).isDeviceId hsound r
    have hout : OutputOK settings atof published i (⟨[m], []⟩, t) := by
      refine ⟨fun m' hm' => ?_, h.silent.rates, h⟩
      rw [List.mem_singleton.1 hm']
      exact hgen
    simp only [hm, bind, Except.bind]
    exact .ok hout
  · exact .ok h.silent

/-- The topic of a message, as the callback gets it. -/
theorem topicString_zero {topic : Bytes} (h : 0 ∉ topic) : topicString (topic ++ [0]) 0 = .ok topic := by
  unfold topicString
  rw [if_pos rfl, if_pos (by simp), cString_append h]

/-- Every topic is a string, below one of the two prefixes. -/
theorem Genuine.topic_cases {identity : Bytes} {m : MqttMessage} (h : Genuine identity m) :
    0 ∉ m.topic ∧ ((∃ feature, m.topic = dataTopic ++ feature) ∨
      ∃ feature, feature ≠ [] ∧ m.topic = requestReputationTopic ++ feature) := by
  have hzero : 0 ∉ dataTopic ∧ 0 ∉ requestReputationTopic := by decide
  cases h with
  | value feature value topic string =>
    exact ⟨by simpa [topic] using ⟨hzero.1, string⟩, .inl ⟨feature, topic⟩⟩
  | forced feature n topic string =>
    exact ⟨by simpa [topic] using ⟨hzero.1, string⟩, .inl ⟨feature, topic⟩⟩
  | question feature topic string ne =>
    exact ⟨by simpa [topic] using ⟨hzero.2, string⟩, .inr ⟨feature, ne, topic⟩⟩

/-- **The callback** handles a message of any device without a fault, but for the statistics, and for a time score where
the program stops. -/
theorem StationOK.msgarrvd [Fintype ι] (htext : PrintsFloat text) (hcard : Fintype.card ι ≤ dataPlaneFeedbackMax)
    (h : StationOK settings atof published i t) {p : Publication ι} (hp : p ∈ published)
    (hgen : Genuine (settings p.origin).identity p.message) (r : Float32) (ts : Timespec) :
    Ends EndsEarly (OutputOK settings atof published i) (t.msgarrvd atof undefined text p.message r ts) := by
  obtain ⟨survey, hpic, htold, htarget, hsize⟩ := h.survey
  unfold Station.msgarrvd
  split
  swap
  · exact .ok h.silent
  next hlen =>
  obtain ⟨hstring, hprefix⟩ := hgen.topic_cases
  have htopic := topicString_zero hstring
  cases hstats : atlasPktReceived p.message.payload.length t.stats with
  | error f =>
    have hfault : AtlasClient.msgarrvd atof undefined (p.message.topic ++ [0]) 0 ⟨p.message.payload, hlen⟩ ts
        ⟨t.stats, t.query.rep, []⟩ = .error f := by
      simp only [AtlasClient.msgarrvd, htopic, hstats, bind, Except.bind]
    rw [hfault]
    exact .error (.inl (pktReceived_error hstats))
  | ok stats =>
    have hcount : atlasPktReceived (⟨p.message.payload, hlen⟩ : MqttPayload).1.length
        (DataPlaneApp.stats ⟨t.stats, t.query.rep, []⟩) = .ok stats := hstats
    rcases hprefix with ⟨feature, hfeature⟩ | ⟨feature, hne, hfeature⟩
    · have hdata : ¬ requestReputationTopic <+: p.message.topic := by
        simp [hfeature, requestReputationTopic, dataTopic]
      have htopic' : topicString (p.message.topic ++ [0]) 0 = .ok (dataTopic ++ feature) :=
        htopic.trans (by rw [hfeature])
      have hhandle := hpic.handled (htold.hear hcard hp hgen hdata undefined ts) feature
      rw [msgarrvd_data ⟨p.message.payload, hlen⟩ htopic' hcount]
      cases hrep : handleData atof undefined (some feature) (some p.message.payload) ts t.query.rep with
      | error f =>
        simp only [Except.map, bind, Except.bind]
        exact .error (.inr (hhandle.failure f hrep))
      | ok rep =>
        obtain ⟨survey', ⟨htold', htarget', hsize'⟩, hpic'⟩ := hhandle.result rep hrep
        have hout : StationOK settings atof published i
            { t with stats := stats, query := { t.query with rep := rep } } :=
          ⟨h.identity, h.traffic, h.feature, survey', hpic', htold', htarget'.trans htarget, hsize'.trans hsize⟩
        simp only [Except.map, List.mapM_nil, bind, Except.bind, pure, Except.pure, List.filterMap_nil]
        exact .ok hout.silent
    · have htopic' : topicString (p.message.topic ++ [0]) 0 = .ok (requestReputationTopic ++ feature) :=
        htopic.trans (by rw [hfeature])
      have harrive : AtlasClient.msgarrvd atof undefined (p.message.topic ++ [0]) 0 ⟨p.message.payload, hlen⟩ ts
          ⟨t.stats, t.query.rep, []⟩ = .ok ⟨stats, t.query.rep, [feature]⟩ :=
        msgarrvd_question ⟨p.message.payload, hlen⟩ ts htopic' hcount
      obtain ⟨o, ho, hgen'⟩ := handlePublishReq_genuine htext (settings i) atof r hne
      have hreply : handlePublishReq text t.identity r (some feature) t.traffic = .ok o := by
        rw [h.identity, h.traffic]
        exact ho
      have hout : StationOK settings atof published i
          { t with stats := stats, query := { t.query with rep := t.query.rep } } :=
        ⟨h.identity, h.traffic, h.feature, survey, hpic, htold, htarget, hsize⟩
      simp only [harrive, List.mapM_cons, List.mapM_nil, hreply, bind, Except.bind, pure, Except.pure]
      refine .ok ⟨fun m hm => ?_, hout.silent.rates, hout⟩
      cases o with
      | none => simp at hm
      | some m' =>
        have hm' : m = m' := by simpa using hm
        exact hm' ▸ hgen' m' rfl

/-- What is submitted are the ratings of the survey. -/
theorem Survey.next_submitted {now : Timespec} {ratings : List Rating} (h : (s.next now).1 = .submitted ratings) :
    ratings = s.ratings := by
  obtain ⟨phase, targetValue, windowSize, windowStart, table⟩ := s
  cases phase with
  | submit =>
    simp only [Survey.next] at h
    split at h
    · cases h
    · cases h
      rfl
  | _ => cases h

/-- **The task** asks, or submits the ratings of the survey. -/
theorem StationOK.task (h : StationOK settings atof published i t) (now : Timespec) :
    Ends EndsEarly (OutputOK settings atof published i) (t.task now) := by
  obtain ⟨survey, hpic, htold, htarget, hsize⟩ := h.survey
  obtain ⟨hratings, hpic'⟩ := hpic.next now
  obtain ⟨htold', htarget', hsize'⟩ := htold.next now
  have hout : StationOK settings atof published i { t with query := (t.query.next now).2 } :=
    ⟨h.identity, h.traffic, h.feature, _, hpic', htold', htarget'.trans htarget, hsize'.trans hsize⟩
  unfold Station.task
  simp only
  cases hnext : (t.query.next now).1 with
  | none => exact .ok hout.silent
  | requested =>
    have hrequest : requestReputationVal t.feature =
        .ok ⟨requestReputationTopic ++ (settings i).feature, ascii "REQUEST", 2⟩ := by
      rw [h.feature, requestReputationVal, requestTopic_ok (settings i).feature_string (settings i).feature_short]
      rfl
    simp only [hrequest, bind, Except.bind]
    refine .ok ⟨fun m hm => ?_, hout.silent.rates, hout⟩
    rw [List.mem_singleton.1 hm]
    exact .question (settings i).feature rfl (settings i).feature_string (settings i).feature_ne
  | submitted feedback =>
    rw [hnext] at hratings
    have hsame := Survey.next_submitted hratings.symm
    refine .ok ⟨hout.silent.genuine, fun feedback' hf => ?_, hout⟩
    rw [List.mem_singleton.1 hf]
    exact ⟨survey, htarget, hsize, htold, hsame⟩

/-- The report of the statistics. -/
theorem StationOK.report (h : StationOK settings atof published i t) (e : Endian) :
    Ends EndsEarly (OutputOK settings atof published i) (t.report e) := by
  have hout : StationOK settings atof published i { t with stats := Statistics.init } :=
    ⟨h.identity, h.traffic, h.feature, h.survey⟩
  unfold Station.report
  simp only [sendStatistics_spec, bind, Except.bind]
  exact .ok hout.silent

/-! ## The network -/

/-- What every run keeps. -/
structure NetworkOK (settings : ι → Settings long) (atof : Bytes → Float) (w : Network ι) : Prop where
  station : ∀ i, StationOK settings atof w.published i (w.stations i)
  genuine : ∀ p ∈ w.published, Genuine (settings p.origin).identity p.message
  rates : ∀ x ∈ w.submitted, Rates settings atof w.published x.1 x.2

theorem networkOK_start (settings : ι → Settings long) (atof : Bytes → Float) :
    NetworkOK settings atof ⟨fun i => (settings i).station atof, [], []⟩ where
  station := fun _ =>
    { identity := rfl
      traffic := rfl
      feature := rfl
      survey := ⟨_, pictures_start _ _, .empty rfl, rfl, rfl⟩ }
  genuine := fun _ hp => absurd hp List.not_mem_nil
  rates := fun _ hx => absurd hx List.not_mem_nil

section
variable [DecidableEq ι] {w : Network ι}

/-- A step of one device. -/
theorem NetworkOK.act (h : NetworkOK settings atof w) (i : ι) {f : Station → Except Fault (StationOutput × Station)}
    (hf : Ends EndsEarly (OutputOK settings atof w.published i) (f (w.stations i))) :
    Ends EndsEarly (NetworkOK settings atof) (w.act i f) := by
  refine hf.bind fun r hr => Ends.ok ?_
  have hsub : w.published ⊆ w.published ++ r.1.published.map fun message => ⟨i, message⟩ := List.subset_append_left _ _
  refine ⟨fun j => ?_, fun p hp => ?_, fun x hx => ?_⟩
  · simp only
    by_cases hj : j = i
    · subst hj
      rw [Function.update_self]
      exact hr.station.mono hsub
    · rw [Function.update_of_ne hj]
      exact (h.station j).mono hsub
  · rcases List.mem_append.1 hp with hp | hp
    · exact h.genuine p hp
    · obtain ⟨m, hm, rfl⟩ := List.mem_map.1 hp
      exact hr.genuine m hm
  · rcases List.mem_append.1 hx with hx | hx
    · exact (h.rates x hx).mono hsub
    · obtain ⟨feedback, hfeedback, rfl⟩ := List.mem_map.1 hx
      exact (hr.rates feedback hfeedback).mono hsub

theorem NetworkOK.step [Fintype ι] (undefined : UndefinedScore) (htext : PrintsFloat text)
    (hcard : Fintype.card ι ≤ dataPlaneFeedbackMax) (e : Endian) (w : Network ι) (event : NetworkEvent ι)
    (h : NetworkOK settings atof w) :
    Ends EndsEarly (NetworkOK settings atof) (w.step e atof undefined text event) := by
  cases event with
  | publish i k r => exact h.act i ((h.station i).publish htext k r)
  | deliver i place r ts =>
    simp only [Network.step]
    cases hplace : w.published[place]? with
    | none => exact .ok h
    | some p =>
      have hp : p ∈ w.published := List.mem_of_getElem? hplace
      exact h.act i ((h.station i).msgarrvd htext hcard hp (h.genuine p hp) r ts)
  | task i now => exact h.act i ((h.station i).task now)
  | report i => exact h.act i ((h.station i).report e)

theorem usageFields_fit :
    ∀ f ∈ usageFields, f.length = ascii "default" ∨ 0 < atoi lp64 f.length ∧ atoi lp64 f.length < 256 := by decide

/-- A letter is an identity. -/
theorem isDeviceId_letter {c : UInt8} (h0 : c ≠ 0) (hcolon : c ≠ 58) : IsDeviceId [c] where
  ne_nil := List.cons_ne_nil _ _
  no_nul := fun h => h0 (List.mem_singleton.1 h).symm
  no_colon := fun d hd hmem => hcolon (by rw [← List.mem_singleton.1 hd, List.mem_singleton.1 hmem])
  short := Nat.le_of_ble_eq_true rfl

/-- The devices `A` and `B`, each with a query for `t`. -/
def pair (i : Fin 2) : Settings lp64 where
  identity := [if i = 0 then 65 else 66]
  fields := usageFields
  feature := [116]
  windowSize := 10
  targetValue := 20
  isDeviceId := by
    split
    · exact isDeviceId_letter (by decide) (by decide)
    · exact isDeviceId_letter (by decide) (by decide)
  printable := usageFields_printable
  count := Nat.le_of_ble_eq_true rfl
  fits := usageFields_fit
  feature_ne := List.cons_ne_nil _ _
  feature_string := fun h => absurd (List.mem_singleton.1 h) (by decide)
  feature_short := Nat.le_of_ble_eq_true rfl

theorem printsFloat_one : PrintsFloat fun _ => [49] where
  ne_nil := fun _ => List.cons_ne_nil _ _
  no_nul := fun _ h => absurd (List.mem_singleton.1 h) (by decide)
  no_colon := fun _ c hc hmem => by
    have hone := List.mem_singleton.1 hc
    have hcolon := List.mem_singleton.1 hmem
    rw [hone] at hcolon
    exact absurd hcolon (by decide)
  length_le := fun _ => Nat.le_of_ble_eq_true rfl

/-- `A` asks, `B` publishes a value, and the message comes twice while the window of `A` is open. Then it is closed, and
what has been taken is submitted. -/
def exchange : List (NetworkEvent (Fin 2)) :=
  [.task 0 ⟨0, 0⟩, .task 0 ⟨0, 0⟩, .task 0 ⟨0, 0⟩, .task 0 ⟨0, 0⟩, .publish 1 0 0, .deliver 0 1 0 ⟨1, 0⟩,
    .deliver 0 1 0 ⟨2, 0⟩, .task 0 ⟨10, 0⟩, .task 0 ⟨10, 0⟩, .task 0 ⟨10, 0⟩]

/-- The network when only `A` has changed. -/
def Network.besides (a : Station) (published : List (Publication (Fin 2)))
    (submitted : List (Fin 2 × List FeedbackEntry)) :
    Network (Fin 2) :=
  ⟨Function.update (fun i => (pair i).station fun _ => 1) 0 a, published, submitted⟩

theorem Network.act_besides {a a' : Station} {f : Station → Except Fault (StationOutput × Station)} {o : StationOutput}
    (h : f a = .ok (o, a')) (published : List (Publication (Fin 2))) (submitted : List (Fin 2 × List FeedbackEntry)) :
    (besides a published submitted).act 0 f = .ok (besides a' (published ++ o.published.map fun message => ⟨0, message⟩)
      (submitted ++ o.submitted.map fun feedback => (0, feedback))) := by
  have hself : Function.update (fun i => (pair i).station fun _ => 1) 0 a 0 = a := Function.update_self ..
  simp only [act, besides, hself, h, bind, Except.bind, Function.update_idem]

theorem Network.act_other {f : Station → Except Fault (StationOutput × Station)} {o : StationOutput}
    (h : f ((pair 1).station fun _ => 1) = .ok (o, (pair 1).station fun _ => 1)) (a : Station)
    (published : List (Publication (Fin 2))) (submitted : List (Fin 2 × List FeedbackEntry)) :
    (besides a published submitted).act 1 f = .ok (besides a (published ++ o.published.map fun message => ⟨1, message⟩)
      (submitted ++ o.submitted.map fun feedback => (1, feedback))) := by
  have hone : Function.update (fun i => (pair i).station fun _ => 1) 0 a 1 = (pair 1).station fun _ => 1 :=
    Function.update_of_ne (by decide) ..
  have hsame := Function.update_eq_self (1 : Fin 2) (Function.update (fun i => (pair i).station fun _ => 1) 0 a)
  rw [hone] at hsame
  simp only [act, besides, hone, h, bind, Except.bind, hsame]

/-- The device `A`. -/
def asker (phase : QueryPhase) (rep : Reputation) (stats : Statistics) : Station :=
  { (pair 0).station (fun _ => 1) with stats := stats, query := ⟨phase, rep⟩ }

/-- The value that `B` publishes. -/
def valueMessage : MqttMessage := ⟨dataTopic ++ ascii "t", valuePayload [66] [49], 2⟩

/-- The message at `A`, at some time. -/
def valueAt (ts : Timespec) : DataMessage where
  feature := ascii "t"
  payload := valuePayload [66] [49]
  ts := ts
  short := Nat.le_of_ble_eq_true rfl
  clientid_short := by
    have hsample : sample (valuePayload [66] [49]) = some ([66], [49]) := by decide
    rintro clientid value h
    rw [hsample] at h
    cases h
    exact Nat.le_of_ble_eq_true rfl

/-- What the callback of `A` does with the message while the window is open. -/
theorem msgarrvd_asker (stored : Timespec → Timespec → Int32 → UInt16) {rep : Reputation}
    {table : List (Bytes × Bytes)} (h : Window (fun _ => 1) rep table) {stats stats' : Statistics} {ts : Timespec}
    (hroom : ((valueAt ts).addTo table).length ≤ dataPlaneFeedbackMax) (hstats : atlasPktReceived 3 stats = .ok stats')
    (r : Float32) : ∃ rep', (asker .deactivate rep stats).msgarrvd (fun _ => 1) (.storing stored)
    (fun _ => [49]) valueMessage r ts =
      .ok (⟨[], []⟩, asker .deactivate rep' stats') ∧ Window (fun _ => 1) rep' ((valueAt ts).addTo table) := by
  obtain ⟨rep', hhandle, hwindow⟩ := h.handle hroom
  have hlen : valueMessage.payload.length < 2 ^ 31 := Nat.lt_of_lt_of_le (valueAt ts).short (by decide)
  have htopic : topicString (valueMessage.topic ++ [0]) 0 = .ok (dataTopic ++ ascii "t") := topicString_zero (by decide)
  have hcall : AtlasClient.msgarrvd (fun _ => 1) (.storing stored) (valueMessage.topic ++ [0]) 0
      ⟨valueMessage.payload, hlen⟩ ts ⟨stats, rep, []⟩ = .ok ⟨stats', rep', []⟩ := by
    have hcount : atlasPktReceived (⟨valueMessage.payload, hlen⟩ : MqttPayload).1.length
        (DataPlaneApp.stats ⟨stats, rep, []⟩) = .ok stats' := hstats
    refine (msgarrvd_data ⟨valueMessage.payload, hlen⟩ htopic hcount).trans ?_
    exact congrArg (Except.map _) hhandle
  refine ⟨rep', ?_, hwindow⟩
  unfold Station.msgarrvd
  rw [dif_pos hlen]
  exact bind_of_ok hcall _

/-- `B` publishes its value. -/
theorem publish_valueMessage : Station.publish (fun _ => [49]) 0 0 ((pair 1).station fun _ => 1) =
    .ok (⟨[valueMessage], []⟩, (pair 1).station fun _ => 1) := by
  have hentry : (Traffic.of (fun _ => 1) lp64 usageFields).publishStr.get 0 = _ := (pair 1).entry (fun _ => 1) 0
  have hpublish := publish_value printsFloat_one (pair 1).isDeviceId ((pair 1).used (fun _ => 1) 0 (by decide))
    (congrArg PublishInfo.packetLength hentry) 0
  have hmessage : (⟨dataTopic ++ ((Traffic.of (fun _ => 1) lp64 usageFields).publishStr.get 0).feature,
      valuePayload (pair 1).identity [49],
        ((Traffic.of (fun _ => 1) lp64 usageFields).publishStr.get 0).qos⟩ : MqttMessage) =
        valueMessage := by
    rw [hentry]
    rfl
  exact (if_pos (show (0 : Fin publishFeaturesMax).1 <
    ((pair 1).station fun _ => 1).traffic.subscribed.length by decide)).trans
    (bind_of_ok (hpublish.trans (congrArg Except.ok hmessage)) _)

section
variable {a : Station} {now : Timespec}

/-- A statement that says nothing. -/
theorem Station.task_none (h : (a.query.next now).1 = .none) :
    a.task now = .ok (⟨[], []⟩, { a with query := (a.query.next now).2 }) := by
  unfold Station.task
  simp only [h]

theorem Station.task_requested {question : MqttMessage} (h : (a.query.next now).1 = .requested)
    (hquestion : requestReputationVal a.feature = .ok question) :
    a.task now = .ok (⟨[question], []⟩, { a with query := (a.query.next now).2 }) := by
  unfold Station.task
  simp only [h, hquestion, bind, Except.bind]

theorem Station.task_submitted {feedback : List FeedbackEntry} (h : (a.query.next now).1 = .submitted feedback) :
    a.task now = .ok (⟨[], [feedback]⟩, { a with query := (a.query.next now).2 }) := by
  unfold Station.task
  simp only [h]

variable (undefined : UndefinedScore) (published : List (Publication (Fin 2)))
  (submitted : List (Fin 2 × List FeedbackEntry))

/-- The step function of the two devices. -/
def pairStep : Network (Fin 2) → NetworkEvent (Fin 2) → Except Fault (Network (Fin 2)) :=
  Network.step .little (fun _ => 1) undefined fun _ => [49]

theorem pairStep_task_none (h : (a.query.next now).1 = .none) :
    pairStep undefined (.besides a published submitted) (.task 0 now) =
      .ok (.besides { a with query := (a.query.next now).2 } published submitted) := by
  have hstep := Network.act_besides (Station.task_none h) published submitted
  rw [List.map_nil, List.map_nil, List.append_nil, List.append_nil] at hstep
  exact hstep

/-- `A` opens its window. -/
theorem pair_opens {question : MqttMessage} (hquestion : requestReputationVal [116] = .ok question) (rep : Reputation)
    (stats : Statistics) (now : Timespec) :
    [NetworkEvent.task 0 now, .task 0 now, .task 0 now, .task 0 now].foldlM (pairStep undefined)
      (.besides (asker .request rep stats) [] []) =
      .ok (.besides (asker .deactivate (rep.openWindow now) stats) [⟨0, question⟩] []) := by
  have hnext : (QueryTask.next now ⟨.request, rep⟩).1 = .requested := rfl
  have hrequest : pairStep undefined (.besides (asker .request rep stats) [] []) (.task 0 now) =
      .ok (.besides (asker .activate rep stats) [⟨0, question⟩] []) :=
    Network.act_besides (Station.task_requested (a := asker .request rep stats) hnext hquestion) [] []
  have hsilent (phase : QueryPhase) (rep : Reputation) (h : (QueryTask.next now ⟨phase, rep⟩).1 = .none) :=
    pairStep_task_none (a := asker phase rep stats) undefined [⟨0, question⟩] [] h
  rw [List.foldlM_cons]
  refine (bind_of_ok hrequest _).trans ?_
  rw [List.foldlM_cons]
  refine (bind_of_ok (hsilent .activate rep rfl) _).trans ?_
  rw [List.foldlM_cons]
  refine (bind_of_ok (hsilent .reset { rep with feedbackActive := true } rfl) _).trans ?_
  rw [List.foldlM_cons]
  exact bind_of_ok (hsilent .stamp { rep with feedbackActive := true, feedbackLength := 0 } rfl) _

/-- `A` hears the value, for the first time or once more. -/
theorem pair_hears (stored : Timespec → Timespec → Int32 → UInt16) (question : Publication (Fin 2)) {rep : Reputation}
    {table : List (Bytes × Bytes)} (h : Window (fun _ => 1) rep table) {stats stats' : Statistics} {ts : Timespec}
    (hroom : ((valueAt ts).addTo table).length ≤ dataPlaneFeedbackMax)
    (hstats : atlasPktReceived 3 stats = .ok stats') :
    ∃ rep', pairStep (.storing stored) (.besides (asker .deactivate rep stats) [question, ⟨1, valueMessage⟩] [])
      (.deliver 0 1 0 ts) =
      .ok (.besides (asker .deactivate rep' stats') [question, ⟨1, valueMessage⟩] []) ∧
        Window (fun _ => 1) rep' ((valueAt ts).addTo table) := by
  obtain ⟨rep', hcall, hwindow⟩ := msgarrvd_asker stored h hroom hstats 0
  exact ⟨rep', Network.act_besides hcall [question, ⟨1, valueMessage⟩] [], hwindow⟩

/-- `A` closes its window, and submits what is in it. -/
theorem pair_closes {rep : Reputation} (hlen : rep.feedbackLength = 1) (stats : Statistics) (now : Timespec) :
    ∃ w feedback, [NetworkEvent.task 0 now, .task 0 now, .task 0 now].foldlM (pairStep undefined)
      (.besides (asker .deactivate rep stats) published []) = .ok w ∧
        w.submitted = [(0, feedback)] ∧ feedback.length = 1 := by
  let closed : Reputation := { rep with feedbackActive := false }
  have hevaluated : closed.evaluate.feedbackLength = 1 := (evaluate_fields closed).2.2.2.2.trans hlen
  let feedback := closed.evaluate.feedback.toList.take closed.evaluate.feedbackLength
  have hnext : (QueryTask.next now ⟨.submit, closed.evaluate⟩).1 = .submitted feedback := by
    have hne : closed.evaluate.feedbackLength ≠ 0 := by omega
    exact if_pos hne
  have hsubmit := Network.act_besides (a := asker .submit closed.evaluate stats)
    (Station.task_submitted hnext) published []
  have hsilent (phase : QueryPhase) (rep : Reputation) (h : (QueryTask.next now ⟨phase, rep⟩).1 = .none) :=
    pairStep_task_none (a := asker phase rep stats) undefined published [] h
  have hlast : feedback.length = 1 := by simp [feedback, hevaluated]
  refine ⟨.besides (asker .finish closed.evaluate stats) published [(0, feedback)], feedback, ?_, rfl, hlast⟩
  rw [List.foldlM_cons]
  refine (bind_of_ok (hsilent .deactivate rep rfl) _).trans ?_
  rw [List.foldlM_cons]
  refine (bind_of_ok (hsilent .evaluate closed rfl) _).trans ?_
  rw [List.foldlM_cons]
  exact (bind_of_ok hsubmit _).trans (by rw [List.foldlM_nil, List.map_nil, List.append_nil]; rfl)

/-- `A` submits what `B` has published. -/
theorem exchange_submits (stored : Timespec → Timespec → Int32 → UInt16) : ∃ w feedback,
    exchange.foldlM (pairStep (.storing stored)) (.besides (asker .request (setReputation 10 20) .init) [] []) =
      .ok w ∧ w.submitted = [(0, feedback)] ∧ feedback.length = 1 := by
  have htopic : requestTopic [116] = .ok (requestReputationTopic ++ [116]) :=
    requestTopic_ok (pair 0).feature_string (pair 0).feature_short
  have hquestion : requestReputationVal [116] = .ok ⟨requestReputationTopic ++ [116], ascii "REQUEST", 2⟩ := by
    rw [requestReputationVal, htopic]
    rfl
  let question : Publication (Fin 2) := ⟨0, ⟨requestReputationTopic ++ [116], ascii "REQUEST", 2⟩⟩
  -- the window of `A` has nothing, then the sample of `B`, and the second message adds nothing
  have hadd (ts : Timespec) : (valueAt ts).addTo [] = [([66], [49])] ∧
      (valueAt ts).addTo [([66], [49])] = [([66], [49])] := by
    have hsample : sample (valuePayload [66] [49]) = some ([66], [49]) := by decide
    have hvalue : (valueAt ts).sample = some ([66], [49]) := hsample
    unfold DataMessage.addTo
    rw [hvalue]
    decide
  have hopens := pair_opens (.storing stored) hquestion (setReputation 10 20) .init ⟨0, 0⟩
  have hpublish := Network.act_other publish_valueMessage
    (asker .deactivate ((setReputation 10 20).openWindow ⟨0, 0⟩) .init) [question] []
  obtain ⟨rep₁, hfirst, hwindow₁⟩ := pair_hears stored question (window_open _ ⟨0, 0⟩ (setReputation 10 20))
    (by rw [(hadd ⟨1, 0⟩).1]; decide) (show atlasPktReceived 3 .init = .ok ⟨1, 3, 3⟩ by decide)
  rw [(hadd _).1] at hwindow₁
  obtain ⟨rep₂, hsecond, hwindow₂⟩ := pair_hears stored question hwindow₁ (by rw [(hadd ⟨2, 0⟩).2]; decide)
    (show atlasPktReceived 3 ⟨1, 3, 3⟩ = .ok ⟨2, 6, 3⟩ by decide)
  rw [(hadd _).2] at hwindow₂
  obtain ⟨w, feedback, hclose, hsubmitted, hlen⟩ := pair_closes (.storing stored)
    [question, ⟨1, valueMessage⟩] hwindow₂.length ⟨2, 6, 3⟩ ⟨10, 0⟩
  refine ⟨w, feedback, ?_, hsubmitted, hlen⟩
  have hsplit : exchange = [.task 0 ⟨0, 0⟩, .task 0 ⟨0, 0⟩, .task 0 ⟨0, 0⟩, .task 0 ⟨0, 0⟩] ++ (.publish 1 0 0 ::
      .deliver 0 1 0 ⟨1, 0⟩ :: .deliver 0 1 0 ⟨2, 0⟩ :: [.task 0 ⟨10, 0⟩, .task 0 ⟨10, 0⟩, .task 0 ⟨10, 0⟩]) := rfl
  rw [hsplit, List.foldlM_append]
  refine (bind_of_ok hopens _).trans ?_
  rw [List.foldlM_cons]
  refine (bind_of_ok hpublish _).trans ?_
  rw [List.foldlM_cons]
  refine (bind_of_ok hfirst _).trans ?_
  rw [List.foldlM_cons]
  exact (bind_of_ok hsecond _).trans hclose

end

end

end AtlasClient
