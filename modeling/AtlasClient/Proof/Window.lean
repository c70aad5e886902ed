import AtlasClient.Lib.FirstOfEach
import AtlasClient.Proof.Overrun

/-!
# The feedback window

The messages of one window, from its start on. The guard of `handle_data` lets a sample in when the window is full.

* `Window.handle`: **one message** adds its sample, if its sender is new.
* `window_run`, `window_overflow`: the messages of a window, for up to 256 senders and for more.
* `staysWithin_iff`: **the window stays within its arrays** exactly when at most 256 senders deliver a sample.
-/

namespace AtlasClient

open FirstOfEach Loop

/-- A message on a data topic. It is shorter than `msg`, and its client id shorter than an identity. -/
structure DataMessage where
  feature : Bytes
  payload : Bytes
  ts : Timespec
  short : payload.length < dataPlaneBufferLen
  clientid_short : ∀ clientid value, sample payload = some (clientid, value) → clientid.length < 64

def DataMessage.sample (m : DataMessage) : Option (Bytes × Bytes) := AtlasClient.sample m.payload

/-- The samples of the messages: client ids and values. -/
def samples (ms : List DataMessage) : List (Bytes × Bytes) := ms.filterMap DataMessage.sample

/-- The messages are handled one after the other. -/
def handleAll (atof : Bytes → Float) (undefined : UndefinedScore) (rep : Reputation) (ms : List DataMessage) :
    Except Fault Reputation :=
  ms.foldlM (fun rep m => handleData atof undefined (some m.feature) (some m.payload) m.ts rep) rep

/-- The identities and the values that the two arrays have up to `feedback_length`. -/
def Reputation.recorded (rep : Reputation) : List (Bytes × Float32) :=
  ((rep.feedback.toList.take rep.feedbackLength).zip (rep.sensorVal.toList.take rep.feedbackLength)).map fun x =>
    (cString x.1.feedback.identity, x.2)

/-- The window is open, and it has recorded the samples in `table`. -/
structure Window (atof : Bytes → Float) (rep : Reputation) (table : List (Bytes × Bytes)) : Prop where
  active : rep.feedbackActive = true
  length : rep.feedbackLength = table.length
  le : table.length ≤ dataPlaneFeedbackMax
  recorded : rep.recorded = table.map fun t => (t.1, (atof t.2).toFloat32)

/-- The samples recorded after a message, if the arrays have room for them. -/
def DataMessage.addTo (m : DataMessage) (table : List (Bytes × Bytes)) : List (Bytes × Bytes) :=
  m.sample.elim table (add Prod.fst table)

variable {atof : Bytes → Float} {undefined : UndefinedScore} {stored : Timespec → Timespec → Int32 → UInt16}
    {rep : Reputation} {table : List (Bytes × Bytes)} {t : Bytes × Bytes}
  {m : DataMessage} {ms : List DataMessage}

/-! ## One message -/

theorem window_open (atof : Bytes → Float) (now : Timespec) (rep : Reputation) :
    Window atof (rep.openWindow now) [] where
  active := rfl
  length := rfl
  le := Nat.zero_le _
  recorded := by simp [Reputation.recorded, Reputation.openWindow]

/-- The arrays are parallel. -/
theorem Reputation.recorded_lengths (rep : Reputation) : (rep.feedback.toList.take rep.feedbackLength).length =
    (rep.sensorVal.toList.take rep.feedbackLength).length := by
  simp

/-- The duplicate scan looks through the identities. -/
theorem recorded_identities (rep : Reputation) : rep.recorded.map Prod.fst =
    (rep.feedback.toList.take rep.feedbackLength).map fun entry => cString entry.feedback.identity := by
  have hzip := List.map_fst_zip (Nat.le_of_eq rep.recorded_lengths)
  rw [Reputation.recorded, List.map_map]
  conv_rhs => rw [← hzip, List.map_map]
  rfl

theorem delivered_eq_true {clientid : Bytes} :
    rep.delivered clientid = true ↔ clientid ∈ rep.recorded.map Prod.fst := by
  rw [recorded_identities, Reputation.delivered, List.any_eq_true, List.mem_map]
  simp only [decide_eq_true_eq]
  exact exists_congr fun entry => and_congr_right fun _ => eq_comm

theorem take_succ_set {α : Type} {l : List α} {n : ℕ} (h : n < l.length) (a : α) :
    (l.set n a).take (n + 1) = l.take n ++ [a] := by
  rw [List.take_succ_eq_append_getElem (by rwa [List.length_set]), List.getElem_set_self,
    List.take_set_of_le (Nat.le_refl n)]

/-- **What is appended** is recorded behind the others. -/
theorem append_recorded {clientid : Bytes} (hlen : rep.feedbackLength < dataPlaneFeedbackMax)
    (hid : clientid.length < 64) (hnul : 0 ∉ clientid) (value : Float) {ts : Timespec} {score : UInt16}
    (hscore : storedTimeScore undefined rep.windowStart ts rep.windowSize = some score) :
    ∃ rep', rep.append undefined clientid value ts = .ok rep' ∧
      rep'.feedbackActive = rep.feedbackActive ∧ rep'.feedbackLength = rep.feedbackLength + 1 ∧
      rep'.recorded = rep.recorded ++ [(clientid, value.toFloat32)] := by
  obtain ⟨rep', entry, happend, hactive, hlength, hval, hfeedback, hcopy⟩ := append_ok hlen hid value hscore
  refine ⟨rep', happend, hactive, hlength, ?_⟩
  -- both arrays get an entry behind those that are recorded
  rw [Reputation.recorded, hlength, hval, hfeedback, Vector.toList_set, Vector.toList_set,
    take_succ_set (by rwa [Vector.length_toList]), take_succ_set (by rwa [Vector.length_toList]),
    List.zip_append rep.recorded_lengths, List.map_append]
  simp only [List.zip_cons_cons, List.zip_nil_left, List.map_cons, List.map_nil, cString_strcpy hnul hcopy]
  rfl

/-- A client id is a string. -/
theorem zero_not_mem_sample {payload : Bytes} (h : sample payload = some t) : 0 ∉ t.1 := by
  obtain ⟨u, hu, hmap⟩ := Option.bind_eq_some_iff.1 h
  obtain ⟨v, -, rfl⟩ := Option.map_eq_some_iff.1 hmap
  exact fun hmem => zero_not_mem_cString payload ((token_sublist hu).1.subset hmem)

theorem Window.records_iff (h : Window atof rep table) {clientid : Bytes} :
    rep.Records clientid ↔ clientid ∉ table.map Prod.fst := by
  have hids : rep.recorded.map Prod.fst = table.map Prod.fst := by
    rw [h.recorded, List.map_map]
    rfl
  have hdelivered : rep.delivered clientid = false ↔ clientid ∉ table.map Prod.fst := by
    rw [← Bool.not_eq_true, delivered_eq_true, hids]
  refine ⟨fun hrec => hdelivered.1 hrec.2.2, fun hnew => ⟨h.active, ?_, hdelivered.2 hnew⟩⟩
  rw [h.length]
  exact h.le

theorem handleData_message (m : DataMessage) : handleData atof undefined (some m.feature) (some m.payload) m.ts rep =
    match m.sample with
    | none => .ok rep
    | some (clientid, value) => rep.record undefined clientid (atof value) m.ts :=
  handleData_eq (Nat.le_of_lt m.short) (Or.inr m.short)

/-- **One message** adds its sample, if its sender is new. -/
theorem Window.handle (h : Window atof rep table) (hle : (m.addTo table).length ≤ dataPlaneFeedbackMax) :
    ∃ rep', handleData atof (.storing stored) (some m.feature) (some m.payload) m.ts rep = .ok rep' ∧
      Window atof rep' (m.addTo table) := by
  rw [handleData_message]
  unfold DataMessage.addTo at hle ⊢
  cases hsample : m.sample with
  | none => exact ⟨rep, rfl, h⟩
  | some t =>
    obtain ⟨clientid, value⟩ := t
    rw [hsample] at hle
    simp only [Option.elim_some, add] at hle ⊢
    split
    · next hold => exact ⟨rep, record_of_not_records (fun hrec => h.records_iff.1 hrec hold) _ _ _, h⟩
    · next hnew =>
      rw [if_neg hnew, List.length_append, List.length_singleton] at hle
      obtain ⟨score, hscore⟩ := exists_stored stored rep.windowStart m.ts rep.windowSize
      obtain ⟨rep', happend, hactive, hlength, hrecorded⟩ := append_recorded (by rw [h.length]; exact hle)
        (m.clientid_short clientid value hsample) (zero_not_mem_sample hsample) (atof value) hscore
      refine ⟨rep', (record_of_records (h.records_iff.2 hnew) _ _ _).trans happend, hactive.trans h.active, ?_, ?_, ?_⟩
      · rw [hlength, h.length, List.length_append, List.length_singleton]
      · rw [List.length_append, List.length_singleton]
        exact hle
      · rw [hrecorded, h.recorded, List.map_append]
        rfl

/-- A sample of a new sender, when the arrays are full. -/
theorem Window.full (h : Window atof rep table) (hgt : dataPlaneFeedbackMax < (m.addTo table).length) :
    handleData atof undefined (some m.feature) (some m.payload) m.ts rep = .error .badAccess := by
  rw [handleData_message]
  unfold DataMessage.addTo at hgt
  cases hsample : m.sample with
  | none =>
    rw [hsample] at hgt
    exact absurd h.le (Nat.not_le.2 hgt)
  | some t =>
    obtain ⟨clientid, value⟩ := t
    rw [hsample] at hgt
    simp only [Option.elim_some, add] at hgt
    split at hgt
    · exact absurd h.le (Nat.not_le.2 hgt)
    · next hnew =>
      rw [List.length_append, List.length_singleton] at hgt
      exact (record_of_records (h.records_iff.2 hnew) _ _ _).trans
        (append_full (by rw [h.length]; exact Nat.le_of_lt_succ hgt) _ _ _ _)

/-! ## All messages of a window -/

theorem handleAll_concat : handleAll atof undefined rep (ms ++ [m]) =
    (handleAll atof undefined rep ms).bind fun rep =>
      handleData atof undefined (some m.feature) (some m.payload) m.ts rep := by
  unfold handleAll
  rw [List.foldlM_append]
  cases List.foldlM (fun rep (m : DataMessage) =>
    handleData atof undefined (some m.feature) (some m.payload) m.ts rep) rep ms with
  | error f => rfl
  | ok rep =>
    simp only [bind, Except.bind, List.foldlM_cons, List.foldlM_nil]
    cases handleData atof undefined (some m.feature) (some m.payload) m.ts rep <;> rfl

/-- The first sample of each sender. -/
def firstSamples (ms : List DataMessage) : List (Bytes × Bytes) := firsts Prod.fst (samples ms)

theorem firstSamples_concat : firstSamples (ms ++ [m]) = m.addTo (firstSamples ms) := by
  unfold firstSamples samples DataMessage.addTo
  rw [List.filterMap_append]
  cases hsample : m.sample with
  | none => simp [hsample]
  | some t => simp [hsample, firsts_concat]

theorem length_firstSamples_le {pre : List DataMessage} (h : pre <+: ms) :
    (firstSamples pre).length ≤ (firstSamples ms).length := length_firsts_le (h.filterMap _)

/-- **As long as the arrays have room**, the window has the first sample of each sender. -/
theorem window_run (hopen : Window atof rep []) : (firstSamples ms).length ≤ dataPlaneFeedbackMax →
    ∃ rep', handleAll atof (.storing stored) rep ms = .ok rep' ∧ Window atof rep' (firstSamples ms) := by
  induction ms using List.reverseRecOn with
  | nil => exact fun _ => ⟨rep, rfl, hopen⟩
  | append_singleton ms m ih =>
    intro hle
    obtain ⟨rep₁, hrun, hwindow⟩ := ih (Nat.le_trans (length_firstSamples_le (List.prefix_append ms [m])) hle)
    rw [firstSamples_concat] at hle ⊢
    obtain ⟨rep₂, hstep, hwindow'⟩ := hwindow.handle hle
    rw [handleAll_concat]
    exact ⟨rep₂, (bind_of_ok hrun _).trans hstep, hwindow'⟩

/-- **The sample of one sender more** is written behind the arrays. -/
theorem window_overflow (hopen : Window atof rep []) : dataPlaneFeedbackMax < (firstSamples ms).length →
    handleAll atof (.storing stored) rep ms = .error .badAccess := by
  induction ms using List.reverseRecOn with
  | nil => exact fun hgt => absurd hgt (Nat.not_lt_zero _)
  | append_singleton ms m ih =>
    intro hgt
    rw [handleAll_concat]
    rcases Nat.lt_or_ge dataPlaneFeedbackMax (firstSamples ms).length with hfull | hroom
    · exact bind_of_error (ih hfull) _
    · obtain ⟨rep₁, hrun, hwindow⟩ := window_run hopen hroom
      rw [firstSamples_concat] at hgt
      exact (bind_of_ok hrun _).trans (hwindow.full hgt)

/-! ## Staying within the arrays -/

/-- A recorded sample is the first one of its sender. -/
def IsFirstSample (atof : Bytes → Float) (ms : List DataMessage) (x : Bytes × Float32) : Prop :=
  ∃ before value after, samples ms = before ++ (x.1, value) :: after ∧ x.2 = (atof value).toFloat32 ∧
    ∀ t ∈ before, t.1 ≠ x.1

/-- The property of the messages of a window: after each of them, nothing has been written outside the arrays, the
length is at most their size, the identities are distinct and the samples are the first ones of their
senders. An undefined time score is what `stored` says. -/
def StaysWithin (atof : Bytes → Float) (stored : Timespec → Timespec → Int32 → UInt16) (rep : Reputation)
    (ms : List DataMessage) : Prop :=
  ∀ pre, pre <+: ms → ∃ rep', handleAll atof (.storing stored) rep pre = .ok rep' ∧
    rep'.feedbackLength ≤ dataPlaneFeedbackMax ∧
    (rep'.recorded.map Prod.fst).Nodup ∧ ∀ x ∈ rep'.recorded, IsFirstSample atof pre x

/-- The senders that deliver a sample. -/
def senders (ms : List DataMessage) : Finset Bytes := ((samples ms).map Prod.fst).toFinset

theorem length_firstSamples (ms : List DataMessage) : (firstSamples ms).length = (senders ms).card := length_firsts ..

theorem Window.isFirst (h : Window atof rep (firstSamples ms)) : (rep.recorded.map Prod.fst).Nodup ∧
    ∀ x ∈ rep.recorded, IsFirstSample atof ms x := by
  rw [h.recorded, List.map_map]
  refine ⟨nodup_firsts, fun x hx => ?_⟩
  obtain ⟨⟨clientid, value⟩, ht, rfl⟩ := List.mem_map.1 hx
  obtain ⟨before, after, hsamples, hbefore⟩ := exists_first ht
  exact ⟨before, value, after, hsamples, rfl, hbefore⟩

/-- **The window stays within its arrays, and exactly when.** For every window and every sequence of messages: nothing
is written outside the two arrays and they have the first sample of each sender, if and only if at most 256 senders
deliver one. This is so whatever is stored for a time score that C leaves undefined. The guard compares
`feedback_length` by `>` where the arrays are full from equality on. -/
theorem staysWithin_iff (atof : Bytes → Float) (stored : Timespec → Timespec → Int32 → UInt16) (rep : Reputation)
    (now : Timespec) (ms : List DataMessage) :
    StaysWithin atof stored (rep.openWindow now) ms ↔ (senders ms).card ≤ dataPlaneFeedbackMax := by
  have hopen := window_open atof now rep
  rw [← length_firstSamples]
  constructor
  · intro h
    obtain ⟨rep', hrun, -⟩ := h ms (List.prefix_refl ms)
    by_contra hgt
    rw [window_overflow hopen (Nat.not_le.1 hgt)] at hrun
    cases hrun
  · intro hle pre hpre
    obtain ⟨rep', hrun, hwindow⟩ := window_run hopen (Nat.le_trans (length_firstSamples_le hpre) hle)
    obtain ⟨hnodup, hfirst⟩ := hwindow.isFirst
    exact ⟨rep', hrun, hwindow.length.trans_le hwindow.le, hnodup, hfirst⟩

/-! ## One sender too many -/

/-- A client id of two letters. -/
def crowdId (i : Fin 257) : Bytes := [UInt8.ofNat (97 + i / 16), UInt8.ofNat (97 + i % 16)]

theorem crowdId_chars (i : Fin 257) : ∀ c ∈ crowdId i, 97 ≤ c.toNat := by
  intro c hc
  have hi := i.isLt
  simp only [crowdId, List.mem_cons, List.not_mem_nil, or_false] at hc
  rcases hc with rfl | rfl <;> simp only [UInt8.toNat_ofNat'] <;> omega

theorem crowdId_injective : Function.Injective crowdId := by
  intro i j h
  have hi := i.isLt
  have hj := j.isLt
  simp only [crowdId, List.cons.injEq, and_true, ← UInt8.toNat_inj, UInt8.toNat_ofNat'] at h
  omega

theorem sample_crowd (i : Fin 257) : sample (crowdId i ++ [58, 49]) = some (crowdId i, [49]) := by
  have hne (c d : UInt8) (hc : c ∈ crowdId i) (hd : d.toNat < 97) : c ≠ d := fun heq => by
    have hge := crowdId_chars i c hc
    rw [heq] at hge
    omega
  have hstring : cString (crowdId i ++ [58, 49]) = crowdId i ++ [58, 49] := by
    refine List.takeWhile_eq_self_iff.2 fun c hc => decide_eq_true ?_
    rcases List.mem_append.1 hc with hc | hc
    · exact hne c 0 hc (by decide)
    · rcases List.mem_pair.1 hc with rfl | rfl <;> decide
  have htoken : token colon (crowdId i ++ [58, 49]) = some (crowdId i, [49]) :=
    token_append (List.cons_ne_nil _ _) (fun c hc hmem => hne c 58 hc (by decide) (List.mem_singleton.1 hmem))
      List.mem_cons_self [49]
  rw [sample, hstring, htoken]
  rfl

/-- One message of each of 257 senders. -/
def crowd : List DataMessage := (List.finRange 257).map fun i =>
  { feature := [116]
    payload := crowdId i ++ [58, 49]
    ts := ⟨0, 0⟩
    short := by simp [crowdId, dataPlaneBufferLen]
    clientid_short := fun clientid value h => by
      rw [sample_crowd] at h
      cases h
      simp [crowdId] }

theorem senders_crowd : (senders crowd).card = 257 := by
  have hids : (samples crowd).map Prod.fst = (List.finRange 257).map crowdId := by
    rw [samples, crowd, List.filterMap_map, List.map_filterMap, ← List.filterMap_eq_map]
    refine List.filterMap_congr fun i _ => ?_
    simp only [Function.comp_apply, DataMessage.sample, sample_crowd]
    rfl
  rw [senders, hids, List.toFinset_card_of_nodup ((List.nodup_finRange 257).map crowdId_injective), List.length_map,
    List.length_finRange]

/-- **The 257th sender** is written behind the arrays. -/
theorem crowd_overflows : ¬ (∀ atof stored (rep : Reputation) now ms, StaysWithin atof stored (rep.openWindow now) ms) ∧
    handleAll (fun _ => 0) (.storing fun _ _ _ => 0) ((setReputation 10 25).openWindow ⟨0, 0⟩) crowd =
      .error .badAccess := by
  have hmany : dataPlaneFeedbackMax < (firstSamples crowd).length := by
    rw [length_firstSamples, senders_crowd]
    decide
  have hrun : handleAll (fun _ => 0) (.storing fun _ _ _ => 0) ((setReputation 10 25).openWindow ⟨0, 0⟩) crowd =
      .error .badAccess := window_overflow (window_open (fun _ => 0) ⟨0, 0⟩ (setReputation 10 25)) hmany
  refine ⟨fun h => ?_, hrun⟩
  obtain ⟨rep', hok, -⟩ := h (fun _ => 0) (fun _ _ _ => 0) (setReputation 10 25) ⟨0, 0⟩ crowd crowd
    (List.prefix_refl crowd)
  rw [hrun] at hok
  cases hok

end AtlasClient
