import AtlasClient.Spec.Application

/-!
# The buffers of `handle_data`

A payload is copied to `msg`, its first token to `clientid` and from there to the identity of an entry.

* `handleData_eq`: a payload that is a string in `msg` is read as the sample `sample`.
* `msgarrvd_data`: a message on a data topic is handled by `handle_data`.
* `noOverrun_iff`: **the copies stay inside** for short payloads and client ids, and for no others.
-/

namespace AtlasClient

open Loop

variable {atof : Bytes → Float} {undefined : UndefinedScore} {feature payload clientid : Bytes} {value : Float}
    {ts : Timespec} {rep : Reputation} {entry : FeedbackEntry}

/-- The client id and the value in a payload. -/
def sample (payload : Bytes) : Option (Bytes × Bytes) :=
  (token colon (cString payload)).bind fun t => (token colon t.2).map fun u => (t.1, u.1)

/-- `strcmp` finds the client id nowhere, and the window is open and not past its end. -/
def Reputation.Records (rep : Reputation) (clientid : Bytes) : Prop :=
  rep.feedbackActive = true ∧ rep.feedbackLength ≤ dataPlaneFeedbackMax ∧ rep.delivered clientid = false

/-! ## The message buffer -/

/-- What `memcpy` leaves in `msg`. -/
theorem memcpy_msg (h : payload.length ≤ dataPlaneBufferLen) :
    writeAt zeroBuffer 0 payload = .ok (payload ++ List.replicate (dataPlaneBufferLen - payload.length) 0) := by
  unfold writeAt zeroBuffer
  rw [List.length_replicate, Nat.zero_add, if_pos h, List.take_zero, List.nil_append, List.drop_replicate]

theorem memcpy_overrun (h : dataPlaneBufferLen < payload.length) :
    writeAt zeroBuffer 0 payload = .error .badAccess := by
  unfold writeAt zeroBuffer
  rw [List.length_replicate, Nat.zero_add, if_neg (Nat.not_le.2 h)]

theorem zero_mem_msg : 0 ∈ payload ++ List.replicate (dataPlaneBufferLen - payload.length) 0 ↔
    0 ∈ payload ∨ payload.length < dataPlaneBufferLen := by
  rw [List.mem_append, List.mem_replicate]
  exact or_congr_right ⟨fun h => by omega, fun h => ⟨by omega, rfl⟩⟩

/-- The string in `msg` is the string in the payload. -/
theorem cString_msg (n : ℕ) : cString (payload ++ List.replicate n 0) = cString payload := by
  unfold cString
  rw [List.takeWhile_append]
  split
  · next h =>
    have hself : payload.takeWhile (· ≠ 0) = payload := (List.takeWhile_prefix _).eq_of_length h
    rw [hself, List.takeWhile_replicate]
    simp
  · rfl

/-- **A payload that is a string in `msg`.** -/
theorem handleData_eq (hlen : payload.length ≤ dataPlaneBufferLen)
    (hterm : 0 ∈ payload ∨ payload.length < dataPlaneBufferLen) :
    handleData atof undefined (some feature) (some payload) ts rep =
      match sample payload with
      | none => .ok rep
      | some (clientid, value) => rep.record undefined clientid (atof value) ts := by
  by_cases hempty : payload = []
  · subst hempty
    rfl
  · have hmsg := memcpy_msg hlen
    obtain ⟨rest, hstring⟩ := exists_string (zero_mem_msg.2 hterm)
    rw [cString_msg] at hstring
    have hs := zero_not_mem_cString payload
    have hfirst := strtok_string zero_not_mem_colon hs rest
    cases htoken : token colon (cString payload) with
    | none =>
      rw [htoken] at hfirst
      simp only [handleData, if_neg hempty, hmsg, hstring, hfirst, sample, htoken, Option.map_none, Option.bind_none,
        bind, Except.bind]
    | some t =>
      obtain ⟨p, next⟩ := t
      obtain ⟨hp, hnext⟩ := token_sublist htoken
      have hlenp : p.length < zeroBuffer.length := by
        have hle := hp.length_le
        have hmsglen := congrArg List.length hstring
        rw [List.length_append, List.length_append, List.length_replicate, List.length_cons] at hmsglen
        rw [zeroBuffer_length]
        omega
      have hcopy := strcpy_ok hlenp
      have hsecond := strtok_string zero_not_mem_colon (fun h => hs (hnext.subset h)) rest
      rw [htoken] at hfirst
      cases htoken' : token colon next with
      | none =>
        rw [htoken'] at hsecond
        simp only [handleData, if_neg hempty, hmsg, hstring, hfirst, hcopy, hsecond, sample, htoken, htoken',
          Option.map_none, Option.map_some, Option.bind_some, bind, Except.bind]
      | some u =>
        rw [htoken'] at hsecond
        simp only [handleData, if_neg hempty, hmsg, hstring, hfirst, hcopy, hsecond, sample, htoken, htoken',
          Option.map_some, Option.bind_some, bind, Except.bind, cString_append fun h => hs (hp.subset h)]

/-- **A message on a data topic** is handled by `handle_data`, when it has been counted. -/
theorem msgarrvd_data {topicName : Bytes} {topicLen : ℕ} {app : DataPlaneApp} {stats : Statistics}
    (payload : MqttPayload) (htopic : topicString topicName topicLen = .ok (dataTopic ++ feature))
    (hstats : atlasPktReceived payload.1.length app.stats = .ok stats) :
    msgarrvd atof undefined topicName topicLen payload ts app =
      (handleData atof undefined (some feature) (some payload.1) ts app.rep).map
        fun rep => { app with stats := stats, rep := rep } := by
  have hrequest : ¬ requestReputationTopic <+: dataTopic ++ feature := by
    simp [requestReputationTopic, dataTopic]
  have hdrop : (dataTopic ++ feature).drop dataTopic.length = feature := List.drop_left
  simp only [msgarrvd, htopic, hstats, bind, Except.bind, if_neg hrequest,
    if_pos (List.prefix_append dataTopic feature),
    hdrop]
  cases handleData atof undefined (some feature) (some payload.1) ts app.rep <;> rfl

/-! ## The identity of an entry -/

theorem setIdentity_ok (entry : FeedbackEntry) (h : clientid.length < 64) :
    ∃ entry', entry.setIdentity clientid = .ok entry' ∧
      strcpy entry.feedback.identity clientid = .ok entry'.feedback.identity := by
  have hcopy : strcpy entry.feedback.identity clientid = _ :=
    strcpy_ok (by rw [entry.feedback.identity_length]; exact h)
  unfold FeedbackEntry.setIdentity
  split
  · next heq => rw [heq] at hcopy; cases hcopy
  · next heq => exact ⟨_, rfl, heq⟩

theorem setIdentity_overrun (h : 64 ≤ clientid.length) : entry.setIdentity clientid = .error .badAccess := by
  have hcopy : strcpy entry.feedback.identity clientid = _ :=
    strcpy_error (by rw [entry.feedback.identity_length]; exact h)
  unfold FeedbackEntry.setIdentity
  split
  · next heq =>
    rw [heq] at hcopy
    cases hcopy
    rfl
  · next heq => rw [heq] at hcopy; cases hcopy

/-- The entry of a new sample. -/
theorem exists_entry (hlen : rep.feedbackLength < dataPlaneFeedbackMax) (hid : clientid.length < 64) (value : Float)
    (score : UInt16) : ∃ entry : FeedbackEntry,
      strcpy rep.feedback[rep.feedbackLength].feedback.identity clientid = .ok entry.feedback.identity ∧
      entry.feedback.sensorType = 101 ∧ entry.feedback.timeScore = score ∧
      (∃ old, entry.feedback.sensorScore = sensorScore rep.targetValue value old) ∧
      ∀ undefined ts, storedTimeScore undefined rep.windowStart ts rep.windowSize = some score →
        rep.append undefined clientid value ts = .ok { rep with
          sensorVal := rep.sensorVal.set rep.feedbackLength value.toFloat32
          feedback := rep.feedback.set rep.feedbackLength entry
          feedbackLength := rep.feedbackLength + 1 } := by
  obtain ⟨entry, hset, hcopy⟩ := setIdentity_ok rep.feedback[rep.feedbackLength] hid
  let feedback : AtlasFeedback :=
    { entry.feedback with
      sensorType := 101
      sensorScore := sensorScore rep.targetValue value entry.feedback.sensorScore
      timeScore := score }
  refine ⟨⟨feedback, entry.terminated⟩, hcopy, rfl, rfl, ⟨entry.feedback.sensorScore, rfl⟩,
    fun undefined ts hscore => ?_⟩
  unfold Reputation.append
  rw [dif_pos hlen, hset]
  simp only [bind, Except.bind, hscore]
  rfl

/-- **A new sample** is written behind the others. -/
theorem append_ok (hlen : rep.feedbackLength < dataPlaneFeedbackMax) (hid : clientid.length < 64) (value : Float)
    {score : UInt16} (hscore : storedTimeScore undefined rep.windowStart ts rep.windowSize = some score) :
    ∃ rep' entry, rep.append undefined clientid value ts = .ok rep' ∧
      rep'.feedbackActive = rep.feedbackActive ∧ rep'.feedbackLength = rep.feedbackLength + 1 ∧
      rep'.sensorVal = rep.sensorVal.set rep.feedbackLength value.toFloat32 ∧
      rep'.feedback = rep.feedback.set rep.feedbackLength entry ∧
      strcpy rep.feedback[rep.feedbackLength].feedback.identity clientid = .ok entry.feedback.identity := by
  obtain ⟨entry, hcopy, -, -, -, happend⟩ := exists_entry hlen hid value score
  exact ⟨_, entry, happend undefined ts hscore, rfl, rfl, rfl, rfl, hcopy⟩

/-- A program that stores some value always goes on. -/
theorem exists_stored (stored : Timespec → Timespec → Int32 → UInt16) (windowStart ts : Timespec) (windowSize : Int32) :
    ∃ score, storedTimeScore (.storing stored) windowStart ts windowSize = some score := by
  unfold storedTimeScore UndefinedScore.storing
  cases timeScore windowStart ts windowSize with
  | none => exact ⟨_, rfl⟩
  | some score => exact ⟨score, rfl⟩

theorem append_full (h : dataPlaneFeedbackMax ≤ rep.feedbackLength) (undefined : UndefinedScore) (clientid : Bytes)
    (value : Float) (ts : Timespec) : rep.append undefined clientid value ts = .error .badAccess :=
  dif_neg (Nat.not_lt.2 h)

theorem append_long (h : 64 ≤ clientid.length) (undefined : UndefinedScore) (rep : Reputation) (value : Float)
    (ts : Timespec) : rep.append undefined clientid value ts = .error .badAccess := by
  unfold Reputation.append
  split
  · rw [setIdentity_overrun h]
    rfl
  · rfl

/-- An undefined time score, where the program stops. -/
theorem append_undefined (hlen : rep.feedbackLength < dataPlaneFeedbackMax) (hid : clientid.length < 64) (value : Float)
    (hscore : storedTimeScore undefined rep.windowStart ts rep.windowSize = none) :
    rep.append undefined clientid value ts = .error .outOfRange := by
  obtain ⟨entry, hset, -⟩ := setIdentity_ok rep.feedback[rep.feedbackLength] hid
  unfold Reputation.append
  rw [dif_pos hlen, hset]
  simp only [bind, Except.bind, hscore]

theorem record_of_records (h : rep.Records clientid) (undefined : UndefinedScore) (value : Float) (ts : Timespec) :
    rep.record undefined clientid value ts = rep.append undefined clientid value ts := by
  obtain ⟨hactive, hlen, hnew⟩ := h
  unfold Reputation.record
  rw [if_neg (by simp [hactive]), if_neg (Nat.not_lt.2 hlen), if_neg (by simp [hnew])]

theorem record_of_not_records (h : ¬ rep.Records clientid) (undefined : UndefinedScore) (value : Float)
    (ts : Timespec) :
    rep.record undefined clientid value ts = .ok rep := by
  unfold Reputation.record
  split
  · rfl
  · next hactive =>
    split
    · rfl
    · next hlen =>
      rw [if_pos]
      by_contra hnew
      exact h ⟨by simpa using hactive, Nat.not_lt.1 hlen, by simpa using hnew⟩

/-! ## No overrun -/

/-- The property of a message: every copy stays within its destination, and `msg` holds a string when it is
tokenised. An undefined time score is what `stored` says. -/
def NoOverrun (atof : Bytes → Float) (stored : Timespec → Timespec → Int32 → UInt16) (feature payload : Bytes)
    (ts : Timespec) (rep : Reputation) : Prop :=
  (∃ rep', handleData atof (.storing stored) (some feature) (some payload) ts rep = .ok rep') ∧
    ∃ msg, writeAt zeroBuffer 0 payload = .ok msg ∧ 0 ∈ msg

/-- The payload is a string in `msg`, and a client id that is recorded leaves room for its NUL, in an entry of
the array. -/
def Fits (payload : Bytes) (rep : Reputation) : Prop :=
  (payload.length < dataPlaneBufferLen ∨ payload.length = dataPlaneBufferLen ∧ 0 ∈ payload) ∧
    ∀ clientid value, sample payload = some (clientid, value) → rep.Records clientid →
      clientid.length < 64 ∧ rep.feedbackLength < dataPlaneFeedbackMax

theorem record_ok_iff {stored : Timespec → Timespec → Int32 → UInt16} :
    (∃ rep', rep.record (.storing stored) clientid value ts = .ok rep') ↔
    (rep.Records clientid → clientid.length < 64 ∧ rep.feedbackLength < dataPlaneFeedbackMax) := by
  by_cases hrec : rep.Records clientid
  · rw [record_of_records hrec, forall_prop_of_true hrec]
    constructor
    · rintro ⟨rep', happend⟩
      refine ⟨Nat.lt_of_not_le fun hid => ?_, Nat.lt_of_not_le fun hlen => ?_⟩
      · rw [append_long hid] at happend
        cases happend
      · rw [append_full hlen] at happend
        cases happend
    · rintro ⟨hid, hlen⟩
      obtain ⟨score, hscore⟩ := exists_stored stored rep.windowStart ts rep.windowSize
      obtain ⟨rep', -, happend, -⟩ := append_ok hlen hid value hscore
      exact ⟨rep', happend⟩
  · exact iff_of_true ⟨rep, record_of_not_records hrec _ value ts⟩ fun h => absurd h hrec

/-- **No copy overruns its buffer, and exactly when.** For every feature, every payload, every time and every state of
the window, whatever is stored for a time score that C leaves undefined. -/
theorem noOverrun_iff (atof : Bytes → Float) (stored : Timespec → Timespec → Int32 → UInt16) (feature payload : Bytes)
    (ts : Timespec) (rep : Reputation) : NoOverrun atof stored feature payload ts rep ↔ Fits payload rep := by
  unfold NoOverrun Fits
  rcases Nat.lt_or_ge dataPlaneBufferLen payload.length with hlong | hlen
  · rw [memcpy_overrun hlong]
    refine iff_of_false (fun ⟨_, msg, hmsg, _⟩ => by cases hmsg) fun ⟨hshort, _⟩ => ?_
    omega
  · have hterm : (∃ msg, writeAt zeroBuffer 0 payload = .ok msg ∧ 0 ∈ msg) ↔
        payload.length < dataPlaneBufferLen ∨ payload.length = dataPlaneBufferLen ∧ 0 ∈ payload := by
      rw [memcpy_msg hlen]
      simp only [Except.ok.injEq, exists_eq_left', zero_mem_msg]
      constructor
      · rintro (hmem | hlt)
        · exact (Nat.lt_or_eq_of_le hlen).imp id fun heq => ⟨heq, hmem⟩
        · exact Or.inl hlt
      · rintro (hlt | ⟨-, hmem⟩)
        · exact Or.inr hlt
        · exact Or.inl hmem
    rw [hterm, and_comm]
    refine and_congr_right fun hshort => ?_
    rw [handleData_eq hlen (hshort.symm.imp And.right id)]
    cases hsample : sample payload with
    | none => exact iff_of_true ⟨rep, rfl⟩ fun clientid value h => by cases h
    | some t =>
      obtain ⟨clientid, value⟩ := t
      rw [record_ok_iff]
      exact ⟨(fun h clientid' value' heq => by cases heq; exact h), fun h => h clientid value rfl⟩

/-- A packet of 300 zeros, which `--publish` makes with a forced length. -/
def forcedPacket : Bytes := List.replicate 300 48

/-- A client id of 64 characters and a value. -/
def longClientid : Bytes := List.replicate 64 97 ++ [58, 49]

theorem sample_longClientid : sample longClientid = some (List.replicate 64 97, [49]) := by decide

/-- **The packet overruns `msg`**, and the client id the identity of its entry when the window is open. -/
theorem packet_overruns :
    ¬ (∀ atof stored feature payload ts rep, NoOverrun atof stored feature payload ts rep) ∧
    handleData (fun _ => 0) (.storing fun _ _ _ => 0) (some [116]) (some forcedPacket) ⟨0, 0⟩ (setReputation 10 25) =
      .error .badAccess ∧
    handleData (fun _ => 0) (.storing fun _ _ _ => 0) (some [116]) (some longClientid) ⟨0, 0⟩
      ((setReputation 10 25).openWindow ⟨0, 0⟩) =
      .error .badAccess := by
  have hcopy : writeAt zeroBuffer 0 forcedPacket = .error .badAccess :=
    memcpy_overrun (by rw [forcedPacket, List.length_replicate]; decide)
  refine ⟨fun h => ?_, ?_, ?_⟩
  · obtain ⟨-, msg, hmsg, -⟩ := h (fun _ => 0) (fun _ _ _ => 0) [116] forcedPacket ⟨0, 0⟩ (setReputation 10 25)
    rw [hcopy] at hmsg
    cases hmsg
  · simp only [handleData, hcopy, bind, Except.bind, if_neg (show forcedPacket ≠ [] by decide)]
  · have hlen : longClientid.length < dataPlaneBufferLen := by decide
    rw [handleData_eq (Nat.le_of_lt hlen) (Or.inr hlen), sample_longClientid]
    refine (record_of_records ⟨rfl, Nat.zero_le _, rfl⟩ _ _ _).trans (append_long ?_ _ _ _ _)
    rw [List.length_replicate]

end AtlasClient
