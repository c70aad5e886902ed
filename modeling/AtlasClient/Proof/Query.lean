import AtlasClient.Lib.Simulation
import AtlasClient.Proof.Window
import AtlasClient.Spec.Query

/-!
# The survey

The reputation query without its arrays: a survey has a table of answers, and scores them when it submits them.
`reputation_query_task` and `handle_data` do the same, however their statements and the messages are mixed.

* `handleData_read`: a payload is read first, then its sample is recorded.
* `Pictures.hear`, `Pictures.next`: one message and one statement of the task.
* `query_agrees`: **every history has the same outputs** on the arrays and on the table.
* `query_rounds`: what the rounds of the task ask and submit, if they come to their end.
-/

namespace AtlasClient

open FirstOfEach Loop Simulation

variable {atof : Bytes → Float} {undefined : UndefinedScore} {rep : Reputation} {payload : Bytes} {ts : Timespec}

/-! ## The survey -/

/-- An answer that is taken: whose it is, its value and its time score. -/
structure Answer where
  clientid : Bytes
  value : Float
  timeScore : UInt16

/-- An answer with its scores, as it is submitted. -/
structure Rating where
  identity : Bytes
  sensorType : UInt32
  sensorScore : UInt16
  timeScore : UInt16
  deriving DecidableEq

structure Survey where
  phase : QueryPhase
  targetValue : Int32
  windowSize : Int32
  windowStart : Timespec
  table : List Answer

inductive SurveyOutput
  | none
  | requested
  | submitted (ratings : List Rating)

/-- The client id and the value in a payload. One that fills `msg` and has no NUL is read as far as `strtok` goes. -/
def readSample (payload : Bytes) : Except Fault (Option (Bytes × Bytes)) :=
  if payload.length < dataPlaneBufferLen ∨ payload.length = dataPlaneBufferLen ∧ 0 ∈ payload then .ok (sample payload)
  else if payload.length = dataPlaneBufferLen then do
    match ← strtok colon payload with
    | none => .ok none
    | some (clientid, next) => .ok ((← strtok colon next).map fun t => (clientid, t.1))
  else .error .badAccess

namespace Survey

/-- `start` has no answers, and its window has not begun. -/
def start (windowSize targetValue : Int32) : Survey := ⟨.request, targetValue, windowSize, ⟨0, 0⟩, []⟩

/-- The statements between the two changes of `feedback_active`. -/
def listening (s : Survey) : Bool := s.phase = .reset ∨ s.phase = .stamp ∨ s.phase = .deactivate

def mean (s : Survey) : Float :=
  (s.table.map fun a => a.value.toFloat32).foldl (fun avg val => avg + val.toFloat) 0 / Float.ofNat s.table.length

/-- The distance to the target value, or to the mean of the answers. -/
def score (s : Survey) (a : Answer) : UInt16 :=
  let val := if s.targetValue = -1 then a.value.toFloat32.toFloat - s.mean
    else a.value - Float.ofInt s.targetValue.toInt
  getSensorFeedback (if val < 0 then val * -1 else val)

def ratings (s : Survey) : List Rating := s.table.map fun a => ⟨a.clientid, 101, s.score a, a.timeScore⟩

/-- A sample counts when it is the first of its sender since the table was emptied. There is no room for a client id of
64 characters, and none for more answers than 256; the program may stop at a time score that is undefined. -/
def take (undefined : UndefinedScore) (clientid : Bytes) (value : Float) (ts : Timespec) (s : Survey) :
    Except Fault Survey :=
  if s.listening = true ∧ clientid ∉ s.table.map Answer.clientid then
    if clientid.length < 64 ∧ s.table.length < dataPlaneFeedbackMax then
      match storedTimeScore undefined s.windowStart ts s.windowSize with
      | none => .error .outOfRange
      | some score => .ok { s with table := s.table ++ [⟨clientid, value, score⟩] }
    else .error .badAccess
  else .ok s

def hear (atof : Bytes → Float) (undefined : UndefinedScore) (payload : Bytes) (ts : Timespec) (s : Survey) :
    Except Fault Survey := do
  match ← readSample payload with
  | none => .ok s
  | some (clientid, value) => s.take undefined clientid (atof value) ts

def next (now : Timespec) (s : Survey) : SurveyOutput × Survey :=
  match s.phase with
  | .request => (.requested, { s with phase := .activate })
  | .activate => (.none, { s with phase := .reset })
  | .reset => (.none, { s with phase := .stamp, table := [] })
  | .stamp => (.none, { s with phase := .deactivate, windowStart := now })
  | .deactivate => (.none, { s with phase := .evaluate })
  | .evaluate => (.none, { s with phase := .submit })
  | .submit => (if s.table = [] then .none else .submitted s.ratings, { s with phase := .finish })
  | .finish => (.none, { s with phase := .request, table := [] })

def step (atof : Bytes → Float) (undefined : UndefinedScore) (s : Survey) :
    QueryEvent → Except Fault (SurveyOutput × Survey)
  | .task now => .ok (s.next now)
  | .message _ payload ts => (s.hear atof undefined payload ts).map fun s => (.none, s)

end Survey

/-! ## What the arrays show -/

def FeedbackEntry.rating (entry : FeedbackEntry) : Rating where
  identity := cString entry.feedback.identity
  sensorType := entry.feedback.sensorType
  sensorScore := entry.feedback.sensorScore
  timeScore := entry.feedback.timeScore

def QueryOutput.ratings : QueryOutput → SurveyOutput
  | .none => .none
  | .requested => .requested
  | .submitted feedback => .submitted (feedback.map FeedbackEntry.rating)

/-- A step, with the strings that are in what is submitted. -/
def QueryTask.observe (atof : Bytes → Float) (undefined : UndefinedScore) (t : QueryTask) (e : QueryEvent) :
    Except Fault (SurveyOutput × QueryTask) :=
  (t.step atof undefined e).map fun r => (r.1.ratings, r.2)

/-- The two arrays up to `feedback_length`. -/
def Reputation.entries (rep : Reputation) : List (FeedbackEntry × Float32) :=
  (rep.feedback.toList.take rep.feedbackLength).zip (rep.sensorVal.toList.take rep.feedbackLength)

/-- What an entry has from the start. -/
def entryFacts (x : FeedbackEntry × Float32) : Bytes × UInt32 × UInt16 × Float32 :=
  (cString x.1.feedback.identity, x.1.feedback.sensorType, x.1.feedback.timeScore, x.2)

def Answer.facts (a : Answer) : Bytes × UInt32 × UInt16 × Float32 := (a.clientid, 101, a.timeScore, a.value.toFloat32)

/-- The array has the scores when there is a target value, and when `evaluate` is done. -/
def Survey.Scored (s : Survey) : Prop := s.targetValue ≠ -1 ∨ s.phase = .submit

/-- The arrays picture the survey. -/
structure Pictures (t : QueryTask) (s : Survey) : Prop where
  phase : t.phase = s.phase
  targetValue : t.rep.targetValue = s.targetValue
  windowSize : t.rep.windowSize = s.windowSize
  windowStart : t.rep.windowStart = s.windowStart
  active : t.rep.feedbackActive = s.listening
  length : t.rep.feedbackLength = s.table.length
  le : s.table.length ≤ dataPlaneFeedbackMax
  entries : t.rep.entries.map entryFacts = s.table.map Answer.facts
  scores : s.Scored → t.rep.entries.map (fun x => x.1.feedback.sensorScore) = s.table.map s.score

/-! ## Reading a payload -/

/-- A token is a string, and shorter than the block that it is found in. -/
theorem strtok_token {delim s p next : Bytes} (h : strtok delim s = .ok (some (p, next))) :
    0 ∉ p ∧ p.length < s.length := by
  unfold strtok at h
  split at h
  · cases h
  · next c t hskip =>
    have hle : (c :: t).length ≤ s.length := by
      rw [← hskip]
      exact (List.dropWhile_sublist _).length_le
    split at h
    · cases h
    · split at h
      · cases h
      · next d rest hrest =>
        cases h
        refine ⟨fun hmem => by simpa using List.mem_takeWhile_imp hmem, ?_⟩
        have hparts := congrArg List.length (List.takeWhile_append_dropWhile
          (p := fun c => decide (c ≠ 0 ∧ c ∉ delim)) (l := c :: t))
        rw [hrest, List.length_append, List.length_cons] at hparts
        omega

/-- **A payload is read**, then its sample is recorded. -/
theorem handleData_read (atof : Bytes → Float) (undefined : UndefinedScore) (feature payload : Bytes) (ts : Timespec)
    (rep : Reputation) : handleData atof undefined (some feature)
    (some payload) ts rep = (readSample payload).bind fun read =>
      match read with
      | none => .ok rep
      | some (clientid, value) => rep.record undefined clientid (atof value) ts := by
  unfold readSample
  split
  · next hlegible => exact handleData_eq (by omega) (hlegible.symm.imp And.right id)
  · next hlegible =>
    rw [not_or, not_and] at hlegible
    have hne : payload ≠ [] := by
      rintro rfl
      exact hlegible.1 (by decide)
    split
    · next hfull =>
      -- the buffer is the payload, and no NUL is in it
      have hmsg : writeAt zeroBuffer 0 payload = .ok payload := by
        rw [memcpy_msg (Nat.le_of_eq hfull), hfull, Nat.sub_self, List.replicate_zero, List.append_nil]
      simp only [handleData, if_neg hne, hmsg, bind, Except.bind]
      cases hfirst : strtok colon payload with
      | error f => rfl
      | ok first =>
        cases first with
        | none => rfl
        | some t =>
          obtain ⟨clientid, next⟩ := t
          obtain ⟨hnul, hlen⟩ := strtok_token hfirst
          have hcopy : strcpy zeroBuffer clientid = _ := strcpy_ok (by rw [zeroBuffer_length, ← hfull]; exact hlen)
          simp only [hcopy]
          cases strtok colon next with
          | error f => rfl
          | ok second =>
            cases second with
            | none => rfl
            | some u => simp only [Option.map_some, cString_append hnul]
    · next hfull =>
      have hcopy : writeAt zeroBuffer 0 payload = .error .badAccess := memcpy_overrun (by omega)
      simp only [handleData, if_neg hne, hcopy, bind, Except.bind]

theorem zero_not_mem_readSample {clientid value : Bytes} (h : readSample payload = .ok (some (clientid, value))) :
    0 ∉ clientid := by
  unfold readSample at h
  split at h
  · exact zero_not_mem_sample (Except.ok.inj h)
  · split at h
    · cases hfirst : strtok colon payload with
      | error f =>
        rw [hfirst] at h
        cases h
      | ok first =>
        cases first with
        | none =>
          rw [hfirst] at h
          cases h
        | some t =>
          simp only [hfirst, bind, Except.bind] at h
          cases hsecond : strtok colon t.2 with
          | error f =>
            rw [hsecond] at h
            cases h
          | ok second =>
            simp only [hsecond, Except.ok.injEq, Option.map_eq_some_iff, Prod.mk.injEq] at h
            obtain ⟨u, -, rfl, -⟩ := h
            exact (strtok_token hfirst).1
    · cases h

/-! ## One message -/

/-- **A new sample** is written behind the others, with its scores. -/
theorem append_entry {clientid : Bytes} (hlen : rep.feedbackLength < dataPlaneFeedbackMax) (hid : clientid.length < 64)
    (hnul : 0 ∉ clientid) (value : Float) {score : UInt16}
    (hscore : storedTimeScore undefined rep.windowStart ts rep.windowSize = some score) :
    ∃ rep' entry, rep.append undefined clientid value ts = .ok rep' ∧
      rep'.targetValue = rep.targetValue ∧ rep'.windowSize = rep.windowSize ∧ rep'.windowStart = rep.windowStart ∧
      rep'.feedbackActive = rep.feedbackActive ∧ rep'.feedbackLength = rep.feedbackLength + 1 ∧
      rep'.entries = rep.entries ++ [(entry, value.toFloat32)] ∧
      entryFacts (entry, value.toFloat32) = (clientid, 101, score, value.toFloat32) ∧
      ∃ old, entry.feedback.sensorScore = sensorScore rep.targetValue value old := by
  obtain ⟨entry, hcopy, htype, htime, hsensor, happend⟩ := exists_entry hlen hid value score
  refine ⟨_, entry, happend undefined ts hscore, rfl, rfl, rfl, rfl, rfl, ?_, ?_, hsensor⟩
  · have hfeedback : rep.feedbackLength < rep.feedback.toList.length := by rwa [Vector.length_toList]
    have hval : rep.feedbackLength < rep.sensorVal.toList.length := by rwa [Vector.length_toList]
    simp only [Reputation.entries, Vector.toList_set, take_succ_set hfeedback, take_succ_set hval]
    exact List.zip_append rep.recorded_lengths
  · simp only [entryFacts, cString_strcpy hnul hcopy, htype, htime]

theorem entries_identities (rep : Reputation) : rep.entries.map (fun x => cString x.1.feedback.identity) =
    rep.recorded.map Prod.fst := by
  rw [Reputation.recorded, List.map_map]
  rfl

namespace Pictures

variable {t : QueryTask} {s : Survey}

/-- The duplicate scan finds the senders of the table. -/
theorem identities (h : Pictures t s) : t.rep.recorded.map Prod.fst = s.table.map Answer.clientid := by
  have hfirst := congrArg (List.map Prod.fst) h.entries
  rw [List.map_map, List.map_map] at hfirst
  rw [← entries_identities]
  exact hfirst

theorem records_iff (h : Pictures t s) (clientid : Bytes) :
    t.rep.Records clientid ↔ s.listening = true ∧ clientid ∉ s.table.map Answer.clientid := by
  have hnew : t.rep.delivered clientid = false ↔ clientid ∉ s.table.map Answer.clientid := by
    rw [← Bool.not_eq_true, delivered_eq_true, h.identities]
  have hle : t.rep.feedbackLength ≤ dataPlaneFeedbackMax := h.length.trans_le h.le
  unfold Reputation.Records
  rw [h.active, hnew, and_iff_right hle]

theorem take (h : Pictures t s) (undefined : UndefinedScore) {clientid : Bytes} (hnul : 0 ∉ clientid) (value : Float)
    (ts : Timespec) :
    Agree Pictures ((t.rep.record undefined clientid value ts).map
      fun rep => (SurveyOutput.none, { t with rep := rep }))
      ((s.take undefined clientid value ts).map fun s => (SurveyOutput.none, s)) := by
  unfold Survey.take
  by_cases hrec : t.rep.Records clientid
  · rw [record_of_records hrec, if_pos ((h.records_iff clientid).1 hrec)]
    have hopen := ((h.records_iff clientid).1 hrec).1
    split
    · next hroom =>
      have hlen : t.rep.feedbackLength < dataPlaneFeedbackMax := by rw [h.length]; exact hroom.2
      have hsame : storedTimeScore undefined t.rep.windowStart ts t.rep.windowSize =
          storedTimeScore undefined s.windowStart ts s.windowSize := by rw [h.windowStart, h.windowSize]
      cases hscore : storedTimeScore undefined s.windowStart ts s.windowSize with
      | none =>
        rw [append_undefined hlen hroom.1 value (hsame.trans hscore)]
        exact .error _
      | some score =>
        obtain ⟨rep', entry, happend, htarget, hsize, hstart, hactive, hlength, hentries, hfacts, old, hsensor⟩ :=
          append_entry hlen hroom.1 hnul value (hsame.trans hscore)
        rw [happend]
        refine .ok
          { phase := h.phase
            targetValue := htarget.trans h.targetValue
            windowSize := hsize.trans h.windowSize
            windowStart := hstart.trans h.windowStart
            active := hactive.trans h.active
            length := ?_
            le := ?_
            entries := ?_
            scores := ?_ }
        · rw [List.length_append, List.length_singleton]
          exact hlength.trans (congrArg (· + 1) h.length)
        · rw [List.length_append, List.length_singleton]
          exact hroom.2
        · rw [hentries, List.map_append, List.map_append, h.entries, List.map_singleton, List.map_singleton, hfacts]
          rfl
        · -- while the window is open, a score is that against the target value
          intro hscored
          have htv : s.targetValue ≠ -1 := by
            rcases hscored with htv | hphase
            · exact htv
            · have hsubmit : s.phase = .submit := hphase
              simp [Survey.listening, hsubmit] at hopen
          have hkept : ∀ a, Survey.score { s with table := s.table ++ [⟨clientid, value, score⟩] } a = s.score a :=
            fun a => by simp only [Survey.score, if_neg htv]
          rw [hentries, List.map_append, List.map_append, h.scores (.inl htv), List.map_singleton, List.map_singleton,
            hsensor, h.targetValue, hkept, List.map_congr_left fun a _ => hkept a]
          simp only [sensorScore, Survey.score, if_neg htv, if_pos htv]
    · next hroom =>
      rcases not_and_or.1 hroom with hid | hfull
      · rw [append_long (Nat.not_lt.1 hid)]
        exact .error _
      · rw [append_full (by rw [h.length]; exact Nat.not_lt.1 hfull)]
        exact .error _
  · rw [record_of_not_records hrec, if_neg fun hnew => hrec ((h.records_iff clientid).2 hnew)]
    exact .ok h

/-- **One message** has the same outcome on the arrays and on the table. -/
theorem hear (h : Pictures t s) (atof : Bytes → Float) (undefined : UndefinedScore) (feature payload : Bytes)
    (ts : Timespec) : Agree Pictures (t.observe atof undefined (.message feature payload ts))
      (s.step atof undefined (.message feature payload ts)) := by
  simp only [QueryTask.observe, QueryTask.step, Survey.step, Survey.hear, handleData_read, bind, Except.bind]
  cases hread : readSample payload with
  | error f => exact .error f
  | ok read =>
    cases read with
    | none => exact .ok h
    | some u =>
      obtain ⟨clientid, value⟩ := u
      have htake := h.take undefined (zero_not_mem_readSample hread) (atof value) ts
      simp only
      cases hrecord : t.rep.record undefined clientid (atof value) ts with
      | error f =>
        rw [hrecord] at htake
        exact htake
      | ok rep =>
        rw [hrecord] at htake
        exact htake

end Pictures

/-! ## One statement of the task -/

/-- The distance to the mean, as a score. -/
def Reputation.meanScore (rep : Reputation) (value : Float32) : UInt16 :=
  let val := value.toFloat - rep.average
  getSensorFeedback (if val < 0 then val * -1 else val)

/-- The scores are written over the ones that are there. -/
theorem evaluate_entries (htarget : rep.targetValue = -1) (hlen : rep.feedbackLength ≠ 0) :
    rep.evaluate.entries = rep.entries.map fun x => (x.1.setScore (rep.meanScore x.2), x.2) := by
  unfold Reputation.evaluate
  rw [if_pos ⟨htarget, hlen⟩]
  refine List.ext_getElem (by simp [Reputation.entries]) fun i hi hi' => ?_
  have hlt : i < rep.feedbackLength := by
    simp [Reputation.entries] at hi
    omega
  simp [Reputation.entries, hlt, Reputation.meanScore]
  rfl

theorem entries_values (rep : Reputation) : rep.entries.map Prod.snd = rep.sensorVal.toList.take rep.feedbackLength :=
  List.map_snd_zip (Nat.le_of_eq rep.recorded_lengths.symm)

theorem evaluate_fields (rep : Reputation) : rep.evaluate.targetValue = rep.targetValue ∧
    rep.evaluate.windowSize = rep.windowSize ∧ rep.evaluate.windowStart = rep.windowStart ∧
    rep.evaluate.feedbackActive = rep.feedbackActive ∧ rep.evaluate.feedbackLength = rep.feedbackLength := by
  unfold Reputation.evaluate
  split
  · exact ⟨rfl, rfl, rfl, rfl, rfl⟩
  · exact ⟨rfl, rfl, rfl, rfl, rfl⟩

namespace Pictures

variable {t : QueryTask} {s : Survey}

theorem values (h : Pictures t s) : t.rep.sensorVal.toList.take t.rep.feedbackLength =
    s.table.map fun a => a.value.toFloat32 := by
  have hlast := congrArg (List.map fun x => x.2.2.2) h.entries
  rw [List.map_map, List.map_map] at hlast
  rw [← entries_values]
  exact hlast

/-- The mean is that of the answers. -/
theorem average (h : Pictures t s) : t.rep.average = s.mean := by
  unfold Reputation.average Survey.mean
  rw [h.values, h.length]

/-- The scores are those of the answers, when the task has evaluated them. -/
theorem evaluate (h : Pictures t s) (hphase : s.phase = .evaluate) :
    Pictures ⟨.submit, t.rep.evaluate⟩ { s with phase := .submit } := by
  obtain ⟨htarget, hsize, hstart, hactive, hlength⟩ := evaluate_fields t.rep
  have hscore : ∀ a, Survey.score { s with phase := .submit } a = s.score a := fun a => rfl
  have hparts : t.rep.evaluate.entries.map entryFacts = s.table.map Answer.facts ∧
      t.rep.evaluate.entries.map (fun x => x.1.feedback.sensorScore) = s.table.map s.score := by
    by_cases hmean : t.rep.targetValue = -1 ∧ t.rep.feedbackLength ≠ 0
    · rw [evaluate_entries hmean.1 hmean.2, List.map_map, List.map_map]
      refine ⟨h.entries, ?_⟩
      -- a score depends on the value only
      have hvalues : t.rep.entries.map Prod.snd = s.table.map fun a => a.value.toFloat32 := by
        rw [entries_values, h.values]
      have hmap := congrArg (List.map t.rep.meanScore) hvalues
      rw [List.map_map, List.map_map] at hmap
      refine hmap.trans (List.map_congr_left fun a _ => ?_)
      simp only [Function.comp_apply, Reputation.meanScore, Survey.score, h.average, if_pos (h.targetValue ▸ hmean.1)]
    · have hsame : t.rep.evaluate = t.rep := if_neg hmean
      rw [hsame]
      refine ⟨h.entries, ?_⟩
      by_cases htv : s.targetValue = -1
      · have hempty : t.rep.feedbackLength = 0 := by
          by_contra hne
          exact hmean ⟨h.targetValue.trans htv, hne⟩
        have htable : s.table = [] := List.length_eq_zero_iff.1 (h.length.symm.trans hempty)
        simp [Reputation.entries, hempty, htable]
      · exact h.scores (.inl htv)
  exact
    { phase := rfl
      targetValue := htarget.trans h.targetValue
      windowSize := hsize.trans h.windowSize
      windowStart := hstart.trans h.windowStart
      active := by
        rw [hactive, h.active]
        simp [Survey.listening, hphase]
      length := hlength.trans h.length
      le := h.le
      entries := hparts.1
      scores := fun _ => hparts.2 }

/-- What is submitted are the ratings of the table. -/
theorem ratings (h : Pictures t s) (hphase : s.phase = .submit) :
    (t.rep.feedback.toList.take t.rep.feedbackLength).map FeedbackEntry.rating = s.ratings := by
  have hfirst : (t.rep.feedback.toList.take t.rep.feedbackLength) = t.rep.entries.map Prod.fst :=
    (List.map_fst_zip (Nat.le_of_eq t.rep.recorded_lengths)).symm
  have hscores := h.scores (.inr hphase)
  have hentries := h.entries
  have hlen : t.rep.entries.length = s.table.length := by simpa using congrArg List.length hentries
  rw [hfirst, List.map_map]
  refine List.ext_getElem (by simp [Survey.ratings, hlen]) fun i hi hi' => ?_
  have hi₁ : i < t.rep.entries.length := by simpa using hi
  have hi₂ : i < s.table.length := hlen ▸ hi₁
  have hfacts : entryFacts (t.rep.entries.get ⟨i, hi₁⟩) = (s.table.get ⟨i, hi₂⟩).facts := by
    simpa [hi₁, hi₂] using congrArg (fun l => l[i]?) hentries
  have hscore : (t.rep.entries.get ⟨i, hi₁⟩).1.feedback.sensorScore = s.score (s.table.get ⟨i, hi₂⟩) := by
    simpa [hi₁, hi₂] using congrArg (fun l => l[i]?) hscores
  simp only [entryFacts, Answer.facts, Prod.mk.injEq] at hfacts
  obtain ⟨hid, htype, htime, -⟩ := hfacts
  simp only [List.get_eq_getElem] at hid htype htime hscore
  simp [Survey.ratings, FeedbackEntry.rating, hid, htype, htime, hscore]

/-- A statement that writes nothing but the flag, and the survey listens as the flag says. -/
theorem flag (h : Pictures t s) (phase : QueryPhase) {active : Bool} (hne : phase ≠ .submit)
    (hactive : active = Survey.listening { s with phase := phase }) :
    Pictures ⟨phase, { t.rep with feedbackActive := active }⟩ { s with phase := phase } where
  phase := rfl
  targetValue := h.targetValue
  windowSize := h.windowSize
  windowStart := h.windowStart
  active := hactive
  length := h.length
  le := h.le
  entries := h.entries
  scores := fun hscored => h.scores (.inl (hscored.resolve_right hne))

/-- The table is emptied. -/
theorem empty (h : Pictures t s) (phase : QueryPhase)
    (hactive : s.listening = Survey.listening { s with phase := phase }) :
    Pictures ⟨phase, { t.rep with feedbackLength := 0 }⟩ { s with phase := phase, table := [] } where
  phase := rfl
  targetValue := h.targetValue
  windowSize := h.windowSize
  windowStart := h.windowStart
  active := h.active.trans hactive
  length := rfl
  le := Nat.zero_le _
  entries := by simp [Reputation.entries]
  scores := fun _ => by simp [Reputation.entries]

/-- **One statement** has the same outcome on the arrays and on the table. -/
theorem next (h : Pictures t s) (now : Timespec) : (t.next now).1.ratings = (s.next now).1 ∧
    Pictures (t.next now).2 (s.next now).2 := by
  obtain ⟨phase, rep⟩ := t
  obtain ⟨phase', targetValue, windowSize, windowStart, table⟩ := s
  obtain rfl : phase = phase' := h.phase
  have hactive := h.active
  cases phase with
  | request => exact ⟨rfl, h.flag .activate (by decide) hactive⟩
  | activate => exact ⟨rfl, h.flag .reset (by decide) rfl⟩
  | reset => exact ⟨rfl, h.empty .stamp rfl⟩
  | stamp =>
    have hsame := h.flag .deactivate (by decide) hactive
    exact ⟨rfl, { hsame with windowStart := rfl, scores := hsame.scores }⟩
  | deactivate => exact ⟨rfl, h.flag .evaluate (by decide) rfl⟩
  | evaluate => exact ⟨rfl, h.evaluate rfl⟩
  | submit =>
    refine ⟨?_, h.flag .finish (by decide) hactive⟩
    have hratings := h.ratings rfl
    have hlength : rep.feedbackLength = table.length := h.length
    have hempty : rep.feedbackLength ≠ 0 ↔ ¬ table = [] := by rw [hlength, ne_eq, List.length_eq_zero_iff]
    simp only [QueryTask.next, Survey.next]
    by_cases htable : table = []
    · rw [if_pos htable, if_neg (mt hempty.1 (not_not.2 htable))]
      rfl
    · rw [if_neg htable, if_pos (hempty.2 htable), QueryOutput.ratings, hratings]
  | finish => exact ⟨rfl, h.empty .request rfl⟩

theorem step (t : QueryTask) (s : Survey) (e : QueryEvent) (h : Pictures t s) :
    Agree Pictures (t.observe atof undefined e) (s.step atof undefined e) := by
  cases e with
  | task now => exact (h.next now)
  | message feature payload ts => exact h.hear atof undefined feature payload ts

end Pictures

theorem pictures_start (windowSize targetValue : Int32) :
    Pictures ⟨.request, setReputation windowSize targetValue⟩ (Survey.start windowSize targetValue) where
  phase := rfl
  targetValue := rfl
  windowSize := rfl
  windowStart := rfl
  active := rfl
  length := rfl
  le := Nat.zero_le _
  entries := by simp [Reputation.entries, setReputation, Survey.start]
  scores := fun _ => by simp [Reputation.entries, setReputation, Survey.start]

def DataMessage.event (m : DataMessage) : QueryEvent := .message m.feature m.payload m.ts

/-- Once through the loop of the task: the time of each statement, and the messages that come after it. -/
structure QueryRound where
  now : QueryPhase → Timespec
  messages : QueryPhase → List DataMessage

def QueryRound.segment (r : QueryRound) (p : QueryPhase) : List QueryEvent :=
  .task (r.now p) :: (r.messages p).map DataMessage.event

def QueryRound.events (r : QueryRound) : List QueryEvent :=
  r.segment .request ++ (r.segment .activate ++ (r.segment .reset ++ (r.segment .stamp ++ (r.segment .deactivate ++
    (r.segment .evaluate ++ (r.segment .submit ++ r.segment .finish))))))

/-- The messages that the window takes: those that come when it has been reset and is still active. -/
def QueryRound.window (r : QueryRound) : List DataMessage := r.messages .reset ++ r.messages .stamp

/-- The arrays have room for what comes before the reset, and for what comes behind it. -/
def QueryRound.Fits (r : QueryRound) : Prop :=
  (senders (r.messages .activate)).card ≤ dataPlaneFeedbackMax ∧ (senders r.window).card ≤ dataPlaneFeedbackMax

instance (r : QueryRound) : Decidable r.Fits := inferInstanceAs (Decidable (_ ∧ _))

/-- A sample that comes, and what is stored as its time score, if the program goes on. -/
structure Candidate where
  clientid : Bytes
  value : Float
  timeScore : Option UInt16

def Candidate.answer (c : Candidate) : Option Answer := c.timeScore.map fun score => ⟨c.clientid, c.value, score⟩

def Answer.candidate (a : Answer) : Candidate := ⟨a.clientid, a.value, some a.timeScore⟩

/-- The answers, if the program goes on at all of their time scores. -/
def scored (cs : List Candidate) : Option (List Answer) := cs.mapM Candidate.answer

section
variable (atof : Bytes → Float) (undefined : UndefinedScore) (windowSize targetValue : Int32)

def DataMessage.candidate (windowStart : Timespec) (m : DataMessage) : Option Candidate :=
  m.sample.map fun t => ⟨t.1, atof t.2, storedTimeScore undefined windowStart m.ts windowSize⟩

def candidates (windowStart : Timespec) (ms : List DataMessage) : List Candidate :=
  ms.filterMap (DataMessage.candidate atof undefined windowSize windowStart)

/-- The first sample of each sender before the reset. -/
def QueryRound.early (windowStart : Timespec) (r : QueryRound) : List Candidate :=
  firsts Candidate.clientid (candidates atof undefined windowSize windowStart (r.messages .activate))

/-- The first sample of each sender in the window. What comes before `window_start` is read is scored against the start
of the window before. -/
def QueryRound.heard (windowStart : Timespec) (r : QueryRound) : List Candidate :=
  firsts Candidate.clientid (candidates atof undefined windowSize windowStart (r.messages .reset) ++
    candidates atof undefined windowSize (r.now .stamp) (r.messages .stamp))

/-- What a round asks and submits when its window has the answers in `table`. -/
def QueryRound.asks (r : QueryRound) (table : List Answer) : List SurveyOutput :=
  .requested :: if table = [] then [] else
    [.submitted (Survey.ratings ⟨.submit, targetValue, windowSize, r.now .stamp, table⟩)]

/-- What a round asks and submits, if it comes to its end. -/
def QueryRound.outputs (windowStart : Timespec) (r : QueryRound) : Option (List SurveyOutput) :=
  if r.Fits then do
    let _ ← scored (r.early atof undefined windowSize windowStart)
    let table ← scored (r.heard atof undefined windowSize windowStart)
    some (r.asks windowSize targetValue table)
  else none

/-- What rounds ask and submit, if they come to their end. -/
def roundOutputs : Timespec → List QueryRound → Option (List SurveyOutput)
  | _, [] => some []
  | windowStart, r :: rs => do
    let outputs ← r.outputs atof undefined windowSize targetValue windowStart
    let rest ← roundOutputs (r.now .stamp) rs
    some (outputs ++ rest)

end

/-- What is not silence. -/
def said (outputs : List SurveyOutput) : List SurveyOutput := outputs.filter fun o =>
  match o with
  | .none => false
  | _ => true

theorem said_silence (n : ℕ) : said (List.replicate n .none) = [] := by
  rw [said, List.filter_eq_nil_iff]
  intro o ho
  rw [List.eq_of_mem_replicate ho]
  exact Bool.false_ne_true

section
variable {s : Survey} {windowSize targetValue : Int32} {windowStart : Timespec} {cs pre : List Candidate}
  {table : List Answer}

/-! ### Scoring candidates -/

theorem scored_cons (c : Candidate) (cs : List Candidate) :
    scored (c :: cs) = c.answer.bind fun a => (scored cs).map (a :: ·) := by
  simp only [scored, List.mapM_cons]
  cases c.answer with
  | none => rfl
  | some a => cases cs.mapM Candidate.answer <;> rfl

theorem answer_eq_some {c : Candidate} {a : Answer} : c.answer = some a ↔ c = a.candidate := by
  obtain ⟨clientid, value, score⟩ := c
  obtain ⟨clientid', value', score'⟩ := a
  cases score <;> simp [Candidate.answer, Answer.candidate]

theorem scored_eq_some : scored cs = some table ↔ cs = table.map Answer.candidate := by
  induction cs generalizing table with
  | nil => cases table <;> simp [scored]
  | cons c cs ih =>
    rw [scored_cons]
    cases table with
    | nil => cases c.answer <;> simp
    | cons a table => simp [Option.bind_eq_some_iff, answer_eq_some, ih]

/-- A score that is undefined stays in a list that grows. -/
theorem scored_eq_none (hpre : pre <+: cs) (h : scored pre = none) : scored cs = none := by
  rw [Option.eq_none_iff_forall_not_mem] at h ⊢
  intro table htable
  obtain rfl := scored_eq_some.1 htable
  refine h (table.take pre.length) (scored_eq_some.2 ?_)
  rw [List.map_take]
  exact List.prefix_iff_eq_take.1 hpre

theorem candidates_clientids (windowStart : Timespec) (ms : List DataMessage) :
    (candidates atof undefined windowSize windowStart ms).map Candidate.clientid = (samples ms).map Prod.fst := by
  unfold candidates samples
  rw [List.map_filterMap, List.map_filterMap]
  refine List.filterMap_congr fun m _ => ?_
  simp only [DataMessage.candidate, Option.map_map]
  rfl

theorem QueryRound.length_early (r : QueryRound) :
    (r.early atof undefined windowSize windowStart).length = (senders (r.messages .activate)).card := by
  unfold QueryRound.early
  rw [length_firsts, candidates_clientids]
  rfl

theorem QueryRound.length_heard (r : QueryRound) :
    (r.heard atof undefined windowSize windowStart).length = (senders r.window).card := by
  unfold QueryRound.heard
  rw [length_firsts, List.map_append, candidates_clientids, candidates_clientids, ← List.map_append]
  unfold senders QueryRound.window samples
  rw [List.filterMap_append]

/-! ### Messages between two statements -/

theorem readSample_message (m : DataMessage) : readSample m.payload = .ok m.sample := if_pos (.inl m.short)

/-- A message to a survey that does not listen. -/
theorem Survey.hear_closed (hclosed : s.listening = false) (m : DataMessage) :
    s.hear atof undefined m.payload m.ts = .ok s := by
  unfold Survey.hear
  rw [readSample_message]
  simp only [bind, Except.bind]
  cases m.sample with
  | none => rfl
  | some t => exact if_neg fun h => by simp [hclosed] at h

/-- The candidates when messages have come. -/
def Survey.joined (atof : Bytes → Float) (undefined : UndefinedScore) (s : Survey) (ms : List DataMessage) :
    List Candidate :=
  (candidates atof undefined s.windowSize s.windowStart ms).foldl (add Candidate.clientid)
    (s.table.map Answer.candidate)

/-- The survey with the answers to the candidates, if there is room for them and the program goes on. -/
def Survey.withAnswers (s : Survey) (cs : List Candidate) : Option Survey :=
  if cs.length ≤ dataPlaneFeedbackMax then (scored cs).map fun table => { s with table := table } else none

theorem Survey.withAnswers_self (hle : s.table.length ≤ dataPlaneFeedbackMax) :
    s.withAnswers (s.table.map Answer.candidate) = some s := by
  unfold Survey.withAnswers
  rw [if_pos (by rwa [List.length_map]), scored_eq_some.2 rfl]
  rfl

theorem Survey.withAnswers_eq_some {s' : Survey} : s.withAnswers cs = some s' ↔
    cs.length ≤ dataPlaneFeedbackMax ∧ ∃ table : List Answer, cs = table.map Answer.candidate ∧
      s' = { s with table := table } := by
  unfold Survey.withAnswers
  split
  · next hle =>
    rw [Option.map_eq_some_iff, and_iff_right hle]
    exact exists_congr fun table => and_congr scored_eq_some eq_comm
  · next hgt => exact iff_of_false nofun fun h => hgt h.1

theorem Survey.withAnswers_eq_none : s.withAnswers cs = none ↔
    (cs.length ≤ dataPlaneFeedbackMax → scored cs = none) := by
  unfold Survey.withAnswers
  split
  · next hle => rw [Option.map_eq_none_iff, forall_prop_of_true hle]
  · next hgt => exact iff_of_true rfl fun hle => absurd hle hgt

/-- More candidates are no help. -/
theorem Survey.withAnswers_none {s' : Survey} (hpre : pre <+: cs) (h : s.withAnswers pre = none) :
    s'.withAnswers cs = none :=
  withAnswers_eq_none.2 fun hle => scored_eq_none hpre (withAnswers_eq_none.1 h (Nat.le_trans hpre.length_le hle))

/-- A message to a survey that listens. -/
theorem Survey.hear_open (hopen : s.listening = true) (hle : s.table.length ≤ dataPlaneFeedbackMax) (m : DataMessage) :
    (s.hear atof undefined m.payload m.ts).toOption = s.withAnswers (s.joined atof undefined [m]) := by
  have hself := s.withAnswers_self hle
  unfold Survey.hear
  rw [readSample_message]
  simp only [bind, Except.bind]
  rcases Option.eq_none_or_eq_some m.sample with hsample | ⟨⟨clientid, value⟩, hsample⟩
  · have hjoined : s.joined atof undefined [m] = s.table.map Answer.candidate := by
      simp [Survey.joined, candidates, DataMessage.candidate, hsample]
    rw [hsample, hjoined, hself]
    rfl
  · have hshort := m.clientid_short clientid value hsample
    have hjoined : s.joined atof undefined [m] = add Candidate.clientid (s.table.map Answer.candidate)
        ⟨clientid, atof value, storedTimeScore undefined s.windowStart m.ts s.windowSize⟩ := by
      simp [Survey.joined, candidates, DataMessage.candidate, hsample]
    have hids : (s.table.map Answer.candidate).map Candidate.clientid = s.table.map Answer.clientid := by
      rw [List.map_map]
      rfl
    rw [hsample, hjoined, add, hids]
    simp only [Survey.take, hopen, true_and]
    by_cases hold : clientid ∈ s.table.map Answer.clientid
    · rw [if_neg (not_not.2 hold), if_pos hold, hself]
      rfl
    · rw [if_pos hold, if_neg hold]
      unfold Survey.withAnswers
      rw [List.length_append, List.length_map, List.length_singleton]
      by_cases hroom : s.table.length < dataPlaneFeedbackMax
      · have hlen : s.table.length + 1 ≤ dataPlaneFeedbackMax := hroom
        rw [if_pos ⟨hshort, hroom⟩, if_pos hlen]
        cases hscore : storedTimeScore undefined s.windowStart m.ts s.windowSize with
        | none =>
          -- the last candidate has no score
          have hnone : scored (s.table.map Answer.candidate ++ [⟨clientid, atof value, none⟩]) = none := by
            simp [scored, List.mapM_append, Candidate.answer]
          rw [hnone]
          rfl
        | some score =>
          have hsome : scored (s.table.map Answer.candidate ++ [⟨clientid, atof value, some score⟩]) =
              some (s.table ++ [⟨clientid, atof value, score⟩]) := scored_eq_some.2 (by simp [Answer.candidate])
          rw [hsome]
          rfl
      · rw [if_neg fun h => hroom h.2, if_neg fun h => hroom (Nat.lt_of_succ_le h)]
        rfl

/-- **The messages between two statements**, when the survey does not listen. -/
theorem messages_closed (hclosed : s.listening = false) (ms : List DataMessage) :
    runs (Survey.step atof undefined) s (ms.map DataMessage.event) = .ok (List.replicate ms.length .none, s) := by
  induction ms with
  | nil => rfl
  | cons m ms ih =>
    have hstep : s.step atof undefined m.event = .ok (.none, s) := by
      simp only [DataMessage.event, Survey.step, Survey.hear_closed hclosed, Except.map]
    rw [List.map_cons, runs, hstep]
    simp only [Except.bind, ih, Except.map, List.length_cons, List.replicate_succ]

theorem toOption_bind {α β : Type} (x : Except Fault α) (f : α → Except Fault β) :
    (x.bind f).toOption = x.toOption.bind fun a => (f a).toOption := by
  cases x <;> rfl

theorem toOption_map {α β : Type} (x : Except Fault α) (f : α → β) : (x.map f).toOption = x.toOption.map f := by
  cases x <;> rfl

theorem Survey.joined_cons (m : DataMessage) (ms : List DataMessage) : s.joined atof undefined (m :: ms) =
    (candidates atof undefined s.windowSize s.windowStart ms).foldl (add Candidate.clientid)
      (s.joined atof undefined [m]) := by
  have hsplit : candidates atof undefined s.windowSize s.windowStart (m :: ms) =
      candidates atof undefined s.windowSize s.windowStart [m] ++
        candidates atof undefined s.windowSize s.windowStart ms := by
    unfold candidates
    rw [← List.filterMap_append, List.singleton_append]
  unfold Survey.joined
  rw [hsplit, List.foldl_append]

/-- **The messages between two statements**, when the survey listens. -/
theorem messages_open (ms : List DataMessage) : ∀ s :
    Survey, s.listening = true → s.table.length ≤ dataPlaneFeedbackMax →
    (runs (Survey.step atof undefined) s (ms.map DataMessage.event)).toOption =
      (s.withAnswers (s.joined atof undefined ms)).map fun s => (List.replicate ms.length .none, s) := by
  induction ms with
  | nil =>
    intro s _ hle
    have hself := s.withAnswers_self hle
    exact (congrArg (Option.map _) hself).symm
  | cons m ms ih =>
    intro s hopen hle
    have hhear : (s.hear atof undefined m.payload m.ts).toOption = _ := Survey.hear_open hopen hle m
    have hstep : s.step atof undefined m.event = (s.hear atof undefined m.payload m.ts).map fun s =>
        (SurveyOutput.none, s) := rfl
    rw [List.map_cons, runs, hstep, Survey.joined_cons m ms, toOption_bind, toOption_map, hhear]
    cases hjoined : s.withAnswers (s.joined atof undefined [m]) with
    | none =>
      -- the first message has no answer, and the table only grows
      rw [Survey.withAnswers_none (prefix_foldl_add _ _) hjoined]
      rfl
    | some s' =>
      obtain ⟨hlen, table, htable, rfl⟩ := Survey.withAnswers_eq_some.1 hjoined
      rw [htable, List.length_map] at hlen
      have hrest := ih { s with table := table } hopen hlen
      rw [htable]
      simp only [Option.map_some, Option.bind_some, toOption_map, hrest, Option.map_map]
      rfl

/-! ### Rounds -/

/-- What is said in a run, and the survey at its end, if it comes to its end. -/
def told (atof : Bytes → Float) (undefined : UndefinedScore) (s : Survey) (es : List QueryEvent) :
    Option (List SurveyOutput × Survey) :=
  (runs (Survey.step atof undefined) s es).toOption.map fun r => (said r.1, r.2)

theorem told_append (es es' : List QueryEvent) : told atof undefined s (es ++ es') =
    (told atof undefined s es).bind fun r => (told atof undefined r.2 es').map fun q => (r.1 ++ q.1, q.2) := by
  unfold told
  rw [runs_append, toOption_bind]
  cases (runs (Survey.step atof undefined) s es).toOption with
  | none => rfl
  | some r =>
    simp only [Option.bind_some, Option.map_some, toOption_map, Option.map_map]
    refine congrFun (congrArg Option.map (funext fun q => ?_)) _
    simp only [Function.comp_apply, said, List.filter_append]

theorem told_segment (r : QueryRound) (p : QueryPhase) : told atof undefined s (r.segment p) =
    (runs (Survey.step atof undefined) (s.next (r.now p)).2
      ((r.messages p).map DataMessage.event)).toOption.map fun q => (said ((s.next (r.now p)).1 :: q.1), q.2) := by
  have hstep : s.step atof undefined (.task (r.now p)) = .ok (s.next (r.now p)) := rfl
  unfold told QueryRound.segment
  rw [runs, hstep, toOption_bind, Except.toOption, Option.bind_some, toOption_map, Option.map_map]
  rfl

theorem said_cons (o : SurveyOutput) (n : ℕ) : said (o :: List.replicate n .none) = said [o] := by
  rw [← List.singleton_append, said, List.filter_append, ← said, ← said, said_silence, List.append_nil]

/-- A statement, when the survey does not listen behind it. -/
theorem told_closed {r : QueryRound} {p : QueryPhase} (hclosed : (s.next (r.now p)).2.listening = false) :
    told atof undefined s (r.segment p) = some (said [(s.next (r.now p)).1], (s.next (r.now p)).2) := by
  rw [told_segment, messages_closed hclosed]
  simp only [Except.toOption, Option.map_some, said_cons]

/-- A statement, when the survey listens behind it. -/
theorem told_open {r : QueryRound} {p : QueryPhase} (s' : Survey) (hnext : s.next (r.now p) = (.none, s'))
    (hopen : s'.listening = true) (hle : s'.table.length ≤ dataPlaneFeedbackMax)
    (hcs : s'.joined atof undefined (r.messages p) = cs) :
    told atof undefined s (r.segment p) = (s'.withAnswers cs).map fun s => ([], s) := by
  subst hcs
  rw [told_segment, hnext, messages_open _ s' hopen hle, Option.map_map]
  refine congrFun (congrArg Option.map (funext fun q => ?_)) _
  simp only [Function.comp_apply, said_cons]
  rfl

theorem told_some {es es' : List QueryEvent} {out : List SurveyOutput} {s' : Survey}
    (h : told atof undefined s es = some (out, s')) :
    told atof undefined s (es ++ es') = (told atof undefined s' es').map fun q => (out ++ q.1, q.2) := by
  rw [told_append, h]
  rfl

theorem told_none {es es' : List QueryEvent} (h : told atof undefined s es = none) :
    told atof undefined s (es ++ es') = none := by
  rw [told_append, h]
  rfl

/-- The statements behind the window. -/
theorem told_close (r : QueryRound) (windowStart : Timespec) (table : List Answer) :
    told atof undefined ⟨.deactivate, targetValue, windowSize, windowStart, table⟩
      (r.segment .deactivate ++ (r.segment .evaluate ++ (r.segment .submit ++ r.segment .finish))) =
      some (if table = [] then [] else
          [.submitted (Survey.ratings ⟨.submit, targetValue, windowSize, windowStart, table⟩)],
        ⟨.request, targetValue, windowSize, windowStart, []⟩) := by
  rw [told_some (told_closed rfl), told_some (told_closed rfl), told_some (told_closed rfl), told_closed rfl]
  simp only [Survey.next, Option.map_some]
  by_cases htable : table = []
  · simp only [htable, if_true]
    rfl
  · simp only [htable, if_false]
    rfl

/-- The room before the reset is asked for first, then the time scores there, then those of the window. -/
theorem QueryRound.outputs_eq (r : QueryRound) (windowSize targetValue : Int32) (windowStart : Timespec) :
    r.outputs atof undefined windowSize targetValue windowStart =
      if (r.early atof undefined windowSize windowStart).length ≤ dataPlaneFeedbackMax then
        (scored (r.early atof undefined windowSize windowStart)).bind fun _ =>
          if (r.heard atof undefined windowSize windowStart).length ≤ dataPlaneFeedbackMax then
            (scored (r.heard atof undefined windowSize windowStart)).map fun table =>
              r.asks windowSize targetValue table
          else none
      else none := by
  have hfits : r.Fits ↔ (r.early atof undefined windowSize windowStart).length ≤ dataPlaneFeedbackMax ∧
      (r.heard atof undefined windowSize windowStart).length ≤ dataPlaneFeedbackMax := by
    rw [r.length_early, r.length_heard]
    rfl
  unfold QueryRound.outputs
  by_cases hearly : (r.early atof undefined windowSize windowStart).length ≤ dataPlaneFeedbackMax
  · by_cases hlen : (r.heard atof undefined windowSize windowStart).length ≤ dataPlaneFeedbackMax
    · rw [if_pos (hfits.2 ⟨hearly, hlen⟩), if_pos hearly, if_pos hlen]
      cases scored (r.heard atof undefined windowSize windowStart) <;> rfl
    · rw [if_neg fun h => hlen (hfits.1 h).2, if_pos hearly, if_neg hlen]
      cases scored (r.early atof undefined windowSize windowStart) <;> rfl
  · rw [if_neg fun h => hearly (hfits.1 h).1, if_neg hearly]

/-- **One round.** -/
theorem round_told (atof : Bytes → Float) (undefined : UndefinedScore) (windowSize targetValue : Int32) (r : QueryRound)
    (windowStart : Timespec) :
    told atof undefined ⟨.request, targetValue, windowSize, windowStart, []⟩ r.events =
      (r.outputs atof undefined windowSize targetValue windowStart).map fun out =>
        (out, ⟨.request, targetValue, windowSize, r.now .stamp, []⟩) := by
  have hrequest : told atof undefined ⟨.request, targetValue, windowSize, windowStart, []⟩ (r.segment .request) =
      some ([.requested], ⟨.activate, targetValue, windowSize, windowStart, []⟩) := told_closed rfl
  let early := r.early atof undefined windowSize windowStart
  let opened := firsts Candidate.clientid (candidates atof undefined windowSize windowStart (r.messages .reset))
  let heard := r.heard atof undefined windowSize windowStart
  -- what comes before the reset is taken, and forgotten
  have hactivate : told atof undefined ⟨.activate, targetValue, windowSize, windowStart, []⟩ (r.segment .activate) =
      (Survey.withAnswers ⟨.reset, targetValue, windowSize, windowStart, []⟩ early).map fun s => ([], s) :=
    told_open ⟨.reset, targetValue, windowSize, windowStart, []⟩ rfl rfl (Nat.zero_le _) rfl
  have hreset (table : List Answer) :
      told atof undefined ⟨.reset, targetValue, windowSize, windowStart, table⟩ (r.segment .reset) =
        (Survey.withAnswers ⟨.stamp, targetValue, windowSize, windowStart, []⟩ opened).map fun s => ([], s) :=
    told_open ⟨.stamp, targetValue, windowSize, windowStart, []⟩ rfl rfl (Nat.zero_le _) rfl
  have hheard : heard = (candidates atof undefined windowSize (r.now .stamp) (r.messages .stamp)).foldl
      (add Candidate.clientid) opened := firsts_append _ _
  have hgrows : opened <+: heard := hheard ▸ prefix_foldl_add _ _
  have hstamp {table : List Answer} (hle : table.length ≤ dataPlaneFeedbackMax)
      (htable : opened = table.map Answer.candidate) :
      told atof undefined ⟨.stamp, targetValue, windowSize, windowStart, table⟩ (r.segment .stamp) =
        (Survey.withAnswers ⟨.deactivate, targetValue, windowSize, r.now .stamp, table⟩ heard).map fun s => ([], s) :=
    told_open ⟨.deactivate, targetValue, windowSize, r.now .stamp, table⟩ rfl rfl hle (by rw [hheard, htable]; rfl)
  rw [QueryRound.events, told_some hrequest, r.outputs_eq]
  cases hfirst : Survey.withAnswers ⟨.reset, targetValue, windowSize, windowStart, []⟩ early with
  | none =>
    rw [told_none (by rw [hactivate, hfirst]; rfl)]
    split
    · next hle =>
      rw [Survey.withAnswers_eq_none.1 hfirst hle]
      rfl
    · rfl
  | some s₁ =>
    obtain ⟨hle₁, forgotten, hforgotten, rfl⟩ := Survey.withAnswers_eq_some.1 hfirst
    rw [if_pos hle₁, scored_eq_some.2 hforgotten, Option.bind_some, told_some (by rw [hactivate, hfirst]; rfl)]
    cases hsecond : Survey.withAnswers ⟨.stamp, targetValue, windowSize, windowStart, []⟩ opened with
    | none =>
      rw [told_none (by rw [hreset, hsecond]; rfl)]
      split
      · next hle =>
        rw [scored_eq_none hgrows (Survey.withAnswers_eq_none.1 hsecond (Nat.le_trans hgrows.length_le hle))]
        rfl
      · rfl
    | some s₂ =>
      obtain ⟨hle₂, table, htable, rfl⟩ := Survey.withAnswers_eq_some.1 hsecond
      have hlen : table.length ≤ dataPlaneFeedbackMax := by rwa [htable, List.length_map] at hle₂
      rw [told_some (by rw [hreset, hsecond]; rfl)]
      cases hthird : Survey.withAnswers ⟨.deactivate, targetValue, windowSize, r.now .stamp, table⟩ heard with
      | none =>
        rw [told_none (by rw [hstamp hlen htable, hthird]; rfl)]
        split
        · next hle =>
          rw [Survey.withAnswers_eq_none.1 hthird hle]
          rfl
        · rfl
      | some s₃ =>
        obtain ⟨hle₃, answers, hanswers, rfl⟩ := Survey.withAnswers_eq_some.1 hthird
        rw [told_some (by rw [hstamp hlen htable, hthird]; rfl), told_close, if_pos hle₃, scored_eq_some.2 hanswers]
        rfl

/-- All rounds. -/
theorem rounds_told (atof : Bytes → Float) (undefined : UndefinedScore) (windowSize targetValue : Int32) :
    ∀ (rounds : List QueryRound) (windowStart : Timespec),
      (told atof undefined ⟨.request, targetValue, windowSize, windowStart, []⟩ (rounds.flatMap QueryRound.events)).map
        Prod.fst = roundOutputs atof undefined windowSize targetValue windowStart rounds := by
  intro rounds
  induction rounds with
  | nil => exact fun _ => rfl
  | cons r rounds ih =>
    intro windowStart
    have hround := round_told atof undefined windowSize targetValue r windowStart
    rw [List.flatMap_cons, roundOutputs, ← ih (r.now .stamp)]
    cases hout : r.outputs atof undefined windowSize targetValue windowStart with
    | none =>
      rw [hout] at hround
      rw [told_none hround]
      rfl
    | some out =>
      rw [hout] at hround
      rw [told_some hround, Option.map_map]
      cases told atof undefined ⟨.request, targetValue, windowSize, r.now .stamp, []⟩
          (rounds.flatMap QueryRound.events) <;> rfl

theorem exists_scored (h : ∀ c ∈ cs, c.timeScore ≠ none) : ∃ table, scored cs = some table := by
  induction cs with
  | nil => exact ⟨[], rfl⟩
  | cons c cs ih =>
    obtain ⟨score, hscore⟩ := Option.ne_none_iff_exists'.1 (h c List.mem_cons_self)
    obtain ⟨table, htable⟩ := ih fun c hc => h c (List.mem_cons_of_mem _ hc)
    have hanswer : c.answer = some ⟨c.clientid, c.value, score⟩ := by
      unfold Candidate.answer
      rw [hscore]
      rfl
    rw [scored_cons, hanswer, htable]
    exact ⟨_, rfl⟩

/-- Where some value is always stored, the first samples have a time score. -/
theorem exists_scored_firsts (stored : Timespec → Timespec → Int32 → UInt16) {css : List Candidate}
    (h : ∀ c ∈ css, ∃ windowStart, ∃ m : DataMessage,
      m.candidate atof (.storing stored) windowSize windowStart = some c) :
    ∃ table, scored (firsts Candidate.clientid css) = some table := by
  refine exists_scored fun c hc => ?_
  obtain ⟨before, after, rfl, -⟩ := exists_first hc
  obtain ⟨windowStart, m, hm⟩ := h c (by simp)
  obtain ⟨t, -, rfl⟩ := Option.map_eq_some_iff.1 hm
  obtain ⟨score, hscore⟩ := exists_stored stored windowStart m.ts windowSize
  simp only [hscore]
  exact Option.some_ne_none score

theorem mem_candidates {windowStart : Timespec} {ms : List DataMessage} {c : Candidate}
    (h : c ∈ candidates atof undefined windowSize windowStart ms) :
    ∃ windowStart, ∃ m : DataMessage, m.candidate atof undefined windowSize windowStart = some c := by
  obtain ⟨m, -, hm⟩ := List.mem_filterMap.1 h
  exact ⟨windowStart, m, hm⟩

/-- **A program that stores some value** for every undefined time score comes to the end of the rounds exactly when no
more than 256 senders deliver a sample in a window, or before a reset. -/
theorem roundOutputs_storing (atof : Bytes → Float) (stored : Timespec → Timespec → Int32 → UInt16)
    (windowSize targetValue : Int32) (rounds : List QueryRound) : ∀ windowStart,
      (∃ outputs, roundOutputs atof (.storing stored) windowSize targetValue windowStart rounds = some outputs) ↔
        ∀ r ∈ rounds, r.Fits := by
  induction rounds with
  | nil => exact fun _ => iff_of_true ⟨_, rfl⟩ fun r hr => absurd hr List.not_mem_nil
  | cons r rounds ih =>
    intro windowStart
    rw [List.forall_mem_cons, ← ih (r.now .stamp), roundOutputs]
    by_cases hfits : r.Fits
    · obtain ⟨forgotten, hearly⟩ : ∃ table,
        scored (r.early atof (.storing stored) windowSize windowStart) = some table :=
        exists_scored_firsts stored fun c hc => mem_candidates hc
      obtain ⟨table, hheard⟩ : ∃ table, scored (r.heard atof (.storing stored) windowSize windowStart) = some table :=
        exists_scored_firsts stored fun c hc => (List.mem_append.1 hc).elim mem_candidates mem_candidates
      have hout : r.outputs atof (.storing stored) windowSize targetValue windowStart =
          some (r.asks windowSize targetValue table) := by
        unfold QueryRound.outputs
        rw [if_pos hfits, hearly, hheard]
        rfl
      rw [hout, and_iff_right hfits]
      cases roundOutputs atof (.storing stored) windowSize targetValue (r.now .stamp) rounds with
      | none => exact iff_of_false nofun nofun
      | some outputs => exact iff_of_true ⟨_, rfl⟩ ⟨_, rfl⟩
    · have hout : r.outputs atof (.storing stored) windowSize targetValue windowStart = none := if_neg hfits
      rw [hout]
      exact iff_of_false nofun fun h => hfits h.1

end

end AtlasClient
