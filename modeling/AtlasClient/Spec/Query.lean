import AtlasClient.Spec.Traffic

/-!
# The reputation query

`set_reputation` and `reputation_query_task` of `data_plane/atlas_data_plane.c`. The MQTT callback runs in another
thread, so that the task is taken apart into its statements: messages come between any two of them.

* `setReputationArg`: the `--reputation` argument.
* `QueryTask.next`: the next statement of the task.
* `QueryTask.step`: a statement of the task, or a sample that comes.
-/

namespace AtlasClient

/-! ## The argument -/

/-- What `set_reputation` comes to. -/
inductive SetReputation
  | notGiven
  | exits
  | started (feature : Bytes) (queryRate : ℤ) (rep : Reputation)

/-- The argument is a string, given without its NUL. -/
def setReputationArg (long : LongType) (reputationArg : Bytes) : Except Fault SetReputation := do
  match ← strtok colon (reputationArg ++ [0]) with
  | none => .ok .notGiven
  | some (p, next) => do
    let feature ← strcpy (List.replicate featureMaxLen 0) p
    let (queryRate, next) ← nextToken next
    let (windowSize, next) ← nextToken next
    if atoi long windowSize ≥ atoi long queryRate then .ok .exits
    else do
      let (target, _) ← nextToken next
      let targetValue := if target = ascii "average" then -1 else atoi long target
      .ok (.started (cString feature) (atoi long queryRate)
        (setReputation (Int32.ofInt (atoi long windowSize)) (Int32.ofInt targetValue)))

/-! ## The scores -/

/-- `avg`, the mean of the samples. -/
def Reputation.average (rep : Reputation) : Float :=
  (rep.sensorVal.toList.take rep.feedbackLength).foldl (fun avg val => avg + val.toFloat) 0 /
    Float.ofNat rep.feedbackLength

def FeedbackEntry.setScore (score : UInt16) (entry : FeedbackEntry) : FeedbackEntry :=
  { feedback := { entry.feedback with sensorScore := score }
    terminated := entry.terminated }

/-- If there is no target value, the distance to the mean is the score. -/
def Reputation.evaluate (rep : Reputation) : Reputation :=
  if rep.targetValue = -1 ∧ rep.feedbackLength ≠ 0 then
    { rep with feedback := rep.feedback.mapFinIdx fun i entry h =>
        if i < rep.feedbackLength then
          let val := (rep.sensorVal.get ⟨i, h⟩).toFloat - rep.average
          entry.setScore (getSensorFeedback (if val < 0 then val * -1 else val))
        else entry }
  else rep

/-! ## The task -/

/-- The statement that comes next. -/
inductive QueryPhase
  | request
  | activate
  | reset
  | stamp
  | deactivate
  | evaluate
  | submit
  | finish
  deriving DecidableEq, Repr

structure QueryTask where
  phase : QueryPhase
  rep : Reputation

/-- What comes out of a step: the question for the values, or the entries that `atlas_reputation_feedback` is given. -/
inductive QueryOutput
  | none
  | requested
  | submitted (feedback : List FeedbackEntry)

/-- The next statement. `now` is the time that `clock_gettime` gives. -/
def QueryTask.next (now : Timespec) (t : QueryTask) : QueryOutput × QueryTask :=
  match t.phase with
  | .request => (.requested, { t with phase := .activate })
  | .activate => (.none, ⟨.reset, { t.rep with feedbackActive := true }⟩)
  | .reset => (.none, ⟨.stamp, { t.rep with feedbackLength := 0 }⟩)
  | .stamp => (.none, ⟨.deactivate, { t.rep with windowStart := now }⟩)
  | .deactivate => (.none, ⟨.evaluate, { t.rep with feedbackActive := false }⟩)
  | .evaluate => (.none, ⟨.submit, t.rep.evaluate⟩)
  | .submit =>
    (if t.rep.feedbackLength ≠ 0 then .submitted (t.rep.feedback.toList.take t.rep.feedbackLength) else .none,
      { t with phase := .finish })
  | .finish => (.none, ⟨.request, { t.rep with feedbackLength := 0 }⟩)

/-- A statement of the task, or a message on the topic of a feature. -/
inductive QueryEvent
  | task (now : Timespec)
  | message (feature payload : Bytes) (ts : Timespec)

def QueryTask.step (atof : Bytes → Float) (undefined : UndefinedScore) (t : QueryTask) :
    QueryEvent → Except Fault (QueryOutput × QueryTask)
  | .task now => .ok (t.next now)
  | .message feature payload ts => do
    let rep ← handleData atof undefined (some feature) (some payload) ts t.rep
    .ok (.none, { t with rep := rep })

end AtlasClient
