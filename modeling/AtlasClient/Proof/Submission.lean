import AtlasClient.Proof.Feedback
import AtlasClient.Proof.Reconnect

/-!
# Submitting feedback

`atlas_reputation_feedback` validates and sends each entry of an array in turn, and does not use the
status of the sending.

* `body_bad`, `body_good`, `body_end`: one round of the loop.
* `rejectedWhole_iff`: **invalid feedback is rejected as a whole** exactly when no entry is bad, or the
  first one is.
* `submit_spec`: an array of valid entries is written entry by entry, and then the call succeeds.
* `acknowledged_iff`: **success means that everything was sent** exactly when every write is complete.
-/

namespace AtlasClient

open Loop

variable {e : Endian} {entry : AtlasFeedback} {feedback pre rest : List AtlasFeedback} {m : Bytes} {ms : List Bytes}

/-! ## The entries -/

/-- A score above 100. -/
def AtlasFeedback.Bad (entry : AtlasFeedback) : Prop := 100 < entry.sensorScore ∨ 100 < entry.timeScore

instance AtlasFeedback.decidableBad (entry : AtlasFeedback) : Decidable entry.Bad :=
  inferInstanceAs (Decidable (100 < entry.sensorScore ∨ 100 < entry.timeScore))

/-- Both scores are in range, and the identity is a string. -/
structure AtlasFeedback.Valid (entry : AtlasFeedback) : Prop where
  not_bad : ¬ entry.Bad
  terminated : 0 ∈ entry.identity

/-- The messages of the entries. -/
def Messages (e : Endian) (feedback : List AtlasFeedback) (ms : List Bytes) : Prop :=
  List.Forall₂ (fun entry m => sendFeedbackCommand e entry = .ok m ∧ m ≠ []) feedback ms

theorem Valid.messages (e : Endian) (h : ∀ entry ∈ feedback, entry.Valid) : ∃ ms, Messages e feedback ms := by
  induction feedback with
  | nil => exact ⟨[], .nil⟩
  | cons entry rest ih =>
    obtain ⟨hlt, hfit, -, hm⟩ := sendFeedback_eq e entry (h entry List.mem_cons_self).terminated
    obtain ⟨ms, hms⟩ := ih fun x hx => h x (List.mem_cons_of_mem _ hx)
    exact ⟨_, .cons ⟨hm, fun h0 => by cases Framing.encode_eq_nil.1 h0⟩ hms⟩

theorem Messages.ne_nil (h : Messages e feedback ms) (hne : feedback ≠ []) : ms ≠ [] := by
  rintro rfl
  exact hne (List.forall₂_nil_right_iff.1 h)

theorem Messages.forall_ne_nil (h : Messages e feedback ms) : ∀ m ∈ ms, m ≠ [] := by
  induction h with
  | nil => exact fun m hm => by cases hm
  | cons hm _ ih => exact List.forall_mem_cons.2 ⟨hm.2, ih⟩

theorem AtlasFeedback.good_valid : AtlasFeedback.good.Valid := ⟨by decide, by decide⟩

namespace Library

variable {s s' : Library} {i : ℤ} {status : AtlasStatus}

/-! ## One round -/

theorem sendFeedback_ok (s : Library) (h : AtlasClient.sendFeedbackCommand e entry = .ok m) :
    ∃ status, s.sendFeedbackCommand e entry = .ok (status, (s.writeToSocket .caller m).2) := by
  simp only [sendFeedbackCommand, h, bind, Except.bind]
  exact ⟨_, rfl⟩

theorem getElem?_middle : (pre ++ entry :: rest)[((pre.length : ℕ) : ℤ).toNat]? = some entry := by simp

/-- **A bad entry** ends the loop. -/
theorem body_bad (h : entry.Bad) (pre : List AtlasFeedback) (s : Library) :
    feedbackBody e (pre ++ entry :: rest) (pre.length, s) = .ok (.inr (.invalidInput, s)) := by
  simp only [feedbackBody, getElem?_middle]
  by_cases hsensor : 100 < entry.sensorScore
  · rw [if_pos hsensor]
  · rw [if_neg hsensor, if_pos (h.resolve_left hsensor)]

/-- **A good entry** is sent, and its status dropped. -/
theorem body_good (h : ¬ entry.Bad) (hm : AtlasClient.sendFeedbackCommand e entry = .ok m)
    (pre rest : List AtlasFeedback) (s : Library) :
    feedbackBody e (pre ++ entry :: rest) (pre.length, s) =
      if pre.length + 1 < 2 ^ 31 then
        .ok (.inl (((pre ++ [entry]).length : ℕ), (s.writeToSocket .caller m).2))
      else .error .intOverflow := by
  obtain ⟨status, hsend⟩ := sendFeedback_ok s hm
  have hsensor : ¬ 100 < entry.sensorScore := fun hb => h (Or.inl hb)
  have htime : ¬ 100 < entry.timeScore := fun hb => h (Or.inr hb)
  have hadd : addInt (pre.length : ℕ) 1 =
      if pre.length + 1 < 2 ^ 31 then .ok (((pre ++ [entry]).length : ℕ) : ℤ) else .error .intOverflow := by
    unfold addInt IsInt
    rw [List.length_append, List.length_singleton]
    push_cast
    congr 1
    simp only [eq_iff_iff]
    omega
  simp only [feedbackBody, getElem?_middle, bind]
  rw [if_neg hsensor, if_neg htime, bind_of_ok hsend, hadd]
  split <;> rfl

/-- **Behind the last entry** the loop ends. -/
theorem body_end (e : Endian) (feedback : List AtlasFeedback) (s : Library) :
    feedbackBody e feedback (feedback.length, s) = .ok (.inr (.ok, s)) := by
  have hnone : feedback[((feedback.length : ℕ) : ℤ).toNat]? = none := by simp
  simp only [feedbackBody, hnone]

/-! ## Rejection -/

theorem writeToSocket_grows (sender : Sender) (m : Bytes) (s : Library) :
    s.written.length ≤ (s.writeToSocket sender m).2.written.length := by
  unfold writeToSocket
  split
  · exact Nat.le_refl _
  · dsimp only
    split
    · exact Nat.le_refl _
    · simp

/-- What has been written stays written. -/
theorem feedbackLoop_grows {k : ℕ} (h : loop .diverges (feedbackBody e feedback) k (i, s) = .ok (status, s')) :
    s.written.length ≤ s'.written.length := by
  refine loop_inv (fun t : ℤ × Library => s.written.length ≤ t.2.written.length)
    (fun r : AtlasStatus × Library => s.written.length ≤ r.2.written.length) ?_ (Nat.le_refl _) h
  rintro ⟨j, t⟩ x ht hround
  simp only [feedbackBody, bind] at hround
  split at hround
  · cases hround
    exact ht
  split at hround
  · cases hround
    exact ht
  split at hround
  · cases hround
    exact ht
  obtain ⟨⟨st, t₁⟩, hsend, hround⟩ := bind_ok.1 hround
  obtain ⟨j₁, -, hround⟩ := bind_ok.1 hround
  cases hround
  simp only [sendFeedbackCommand, bind] at hsend
  obtain ⟨m, -, hsend⟩ := bind_ok.1 hsend
  cases hsend
  exact Nat.le_trans ht (writeToSocket_grows .caller m t)

/-- The property for an array: if an entry is bad, the call is rejected, and nothing has been written. -/
def RejectedWhole (e : Endian) (feedback : List AtlasFeedback) : Prop :=
  (∃ entry ∈ feedback, entry.Bad) → ∀ s : Library, ∃ s',
    atlasReputationFeedback e feedback s = .ok (.invalidInput, s') ∧
    s'.written = s.written

/-- An open connection, on which no write fails. -/
def working : Library where
  fd := some 0
  opened := 1
  os := ⟨fun _ => true, fun _ => true, fun _ => .complete, fun _ => none⟩
  written := []
  client := ⟨0, 0, 0⟩

/-- **A good entry in front of a bad one is sent.** -/
theorem not_rejectedWhole (hgood : ¬ entry.Bad) (hbad : ∃ x ∈ rest, x.Bad) : ¬ RejectedWhole e (entry :: rest) := by
  intro h
  obtain ⟨x, hx, hxbad⟩ := hbad
  obtain ⟨s', hcall, hwritten⟩ := h ⟨x, List.mem_cons_of_mem _ hx, hxbad⟩ working
  rw [atlasReputationFeedback, if_neg (List.cons_ne_nil _ _)] at hcall
  cases hm : AtlasClient.sendFeedbackCommand e entry with
  | error f =>
    have hsensor : ¬ 100 < entry.sensorScore := fun hb => hgood (Or.inl hb)
    have htime : ¬ 100 < entry.timeScore := fun hb => hgood (Or.inr hb)
    have hround : feedbackBody e (entry :: rest) (0, working) = .error f := by
      simp only [feedbackBody, Int.toNat_zero, List.getElem?_cons_zero, if_neg hsensor, if_neg htime,
        sendFeedbackCommand, hm, bind, Except.bind]
    rw [loop_fail hround] at hcall
    cases hcall
  | ok m =>
    have hround : feedbackBody e (entry :: rest) (0, working) = .ok (.inl (1, (working.writeToSocket .caller m).2)) :=
      body_good hgood hm [] rest working
    rw [loop_next hround] at hcall
    have hgrows := feedbackLoop_grows hcall
    rw [hwritten] at hgrows
    rw [write_complete (s := working) rfl rfl] at hgrows
    exact absurd hgrows (Nat.not_succ_le_zero 0)

/-- **Invalid feedback is rejected as a whole, and exactly when.** For every array, of any length: if an entry
has a score above 100, the call returns `ATLAS_INVALID_INPUT` and has written nothing, whatever the
socket does, if and only if no entry is bad or the first one is. -/
theorem rejectedWhole_iff (e : Endian) (feedback : List AtlasFeedback) :
    RejectedWhole e feedback ↔
      (∀ entry ∈ feedback, ¬ entry.Bad) ∨ ∃ entry, feedback.head? = some entry ∧ entry.Bad := by
  constructor
  · intro h
    by_cases hall : ∀ entry ∈ feedback, ¬ entry.Bad
    · exact Or.inl hall
    · push Not at hall
      obtain ⟨x, hx, hbad⟩ := hall
      rcases feedback with _ | ⟨entry, rest⟩
      · cases hx
      by_cases hfirst : entry.Bad
      · exact Or.inr ⟨entry, rfl, hfirst⟩
      · rcases List.mem_cons.1 hx with rfl | hx
        · exact absurd hbad hfirst
        · exact absurd h (not_rejectedWhole hfirst ⟨x, hx, hbad⟩)
  · rintro (hall | ⟨entry, hhead, hbad⟩) ⟨x, hx, hxbad⟩ s
    · exact absurd hxbad (hall x hx)
    · rcases feedback with _ | ⟨entry', rest⟩
      · cases hhead
      cases hhead
      refine ⟨s, ?_, rfl⟩
      rw [atlasReputationFeedback, if_neg (List.cons_ne_nil _ _)]
      exact loop_done (body_bad hbad [] s)

/-- A score out of range. -/
def badFeedback : AtlasFeedback := { AtlasFeedback.good with sensorScore := 101 }

/-- **The first of two entries is sent**, and then the second one is rejected. -/
theorem half_submitted : ¬ RejectedWhole .little [.good, badFeedback] :=
  not_rejectedWhole (by decide) ⟨badFeedback, by simp, by decide⟩

/-! ## Success -/

/-- What is left of the connection when a message has been written, or has not. -/
def sent (s : Library) (m : Bytes) : Library := (s.writeToSocket .caller m).2

theorem submitLoop (h : Messages e rest ms) (hgood : ∀ entry ∈ rest, ¬ entry.Bad) :
    ∀ (pre : List AtlasFeedback) (s : Library), pre.length < 2 ^ 31 →
      loop .diverges (feedbackBody e (pre ++ rest)) (rest.length + 1) (pre.length, s) =
        if (pre ++ rest).length < 2 ^ 31 then .ok (.ok, ms.foldl sent s) else .error .intOverflow := by
  induction h with
  | nil =>
    intro pre s hlt
    rw [List.append_nil, if_pos hlt]
    exact loop_done (body_end e pre s)
  | @cons entry m rest ms hm _ ih =>
    intro pre s hlt
    have hround := body_good (hgood entry List.mem_cons_self) hm.1 pre rest s
    by_cases hnext : pre.length + 1 < 2 ^ 31
    · rw [if_pos hnext] at hround
      have hrest := ih (fun x hx => hgood x (List.mem_cons_of_mem _ hx)) (pre ++ [entry])
        (sent s m) (by simpa using hnext)
      rw [List.append_assoc, List.singleton_append] at hrest
      rw [List.length_cons, loop_next hround]
      exact hrest
    · rw [if_neg hnext] at hround
      rw [loop_fail hround, if_neg (by simp; omega)]

/-- **Valid entries are written** one by one, whatever becomes of each, and then the call succeeds. -/
theorem submit_spec (h : Messages e feedback ms) (hgood : ∀ entry ∈ feedback, ¬ entry.Bad) (hne : feedback ≠ [])
    (s : Library) : atlasReputationFeedback e feedback s =
      if feedback.length < 2 ^ 31 then .ok (.ok, ms.foldl sent s) else .error .intOverflow := by
  rw [atlasReputationFeedback, if_neg hne]
  exact submitLoop h hgood [] s (by simp)

/-- A connection is open, and the next `k` writes are complete. -/
def AllComplete (s : Library) (k : ℕ) : Prop := s.fd ≠ none ∧ ∀ i < k, s.os.writes.get i = .complete

theorem foldl_sent_closed (hfd : s.fd = none) : ∀ ms : List Bytes, ms.foldl sent s = s := by
  intro ms
  induction ms with
  | nil => rfl
  | cons m ms ih => rw [List.foldl_cons, sent, write_none hfd, ih]

theorem write_short {conn n : ℕ} (hfd : s.fd = some conn) (hw : s.os.writes.head = .short n) (sender : Sender)
    (m : Bytes) :
    s.writeToSocket sender m = (((min n (m.length - 1) : ℕ) : ℤ),
      { s with
        os := { s.os with writes := s.os.writes.tail }
        written := s.written ++ [⟨conn, sender, m.take (min n (m.length - 1))⟩] }) := by
  simp only [writeToSocket, hfd, hw, WriteResult.bytes, WriteResult.count, reduceCtorEq, if_false]

/-- **One write on an open connection** takes one answer, and delivers the message or not. -/
theorem sent_open {conn : ℕ} (hfd : s.fd = some conn) (hm : m ≠ []) :
    (sent s m).fd = some conn ∧ (sent s m).os.writes = s.os.writes.tail ∧ ∃ new : List Delivery,
      (sent s m).written = s.written ++ new ∧ new.length ≤ 1 ∧
        (s.os.writes.head = .complete → new.map Delivery.message = [m]) ∧
        (s.os.writes.head ≠ .complete → ∀ d ∈ new, d.message ≠ m) := by
  cases hw : s.os.writes.head with
  | complete =>
    rw [sent, write_complete hfd hw]
    exact ⟨hfd, rfl, [⟨conn, .caller, m⟩], rfl, Nat.le_refl _, fun _ => rfl, fun h => absurd rfl h⟩
  | failed =>
    rw [sent, write_failed hfd hw]
    exact ⟨hfd, rfl, [], (List.append_nil _).symm, Nat.zero_le _, (fun h => by cases h), fun _ d hd => by cases hd⟩
  | short n =>
    rw [sent, write_short hfd hw]
    refine ⟨hfd, rfl, [⟨conn, .caller, m.take (min n (m.length - 1))⟩], rfl, Nat.le_refl _, (fun h => by cases h), ?_⟩
    intro _ d hd heq
    have hpos := List.length_pos_iff.2 hm
    have hlen := congrArg List.length heq
    rw [List.mem_singleton.1 hd, List.length_take] at hlen
    omega

/-- **What has been delivered** is the messages exactly when every write is complete. -/
theorem sent_delivers {conn : ℕ} : ∀ {ms : List Bytes} {s : Library}, s.fd = some conn → (∀ m ∈ ms, m ≠ []) →
    ∃ new : List Delivery, (ms.foldl sent s).written = s.written ++ new ∧ new.length ≤ ms.length ∧
      (new.map Delivery.message = ms ↔ ∀ i < ms.length, s.os.writes.get i = .complete) := by
  intro ms
  induction ms with
  | nil =>
    intro s _ _
    exact ⟨[], (List.append_nil _).symm, Nat.le_refl _, fun _ i hi => absurd hi (Nat.not_lt_zero i), fun _ => rfl⟩
  | cons m ms ih =>
    intro s hfd hne
    obtain ⟨hfd', hos, first, hfirst, hone, hdone, hlost⟩ := sent_open hfd (hne m List.mem_cons_self)
    obtain ⟨new, hnew, hlen, hiff⟩ := ih hfd' fun x hx => hne x (List.mem_cons_of_mem _ hx)
    refine ⟨first ++ new, ?_, ?_, ?_⟩
    · rw [List.foldl_cons, hnew, hfirst, List.append_assoc]
    · rw [List.length_append, List.length_cons]
      omega
    · rw [hos] at hiff
      by_cases hw : s.os.writes.head = .complete
      · rw [List.map_append, hdone hw, List.singleton_append, List.cons_inj_right, hiff]
        constructor
        · intro h i hi
          rcases i with _ | i
          · exact hw
          · exact h i (Nat.lt_of_succ_lt_succ hi)
        · exact fun h i hi => h (i + 1) (Nat.succ_lt_succ hi)
      · refine iff_of_false ?_ fun h => hw (h 0 (Nat.succ_pos _))
        intro h
        rcases first with _ | ⟨d, first⟩
        · have := congrArg List.length h
          simp at this
          omega
        · rw [List.cons_append, List.map_cons] at h
          exact hlost hw d List.mem_cons_self (List.cons.inj h).1

/-- The property for an array: the call succeeds exactly when the message of every entry has been written, once and
in order. -/
def Acknowledged (e : Endian) (feedback : List AtlasFeedback) (s : Library) : Prop :=
  ∃ status s' ms, atlasReputationFeedback e feedback s = .ok (status, s') ∧ Messages e feedback ms ∧
    (status = .ok ↔ (since s s').map Delivery.message = ms)

theorem foldl_sent_iff (hne : ms ≠ []) (hm : ∀ m ∈ ms, m ≠ []) (s : Library) :
    (since s (ms.foldl sent s)).map Delivery.message = ms ↔ AllComplete s ms.length := by
  cases hfd : s.fd with
  | none =>
    rw [foldl_sent_closed hfd, since, List.drop_length]
    exact iff_of_false hne.symm fun h => h.1 hfd
  | some conn =>
    obtain ⟨new, hnew, -, hiff⟩ := sent_delivers hfd hm
    rw [since, hnew, List.drop_left, hiff, AllComplete, hfd]
    exact ⟨fun h => ⟨Option.some_ne_none conn, h⟩, fun h => h.2⟩

/-- **Success means that everything was sent, and exactly when.** For every non-empty array of valid entries, every
state and all results of `write`: the call returns `ATLAS_OK` if and only if the message of every entry
has been written completely, once and in order, exactly when the connection is open, all those
writes are complete, and the array is shorter than 2^31. -/
theorem acknowledged_iff (e : Endian) (feedback : List AtlasFeedback) (s : Library) (hne : feedback ≠ [])
    (h : ∀ entry ∈ feedback, entry.Valid) :
    Acknowledged e feedback s ↔ AllComplete s feedback.length ∧ feedback.length < 2 ^ 31 := by
  have hgood : ∀ entry ∈ feedback, ¬ entry.Bad := fun entry hx => (h entry hx).not_bad
  constructor
  · rintro ⟨status, s', ms, hcall, hms, hiff⟩
    rw [submit_spec hms hgood hne] at hcall
    split at hcall
    · rename_i hlt
      cases hcall
      rw [hms.length_eq]
      exact ⟨(foldl_sent_iff (hms.ne_nil hne) hms.forall_ne_nil s).1 (hiff.1 rfl), hms.length_eq ▸ hlt⟩
    · cases hcall
  · rintro ⟨hcomplete, hlt⟩
    obtain ⟨ms, hms⟩ := Valid.messages e h
    have hcall := submit_spec hms hgood hne s
    rw [if_pos hlt] at hcall
    rw [hms.length_eq] at hcomplete
    exact ⟨_, _, ms, hcall, hms, fun _ => (foldl_sent_iff (hms.ne_nil hne) hms.forall_ne_nil s).2 hcomplete,
      fun _ => rfl⟩

/-- Two entries, on a connection without failures. -/
theorem acknowledged_working : Acknowledged .little [.good, .good] working ↔ AllComplete working 2 ∧ 2 < 2 ^ 31 :=
  acknowledged_iff .little [.good, .good] working (List.cons_ne_nil _ _)
    (List.forall_mem_cons.2 ⟨AtlasFeedback.good_valid, List.forall_mem_singleton.2 AtlasFeedback.good_valid⟩)

/-- **A write that fails**, and the call still succeeds. -/
theorem failed_acknowledged : ¬ Acknowledged .little [.good]
    { working with os := { working.os with writes := fun _ => .failed } } := by
  rintro ⟨status, s', ms, hcall, hms, hiff⟩
  have hspec := submit_spec hms (List.forall_mem_singleton.2 AtlasFeedback.good_valid.not_bad)
    (List.cons_ne_nil _ _) { working with os := { working.os with writes := fun _ => .failed } }
  rw [hcall, if_pos (by decide)] at hspec
  cases hspec
  have hcomplete := (foldl_sent_iff (hms.ne_nil (List.cons_ne_nil _ _)) hms.forall_ne_nil _).1 (hiff.1 rfl)
  rw [← hms.length_eq] at hcomplete
  cases hcomplete.2 0 Nat.one_pos

end Library

end AtlasClient
