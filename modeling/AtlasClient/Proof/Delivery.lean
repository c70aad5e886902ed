import AtlasClient.Proof.Corrupt
import AtlasClient.Proof.Submission
import AtlasClient.Spec.Application

/-!
# A submission on its way to the gateway

`atlas_reputation_feedback` writes a message for each entry up to the first bad one, and the connector makes a request
of each message that has been written completely.

* `submits_prefix`: the loop over the entries, whatever they are.
* `packet_conveys`, `packet_cut`: what the connector makes of a message, and of the beginning of one.
* `submission_arrives`: **which entries reach the gateway**, for every outcome of the writes.
-/

namespace AtlasClient

open Framing Loop

variable {cfg : Cfg} {e : Endian} {entry : AtlasFeedback} {ms : List Bytes} {s : Library}

/-! ## The requests -/

/-- A request that tells the gateway an entry: a batch of the device's identity and of a batch of the four values. -/
def Conveys (cfg : Cfg) (entry : AtlasFeedback) (call : CoapCall AppCb) : Prop :=
  call.uri = cfg.coapGetUri "gateway/reputation/feedback" ∧ call.method = .put ∧ ∃ inner,
    IsBatch call.reqPayload [(AtlasCmdType.identity, cfg.identity), (AtlasCmdType.dataPlaneFeedback, inner)] ∧
    IsBatch inner
      [(AtlasCmdType.dataPlaneFeedbackIdentity, cString entry.identity),
        (AtlasCmdType.dataPlaneFeedbackSensorType, netBytes entry.sensorType.toUInt16),
        (AtlasCmdType.dataPlaneFeedbackSensor, netBytes entry.sensorScore),
        (AtlasCmdType.dataPlaneFeedbackResponseTime, netBytes entry.timeScore)]

/-- The packets that the connector reads. A write of no bytes sends none. -/
def packets (deliveries : List Delivery) : List Bytes := (deliveries.map Delivery.message).filter (· ≠ [])

/-- The connector reads the packets one after the other. -/
def readAll (cfg : Cfg) (fd : ℤ) (packets : List Bytes) (w : Client) : Except Fault Client :=
  packets.foldlM (fun w packet => atlasDataPlaneReadCb cfg fd (some packet) w) w

theorem packets_cons {d : Delivery} (h : d.message ≠ []) (ds : List Delivery) :
    packets (d :: ds) = d.message :: packets ds := List.filter_cons_of_pos (decide_eq_true h)

theorem packets_nothing {d : Delivery} (h : d.message = []) (ds : List Delivery) : packets (d :: ds) = packets ds :=
  List.filter_cons_of_neg (by simp [h])

theorem readAll_cons {fd : ℤ} {packet : Bytes} {w w' : Client}
    (h : atlasDataPlaneReadCb cfg fd (some packet) w = .ok w') (l : List Bytes) :
    readAll cfg fd (packet :: l) w = readAll cfg fd l w' := by
  rw [readAll, List.foldlM_cons, h]
  rfl

theorem request_calls (uri : String) (method : AtlasCoapMethod) (reqPayload : Bytes) (timeout : ℕ) (cb : AppCb)
    (w : Client) :
    ∃ status, (w.request uri method reqPayload timeout cb).calls = w.calls ++
      [⟨uri, method, reqPayload, timeout, cb, status⟩] :=
  ⟨_, rfl⟩

/-- **A message of the library** becomes one request. -/
theorem packet_conveys (fd : ℤ) (h0 : 0 ∈ entry.identity) (w : Client) :
    ∃ (c : Cmd) (w' : Client) (call : CoapCall AppCb),
    sendFeedbackCommand cfg.endian entry = .ok (encode [c]) ∧ c.size ≤ 2048 ∧
      atlasDataPlaneReadCb cfg fd (some (encode [c])) w = .ok w' ∧ w'.calls = w.calls ++ [call] ∧
        Conveys cfg entry call := by
  obtain ⟨hlt, hfit, hlen, hmsg⟩ := sendFeedback_eq cfg.endian entry h0
  generalize hc : Cmd.of AtlasCmdType.dataPlaneFeedback (encode (feedbackCmds entry hlt)) hfit = c at hmsg
  have hvalue : c.value = encode (feedbackCmds entry hlt) := by rw [← hc, Cmd.of_value]
  have hsize : c.size ≤ 2048 := by
    rw [Cmd.size_eq, hvalue, feedbackCmds_length]
    omega
  have hne : c.value ≠ [] := fun h => by
    have hzero := congrArg List.length h
    rw [hvalue, feedbackCmds_length, List.length_nil] at hzero
    omega
  have htype : c.type = AtlasCmdType.dataPlaneFeedback := by
    rw [← hc]
    rfl
  have hreq := forward_request cfg hne hsize "gateway/reputation/feedback" .feedbackCallback [] w
  have hhandle : dataPlaneHandle cfg ⟨c.type, c.length, c.value ++ []⟩ w = .ok (.inl
      (w.request (cfg.coapGetUri "gateway/reputation/feedback") .put
        (encode ([Cmd.of AtlasCmdType.identity cfg.identity cfg.identity_lt] ++ [c])) 5000 .feedbackCallback)) := by
    rw [htype] at hreq ⊢
    simp only [dataPlaneHandle, atlasFeatureFeedbackHandle, hreq]
    rfl
  have hmax : (encode [c]).length ≤ 2048 := by
    rw [encode_cons, encode_nil, List.append_nil, c.bytes_length]
    exact hsize
  obtain ⟨status, hcalls⟩ := request_calls (cfg.coapGetUri "gateway/reputation/feedback") .put
    (encode ([Cmd.of AtlasCmdType.identity cfg.identity cfg.identity_lt] ++ [c])) 5000 .feedbackCallback w
  refine ⟨c, _, _, hmsg, hsize, ?_, hcalls, rfl, rfl, encode (feedbackCmds entry hlt), ⟨_, rfl, ?_⟩,
    feedbackCmds entry hlt, rfl, rfl⟩
  · rw [readCb_eq cfg fd (List.cons_ne_nil c []) hmax w, foldCmds, encode_nil, hhandle]
    rfl
  · simp only [List.map_append, List.map_cons, List.map_nil, Cmd.of_value, htype, hvalue]
    rfl

/-- The beginning of a command is no batch. -/
theorem take_not_isEncoding {c : Cmd} {n : ℕ} (hn : n < (encode [c]).length) (hne : (encode [c]).take n ≠ []) :
    ¬ IsEncoding cmdHeader ((encode [c]).take n) := by
  rintro ⟨fs, hfs⟩
  cases fs with
  | nil => exact hne (hfs.trans encode_nil)
  | cons f fs =>
    -- its first frame would be the whole command
    have hsplit : f.bytes ++ (encode fs ++ (encode [c]).drop n) = c.bytes ++ [] := by
      have hwhole := List.take_append_drop n (encode [c])
      rw [hfs, encode_cons, encode_cons, encode_nil, List.append_assoc] at hwhole
      rw [encode_cons, encode_nil]
      exact hwhole
    have hrest := congrArg List.length (bytes_append_inj hsplit).2
    rw [List.length_append, List.length_drop, List.length_nil] at hrest
    omega

/-- **The beginning of a message** has no effect. -/
theorem packet_cut (fd : ℤ) {c : Cmd} (hsize : c.size ≤ 2048) {n : ℕ} (hn : n < (encode [c]).length)
    (hne : (encode [c]).take n ≠ []) (w : Client) :
    atlasDataPlaneReadCb cfg fd (some ((encode [c]).take n)) w = .ok w := by
  have hmax : ((encode [c]).take n).length ≤ 2048 := by
    rw [encode_cons, encode_nil, List.append_nil, c.bytes_length] at hn
    rw [List.length_take]
    omega
  exact readCb_rejected cfg fd (List.length_pos_iff.2 hne) hmax (take_not_isEncoding hn hne) w

/-! ## The loop over the entries -/

/-- The entries in front of the first bad one. -/
def goodPrefix (feedback : List AtlasFeedback) : List AtlasFeedback := feedback.takeWhile fun entry => ¬ entry.Bad

/-- The entries whose messages are written completely. -/
def completed : List AtlasFeedback → Stream' WriteResult → List AtlasFeedback
  | [], _ => []
  | entry :: rest, writes =>
    if writes.head = .complete then entry :: completed rest writes.tail else completed rest writes.tail

variable {good tail : List AtlasFeedback}

/-- The good entries are sent, and the loop ends behind them. -/
theorem prefixLoop (h : Messages e good ms) (hgood : ∀ entry ∈ good, ¬ entry.Bad)
    (htail : ∀ entry ∈ tail.head?, entry.Bad) : ∀ (pre : List AtlasFeedback) (s : Library),
      (pre ++ (good ++ tail)).length < 2 ^ 31 →
      loop .diverges (Library.feedbackBody e (pre ++ (good ++ tail))) ((good ++ tail).length + 1) (pre.length, s) =
        .ok (if tail = [] then .ok else .invalidInput, ms.foldl Library.sent s) := by
  induction h with
  | nil =>
    intro pre s _
    cases tail with
    | nil =>
      rw [List.append_nil, List.append_nil]
      exact loop_done (Library.body_end e pre s)
    | cons bad rest => exact loop_done (Library.body_bad (htail bad rfl) pre s)
  | @cons entry m good ms hm _ ih =>
    intro pre s hlt
    have hround := Library.body_good (hgood entry List.mem_cons_self) hm.1 pre (good ++ tail) s
    have hnext : pre.length + 1 < 2 ^ 31 := by
      rw [List.length_append, List.cons_append, List.length_cons] at hlt
      omega
    rw [if_pos hnext] at hround
    have hrest := ih (fun x hx => hgood x (List.mem_cons_of_mem _ hx)) (pre ++ [entry]) (Library.sent s m)
      (by simpa using hlt)
    rw [List.append_assoc, List.singleton_append] at hrest
    rw [List.cons_append, List.length_cons, loop_next hround]
    exact hrest

/-- **The entries in front of the first bad one are submitted**, whatever becomes of each, and the status tells whether
there is a bad one. -/
theorem submits_prefix (e : Endian) (feedback : List AtlasFeedback) (hterm : ∀ entry ∈ feedback, 0 ∈ entry.identity)
    (hlt : feedback.length < 2 ^ 31) (s : Library) : ∃ ms, Messages e (goodPrefix feedback) ms ∧
      Library.atlasReputationFeedback e feedback s =
        .ok (if feedback ≠ [] ∧ ∀ entry ∈ feedback, ¬ entry.Bad then .ok else .invalidInput,
          ms.foldl Library.sent s) := by
  have hgood : ∀ entry ∈ goodPrefix feedback, ¬ entry.Bad := fun entry hentry => by
    simpa using List.mem_takeWhile_imp hentry
  have hsub : goodPrefix feedback ⊆ feedback := (List.takeWhile_sublist _).subset
  obtain ⟨ms, hms⟩ := Valid.messages e fun entry hentry => ⟨hgood entry hentry, hterm entry (hsub hentry)⟩
  refine ⟨ms, hms, ?_⟩
  by_cases hempty : feedback = []
  · subst hempty
    cases hms
    rfl
  · have hsplit : goodPrefix feedback ++ feedback.dropWhile (fun entry => ¬ entry.Bad) = feedback :=
      List.takeWhile_append_dropWhile
    have htail : ∀ entry ∈ (feedback.dropWhile fun entry => ¬ entry.Bad).head?, entry.Bad := by
      intro entry hentry
      have hstop := List.head?_dropWhile_not (fun entry : AtlasFeedback => decide (¬ entry.Bad)) feedback
      rw [Option.mem_def.1 hentry] at hstop
      simpa using hstop
    have hloop := prefixLoop hms hgood htail [] s (by rwa [List.nil_append, hsplit])
    rw [List.nil_append, hsplit] at hloop
    have hiff : feedback.dropWhile (fun entry => ¬ entry.Bad) = [] ↔ ∀ entry ∈ feedback, ¬ entry.Bad := by
      rw [List.dropWhile_eq_nil_iff]
      simp only [decide_eq_true_eq]
    rw [Library.atlasReputationFeedback, if_neg hempty]
    refine hloop.trans ?_
    simp only [hiff, hempty, ne_eq, not_false_eq_true, true_and]

/-! ## On the other side of the socket -/

/-- The packets of what has been written become the requests of the entries whose messages are complete. -/
theorem packets_arrive (fd : ℤ) {conn : ℕ} (h : Messages cfg.endian good ms)
    (hterm : ∀ entry ∈ good, 0 ∈ entry.identity) :
    ∀ (s : Library) (w : Client), s.fd = some conn →
      ∃ new w' calls, (ms.foldl Library.sent s).written = s.written ++ new ∧
      readAll cfg fd (packets new) w = .ok w' ∧ w'.calls = w.calls ++ calls ∧
      List.Forall₂ (Conveys cfg) (completed good s.os.writes) calls := by
  induction h with
  | nil => exact fun s w _ => ⟨[], w, [], (List.append_nil _).symm, rfl, (List.append_nil _).symm, .nil⟩
  | @cons entry m good ms hm _ ih =>
    intro s w hfd
    have hih := ih fun x hx => hterm x (List.mem_cons_of_mem _ hx)
    obtain ⟨c, w₁, call, hmsg, hsize, hread, hcall, hconveys⟩ := packet_conveys fd (hterm entry List.mem_cons_self) w
    obtain rfl : m = encode [c] := Except.ok.inj (hm.1.symm.trans hmsg)
    rw [List.foldl_cons]
    cases hw : s.os.writes.head with
    | complete =>
      -- the whole message is one packet
      obtain ⟨new, w', calls, hwritten, hall, hcalls, hconvey⟩ := hih (Library.sent s (encode [c])) w₁
        (by rw [Library.sent, Library.write_complete hfd hw]; exact hfd)
      have hsent : (Library.sent s (encode [c])).written = s.written ++ [⟨conn, .caller, encode [c]⟩] ∧
          (Library.sent s (encode [c])).os.writes = s.os.writes.tail := by
        rw [Library.sent, Library.write_complete hfd hw]
        exact ⟨rfl, rfl⟩
      refine ⟨⟨conn, .caller, encode [c]⟩ :: new, w', call :: calls, ?_, ?_, ?_, ?_⟩
      · rw [hwritten, hsent.1, List.append_assoc, List.singleton_append]
      · rw [packets_cons hm.2, readAll_cons hread]
        exact hall
      · rw [hcalls, hcall, List.append_assoc, List.singleton_append]
      · rw [completed, if_pos hw, ← hsent.2]
        exact .cons hconveys hconvey
    | failed =>
      have hsent : Library.sent s (encode [c]) = { s with os := { s.os with writes := s.os.writes.tail } } := by
        rw [Library.sent, Library.write_failed hfd hw]
      obtain ⟨new, w', calls, hwritten, hall, hcalls, hconvey⟩ :=
        hih (Library.sent s (encode [c])) w (by rw [hsent]; exact hfd)
      rw [hsent] at hwritten hconvey
      refine ⟨new, w', calls, by rw [hsent]; exact hwritten, hall, hcalls, ?_⟩
      rw [completed, if_neg (by rw [hw]; exact WriteResult.noConfusion)]
      exact hconvey
    | short n =>
      -- a beginning of the message, or nothing at all
      have hsent := congrArg Prod.snd (Library.write_short hfd hw .caller (encode [c]))
      obtain ⟨new, w', calls, hwritten, hall, hcalls, hconvey⟩ :=
        hih (Library.sent s (encode [c])) w (by rw [Library.sent, hsent]; exact hfd)
      refine ⟨⟨conn, .caller, (encode [c]).take (min n ((encode [c]).length - 1))⟩ :: new, w', calls,
        ?_, ?_, hcalls, ?_⟩
      · rw [hwritten, Library.sent, hsent, List.append_assoc, List.singleton_append]
      · by_cases hnil : (encode [c]).take (min n ((encode [c]).length - 1)) = []
        · rw [packets_nothing hnil]
          exact hall
        · have hlt : min n ((encode [c]).length - 1) < (encode [c]).length := by
            have hpos := List.length_pos_iff.2 hm.2
            omega
          rw [packets_cons hnil, readAll_cons (packet_cut fd hsize hlt hnil w)]
          exact hall
      · rw [completed, if_neg (by rw [hw]; exact WriteResult.noConfusion)]
        rw [Library.sent, hsent] at hconvey
        exact hconvey

/-- The entries whose messages go out as a whole. -/
def sentWhole (s : Library) (feedback : List AtlasFeedback) : List AtlasFeedback :=
  if s.fd = none then [] else completed (goodPrefix feedback) s.os.writes

/-- **Which entries reach the gateway.** For every submission of the reputation query, with any scores, any outcome of
the writes, complete, short or failed, on an open connection or without one, and every state of the connector: the call
succeeds exactly when there is an entry and no score is above 100; and when the connector has read the packets that have
come, it has made one request for each entry in front of the first bad one whose message was written completely, in
their order, with the identity and the scores of the entry, and no other request. An entry whose write is short or fails
is lost, and the call does not tell. -/
theorem submission_arrives (cfg : Cfg) (fd : ℤ) (entries : List FeedbackEntry) (hlt : entries.length < 2 ^ 31)
    (s : Library)
    (w : Client) : ∃ s' w' calls, Library.atlasReputationFeedback cfg.endian (entries.map FeedbackEntry.feedback) s =
      .ok (if entries ≠ [] ∧ ∀ entry ∈ entries, ¬ entry.feedback.Bad then .ok else .invalidInput, s') ∧
      readAll cfg fd (packets (Library.since s s')) w = .ok w' ∧ w'.calls = w.calls ++ calls ∧
      List.Forall₂ (Conveys cfg) (sentWhole s (entries.map FeedbackEntry.feedback)) calls := by
  have hterm : ∀ entry ∈ entries.map FeedbackEntry.feedback, 0 ∈ entry.identity := by
    intro entry hentry
    obtain ⟨x, -, rfl⟩ := List.mem_map.1 hentry
    exact x.terminated
  obtain ⟨ms, hms, hcall⟩ := submits_prefix cfg.endian _ hterm (by rwa [List.length_map]) s
  have hstatus : entries.map FeedbackEntry.feedback ≠ [] ∧ (∀ entry ∈ entries.map FeedbackEntry.feedback, ¬ entry.Bad) ↔
      entries ≠ [] ∧ ∀ entry ∈ entries, ¬ entry.feedback.Bad := by
    rw [ne_eq, List.map_eq_nil_iff, List.forall_mem_map]
  simp only [hstatus] at hcall
  unfold sentWhole
  cases hfd : s.fd with
  | none =>
    -- nothing is written
    refine ⟨_, w, [], hcall, ?_, (List.append_nil _).symm, .nil⟩
    rw [Library.foldl_sent_closed hfd, Library.since, List.drop_length]
    rfl
  | some conn =>
    have hsub : goodPrefix (entries.map FeedbackEntry.feedback) ⊆ entries.map FeedbackEntry.feedback :=
      (List.takeWhile_sublist _).subset
    obtain ⟨new, w', calls, hwritten, hall, hcalls, hconveys⟩ :=
      packets_arrive fd hms (fun entry hentry => hterm entry (hsub hentry)) s w hfd
    refine ⟨_, w', calls, hcall, ?_, hcalls, hconveys⟩
    rw [Library.since, hwritten, List.drop_left]
    exact hall

/-- An entry of the window. -/
def goodEntry : FeedbackEntry := ⟨.good, by decide⟩

/-- A connection on which only the first write is complete. -/
def failing : Library :=
  { Library.working with os := { Library.working.os with writes := fun n => if n = 0 then .complete else .failed } }

/-- The first of two entries reaches the gateway. -/
theorem submission_arrives_first : ∃ s' w' calls,
    Library.atlasReputationFeedback Cfg.plain.endian ([goodEntry, goodEntry].map FeedbackEntry.feedback) failing =
      .ok (if [goodEntry, goodEntry] ≠ [] ∧
        ∀ entry ∈ [goodEntry, goodEntry], ¬ entry.feedback.Bad then .ok else .invalidInput, s') ∧
      readAll Cfg.plain 7 (packets (Library.since failing s')) (Client.connected Os.calm) = .ok w' ∧
      w'.calls = (Client.connected Os.calm).calls ++ calls ∧
      List.Forall₂ (Conveys Cfg.plain) (sentWhole failing ([goodEntry, goodEntry].map FeedbackEntry.feedback)) calls :=
  submission_arrives Cfg.plain 7 [goodEntry, goodEntry] (by decide) failing (Client.connected Os.calm)

end AtlasClient
