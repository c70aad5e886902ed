import AtlasClient.Proof.Codec
import AtlasClient.Proof.Reputation
import AtlasClient.Spec.DataPlane
import Mathlib.Data.List.TakeWhile

/-!
# Feedback

The entry of a feedback is encoded twice by the library; the client takes the outer batch
apart and builds a third one.

* `sendFeedback_eq`: the message of the library.
* `feedback_arrives`: **feedback reaches the gateway unchanged**.
-/

namespace AtlasClient

open Framing

variable {e : Endian}

/-! ## The message -/

theorem strlen_ok {buf : Bytes} (h : 0 ∈ buf) : strlen buf = .ok (cString buf).length := if_pos h

/-- A terminated string is shorter than its block. -/
theorem cString_length_lt {buf : Bytes} (h : 0 ∈ buf) : (cString buf).length < buf.length := by
  have hle : (cString buf).length ≤ buf.length := (List.takeWhile_prefix _).length_le
  refine lt_of_le_of_ne hle fun heq => ?_
  -- a block that is its own string has no NUL
  have hall : cString buf = buf := (List.takeWhile_prefix _).eq_of_length heq
  have h0 := List.takeWhile_eq_self_iff.1 hall 0 h
  simp at h0

/-- A block begins with its string. -/
theorem cString_append_rest (buf : Bytes) : ∃ rest, buf = cString buf ++ rest :=
  ⟨_, (List.takeWhile_append_dropWhile).symm⟩

/-- The identity and the three words of the inner batch. -/
def feedbackCmds (feedback : AtlasFeedback) (h : (cString feedback.identity).length < 65536) : List Cmd :=
  [Cmd.of AtlasCmdType.dataPlaneFeedbackIdentity (cString feedback.identity) h,
    Cmd.net AtlasCmdType.dataPlaneFeedbackSensorType feedback.sensorType.toUInt16,
    Cmd.net AtlasCmdType.dataPlaneFeedbackSensor feedback.sensorScore,
    Cmd.net AtlasCmdType.dataPlaneFeedbackResponseTime feedback.timeScore]

theorem feedbackCmds_length (feedback : AtlasFeedback) (h : (cString feedback.identity).length < 65536) :
    (encode (feedbackCmds feedback h)).length = 22 + (cString feedback.identity).length := by
  simp only [feedbackCmds, encode_length, encodedSize, List.map_cons, List.map_nil, List.sum_cons, List.sum_nil,
    Cmd.of_value, Cmd.net_value, netBytes_length]
  omega

/-- **The message of a feedback** is one command, whose value is the inner batch. -/
theorem sendFeedback_eq (e : Endian) (feedback : AtlasFeedback) (h : 0 ∈ feedback.identity) :
    ∃ (hlt : (cString feedback.identity).length < 65536) (hfit : (encode (feedbackCmds feedback hlt)).length < 65536),
      (cString feedback.identity).length < 64 ∧
      sendFeedbackCommand e feedback =
        .ok (encode [Cmd.of AtlasCmdType.dataPlaneFeedback (encode (feedbackCmds feedback hlt)) hfit]) := by
  have hlen := cString_length_lt h
  rw [feedback.identity_length] at hlen
  have hlt : (cString feedback.identity).length < 65536 := by omega
  have hfit : (encode (feedbackCmds feedback hlt)).length < 65536 := by rw [feedbackCmds_length]; omega
  refine ⟨hlt, hfit, hlen, ?_⟩
  -- the identity is followed by the rest of its array
  obtain ⟨rest, hrest⟩ := cString_append_rest feedback.identity
  have hinner := cmdBatchBytes_behind e
    [(Cmd.of AtlasCmdType.dataPlaneFeedbackIdentity (cString feedback.identity) hlt, rest),
      (Cmd.net AtlasCmdType.dataPlaneFeedbackSensorType feedback.sensorType.toUInt16, []),
      (Cmd.net AtlasCmdType.dataPlaneFeedbackSensor feedback.sensorScore, []),
      (Cmd.net AtlasCmdType.dataPlaneFeedbackResponseTime feedback.timeScore, [])] hfit
  have houter := cmdBatchBytes_ok e [Cmd.of AtlasCmdType.dataPlaneFeedback (encode (feedbackCmds feedback hlt)) hfit]
    (by rw [encode_length]; simp [encodedSize, feedbackCmds_length]; omega)
  have hargs : cmdBatchBytes e
      [(AtlasCmdType.dataPlaneFeedbackIdentity, UInt16.ofNat (cString feedback.identity).length, feedback.identity),
        (AtlasCmdType.dataPlaneFeedbackSensorType, 2, netBytes feedback.sensorType.toUInt16),
        (AtlasCmdType.dataPlaneFeedbackSensor, 2, netBytes feedback.sensorScore),
        (AtlasCmdType.dataPlaneFeedbackResponseTime, 2, netBytes feedback.timeScore)] =
      .ok (encode (feedbackCmds feedback hlt)) := by
    refine Eq.trans ?_ hinner
    simp only [List.map_cons, List.map_nil, Cmd.of_value, Cmd.net_value, List.append_nil, ← hrest]
    rfl
  simp only [sendFeedbackCommand, strlen_ok h, bind, Except.bind, hostBytes_htons, hargs]
  exact houter

/-! ## Across the socket -/

/-- **Feedback reaches the gateway unchanged.** For every identity of the device, every feedback
whose identity is terminated within its 64 characters and whose sensor type has 16 bits, any
scores, both byte orders and any state of the client: `atlas_data_plane_read_cb` makes one
request of the message of `send_feedback_command`, with a batch of exactly the device's
identity and the feedback, which is a batch of exactly the four values in network order. -/
theorem feedback_arrives (cfg : Cfg) (feedback : AtlasFeedback) (h0 : 0 ∈ feedback.identity)
    (htype : feedback.sensorType.toNat ≤ 65535) (fd : ℤ) (w : Client) :
    ∃ (buf payload inner : Bytes) (sensorType : UInt16),
      sendFeedbackCommand cfg.endian feedback = .ok buf ∧
      atlasDataPlaneReadCb cfg fd (some buf) w =
        .ok (w.request (cfg.coapGetUri "gateway/reputation/feedback") .put payload 5000 .feedbackCallback) ∧
      IsBatch payload [(AtlasCmdType.identity, cfg.identity), (AtlasCmdType.dataPlaneFeedback, inner)] ∧
      IsBatch inner
        [(AtlasCmdType.dataPlaneFeedbackIdentity, cString feedback.identity),
          (AtlasCmdType.dataPlaneFeedbackSensorType, netBytes sensorType),
          (AtlasCmdType.dataPlaneFeedbackSensor, netBytes feedback.sensorScore),
          (AtlasCmdType.dataPlaneFeedbackResponseTime, netBytes feedback.timeScore)] ∧
      sensorType.toNat = feedback.sensorType.toNat := by
  obtain ⟨hlt, hfit, hlen, hmsg⟩ := sendFeedback_eq cfg.endian feedback h0
  set c := Cmd.of AtlasCmdType.dataPlaneFeedback (encode (feedbackCmds feedback hlt)) hfit with hc
  have hsize : c.size ≤ 2048 := by
    rw [Cmd.size_eq, hc, Cmd.of_value, feedbackCmds_length]
    omega
  have hne : c.value ≠ [] := fun h => by
    have h' := congrArg List.length h
    rw [hc, Cmd.of_value, feedbackCmds_length] at h'
    simp at h'
  have hreq := forward_request cfg hne hsize "gateway/reputation/feedback" .feedbackCallback [] w
  have hhandle : dataPlaneHandle cfg ⟨c.type, c.length, c.value ++ []⟩ w = .ok (.inl
      (w.request (cfg.coapGetUri "gateway/reputation/feedback") .put
        (encode ([Cmd.of AtlasCmdType.identity cfg.identity cfg.identity_lt] ++ [c])) 5000 .feedbackCallback)) := by
    have ht : c.type = AtlasCmdType.dataPlaneFeedback := rfl
    rw [ht] at hreq ⊢
    simp only [dataPlaneHandle, atlasFeatureFeedbackHandle, hreq]
    rfl
  have hmax : (encode [c]).length ≤ 2048 := by
    rw [encode_cons, encode_nil, List.append_nil, c.bytes_length]
    exact hsize
  refine ⟨encode [c], encode ([Cmd.of AtlasCmdType.identity cfg.identity cfg.identity_lt] ++ [c]),
    encode (feedbackCmds feedback hlt), feedback.sensorType.toUInt16, hmsg, ?_, ⟨_, rfl, rfl⟩,
    ⟨feedbackCmds feedback hlt, rfl, rfl⟩, ?_⟩
  · rw [readCb_eq cfg fd (List.cons_ne_nil c []) hmax w, foldCmds, encode_nil, hhandle]
    rfl
  · rw [UInt32.toNat_toUInt16]
    omega

/-- A good temperature of the device `a1`. -/
def AtlasFeedback.good : AtlasFeedback := ⟨[97, 49] ++ List.replicate 62 0, 101, 90, 100, rfl⟩

theorem feedback_arrives_good :
    ∃ (buf payload inner : Bytes) (sensorType : UInt16),
      sendFeedbackCommand .little .good = .ok buf ∧
      atlasDataPlaneReadCb Cfg.plain 7 (some buf) (Client.connected Os.calm) =
        .ok ((Client.connected Os.calm).request (Cfg.plain.coapGetUri "gateway/reputation/feedback") .put payload 5000
          .feedbackCallback) ∧
      IsBatch payload [(AtlasCmdType.identity, Cfg.plain.identity), (AtlasCmdType.dataPlaneFeedback, inner)] ∧
      IsBatch inner
        [(AtlasCmdType.dataPlaneFeedbackIdentity, cString AtlasFeedback.good.identity),
          (AtlasCmdType.dataPlaneFeedbackSensorType, netBytes sensorType),
          (AtlasCmdType.dataPlaneFeedbackSensor, netBytes AtlasFeedback.good.sensorScore),
          (AtlasCmdType.dataPlaneFeedbackResponseTime, netBytes AtlasFeedback.good.timeScore)] ∧
      sensorType.toNat = AtlasFeedback.good.sensorType.toNat :=
  feedback_arrives Cfg.plain .good (by decide) (by decide) 7 (Client.connected Os.calm)

end AtlasClient
