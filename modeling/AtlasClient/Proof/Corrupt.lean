import AtlasClient.Proof.Inside

/-!
# Corrupt commands of the data plane

A message is run twice, with its corrupt policies and without them.

* `corruptPolicy_handled`: a corrupt policy does nothing.
* `handle_memory`: what a command does is independent of the commands behind it in memory.
* `corrupt_ignored`: **corrupt input has no effect**: a message that is no batch changes nothing, and a
  batch does what it does without its corrupt policies.
-/

namespace AtlasClient

open Framing Loop

variable {cfg : Cfg} {w w' : Client} {c : Cmd} {cmds : List Cmd} {buf : Bytes}

/-! ## One command -/

/-- A policy whose value is empty or no batch. -/
def Cmd.CorruptPolicy (c : Cmd) : Prop :=
  c.type = AtlasCmdType.dataPlanePolicy ∧ (c.value = [] ∨ ¬ IsEncoding cmdHeader c.value)

/-- **A corrupt policy does nothing**, whatever stands behind it. -/
theorem corruptPolicy_handled (cfg : Cfg) (hc : c.CorruptPolicy) (post : Bytes) (w : Client) :
    dataPlaneHandle cfg ⟨c.type, c.length, c.value ++ post⟩ w = .ok (.inl w) := by
  obtain ⟨ht, hvalue⟩ := hc
  have hparse : atlasDataPlaneParsePolicy cfg (c.value ++ post) c.length w = .ok w := by
    by_cases hne : c.value = []
    · have h0 : c.length = 0 := UInt16.toNat_inj.1 (by rw [← c.value_length, hne]; rfl)
      exact if_pos (Or.inr h0)
    have henc : ¬ IsEncoding cmdHeader c.value := hvalue.resolve_left hne
    have hlen : c.length.toNat = c.value.length := c.value_length.symm
    unfold atlasDataPlaneParsePolicy
    split
    · rfl
    simp only [bind]
    rw [bind_of_ok (setRaw_rejects cfg.endian atlasCmdBatchNew hlen hne henc post)]
    rfl
  unfold dataPlaneHandle
  rw [if_pos ht]
  exact congrArg (fun x => Sum.inl <$> x) hparse

/-- **What a command does is independent of the memory behind it**, when it is read inside. -/
theorem handle_memory (cfg : Cfg) (hc : c.ReadsInside) (hsize : c.size ≤ 2048) (post post' : Bytes) (w : Client) :
    ∃ w', dataPlaneHandle cfg ⟨c.type, c.length, c.value ++ post⟩ w = .ok (.inl w') ∧
      dataPlaneHandle cfg ⟨c.type, c.length, c.value ++ post'⟩ w = .ok (.inl w') := by
  obtain ⟨w₁, hcut₁, h₁⟩ := handle_inside cfg hc hsize post w
  obtain ⟨w₂, hcut₂, h₂⟩ := handle_inside cfg hc hsize post' w
  rw [cut_eq] at hcut₁ hcut₂
  rw [hcut₁] at hcut₂
  cases hcut₂
  exact ⟨w₁, h₁, h₂⟩

/-! ## Two runs -/

open Classical in
/-- The commands without the corrupt policies. -/
noncomputable def withoutCorrupt (cmds : List Cmd) : List Cmd := cmds.filter fun c => ¬ c.CorruptPolicy

theorem withoutCorrupt_cons_corrupt (hc : c.CorruptPolicy) : withoutCorrupt (c :: cmds) = withoutCorrupt cmds :=
  List.filter_cons_of_neg (by simpa using hc)

theorem withoutCorrupt_cons_sound (hc : ¬ c.CorruptPolicy) : withoutCorrupt (c :: cmds) = c :: withoutCorrupt cmds :=
  List.filter_cons_of_pos (by simpa using hc)

theorem encode_withoutCorrupt_le (cmds : List Cmd) : (encode (withoutCorrupt cmds)).length ≤ (encode cmds).length := by
  induction cmds with
  | nil => simp [withoutCorrupt]
  | cons c cs ih =>
    by_cases hc : c.CorruptPolicy
    · rw [withoutCorrupt_cons_corrupt hc, encode_cons, List.length_append]
      omega
    · rw [withoutCorrupt_cons_sound hc, encode_cons, encode_cons, List.length_append, List.length_append]
      omega

/-- **The two runs over the commands** end in the same state. -/
theorem foldCmds_withoutCorrupt (cfg : Cfg) (hin : ∀ c ∈ cmds, Cmd.ReadsInside c) (hmax : (encode cmds).length ≤ 2048)
    (w : Client) : ∃ w', foldCmds (dataPlaneHandle cfg) cmds w = .ok w' ∧
      foldCmds (dataPlaneHandle cfg) (withoutCorrupt cmds) w = .ok w' := by
  induction cmds generalizing w with
  | nil => exact ⟨w, rfl, rfl⟩
  | cons c cs ih =>
    rw [encode_cons, List.length_append, Frame.bytes_length] at hmax
    have hrest := ih (fun d hd => hin d (List.mem_cons_of_mem _ hd)) (by omega)
    by_cases hc : c.CorruptPolicy
    · rw [withoutCorrupt_cons_corrupt hc, foldCmds_cons (corruptPolicy_handled cfg hc _ w)]
      exact hrest w
    · -- the memory behind the command is that of another message
      obtain ⟨w₁, h₁, h₂⟩ := handle_memory cfg (hin c List.mem_cons_self) (by omega) (encode cs)
        (encode (withoutCorrupt cs)) w
      rw [withoutCorrupt_cons_sound hc, foldCmds_cons h₁, foldCmds_cons h₂]
      exact hrest w₁

/-! ## Messages -/

/-- What `read` makes of a message: one without bytes is the end of the file. -/
def received (buf : Bytes) : Option Bytes := if buf = [] then none else some buf

/-- The two states differ in the scheduler list at most: the connector's variables, what has been written
to the socket and the requests are the same. -/
structure SameEffects (w₁ w₂ : Client) : Prop where
  app : w₁.app = w₂.app
  calls : w₁.calls = w₂.calls
  alarmEntry : w₁.net.alarmEntry = w₂.net.alarmEntry
  reqEntry : w₁.net.reqEntry = w₂.net.reqEntry
  token : w₁.net.token = w₂.net.token
  os : w₁.net.os = w₂.net.os

theorem SameEffects.refl (w : Client) : SameEffects w w := ⟨rfl, rfl, rfl, rfl, rfl, rfl⟩

/-- A message that is no batch. -/
theorem readCb_rejected (cfg : Cfg) (fd : ℤ) (hpos : 1 ≤ buf.length) (hmax : buf.length ≤ 2048)
    (henc : ¬ IsEncoding cmdHeader buf) (w : Client) : atlasDataPlaneReadCb cfg fd (some buf) w = .ok w := by
  have hne : buf ≠ [] := by
    rintro rfl; simp at hpos
  rcases setRaw_message cfg.endian atlasCmdBatchNew hne (by omega) with ⟨cmds, -, -, hbuf, -⟩ | ⟨-, hraw⟩
  · exact absurd ⟨cmds, hbuf⟩ henc
  · simp only [atlasDataPlaneReadCb, bind]
    rw [bind_of_ok hraw]
    rfl

/-- **Corrupt commands have no effect.** For every message of 1 to 2048 bytes that
`atlas_data_plane_read_cb` receives, in any state: if it is no batch, nothing changes. If it is one, and
every fixed-width value in it has its two bytes, its corrupt policies do nothing, and the final state is
that of the message without them, or, when nothing is left, the state before; so the connector's
variables, the requests and the socket writes are those of the message without them. -/
theorem corrupt_ignored (cfg : Cfg) (fd : ℤ) (hpos : 1 ≤ buf.length) (hmax : buf.length ≤ 2048) (w : Client) :
    (¬ IsEncoding cmdHeader buf → atlasDataPlaneReadCb cfg fd (some buf) w = .ok w) ∧
    ∀ cmds : List Cmd, buf = encode cmds → (∀ c ∈ cmds, c.ReadsInside) →
      (∀ c ∈ cmds, c.CorruptPolicy → ∀ post w₁,
        dataPlaneHandle cfg ⟨c.type, c.length, c.value ++ post⟩ w₁ = .ok (.inl w₁)) ∧
      ∃ w₁ w₂, atlasDataPlaneReadCb cfg fd (some buf) w = .ok w₁ ∧
        atlasDataPlaneReadCb cfg fd (received (encode (withoutCorrupt cmds))) w = .ok w₂ ∧ SameEffects w₁ w₂ ∧
        if withoutCorrupt cmds = [] then w₁ = w else w₁ = w₂ := by
  refine ⟨fun henc => readCb_rejected cfg fd hpos hmax henc w, ?_⟩
  rintro cmds rfl hin
  refine ⟨fun c _ hc post w₁ => corruptPolicy_handled cfg hc post w₁, ?_⟩
  have hne : cmds ≠ [] := by
    rintro rfl; simp at hpos
  obtain ⟨w₁, h₁, h₂⟩ := foldCmds_withoutCorrupt cfg hin hmax w
  rw [readCb_eq cfg fd hne hmax, h₁]
  by_cases hrest : withoutCorrupt cmds = []
  · -- nothing is left: the read of an empty message is the end of the file
    rw [hrest] at h₂
    cases h₂
    simp only [hrest, received, encode_nil, if_true]
    exact ⟨w, _, rfl, rfl, ⟨rfl, rfl, rfl, rfl, rfl, rfl⟩, rfl⟩
  · have hbytes : encode (withoutCorrupt cmds) ≠ [] := fun h => hrest (encode_eq_nil.1 h)
    have hfit := Nat.le_trans (encode_withoutCorrupt_le cmds) hmax
    rw [received, if_neg hbytes, readCb_eq cfg fd hrest hfit, h₂]
    simp only [hrest, if_false]
    exact ⟨w₁, w₁, rfl, rfl, SameEffects.refl w₁, rfl⟩

/-- A policy without a value. -/
def emptyPolicy : Cmd := Cmd.of AtlasCmdType.dataPlanePolicy [] (Nat.succ_pos 65535)

/-- An empty policy in front of a question for the identity: the message is handled as the question. -/
theorem corrupt_ignored_question : ∃ w₁,
    atlasDataPlaneReadCb Cfg.plain 7 (some (encode [emptyPolicy, askIdentity])) (Client.init Os.calm) = .ok w₁ ∧
      atlasDataPlaneReadCb Cfg.plain 7 (some (encode [askIdentity])) (Client.init Os.calm) = .ok w₁ := by
  have hcorrupt : emptyPolicy.CorruptPolicy := ⟨rfl, Or.inl rfl⟩
  have hsound : ¬ askIdentity.CorruptPolicy := fun h => absurd h.1 (by decide)
  have hwithout : withoutCorrupt [emptyPolicy, askIdentity] = [askIdentity] := by
    rw [withoutCorrupt_cons_corrupt hcorrupt, withoutCorrupt_cons_sound hsound]
    rfl
  have hpos : 1 ≤ (encode [emptyPolicy, askIdentity]).length := by decide
  have hmax : (encode [emptyPolicy, askIdentity]).length ≤ 2048 := by decide
  obtain ⟨-, h⟩ := corrupt_ignored Cfg.plain 7 hpos hmax (Client.init Os.calm)
  obtain ⟨-, w₁, w₂, h₁, h₂, -, heq⟩ := h _ rfl (by
    intro c hc
    simp only [List.mem_cons, List.not_mem_nil, or_false] at hc
    rcases hc with rfl | rfl
    · refine ⟨fun h => absurd h (by decide), fun _ inner hinner d hd => ?_⟩
      rw [encode_eq_nil.1 (show encode inner = [] from hinner.symm)] at hd
      cases hd
    · exact ⟨fun h => absurd h (by decide), fun h => absurd h (by decide)⟩)
  rw [hwithout] at h₂ heq
  rw [if_neg (by simp)] at heq
  exact ⟨w₁, h₁, heq ▸ h₂⟩

end AtlasClient
