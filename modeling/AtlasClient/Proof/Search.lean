import AtlasClient.Proof.Threshold

/-!
# Searching a batch

A loop over the commands of a batch that ends at the first command of a kind.

* `foldCmds_first`: such a loop is `List.find?`.
* `pushParse_exact`: **a push alert is parsed exactly**: the parser succeeds on the batches with a push
  rate of two bytes, with the first of them, and leaves the out-parameter alone otherwise.
-/

namespace AtlasClient

open Framing Loop

variable {e : Endian} {cmds : List Cmd} {c d : Cmd} {p : Cmd → Prop}

/-- The first command of a kind. -/
def FirstOf (p : Cmd → Prop) (cmds : List Cmd) (c : Cmd) : Prop :=
  ∃ pre post, cmds = pre ++ c :: post ∧ p c ∧ ∀ d ∈ pre, ¬ p d

theorem FirstOf.mem (h : FirstOf p cmds c) : c ∈ cmds ∧ p c := by
  obtain ⟨pre, post, rfl, hc, -⟩ := h
  exact ⟨by simp, hc⟩

theorem find?_iff_firstOf [DecidablePred p] : cmds.find? (fun c => p c) = some c ↔ FirstOf p cmds c := by
  rw [List.find?_eq_some_iff_append]
  simp only [decide_eq_true_eq, Bool.not_eq_true', decide_eq_false_iff_not, FirstOf]
  constructor
  · rintro ⟨hc, pre, post, hl, hpre⟩
    exact ⟨pre, post, hl, hc, hpre⟩
  · rintro ⟨pre, post, hl, hc, hpre⟩
    exact ⟨hc, pre, post, hl, hpre⟩

theorem FirstOf.unique [DecidablePred p] (hc : FirstOf p cmds c) (hd : FirstOf p cmds d) : c = d :=
  Option.some.inj ((find?_iff_firstOf.2 hc).symm.trans (find?_iff_firstOf.2 hd))

variable {α : Type} {handle : AtlasCmd → α → Except Fault (α ⊕ α)} {f : Cmd → α}

/-- **A loop that ends at the first command of a kind**, and does nothing before, is a search. -/
theorem foldCmds_first [DecidablePred p] (a : α)
    (hhit : ∀ c, p c → ∀ post, handle ⟨c.type, c.length, c.value ++ post⟩ a = .ok (.inr (f c)))
    (hmiss : ∀ c, ¬ p c → ∀ post, handle ⟨c.type, c.length, c.value ++ post⟩ a = .ok (.inl a)) :
    foldCmds handle cmds a = .ok ((cmds.find? fun c => p c).elim a f) := by
  induction cmds with
  | nil => rfl
  | cons c cs ih =>
    by_cases hc : p c
    · rw [List.find?_cons_of_pos (by simpa using hc)]
      simp only [foldCmds, hhit c hc, bind, Except.bind, Option.elim_some]
    · rw [List.find?_cons_of_neg (by simpa using hc), foldCmds_cons (hmiss c hc _), ih]

/-! ## Push alerts -/

variable {buf : Bytes} {bufLen : UInt16}

def Cmd.IsPushRate (c : Cmd) : Prop := c.type = AtlasCmdType.telemetryAlertExtPushRate ∧ c.length = 2

instance Cmd.decidableIsPushRate (c : Cmd) : Decidable c.IsPushRate :=
  inferInstanceAs (Decidable (c.type = AtlasCmdType.telemetryAlertExtPushRate ∧ c.length = 2))

/-- The big-endian value of a command of two bytes. -/
def Cmd.word (c : Cmd) : UInt16 := AtlasClient.word (c.value.getD 0 0) (c.value.getD 1 0)

theorem Cmd.netBytes_word (h : c.length = 2) : c.value = netBytes c.word := by
  obtain ⟨x, y, hxy⟩ := c.two_bytes h
  simp [Cmd.word, hxy, netBytes]

/-- A push rate ends the loop. -/
theorem pushCmd_hit (e : Endian) (v : PushVars) (c : Cmd) (h : c.IsPushRate) (post : Bytes) :
    pushCmd e ⟨c.type, c.length, c.value ++ post⟩ v = .ok (.inr ⟨c.word, true⟩) := by
  obtain ⟨x, y, hxy⟩ := c.two_bytes h.2
  have hread : read16 e (c.value ++ post) 0 = .ok (ofHost e x y) := by
    rw [hxy]; exact read16_append e [] x y post
  have hif : c.type = AtlasCmdType.telemetryAlertExtPushRate ∧ c.length = 2 := h
  simp only [pushCmd, bind]
  rw [if_pos hif, bind_of_ok hread, ntohs_ofHost, Cmd.word, hxy]
  rfl

theorem pushCmd_miss (e : Endian) (v : PushVars) (c : Cmd) (h : ¬ c.IsPushRate) (post : Bytes) :
    pushCmd e ⟨c.type, c.length, c.value ++ post⟩ v = .ok (.inl v) := if_neg h

/-- **What the parser does**: it rejects what has no push rate, and yields the first one of a batch that
has one. -/
theorem pushParse_cases (e : Endian) (hlen : buf = [] ∨ bufLen.toNat ≤ buf.length) (rate : UInt16) :
    ((∀ cmds, HoldsCmds buf bufLen cmds → ∀ c ∈ cmds, ¬ c.IsPushRate) ∧ ∃ status, status ≠ .ok ∧
      atlasAlertPushCmdParse e buf bufLen (some rate) = .ok (status, some rate)) ∨
    ∃ cmds c, HoldsCmds buf bufLen cmds ∧ FirstOf Cmd.IsPushRate cmds c ∧
      atlasAlertPushCmdParse e buf bufLen (some rate) = .ok (.ok, some c.word) := by
  by_cases h0 : buf = [] ∨ bufLen = 0
  · left
    refine ⟨fun cmds hcmds c hc => ?_, .invalidInput, by decide, if_pos h0⟩
    rw [HoldsCmds.eq_nil hcmds h0] at hc
    cases hc
  have hle : bufLen.toNat ≤ buf.length := hlen.resolve_left fun h => h0 (Or.inl h)
  simp only [atlasAlertPushCmdParse, if_neg h0, bind]
  rcases setRaw_holdsCmds e h0 hle with ⟨cmds, hcne, hcmds, hholds, hraw⟩ | ⟨hno, hraw⟩
  · have hfold : foldCmds (pushCmd e) cmds ⟨rate, false⟩ = _ :=
      foldCmds_first _ (pushCmd_hit e _) (pushCmd_miss e _)
    obtain ⟨b', hloop⟩ := cmdLoop_ok (e := e) hholds hcne hfold
    rw [bind_of_ok hraw]
    simp only [ne_eq, not_true_eq_false, if_false]
    rw [bind_of_ok hloop]
    cases hfind : cmds.find? fun c => c.IsPushRate with
    | none =>
      left
      refine ⟨fun cmds' hcmds' c hc => ?_, .corruptedCommand, by decide, rfl⟩
      rw [List.find?_eq_none] at hfind
      simpa using hfind c (hcmds.unique hcmds' ▸ hc)
    | some c => exact Or.inr ⟨cmds, c, hcmds, find?_iff_firstOf.1 hfind, rfl⟩
  · left
    rw [bind_of_ok hraw]
    exact ⟨fun cmds hcmds => absurd hcmds (hno cmds), .corruptedCommand, by decide, rfl⟩

/-- **A push alert is parsed exactly.** For every buffer of at least the given length, or `NULL`: the
parser succeeds if and only if the buffer is a non-empty batch with a push rate of two bytes, it
then yields the big-endian value of the first one, and on an error the out-parameter is unchanged. -/
theorem pushParse_exact (e : Endian) (hlen : buf = [] ∨ bufLen.toNat ≤ buf.length) (rate : UInt16) :
    ∃ status rate', atlasAlertPushCmdParse e buf bufLen (some rate) = .ok (status, some rate') ∧
      (status = .ok ↔ ∃ cmds, cmds ≠ [] ∧ HoldsCmds buf bufLen cmds ∧ ∃ c ∈ cmds, c.IsPushRate) ∧
      (status = .ok → ∃ cmds c, HoldsCmds buf bufLen cmds ∧ FirstOf Cmd.IsPushRate cmds c ∧ c.value = netBytes rate') ∧
      (status ≠ .ok → rate' = rate) := by
  rcases pushParse_cases e hlen rate with ⟨hno, status, hne, hparse⟩ | ⟨cmds, c, hcmds, hfirst, hparse⟩
  · refine ⟨status, rate, hparse, iff_of_false hne ?_, fun h => absurd h hne, fun _ => rfl⟩
    rintro ⟨cmds, -, hcmds, c, hc, hrate⟩
    exact hno cmds hcmds c hc hrate
  · obtain ⟨hmem, hrate⟩ := hfirst.mem
    refine ⟨.ok, c.word, hparse, iff_of_true rfl ⟨cmds, List.ne_nil_of_mem hmem, hcmds, c, hmem, hrate⟩, ?_,
      fun h => absurd rfl h⟩
    exact fun _ => ⟨cmds, c, hcmds, hfirst, c.netBytes_word hrate.2⟩

/-- A push rate of one byte, and then one of 60 seconds. -/
theorem pushParse_request : ∃ status rate',
    atlasAlertPushCmdParse .little [2, 1, 0, 1, 9, 2, 1, 0, 2, 0, 60] 11 (some 0) = .ok (status, some rate') ∧
      (status = .ok ↔ ∃ cmds, cmds ≠ [] ∧ HoldsCmds [2, 1, 0, 1, 9, 2, 1, 0, 2, 0, 60] 11 cmds ∧
        ∃ c ∈ cmds, c.IsPushRate) ∧
      (status = .ok → ∃ cmds c, HoldsCmds [2, 1, 0, 1, 9, 2, 1, 0, 2, 0, 60] 11 cmds ∧
        FirstOf Cmd.IsPushRate cmds c ∧ c.value = netBytes rate') ∧
      (status ≠ .ok → rate' = 0) :=
  pushParse_exact .little (Or.inr (by decide)) 0

/-- It is the second one that counts. -/
example : atlasAlertPushCmdParse .little [2, 1, 0, 1, 9, 2, 1, 0, 2, 0, 60] 11 (some 0) = .ok (.ok, some 60) := by rfl

end AtlasClient
