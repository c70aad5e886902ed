import AtlasClient.Proof.Policy

/-!
# Reads inside a command

A handler is given a pointer to a value and the length of the value, and may read behind
it. The connector is run once more, with handlers that see no more than the value
(`AtlasCmd.cut`): a read past the value is then a fault.

* `foldCmds_iff`: a loop over a batch succeeds when each of its commands does.
* `inside_iff`: **no handler reads outside its value** exactly when every command that a
  fixed-width setter reads has a value of two bytes.
-/

namespace AtlasClient

open Framing Loop

variable {cfg : Cfg} {w w' : Client}

/-! ## Handlers that see only their value -/

/-- A command with the memory behind its value out of reach. -/
def AtlasCmd.cut (cmd : AtlasCmd) : AtlasCmd := { cmd with value := cmd.value.take cmd.length.toNat }

section views

variable (cfg : Cfg) (view : AtlasCmd → AtlasCmd)

/-- `atlas_data_plane_parse_policy`, when the handlers are given a view of each command. -/
def parsePolicyWith (buf : Bytes) (bufLen : UInt16) (w : Client) : Except Fault Client :=
  if buf = [] ∨ bufLen = 0 then .ok w
  else do
    let (status, batch) ← atlasCmdBatchSetRaw cfg.endian atlasCmdBatchNew buf bufLen
    if status ≠ .ok then return w
    let (_, w) ← cmdLoop cfg.endian (fun cmd => policyHandle cfg (view cmd)) batch w
    sendPolicyCommand cfg (mapConn (fun c => { c with activePolicy := true }) w)

def dataPlaneHandleWith (cmd : AtlasCmd) (w : Client) : Except Fault (Client ⊕ Client) :=
  if cmd.type = AtlasCmdType.dataPlanePolicy then .inl <$> parsePolicyWith cfg view cmd.value cmd.length w
  else dataPlaneHandle cfg cmd w

/-- `atlas_data_plane_read_cb`, likewise. -/
def readCbWith (buf : Bytes) (w : Client) : Except Fault Client := do
  let (status, batch) ← atlasCmdBatchSetRaw cfg.endian atlasCmdBatchNew buf (UInt16.ofNat buf.length)
  if status ≠ .ok then return w
  let (_, w) ← cmdLoop cfg.endian (fun cmd => dataPlaneHandleWith cfg view (view cmd)) batch w
  return w

end views

/-- With nothing hidden it is the connector. -/
theorem readCbWith_id (cfg : Cfg) (fd : ℤ) (buf : Bytes) (w : Client) :
    readCbWith cfg id buf w = atlasDataPlaneReadCb cfg fd (some buf) w := by
  have hhandle : (fun cmd => dataPlaneHandleWith cfg id (id cmd)) = dataPlaneHandle cfg := by
    funext cmd w
    simp only [id, dataPlaneHandleWith]
    split
    · rename_i ht
      rw [dataPlaneHandle, if_pos ht]
      rfl
    · rfl
  unfold readCbWith
  rw [hhandle]
  rfl

theorem cut_eq (c : Cmd) (post : Bytes) :
    AtlasCmd.cut ⟨c.type, c.length, c.value ++ post⟩ = ⟨c.type, c.length, c.value⟩ := by
  unfold AtlasCmd.cut
  simp only
  rw [← c.value_length, List.take_left]

/-! ## Loops -/

/-- **A loop succeeds when each command does**, and then it does what another loop does. -/
theorem foldCmds_iff {h₁ h₂ : AtlasCmd → Client → Except Fault (Client ⊕ Client)} {Good : Cmd → Prop} :
    ∀ {cmds : List Cmd},
      (∀ c ∈ cmds, Good c → ∀ post w, ∃ w', h₁ ⟨c.type, c.length, c.value ++ post⟩ w = .ok (.inl w') ∧
        h₂ ⟨c.type, c.length, c.value ++ post⟩ w = .ok (.inl w')) →
      (∀ c ∈ cmds, ¬ Good c → ∀ post w, ∃ f, h₁ ⟨c.type, c.length, c.value ++ post⟩ w = .error f) →
      ∀ w, (∀ c ∈ cmds, Good c) ∧ (∃ w', foldCmds h₁ cmds w = .ok w' ∧ foldCmds h₂ cmds w = .ok w') ∨
        (¬ ∀ c ∈ cmds, Good c) ∧ ∃ f, foldCmds h₁ cmds w = .error f := by
  intro cmds
  induction cmds with
  | nil => exact fun _ _ w => Or.inl ⟨by simp, w, rfl, rfl⟩
  | cons c cs ih =>
    intro hgood hbad w
    by_cases hc : Good c
    · obtain ⟨w₁, h1, h2⟩ := hgood c (by simp) hc (encode cs) w
      rw [foldCmds_cons h1, foldCmds_cons h2]
      have hrest := ih (fun d hd => hgood d (by simp [hd])) (fun d hd => hbad d (by simp [hd])) w₁
      simpa [hc] using hrest
    · obtain ⟨f, hf⟩ := hbad c (by simp) hc (encode cs) w
      refine Or.inr ⟨fun hall => hc (hall c (by simp)), f, ?_⟩
      simp only [foldCmds, hf, bind, Except.bind]

/-! ## Setters -/

/-- A setter that copies a word, from a value of two bytes. -/
theorem withConn_two (e : Endian) (f : Connector → UInt16 → Connector) {v : Bytes} (h : 2 ≤ v.length) (post : Bytes)
    (w : Client) : ∃ w', withConn (fun c => do return f c (← read16 e v 0)) w = .ok w' ∧
      withConn (fun c => do return f c (← read16 e (v ++ post) 0)) w = .ok w' := by
  match v, h with
  | a :: b :: rest, _ =>
    have h1 := read16_append e [] a b rest
    have h2 := read16_append e [] a b (rest ++ post)
    simp only [List.nil_append, List.length_nil] at h1 h2
    refine ⟨mapConn (fun c => f c (ofHost e a b)) w, withConn_ok ?_, withConn_ok ?_⟩
    · rw [h1]; rfl
    · rw [List.cons_append, List.cons_append, h2]; rfl

/-- From a shorter one. -/
theorem withConn_short (e : Endian) (f : Connector → UInt16 → Connector) {v : Bytes} (h : ¬ 2 ≤ v.length) (w : Client) :
    withConn (fun c => do return f c (← read16 e v 0)) w = .error .badAccess := by
  match v, h with
  | [], _ => rfl
  | [a], _ => rfl
  | a :: b :: rest, h => simp at h

/-- The types whose value a setter of the policy copies. -/
def IsPolicyWord (type : UInt16) : Prop :=
  type = AtlasCmdType.dataPlanePolicyQos ∨ type = AtlasCmdType.dataPlanePolicyPacketsPerMinute ∨
    type = AtlasCmdType.dataPlanePolicyPacketsMaxlen

/-- The value is long enough for its setter. -/
def Cmd.PolicyWord (c : Cmd) : Prop := IsPolicyWord c.type → 2 ≤ c.value.length

theorem policyHandle_inside {c : Cmd} (hc : c.PolicyWord) (post : Bytes) (w : Client) :
    ∃ w', policyHandle cfg (AtlasCmd.cut ⟨c.type, c.length, c.value ++ post⟩) w = .ok (.inl w') ∧
      policyHandle cfg ⟨c.type, c.length, c.value ++ post⟩ w = .ok (.inl w') := by
  have hword : ∀ f : Connector → UInt16 → Connector, IsPolicyWord c.type →
      ∃ w', (Sum.inl <$> withConn (fun a => do return f a (← read16 cfg.endian c.value 0)) w :
          Except Fault (Client ⊕ Client)) = .ok (.inl w') ∧
        (Sum.inl <$> withConn (fun a => do return f a (← read16 cfg.endian (c.value ++ post) 0)) w :
          Except Fault (Client ⊕ Client)) = .ok (.inl w') := by
    intro f ht
    obtain ⟨w', h1, h2⟩ := withConn_two cfg.endian f (hc ht) post w
    exact ⟨w', by rw [h1]; rfl, by rw [h2]; rfl⟩
  rw [cut_eq]
  unfold policyHandle
  simp only
  split
  · exact hword (fun a v => { a with policyQos := v }) (Or.inl ‹_›)
  split
  · exact hword (fun a v => { a with policyPacketsPerMin := v }) (Or.inr (Or.inl ‹_›))
  split
  · exact hword (fun a v => { a with policyPacketsMaxlen := v }) (Or.inr (Or.inr ‹_›))
  · exact ⟨w, rfl, rfl⟩

theorem policyHandle_outside {c : Cmd} (hc : ¬ c.PolicyWord) (post : Bytes) (w : Client) :
    ∃ f, policyHandle cfg (AtlasCmd.cut ⟨c.type, c.length, c.value ++ post⟩) w = .error f := by
  unfold Cmd.PolicyWord at hc
  rw [Classical.not_imp] at hc
  obtain ⟨ht, hlen⟩ := hc
  have hword : ∀ f : Connector → UInt16 → Connector,
      ∃ fault, (Sum.inl <$> withConn (fun a => do return f a (← read16 cfg.endian c.value 0)) w :
        Except Fault (Client ⊕ Client)) = .error fault := by
    intro f
    rw [withConn_short cfg.endian f hlen w]
    exact ⟨_, rfl⟩
  rw [cut_eq]
  unfold policyHandle
  simp only
  split
  · exact hword fun a v => { a with policyQos := v }
  split
  · exact hword fun a v => { a with policyPacketsPerMin := v }
  split
  · exact hword fun a v => { a with policyPacketsMaxlen := v }
  · rcases ht with ht | ht | ht <;> contradiction

/-! ## Commands -/

/-- A loop, and what follows it. -/
theorem loop_bind {β : Type} {e : Endian} {handle : AtlasCmd → Client → Except Fault (Client ⊕ Client)}
    {b : AtlasCmdBatch}
    {cmds : List Cmd} (h : Holds b cmds) (hne : cmds ≠ []) (g : Client → Except Fault β) (w : Client) :
    (do let (_, w) ← cmdLoop e handle b w; g w : Except Fault β) = (foldCmds handle cmds w).bind g := by
  rw [← cmdLoop_eq e handle h hne w]
  cases cmdLoop e handle b w <;> rfl

/-- Every fixed-width value in a batch that a policy holds is long enough. -/
def PolicyInside (value : Bytes) : Prop := ∀ inner : List Cmd, value = encode inner → ∀ d ∈ inner, Cmd.PolicyWord d

theorem policyInside_iff {value : Bytes} {inner : List Cmd} (h : value = encode inner) :
    PolicyInside value ↔ ∀ d ∈ inner, Cmd.PolicyWord d := by
  constructor
  · intro hinside
    exact hinside inner h
  · intro hall inner' hinner'
    rw [encode_injective (hinner'.symm.trans h)]
    exact hall

/-- With any memory behind a batch, the loop runs over the same commands. -/
theorem policyBatch_run (cfg : Cfg) {c : Cmd} {inner : List Cmd} (hne : c.value ≠ []) (hinner : c.value = encode inner)
    (handle : AtlasCmd → Client → Except Fault (Client ⊕ Client)) (mem : Bytes) (w : Client) :
    (do
      let (status, batch) ← atlasCmdBatchSetRaw cfg.endian atlasCmdBatchNew (c.value ++ mem) c.length
      if status ≠ .ok then return w
      let (_, w) ← cmdLoop cfg.endian handle batch w
      sendPolicyCommand cfg (mapConn (fun c => { c with activePolicy := true }) w) : Except Fault Client) =
    (foldCmds handle inner w).bind fun w =>
      sendPolicyCommand cfg (mapConn (fun c => { c with activePolicy := true }) w) := by
  have hlen : c.length.toNat = c.value.length := c.value_length.symm
  have hnil : inner ≠ [] := fun h => hne (by rw [hinner, h]; rfl)
  have hh : Holds ⟨c.length, c.value⟩ inner := ⟨hinner, hlen⟩
  have hok := setRaw_accepts cfg.endian atlasCmdBatchNew hlen hne ⟨inner, hinner⟩ mem
  rw [← loop_bind (e := cfg.endian) hh hnil _ w]
  simp only [hok, bind, Except.bind, ne_eq, not_true, if_false]

/-- **A policy** is read inside its value, or not. -/
theorem parsePolicy_inside (cfg : Cfg) (c : Cmd) (post : Bytes) (w : Client) :
    PolicyInside c.value ∧ (∃ w', parsePolicyWith cfg AtlasCmd.cut c.value c.length w = .ok w' ∧
        atlasDataPlaneParsePolicy cfg (c.value ++ post) c.length w = .ok w') ∨
      ¬ PolicyInside c.value ∧ ∃ f, parsePolicyWith cfg AtlasCmd.cut c.value c.length w = .error f := by
  by_cases hne : c.value = []
  · -- without a value nothing is read
    have h0 : c.length = 0 := UInt16.toNat_inj.1 (by rw [← c.value_length, hne]; rfl)
    refine Or.inl ⟨?_, w, if_pos (Or.inr h0), if_pos (Or.inr h0)⟩
    intro inner hinner d hd
    rw [hne] at hinner
    rw [encode_eq_nil.1 hinner.symm] at hd
    cases hd
  have hlen : c.length.toNat = c.value.length := c.value_length.symm
  have hbuf : ∀ mem, ¬ (c.value ++ mem = [] ∨ c.length = 0) := by
    rintro mem (h | h)
    · exact hne (List.append_eq_nil_iff.1 h).1
    · rw [h] at hlen
      exact hne (List.length_eq_zero_iff.1 hlen.symm)
  have hbuf₀ : ¬ (c.value = [] ∨ c.length = 0) := by simpa using hbuf []
  unfold parsePolicyWith atlasDataPlaneParsePolicy
  rw [if_neg hbuf₀, if_neg (hbuf post)]
  by_cases henc : IsEncoding cmdHeader c.value
  · obtain ⟨inner, hinner⟩ := henc
    have hrun₀ := policyBatch_run cfg hne hinner (fun cmd => policyHandle cfg cmd.cut) [] w
    rw [List.append_nil] at hrun₀
    rw [hrun₀, policyBatch_run cfg hne hinner, policyInside_iff hinner]
    have hloop : (∀ d ∈ inner, Cmd.PolicyWord d) ∧
        (∃ w', foldCmds (fun cmd => policyHandle cfg cmd.cut) inner w = .ok w' ∧
          foldCmds (policyHandle cfg) inner w = .ok w') ∨
        (¬ ∀ d ∈ inner, Cmd.PolicyWord d) ∧ ∃ f, foldCmds (fun cmd => policyHandle cfg cmd.cut) inner w = .error f :=
      foldCmds_iff (fun d _ hd => policyHandle_inside hd) (fun d _ hd => policyHandle_outside hd) w
    refine hloop.imp ?_ ?_
    · rintro ⟨hgood, w₁, h1, h2⟩
      obtain ⟨w₂, h₂⟩ := sendPolicy_ok cfg (mapConn (fun c => { c with activePolicy := true }) w₁)
      exact ⟨hgood, w₂, (bind_of_ok h1 _).trans h₂, (bind_of_ok h2 _).trans h₂⟩
    · rintro ⟨hbad, f, hf⟩
      exact ⟨hbad, f, bind_of_error hf _⟩
  · -- no batch: nothing of it is handled
    have hrun := setRaw_rejects cfg.endian atlasCmdBatchNew hlen hne henc
    have hrun₀ := hrun []
    rw [List.append_nil] at hrun₀
    refine Or.inl ⟨fun inner hinner => absurd ⟨inner, hinner⟩ henc, w, ?_, ?_⟩
    · simp only [hrun₀, bind, Except.bind]; rfl
    · simp only [hrun post, bind, Except.bind]; rfl

/-- Every read of a handler is inside the value. -/
structure Cmd.ReadsInside (c : Cmd) : Prop where
  word : c.HasWord
  policy : c.type = AtlasCmdType.dataPlanePolicy → PolicyInside c.value

theorem inl_both {x y : Except Fault Client} (h : ∃ w', x = .ok w' ∧ y = .ok w') :
    ∃ w', (Sum.inl <$> x : Except Fault (Client ⊕ Client)) = .ok (.inl w') ∧
      (Sum.inl <$> y : Except Fault (Client ⊕ Client)) = .ok (.inl w') := by
  obtain ⟨w', rfl, rfl⟩ := h
  exact ⟨w', rfl, rfl⟩

/-- A command that is passed on is read as far as its length. -/
theorem forward_inside (cfg : Cfg) {c : Cmd} (hc : c.size ≤ 2048) (path : String) (cb : AppCb) (post : Bytes)
    (w : Client) : ∃ w', forwardToGateway cfg c.type path cb c.value c.length w = .ok w' ∧
      forwardToGateway cfg c.type path cb (c.value ++ post) c.length w = .ok w' := by
  by_cases hne : c.value = []
  · have h0 : c.length = 0 := UInt16.toNat_inj.1 (by rw [← c.value_length, hne]; rfl)
    exact ⟨w, if_pos h0, if_pos h0⟩
  · have hreq := forward_request cfg hne hc path cb [] w
    rw [List.append_nil] at hreq
    exact ⟨_, hreq, forward_request cfg hne hc path cb post w⟩

theorem handle_inside (cfg : Cfg) {c : Cmd} (hc : c.ReadsInside) (hsize : c.size ≤ 2048) (post : Bytes) (w : Client) :
    ∃ w', dataPlaneHandleWith cfg AtlasCmd.cut (AtlasCmd.cut ⟨c.type, c.length, c.value ++ post⟩) w = .ok (.inl w') ∧
      dataPlaneHandle cfg ⟨c.type, c.length, c.value ++ post⟩ w = .ok (.inl w') := by
  rw [cut_eq]
  unfold dataPlaneHandleWith dataPlaneHandle
  simp only
  by_cases ht : c.type = AtlasCmdType.dataPlanePolicy
  · rw [if_pos ht, if_pos ht]
    rcases parsePolicy_inside cfg c post w with ⟨-, h⟩ | ⟨hno, -⟩
    · exact inl_both h
    · exact absurd (hc.policy ht) hno
  rw [if_neg ht, if_neg ht, if_neg ht]
  split
  · exact inl_both (withConn_two cfg.endian (fun a v => { a with packetsPerMin := v }) (hc.word (Or.inl ‹_›)) post w)
  split
  · exact inl_both (withConn_two cfg.endian (fun a v => { a with packetsAvg := v }) (hc.word (Or.inr ‹_›)) post w)
  split
  · rename_i hrep
    have hf := forward_inside cfg hsize "gateway/reputation/feature" .featureReputationCallback post w
    rw [hrep] at hf
    exact inl_both hf
  split
  · rename_i hfb
    have hf := forward_inside cfg hsize "gateway/reputation/feedback" .feedbackCallback post w
    rw [hfb] at hf
    exact inl_both hf
  split
  · obtain ⟨w', h⟩ := identity_ok cfg w
    exact inl_both ⟨w', h, h⟩
  · exact ⟨w, rfl, rfl⟩

theorem handle_outside (cfg : Cfg) {c : Cmd} (hc : ¬ c.ReadsInside) (post : Bytes) (w : Client) :
    ∃ f, dataPlaneHandleWith cfg AtlasCmd.cut (AtlasCmd.cut ⟨c.type, c.length, c.value ++ post⟩) w = .error f := by
  rw [cut_eq]
  unfold dataPlaneHandleWith dataPlaneHandle
  simp only
  by_cases ht : c.type = AtlasCmdType.dataPlanePolicy
  · rw [if_pos ht]
    rcases parsePolicy_inside cfg c post w with ⟨hall, -⟩ | ⟨-, f, hf⟩
    · refine absurd ⟨?_, fun _ => hall⟩ hc
      rintro (h | h) <;> rw [ht] at h <;> cases h
    · exact ⟨f, by rw [hf]; rfl⟩
  -- a word that is too short
  have hword : ¬ c.HasWord := fun h => hc ⟨h, fun h' => absurd h' ht⟩
  unfold Cmd.HasWord at hword
  rw [Classical.not_imp] at hword
  obtain ⟨htype, hlen⟩ := hword
  rw [if_neg ht, if_neg ht]
  split
  · exact ⟨_, congrArg (fun x => Sum.inl <$> x)
      (withConn_short cfg.endian (fun a v => { a with packetsPerMin := v }) hlen w)⟩
  split
  · exact ⟨_, congrArg (fun x => Sum.inl <$> x)
      (withConn_short cfg.endian (fun a v => { a with packetsAvg := v }) hlen w)⟩
  · rcases htype with h | h <;> contradiction

/-! ## Messages -/

/-- **No handler reads outside its value, and exactly when.** For every message of 1 to 2048 bytes
that `atlas_data_plane_read_cb` receives, in any state: the handlers, shown no more than the value
of their command, run without a fault (and do what they do), if and only if, when the message is
a batch, each of its packet statistics, and each of the three values in a batch that one of its
policies holds, has two bytes at least. -/
theorem inside_iff (cfg : Cfg) (fd : ℤ) {buf : Bytes} (hpos : 1 ≤ buf.length) (hmax : buf.length ≤ 2048) (w : Client) :
    (∃ w', readCbWith cfg AtlasCmd.cut buf w = .ok w' ∧ atlasDataPlaneReadCb cfg fd (some buf) w = .ok w') ↔
      ∀ cmds : List Cmd, buf = encode cmds → ∀ c ∈ cmds, Cmd.ReadsInside c := by
  have hne : buf ≠ [] := by
    rintro rfl; simp at hpos
  rcases setRaw_message cfg.endian atlasCmdBatchNew hne (by omega) with ⟨cmds, b, hnil, rfl, hh, hok⟩ | ⟨henc, hrej⟩
  swap
  · -- the message is rejected
    refine iff_of_true ⟨w, ?_, ?_⟩ fun cmds hcmds => absurd ⟨cmds, hcmds⟩ henc
    · simp only [readCbWith, hrej, bind, Except.bind]; rfl
    · simp only [atlasDataPlaneReadCb, hrej, bind, Except.bind]; rfl
  have hread : readCbWith cfg AtlasCmd.cut (encode cmds) w =
      foldCmds (fun cmd => dataPlaneHandleWith cfg AtlasCmd.cut cmd.cut) cmds w := by
    rw [← loop_raw (e := cfg.endian) hh hnil w]
    simp only [readCbWith, hok, bind, Except.bind]
    rfl
  have hloop : (∀ c ∈ cmds, Cmd.ReadsInside c) ∧
      (∃ w', foldCmds (fun cmd => dataPlaneHandleWith cfg AtlasCmd.cut cmd.cut) cmds w = .ok w' ∧
        foldCmds (dataPlaneHandle cfg) cmds w = .ok w') ∨
      (¬ ∀ c ∈ cmds, Cmd.ReadsInside c) ∧
        ∃ f, foldCmds (fun cmd => dataPlaneHandleWith cfg AtlasCmd.cut cmd.cut) cmds w = .error f := by
    refine foldCmds_iff (fun c hc hg => handle_inside cfg hg ?_) (fun c _ hb => handle_outside cfg hb) w
    obtain ⟨l, r, hl⟩ := List.append_of_mem hc
    rw [hl, encode_append, encode_cons] at hmax
    simp only [List.length_append, Frame.bytes_length] at hmax
    omega
  rw [hread, readCb_eq cfg fd hnil hmax w]
  rcases hloop with ⟨hall, h⟩ | ⟨hno, f, hf⟩
  · refine iff_of_true h fun cmds' h' => ?_
    rw [← encode_injective h']
    exact hall
  · refine iff_of_false ?_ fun h => hno (h cmds rfl)
    rintro ⟨w', h, -⟩
    rw [hf] at h; cases h

/-- A report of two words. -/
theorem inside_iff_report : (∃ w', readCbWith Cfg.plain AtlasCmd.cut [3, 233, 0, 2, 5, 0]
    (Client.init Os.calm) = .ok w' ∧
      atlasDataPlaneReadCb Cfg.plain 7 (some [3, 233, 0, 2, 5, 0]) (Client.init Os.calm) = .ok w') ↔
    ∀ cmds : List Cmd, [3, 233, 0, 2, 5, 0] = encode cmds → ∀ c ∈ cmds, Cmd.ReadsInside c :=
  inside_iff Cfg.plain 7 (by decide) (by decide) (Client.init Os.calm)

/-- **A statistic without a value**: two bytes behind the message are copied. -/
theorem empty_statistic_read_outside :
    ¬ ∀ (cfg : Cfg) (buf : Bytes) (w : Client), 1 ≤ buf.length → buf.length ≤ 2048 →
      ∃ w', readCbWith cfg AtlasCmd.cut buf w = .ok w' := by
  intro h
  obtain ⟨w', hw'⟩ := h Cfg.plain [3, 233, 0, 0] (Client.init Os.calm) (by decide) (by decide)
  have hfault : readCbWith Cfg.plain AtlasCmd.cut [3, 233, 0, 0] (Client.init Os.calm) = .error .badAccess := rfl
  rw [hfault] at hw'
  cases hw'

end AtlasClient
