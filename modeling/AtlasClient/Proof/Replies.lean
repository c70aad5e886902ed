import AtlasClient.Proof.Link
import AtlasClient.Proof.Reconnect
import AtlasClient.Proof.Search

/-!
# What a reply delivers

`send_identity_command` and `atlas_reputation_request` search a reply for one command, and return the
status of the batch parser when they do not find it.

* `identityReply_cases`, `reputationReply_cases`: the search in closed form.
* `identity_inv`, `init_inv`, `request_inv`: what a call that succeeds has read.
* `delivered_iff`: **success means that an identity was delivered** exactly for the replies that are not a
  batch without the command.
-/

namespace AtlasClient

open Framing Fuel Loop

variable {e : Endian} {buf : Bytes} {cmds : List Cmd} {c : Cmd} {k n : ℕ}

/-! ## The search -/

def Cmd.IsIdentity (c : Cmd) : Prop := c.type = AtlasCmdType.dataPlaneIdentity

def Cmd.IsReputation (c : Cmd) : Prop := c.type = AtlasCmdType.dataPlaneFeatureReputation

def Cmd.IsError (c : Cmd) : Prop := c.type = AtlasCmdType.dataPlaneFeatureError

def Cmd.IsAnswer (c : Cmd) : Prop := c.IsReputation ∨ c.IsError

instance Cmd.decidableIsIdentity (c : Cmd) : Decidable c.IsIdentity :=
  inferInstanceAs (Decidable (c.type = AtlasCmdType.dataPlaneIdentity))

instance Cmd.decidableIsReputation (c : Cmd) : Decidable c.IsReputation :=
  inferInstanceAs (Decidable (c.type = AtlasCmdType.dataPlaneFeatureReputation))

instance Cmd.decidableIsError (c : Cmd) : Decidable c.IsError :=
  inferInstanceAs (Decidable (c.type = AtlasCmdType.dataPlaneFeatureError))

instance Cmd.decidableIsAnswer (c : Cmd) : Decidable c.IsAnswer :=
  inferInstanceAs (Decidable (c.IsReputation ∨ c.IsError))

/-- The zero-terminated copy of a value. -/
def Cmd.copy (c : Cmd) : Bytes := c.value ++ [0]

namespace Library

variable {s s' : Library} {old identity : Option Bytes} {status : AtlasStatus}

theorem copyValue_eq (c : Cmd) (post : Bytes) : copyValue ⟨c.type, c.length, c.value ++ post⟩ = .ok c.copy := by
  simp only [copyValue, c.read_value post, bind, Except.bind]
  rfl

/-- A batch is read, and searched by a handler: what both callers do with a reply. -/
def searched {α ρ : Type} (e : Endian) (handle : AtlasCmd → α → Except Fault (α ⊕ α)) (init : AtlasStatus → α)
    (failed : AtlasStatus → ρ) (found : AtlasStatus → α → ρ) (buf : Bytes) : Except Fault ρ :=
  (atlasCmdBatchSetRaw e atlasCmdBatchNew buf (UInt16.ofNat buf.length)).bind fun x =>
    if x.1 ≠ .ok then .ok (failed x.1)
    else (cmdLoop e handle x.2 (init x.1)).bind fun y => .ok (found x.1 y.2)

/-- **A reply** is corrupted, or searched for the first command of a kind. -/
theorem searched_cases {α ρ : Type} {handle : AtlasCmd → α → Except Fault (α ⊕ α)} {f : Cmd → α}
    {p : Cmd → Prop} [DecidablePred p] (e : Endian) (hne : buf ≠ []) (hmax : buf.length ≤ 2048) (init : AtlasStatus → α)
    (failed : AtlasStatus → ρ) (found : AtlasStatus → α → ρ)
    (hhit : ∀ c, p c → ∀ post, handle ⟨c.type, c.length, c.value ++ post⟩ (init .ok) = .ok (.inr (f c)))
    (hmiss : ∀ c, ¬ p c → ∀ post, handle ⟨c.type, c.length, c.value ++ post⟩ (init .ok) = .ok (.inl (init .ok))) :
    (¬ IsEncoding cmdHeader buf ∧ searched e handle init failed found buf = .ok (failed .corruptedCommand)) ∨
    ∃ cmds : List Cmd, cmds ≠ [] ∧ buf = encode cmds ∧ searched e handle init failed found buf =
      .ok (found .ok ((cmds.find? fun c => p c).elim (init .ok) f)) := by
  unfold searched
  rcases setRaw_message e atlasCmdBatchNew hne (by omega) with ⟨cmds, b, hcne, rfl, hh, hraw⟩ | ⟨henc, hraw⟩
  · obtain ⟨b', hloop⟩ := cmdLoop_ok (e := e) hh hcne (foldCmds_first (init .ok) hhit hmiss)
    refine Or.inr ⟨cmds, hcne, rfl, ?_⟩
    rw [bind_of_ok hraw, if_neg (not_not.2 rfl), bind_of_ok hloop]
  · refine Or.inl ⟨henc, ?_⟩
    rw [bind_of_ok hraw]
    rfl

theorem identityReplyCmd_hit (identity : Option Bytes) (c : Cmd) (h : c.IsIdentity) (post : Bytes) :
    identityReplyCmd ⟨c.type, c.length, c.value ++ post⟩ identity = .ok (.inr (some c.copy)) := by
  have ht : c.type = AtlasCmdType.dataPlaneIdentity := h
  simp only [identityReplyCmd, bind]
  rw [if_pos ht, bind_of_ok (copyValue_eq c post)]

theorem identityReplyCmd_miss (identity : Option Bytes) (c : Cmd) (h : ¬ c.IsIdentity) (post : Bytes) :
    identityReplyCmd ⟨c.type, c.length, c.value ++ post⟩ identity = .ok (.inl identity) := if_neg h

/-- **The reply to a question for the identity**: corrupted, or searched for the identity; without one, the
status is still that of the parser. -/
theorem identityReply_cases (e : Endian) (hne : buf ≠ []) (hmax : buf.length ≤ 2048) (old : Option Bytes) :
    (¬ IsEncoding cmdHeader buf ∧ identityReply e old (some buf) = .ok (.corruptedCommand, old)) ∨
    ∃ cmds : List Cmd, cmds ≠ [] ∧ buf = encode cmds ∧ identityReply e old (some buf) =
      .ok (.ok, (cmds.find? fun c => c.IsIdentity).elim none fun c => some c.copy) :=
  searched_cases e hne hmax (fun _ => none) (fun status => (status, old))
    (fun status identity => (status, identity)) (identityReplyCmd_hit none) (identityReplyCmd_miss none)

/-- What the first answer to a reputation request becomes. -/
def answer (old : Option Bytes) (c : Cmd) : AtlasStatus × Option Bytes :=
  if c.IsReputation then (.ok, some c.copy) else (.generalErr, old)

theorem reputationReplyCmd_hit (old : Option Bytes) (c : Cmd) (h : c.IsAnswer) (post : Bytes) :
    reputationReplyCmd ⟨c.type, c.length, c.value ++ post⟩ (.ok, old) = .ok (.inr (answer old c)) := by
  simp only [reputationReplyCmd, answer, bind]
  by_cases hr : c.IsReputation
  · have ht : c.type = AtlasCmdType.dataPlaneFeatureReputation := hr
    rw [if_pos ht, if_pos hr, bind_of_ok (copyValue_eq c post)]
  · have ht : ¬ c.type = AtlasCmdType.dataPlaneFeatureReputation := hr
    have he : c.type = AtlasCmdType.dataPlaneFeatureError := h.resolve_left hr
    rw [if_neg ht, if_pos he, if_neg hr]

theorem reputationReplyCmd_miss (old : Option Bytes) (c : Cmd) (h : ¬ c.IsAnswer) (post : Bytes) :
    reputationReplyCmd ⟨c.type, c.length, c.value ++ post⟩ (.ok, old) = .ok (.inl (.ok, old)) := by
  have hr : ¬ c.type = AtlasCmdType.dataPlaneFeatureReputation := fun hr => h (Or.inl hr)
  have he : ¬ c.type = AtlasCmdType.dataPlaneFeatureError := fun he => h (Or.inr he)
  simp only [reputationReplyCmd]
  rw [if_neg hr, if_neg he]

/-- **The reply to a reputation request**, likewise. -/
theorem reputationReply_cases (e : Endian) (hne : buf ≠ []) (hmax : buf.length ≤ 2048) (old : Option Bytes) :
    (¬ IsEncoding cmdHeader buf ∧ reputationReply e old (some buf) = .ok (.corruptedCommand, old)) ∨
    ∃ cmds : List Cmd, cmds ≠ [] ∧ buf = encode cmds ∧ reputationReply e old (some buf) =
      .ok ((cmds.find? fun c => c.IsAnswer).elim (.ok, old) (answer old)) :=
  searched_cases e hne hmax (fun status => (status, old)) (fun status => (status, old)) (fun _ r => r)
    (reputationReplyCmd_hit old) (reputationReplyCmd_miss old)

/-! ## What is delivered -/

/-- The value of the first command of a kind, in front of which there is none of another kind. -/
def DeliversFirst (p stop : Cmd → Prop) (reply : Bytes) (identity : Option Bytes) : Prop :=
  ∃ pre c post, reply = encode (pre ++ c :: post) ∧ p c ∧ (∀ d ∈ pre, ¬ p d ∧ ¬ stop d) ∧ identity = some c.copy

/-- The reply is a batch without such a command. -/
def Lacks (p : Cmd → Prop) (reply : Bytes) : Prop :=
  ∃ cmds : List Cmd, cmds ≠ [] ∧ reply = encode cmds ∧ ∀ c ∈ cmds, ¬ p c

theorem Lacks.ne_nil {p : Cmd → Prop} (h : Lacks p buf) : buf ≠ [] := by
  obtain ⟨cmds, hne, rfl, -⟩ := h
  exact fun h0 => hne (encode_eq_nil.1 h0)

theorem identityReply_ok (hne : buf ≠ []) (hmax : buf.length ≤ 2048) (hl : ¬ Lacks Cmd.IsIdentity buf)
    (h : identityReply e old (some buf) = .ok (.ok, identity)) :
    DeliversFirst Cmd.IsIdentity (fun _ => False) buf identity := by
  rcases identityReply_cases e hne hmax old with ⟨-, hreply⟩ | ⟨cmds, hcne, rfl, hreply⟩
  · rw [hreply] at h
    cases h
  rw [hreply] at h
  cases hfind : cmds.find? fun c => c.IsIdentity with
  | none =>
    rw [List.find?_eq_none] at hfind
    exact absurd ⟨cmds, hcne, rfl, fun c hc => by simpa using hfind c hc⟩ hl
  | some c =>
    rw [hfind] at h
    cases h
    obtain ⟨pre, post, rfl, hc, hpre⟩ := find?_iff_firstOf.1 hfind
    exact ⟨pre, c, post, rfl, hc, fun d hd => ⟨hpre d hd, id⟩, rfl⟩

theorem reputationReply_ok (hne : buf ≠ []) (hmax : buf.length ≤ 2048) (hl : ¬ Lacks Cmd.IsAnswer buf)
    (h : reputationReply e old (some buf) = .ok (.ok, identity)) :
    DeliversFirst Cmd.IsReputation Cmd.IsError buf identity := by
  rcases reputationReply_cases e hne hmax old with ⟨-, hreply⟩ | ⟨cmds, hcne, rfl, hreply⟩
  · rw [hreply] at h
    cases h
  rw [hreply] at h
  cases hfind : cmds.find? fun c => c.IsAnswer with
  | none =>
    rw [List.find?_eq_none] at hfind
    exact absurd ⟨cmds, hcne, rfl, fun c hc => by simpa using hfind c hc⟩ hl
  | some c =>
    obtain ⟨pre, post, rfl, hc, hpre⟩ := find?_iff_firstOf.1 hfind
    rw [hfind, Option.elim_some, answer] at h
    by_cases hr : c.IsReputation
    · rw [if_pos hr] at h
      cases h
      exact ⟨pre, c, post, rfl, hr, fun d hd => ⟨fun h => hpre d hd (Or.inl h), fun h => hpre d hd (Or.inr h)⟩, rfl⟩
    · rw [if_neg hr] at h
      cases h

/-- **Without the command** the call succeeds all the same. -/
theorem identityReply_lacks (e : Endian) (hl : Lacks Cmd.IsIdentity buf) (hmax : buf.length ≤ 2048)
    (old : Option Bytes) :
    identityReply e old (some buf) = .ok (.ok, none) := by
  obtain ⟨cmds, -, hbuf, hno⟩ := id hl
  rcases identityReply_cases e hl.ne_nil hmax old with ⟨henc, -⟩ | ⟨cmds', -, hbuf', hreply⟩
  · exact absurd ⟨cmds, hbuf⟩ henc
  · obtain rfl := encode_injective (hbuf.symm.trans hbuf')
    have hfind : cmds.find? (fun c => c.IsIdentity) = none :=
      List.find?_eq_none.2 fun c hc => by simpa using hno c hc
    rw [hreply, hfind]
    rfl

theorem reputationReply_lacks (e : Endian) (hl : Lacks Cmd.IsAnswer buf) (hmax : buf.length ≤ 2048)
    (old : Option Bytes) :
    reputationReply e old (some buf) = .ok (.ok, old) := by
  obtain ⟨cmds, -, hbuf, hno⟩ := id hl
  rcases reputationReply_cases e hl.ne_nil hmax old with ⟨henc, -⟩ | ⟨cmds', -, hbuf', hreply⟩
  · exact absurd ⟨cmds, hbuf⟩ henc
  · obtain rfl := encode_injective (hbuf.symm.trans hbuf')
    have hfind : cmds.find? (fun c => c.IsAnswer) = none :=
      List.find?_eq_none.2 fun c hc => by simpa using hno c hc
    rw [hreply, hfind]
    rfl

/-! ## Reading -/

/-- A read fails, or delivers the bytes of the next reply. -/
theorem readSocket_cases (s : Library) : s.readSocket.1 = none ∨
    ∃ reply : Reply, s.os.reads.head = some reply ∧ reply.1 ≠ [] ∧ s.readSocket.1 = some reply.1 := by
  unfold readSocket
  cases s.fd with
  | none => exact Or.inl rfl
  | some conn =>
    cases hhead : s.os.reads.head with
    | none => exact Or.inl rfl
    | some reply =>
      by_cases hnil : reply.1 = []
      · exact Or.inl (if_pos hnil)
      · exact Or.inr ⟨reply, rfl, hnil, if_neg hnil⟩

theorem readSocket_reply {reply : Reply} (hfd : s.fd ≠ none) (hreply : s.os.reads.head = some reply)
    (hne : reply.1 ≠ []) : s.readSocket.1 = some reply.1 := by
  obtain ⟨conn, hconn⟩ := Option.ne_none_iff_exists'.1 hfd
  simp only [readSocket, hconn, hreply, if_neg hne]

theorem writeToSocket_reads (sender : Sender) (m : Bytes) (s : Library) :
    (s.writeToSocket sender m).2.os.reads = s.os.reads := by
  unfold writeToSocket
  split <;> rfl

theorem connectLoop_reads (h : loop .diverges connectBody n s = .ok s') : s'.os.reads = s.os.reads := by
  refine loop_inv (fun t : Library => t.os.reads = s.os.reads) (fun t => t.os.reads = s.os.reads) ?_ rfl h
  intro t x ht hround
  simp only [connectBody, Except.ok.injEq] at hround
  split at hround <;> cases hround
  · exact ht
  · exact ht

/-- **The reconnection reads nothing.** -/
theorem reconnect_reads (e : Endian) : ∀ n : ℕ,
    (∀ {sender m} {s s' : Library}, writeToSocketRetry e n sender m s = .ok s' → s'.os.reads = s.os.reads) ∧
    (∀ {s s' : Library}, socketConnect e n s = .ok s' → s'.os.reads = s.os.reads) ∧
    ∀ {s s' : Library}, sendRegistrationCommand e n s = .ok s' → s'.os.reads = s.os.reads := by
  intro n
  induction n with
  | zero =>
    refine ⟨?_, ?_, ?_⟩
    · intro sender m s s' h
      cases h
    · intro s s' h
      cases h
    · intro s s' h
      cases h
  | succ n ih =>
    obtain ⟨ihretry, ihconnect, ihsend⟩ := ih
    refine ⟨?_, ?_, ?_⟩
    · intro sender m s s' h
      have hwrite := writeToSocket_reads sender m s
      simp only [writeToSocketRetry, bind] at h
      split at h
      · cases h
        exact hwrite
      · obtain ⟨s₁, h₁, h⟩ := bind_ok.1 h
        exact (ihretry h).trans ((ihconnect h₁).trans hwrite)
    · intro s s' h
      cases hhead : s.os.sockets.head with
      | false =>
        simp only [socketConnect, openSocket, hhead, Bool.false_eq_true, if_false] at h
        cases h
        rfl
      | true =>
        simp only [socketConnect, openSocket, hhead, if_true, bind] at h
        obtain ⟨s₁, h₁, h⟩ := bind_ok.1 h
        have hloop := connectLoop_reads h₁
        exact (ihsend h).trans hloop
    · intro s s' h
      simp only [sendRegistrationCommand, bind] at h
      obtain ⟨m, -, h⟩ := bind_ok.1 h
      exact ihretry h

/-! ## Calls that succeed -/

/-- What a successful call has read: the next reply. -/
theorem identity_inv (h : sendIdentityCommand e n old s = .ok (.ok, identity, s')) : ∃ reply : Reply,
    s.os.reads.head = some reply ∧ reply.1 ≠ [] ∧ identityReply e old (some reply.1) = .ok (.ok, identity) := by
  simp only [sendIdentityCommand, bind] at h
  obtain ⟨m, -, h⟩ := bind_ok.1 h
  obtain ⟨s₁, hretry, h⟩ := bind_ok.1 h
  obtain ⟨⟨status, identity'⟩, hreply, h⟩ := bind_ok.1 h
  cases h
  have hreads := (reconnect_reads e n).1 hretry
  rcases readSocket_cases s₁ with hnone | ⟨reply, hhead, hne, hsome⟩
  · rw [hnone] at hreply
    cases hreply
  · rw [hsome] at hreply
    rw [hreads] at hhead
    exact ⟨reply, hhead, hne, hreply⟩

theorem init_inv {qos ppm packMaxlen : UInt16} {out : Option (Option Bytes)}
    (h : atlasInit e n qos ppm packMaxlen (some old) s = .ok (.ok, out, s')) :
    ∃ (reply : Reply) (identity : Option Bytes),
      out = some identity ∧ s.os.reads.head = some reply ∧ reply.1 ≠ [] ∧
        identityReply e old (some reply.1) = .ok (.ok, identity) := by
  simp only [atlasInit, bind] at h
  obtain ⟨s₁, hconnect, h⟩ := bind_ok.1 h
  obtain ⟨⟨status, identity, s₂⟩, hidentity, h⟩ := bind_ok.1 h
  cases h
  have hreads := (reconnect_reads e n).2.1 hconnect
  obtain ⟨reply, hhead, hne, hreply⟩ := identity_inv hidentity
  rw [hreads] at hhead
  exact ⟨reply, identity, rfl, hhead, hne, hreply⟩

theorem request_inv {sensorType : UInt16} {out : Option (Option Bytes)}
    (h : atlasReputationRequest e sensorType (some old) s = .ok (.ok, out, s')) :
    ∃ (reply : Reply) (identity : Option Bytes), out = some identity ∧ s.os.reads.head = some reply ∧ reply.1 ≠ [] ∧
      reputationReply e old (some reply.1) = .ok (.ok, identity) := by
  simp only [atlasReputationRequest, bind] at h
  obtain ⟨m, -, h⟩ := bind_ok.1 h
  have hreads := writeToSocket_reads .caller m s
  split at h
  · cases h
  obtain ⟨⟨status, identity⟩, hreply, h⟩ := bind_ok.1 h
  cases h
  rcases readSocket_cases (s.writeToSocket .caller m).2 with hnone | ⟨reply, hhead, hne, hsome⟩
  · rw [hnone] at hreply
    cases hreply
  · rw [hsome] at hreply
    rw [hreads] at hhead
    exact ⟨reply, identity, rfl, hhead, hne, hreply⟩

/-! ## Calls without a failure -/

/-- No call fails, and one reply is to be read. -/
def ready (reply : Reply) : Library where
  fd := some 0
  opened := 1
  os := ⟨fun _ => true, fun _ => true, fun _ => .complete, fun _ => some reply⟩
  written := []
  client := ⟨0, 0, 0⟩

theorem ready_works (reply : Reply) : (ready reply).os.Works 0 :=
  ⟨⟨0, 0, Nat.le_refl _, fun _ _ => rfl, fun _ _ => rfl⟩, ⟨0, fun _ _ => rfl⟩, fun _ _ h => by cases h⟩

/-- **The identity is asked for**, and the reply is searched. -/
theorem identity_returns {reply : Reply} {r : AtlasStatus × Option Bytes} (hw : s.os.Works k)
    (hhead : s.os.reads.head = some reply) (hne : reply.1 ≠ []) (hreply : identityReply e old (some reply.1) = .ok r) :
    ∃ s', Returns (fun n => sendIdentityCommand e n old s) (r.1, r.2, s') := by
  have hask := cmdBatchBytes_ok e [askIdentity] (by decide)
  obtain ⟨s₁, conn, mid, hretry, hretried, -⟩ := retry_returns e k s hw _ (sendRegistration_eq e s.client) .caller
    (encode [askIdentity])
  obtain ⟨n₀, hn₀⟩ := id hretry
  have hread : s₁.readSocket.1 = some reply.1 :=
    readSocket_reply (by simp [hretried.fd]) (((reconnect_reads e n₀).1 (hn₀ n₀ (Nat.le_refl _))) ▸ hhead) hne
  let next (s : Library) : Except Fault (AtlasStatus × Option Bytes × Library) :=
    (identityReply e old s.readSocket.1).bind fun x => .ok (x.1, x.2, s.readSocket.2)
  have hnext : next s₁ = .ok (r.1, r.2, s₁.readSocket.2) := by
    simp only [next, hread, hreply]
    rfl
  obtain ⟨n₁, hn₁⟩ := hretry.bind (k := fun _ => next) (b := (r.1, r.2, s₁.readSocket.2)) ⟨0, fun _ _ => hnext⟩
  refine ⟨s₁.readSocket.2, n₁, fun n hn => ?_⟩
  have hargs : cmdBatchBytes e [(AtlasCmdType.dataPlaneGetIdentity, 0, [])] = .ok (encode [askIdentity]) := hask
  simp only [sendIdentityCommand, bind]
  rw [bind_of_ok hargs]
  exact hn₁ n hn

theorem init_returns {reply : Reply} {r : AtlasStatus × Option Bytes} (hw : s.os.Works 0)
    (hhead : s.os.reads.head = some reply) (hne : reply.1 ≠ []) (hreply : identityReply e old (some reply.1) = .ok r)
    (qos ppm packMaxlen : UInt16) :
    ∃ s', Returns (fun n => atlasInit e n qos ppm packMaxlen (some old) s) (r.1, some r.2, s') := by
  set s₀ : Library := { s with client := ⟨qos, ppm, packMaxlen⟩ } with hs₀
  obtain ⟨s₁, hconnect, ⟨-, -, -, -, k', hk, -⟩ | ⟨-, hw₁⟩⟩ :=
    connect_returns (fun s _ hw => retry_returns e 0 s hw) (show s₀.os.Works 0 from hw)
      (sendRegistration_eq e s₀.client)
  · omega
  obtain ⟨n₀, hn₀⟩ := id hconnect
  have hhead₁ : s₁.os.reads.head = some reply := (reconnect_reads e n₀).2.1 (hn₀ n₀ (Nat.le_refl _)) ▸ hhead
  obtain ⟨s', hidentity⟩ := identity_returns hw₁ hhead₁ hne hreply
  let out (x : AtlasStatus × Option Bytes × Library) : Except Fault (AtlasStatus × Option (Option Bytes) × Library) :=
    .ok (x.1, some x.2.1, x.2.2)
  have hout := hidentity.bind (k := fun _ => out) (returns_const (r.1, some r.2, s'))
  exact ⟨s', hconnect.bind (k := fun n s => (sendIdentityCommand e n old s).bind out) hout⟩

theorem request_ready {reply : Reply} (e : Endian) (hl : Lacks Cmd.IsAnswer reply.1) (sensorType : UInt16)
    (old : Option Bytes) :
    ∃ s', atlasReputationRequest e sensorType (some old) (ready reply) = .ok (.ok, some old, s') := by
  obtain ⟨s₁, hwrite, hfd, hreads⟩ : ∃ s₁, (ready reply).writeToSocket .caller (encode [questionCmd e sensorType]) =
      (((encode [questionCmd e sensorType]).length : ℤ), s₁) ∧ s₁.fd = some 0 ∧ s₁.os.reads.head = some reply :=
    ⟨_, write_complete rfl rfl _ _, rfl, rfl⟩
  have hread : s₁.readSocket.1 = some reply.1 := readSocket_reply (by simp [hfd]) hreads hl.ne_nil
  refine ⟨s₁.readSocket.2, ?_⟩
  simp only [atlasReputationRequest, bind]
  rw [bind_of_ok (question_ok e sensorType)]
  simp only [hwrite, ne_eq, not_true_eq_false, if_false, hread]
  rw [bind_of_ok (reputationReply_lacks e hl reply.2 old)]

/-! ## The result -/

/-- The property for a reply to `atlas_reputation_request`, in every state in which it is the next one. -/
def ReputationDelivered (e : Endian) (reply : Reply) : Prop :=
  ∀ (sensorType : UInt16) (old : Option Bytes) (s s' : Library) (out : Option (Option Bytes)),
    s.os.reads.head = some reply → atlasReputationRequest e sensorType (some old) s = .ok (.ok, out, s') →
      ∃ identity, out = some identity ∧ DeliversFirst Cmd.IsReputation Cmd.IsError reply.1 identity

/-- The property for a reply to `send_identity_command`. -/
def IdentityDelivered (e : Endian) (reply : Reply) : Prop :=
  ∀ (n : ℕ) (old : Option Bytes) (s s' : Library) (identity : Option Bytes),
    s.os.reads.head = some reply → sendIdentityCommand e n old s = .ok (.ok, identity, s') →
      DeliversFirst Cmd.IsIdentity (fun _ => False) reply.1 identity

/-- The property for a reply to `atlas_init`. -/
def InitDelivered (e : Endian) (reply : Reply) : Prop :=
  ∀ (n : ℕ) (qos ppm packMaxlen : UInt16) (old : Option Bytes) (s s' : Library) (out : Option (Option Bytes)),
    s.os.reads.head = some reply → atlasInit e n qos ppm packMaxlen (some old) s = .ok (.ok, out, s') →
      ∃ identity, out = some identity ∧ DeliversFirst Cmd.IsIdentity (fun _ => False) reply.1 identity

theorem not_delivers_none {p stop : Cmd → Prop} : ¬ DeliversFirst p stop buf none := by
  rintro ⟨pre, c, post, -, -, -, h⟩
  cases h

theorem reputationDelivered_iff (e : Endian) (reply : Reply) :
    ReputationDelivered e reply ↔ ¬ Lacks Cmd.IsAnswer reply.1 := by
  constructor
  · intro h hl
    obtain ⟨s', hs'⟩ := request_ready e hl 101 none
    obtain ⟨identity, hout, hdelivers⟩ := h 101 none (ready reply) s' _ rfl hs'
    cases hout
    exact not_delivers_none hdelivers
  · intro hl sensorType old s s' out hhead h
    obtain ⟨reply', identity, hout, hhead', hne, hreply⟩ := request_inv h
    cases hhead'.symm.trans hhead
    exact ⟨identity, hout, reputationReply_ok hne reply.2 hl hreply⟩

theorem identityDelivered_iff (e : Endian) (reply : Reply) :
    IdentityDelivered e reply ↔ ¬ Lacks Cmd.IsIdentity reply.1 := by
  constructor
  · intro h hl
    obtain ⟨s', n, hn⟩ := identity_returns (ready_works reply) rfl hl.ne_nil (identityReply_lacks e hl reply.2 none)
    exact not_delivers_none (h n none (ready reply) s' _ rfl (hn n (Nat.le_refl _)))
  · intro hl n old s s' identity hhead h
    obtain ⟨reply', hhead', hne, hreply⟩ := identity_inv h
    cases hhead'.symm.trans hhead
    exact identityReply_ok hne reply.2 hl hreply

theorem initDelivered_iff (e : Endian) (reply : Reply) : InitDelivered e reply ↔ ¬ Lacks Cmd.IsIdentity reply.1 := by
  constructor
  · intro h hl
    obtain ⟨s', n, hn⟩ := init_returns (ready_works reply) rfl hl.ne_nil (identityReply_lacks e hl reply.2 none) 0 0 0
    obtain ⟨identity, hout, hdelivers⟩ := h n 0 0 0 none (ready reply) s' _ rfl (hn n (Nat.le_refl _))
    cases hout
    exact not_delivers_none hdelivers
  · intro hl n qos ppm packMaxlen old s s' out hhead h
    obtain ⟨reply', identity, hout, hhead', hne, hreply⟩ := init_inv h
    cases hhead'.symm.trans hhead
    exact ⟨identity, hout, identityReply_ok hne reply.2 hl hreply⟩

/-- **Success means that an identity was delivered, and exactly when.** For every reply of up to 2048 bytes:
when `atlas_reputation_request` succeeds on it, in any state, `*identity` is the zero-terminated value of
its first reputation, with no error in front, if and only if the reply is not a batch with neither a
reputation nor an error; and when `send_identity_command` or `atlas_init` succeeds, `*identity` is that of
its first identity, if and only if the reply is not a batch without an identity. -/
theorem delivered_iff (e : Endian) (reply : Reply) :
    (ReputationDelivered e reply ↔ ¬ Lacks Cmd.IsAnswer reply.1) ∧
    (IdentityDelivered e reply ↔ ¬ Lacks Cmd.IsIdentity reply.1) ∧
    (InitDelivered e reply ↔ ¬ Lacks Cmd.IsIdentity reply.1) :=
  ⟨reputationDelivered_iff e reply, identityDelivered_iff e reply, initDelivered_iff e reply⟩

/-- A question for the identity, where a reply is expected. -/
def strayReply : Reply := ⟨encode [askIdentity], by decide⟩

/-- **A stray reply is a success** of all three, without an identity. -/
theorem stray_reply_accepted : ¬ ReputationDelivered .little strayReply ∧ ¬ IdentityDelivered .little strayReply ∧
    ¬ InitDelivered .little strayReply := by
  have hanswer : Lacks Cmd.IsAnswer strayReply.1 := ⟨[askIdentity], by simp, rfl, by simp; decide⟩
  have hidentity : Lacks Cmd.IsIdentity strayReply.1 := ⟨[askIdentity], by simp, rfl, by simp; decide⟩
  rw [reputationDelivered_iff, identityDelivered_iff, initDelivered_iff]
  exact ⟨not_not.2 hanswer, not_not.2 hidentity, not_not.2 hidentity⟩

end Library

end AtlasClient
