import AtlasClient.Lib.Fuel
import AtlasClient.Proof.Policy
import AtlasClient.Spec.Library

/-!
# Reconnecting

`write_to_socket_retry` connects again when a write fails, and connecting sends the policy through
`write_to_socket_retry`. The failures still to come are finitely many, and bound the recursion.

* `Works.write_failed`, `Works.socket_failed`: a failure uses up one of them.
* `connect_returns`: connecting fails, or registers on the connection that it opens.
* `retry_returns`: the retry loop ends, by induction on the failures still to come.
* `retry_reconnects`: **the message is delivered once, and behind the policy** on a new connection.
-/

namespace AtlasClient

open Fuel Loop

variable {e : Endian} {os : SocketOs} {k : ℕ} {s s₀ s₁ s' : Library} {sender : Sender} {m policy : Bytes} {bytes : ℤ}

/-! ## The failures to come -/

/-- Finitely many calls fail, and a write that fails delivers nothing. -/
structure SocketOs.FailsFinitely (os : SocketOs) : Prop where
  sockets : ∃ a, ∀ i ≥ a, os.sockets.get i = true
  connects : ∃ b, ∀ i ≥ b, os.connects.get i = true
  writes : ∃ c, ∀ i ≥ c, os.writes.get i = .complete
  whole : ∀ i n, os.writes.get i ≠ .short n

/-- At most `k` more calls of `socket` and `write` are answered before both of them succeed. -/
structure SocketOs.Works (os : SocketOs) (k : ℕ) : Prop where
  bounds : ∃ a c, a + c ≤ k ∧ (∀ i ≥ a, os.sockets.get i = true) ∧ ∀ i ≥ c, os.writes.get i = .complete
  connects : ∃ b, ∀ i ≥ b, os.connects.get i = true
  whole : ∀ i n, os.writes.get i ≠ .short n

theorem SocketOs.FailsFinitely.works (h : os.FailsFinitely) : ∃ k, os.Works k := by
  obtain ⟨a, ha⟩ := h.sockets
  obtain ⟨c, hc⟩ := h.writes
  exact ⟨a + c, ⟨a, c, Nat.le_refl _, ha, hc⟩, h.connects, h.whole⟩

theorem SocketOs.Works.write (h : os.Works k) : SocketOs.Works { os with writes := os.writes.tail } k := by
  obtain ⟨a, c, hk, ha, hc⟩ := h.bounds
  exact ⟨⟨a, c, hk, ha, fun i hi => hc (i + 1) (by omega)⟩, h.connects, fun i => h.whole (i + 1)⟩

theorem SocketOs.Works.socket (h : os.Works k) : SocketOs.Works { os with sockets := os.sockets.tail } k := by
  obtain ⟨a, c, hk, ha, hc⟩ := h.bounds
  exact ⟨⟨a, c, hk, fun i hi => ha (i + 1) (by omega), hc⟩, h.connects, h.whole⟩

theorem SocketOs.Works.mono {k' : ℕ} (h : os.Works k) (hle : k ≤ k') : os.Works k' := by
  obtain ⟨a, c, hk, ha, hc⟩ := h.bounds
  exact ⟨⟨a, c, by omega, ha, hc⟩, h.connects, h.whole⟩

/-- **A write that fails** is one of them. -/
theorem SocketOs.Works.write_failed (h : os.Works k) (hf : os.writes.head ≠ .complete) :
    ∃ k', k = k' + 1 ∧ SocketOs.Works { os with writes := os.writes.tail } k' := by
  obtain ⟨a, c, hk, ha, hc⟩ := h.bounds
  have hpos : 0 < c := Nat.pos_of_ne_zero fun h0 => hf (hc 0 (by omega))
  exact ⟨k - 1, by omega, ⟨a, c - 1, by omega, ha, fun i hi => hc (i + 1) (by omega)⟩, h.connects,
    fun i => h.whole (i + 1)⟩

/-- **So is a socket that cannot be had.** -/
theorem SocketOs.Works.socket_failed (h : os.Works k) (hf : os.sockets.head = false) :
    ∃ k', k = k' + 1 ∧ SocketOs.Works { os with sockets := os.sockets.tail } k' := by
  obtain ⟨a, c, hk, ha, hc⟩ := h.bounds
  have hpos : 0 < a := Nat.pos_of_ne_zero fun h0 => by
    have htrue : os.sockets.head = true := ha 0 (by omega)
    rw [hf] at htrue
    cases htrue
  exact ⟨k - 1, by omega, ⟨a - 1, c, by omega, fun i hi => ha (i + 1) (by omega), hc⟩, h.connects, h.whole⟩

/-! ## The calls -/

namespace Library

theorem write_none (hfd : s.fd = none) (sender : Sender) (m : Bytes) : s.writeToSocket sender m = (-1, s) := by
  simp only [writeToSocket, hfd]

theorem write_complete {conn : ℕ} (hfd : s.fd = some conn) (hw : s.os.writes.head = .complete) (sender : Sender)
    (m : Bytes) : s.writeToSocket sender m = ((m.length : ℤ),
      { s with
        os := { s.os with writes := s.os.writes.tail }
        written := s.written ++ [⟨conn, sender, m⟩] }) := by
  simp only [writeToSocket, hfd, hw, WriteResult.bytes, WriteResult.count, reduceCtorEq, if_false, List.take_length]

theorem write_failed {conn : ℕ} (hfd : s.fd = some conn) (hw : s.os.writes.head = .failed) (sender : Sender)
    (m : Bytes) : s.writeToSocket sender m = (-1, { s with os := { s.os with writes := s.os.writes.tail } }) := by
  simp only [writeToSocket, hfd, hw, WriteResult.bytes, if_true]

theorem retry_done (h : s.writeToSocket sender m = ((m.length : ℤ), s')) :
    Returns (fun n => writeToSocketRetry e n sender m s) s' := by
  refine (returns_const s').succ fun n => ?_
  simp only [writeToSocketRetry, h, if_true]

theorem retry_again (h : s.writeToSocket sender m = (bytes, s₀)) (hne : bytes ≠ m.length)
    (hconnect : Returns (fun n => socketConnect e n s₀) s₁)
    (hretry : Returns (fun n => writeToSocketRetry e n sender m s₁) s') :
    Returns (fun n => writeToSocketRetry e n sender m s) s' := by
  refine (hconnect.bind hretry).succ fun n => ?_
  simp only [writeToSocketRetry, h, hne, if_false]
  rfl

theorem connect_failed (h : s.openSocket = (false, s')) : Returns (fun n => socketConnect e n s) s' := by
  refine (returns_const s').succ fun n => ?_
  simp only [socketConnect, h]

theorem connect_opened (h : s.openSocket = (true, s₀)) (hloop : Returns (fun n => loop .diverges connectBody n s₀) s₁)
    (hsend : Returns (fun n => sendRegistrationCommand e n s₁) s') : Returns (fun n => socketConnect e n s) s' := by
  refine (hloop.bind hsend).succ fun n => ?_
  simp only [socketConnect, h]
  rfl

theorem registration_returns (hp : AtlasClient.sendRegistrationCommand e s.client = .ok policy)
    (hretry : Returns (fun n => writeToSocketRetry e n .registration policy s) s') :
    Returns (fun n => sendRegistrationCommand e n s) s' := by
  refine hretry.succ fun n => ?_
  simp only [sendRegistrationCommand, hp, bind, Except.bind]

/-- **The loop around `connect` ends**, and uses answers to `connect` only. -/
theorem connectLoop_returns : ∀ (b : ℕ) {s : Library}, (∀ i ≥ b, s.os.connects.get i = true) →
    ∃ cs : Stream' Bool, (∃ b', ∀ i ≥ b', cs.get i = true) ∧
      Returns (fun n => loop .diverges connectBody n s) { s with os := { s.os with connects := cs } } := by
  intro b
  induction b with
  | zero =>
    intro s hb
    have hhead : s.os.connects.head = true := hb 0 (Nat.le_refl _)
    refine ⟨s.os.connects.tail, ⟨0, fun i _ => hb (i + 1) (by omega)⟩, returns_loop_done ?_⟩
    simp only [connectBody, hhead, if_true]
  | succ b ih =>
    intro s hb
    cases hhead : s.os.connects.head with
    | true =>
      refine ⟨s.os.connects.tail, ⟨b, fun i hi => hb (i + 1) (by omega)⟩, returns_loop_done ?_⟩
      simp only [connectBody, hhead, if_true]
    | false =>
      obtain ⟨cs, hcs, hloop⟩ := ih (s := { s with os := { s.os with connects := s.os.connects.tail } })
        fun i hi => hb (i + 1) (by omega)
      refine ⟨cs, hcs, returns_loop_next ?_ hloop⟩
      simp only [connectBody, hhead, Bool.false_eq_true, if_false]

/-! ## What a call delivers -/

/-- The registration of a new connection. -/
def registered (policy : Bytes) (conn : ℕ) : Delivery := ⟨conn, .registration, policy⟩

/-- Only registrations on the connections opened in between. -/
def Registrations (policy : Bytes) (s s' : Library) (mid : List Delivery) : Prop :=
  ∀ d ∈ mid, ∃ c, s.opened ≤ c ∧ c < s'.opened ∧ d = registered policy c

/-- A connection has been opened, and registered last. -/
structure Connected (policy : Bytes) (s s' : Library) (conn : ℕ) (mid : List Delivery) : Prop where
  client : s'.client = s.client
  fd : s'.fd = some conn
  opened : s.opened ≤ conn ∧ conn < s'.opened
  written : s'.written = s.written ++ mid
  registrations : Registrations policy s s' mid
  registered_mem : registered policy conn ∈ mid

/-- A message has been written: on the connection at hand, or on a new one behind its registration. -/
structure Retried (sender : Sender) (m policy : Bytes) (s s' : Library) (conn : ℕ) (mid : List Delivery) : Prop where
  client : s'.client = s.client
  fd : s'.fd = some conn
  opened_le : s.opened ≤ s'.opened
  written : s'.written = s.written ++ mid ++ [⟨conn, sender, m⟩]
  registrations : Registrations policy s s' mid
  same_or_new : s.fd = some conn ∧ s'.opened = s.opened ∨
    (s.opened ≤ conn ∧ conn < s'.opened) ∧ registered policy conn ∈ mid

variable {conn conn' : ℕ} {mid mid' : List Delivery}

/-- The first connection was there, or has been opened by a call that registered it. -/
theorem Retried.connected (h : Retried .registration policy policy s s' conn mid) (hfd : s.fd = some s₀.opened)
    (hopened : s.opened = s₀.opened + 1) (hwritten : s.written = s₀.written) (hclient : s.client = s₀.client) :
    Connected policy s₀ s' conn (mid ++ [registered policy conn]) := by
  have hle := h.opened_le
  have hconn : s₀.opened ≤ conn ∧ conn < s'.opened := by
    rcases h.same_or_new with ⟨hsame, -⟩ | ⟨hnew, -⟩
    · rw [hfd] at hsame
      cases hsame
      omega
    · omega
  refine ⟨h.client.trans hclient, h.fd, hconn, ?_, ?_, by simp⟩
  · rw [h.written, hwritten, List.append_assoc]
    rfl
  · refine List.forall_mem_append.2 ⟨fun d hd => ?_, List.forall_mem_singleton.2 ⟨conn, hconn.1, hconn.2, rfl⟩⟩
    obtain ⟨c, hc, hc', rfl⟩ := h.registrations d hd
    exact ⟨c, by omega, hc', rfl⟩

/-- **Connecting, and then writing.** -/
theorem Connected.retried (hc : Connected policy s s₁ conn' mid') (h : Retried sender m policy s₁ s' conn mid) :
    Retried sender m policy s s' conn (mid' ++ mid) := by
  have hle := h.opened_le
  have hopened := hc.opened
  refine ⟨h.client.trans hc.client, h.fd, by omega, ?_, ?_, Or.inr ?_⟩
  · rw [h.written, hc.written, List.append_assoc s.written]
  · refine List.forall_mem_append.2 ⟨fun d hd => ?_, fun d hd => ?_⟩
    · obtain ⟨c, h1, h2, rfl⟩ := hc.registrations d hd
      exact ⟨c, h1, by omega, rfl⟩
    · obtain ⟨c, h1, h2, rfl⟩ := h.registrations d hd
      exact ⟨c, by omega, h2, rfl⟩
  · rcases h.same_or_new with ⟨hsame, -⟩ | ⟨hnew, hmem⟩
    · rw [hc.fd] at hsame
      cases hsame
      exact ⟨⟨hopened.1, by omega⟩, List.mem_append_left _ hc.registered_mem⟩
    · exact ⟨⟨by omega, hnew.2⟩, List.mem_append_right _ hmem⟩

/-- Writing after a connection has been given up. -/
theorem Retried.of_closed (h : Retried sender m policy s₁ s' conn mid) (hfd : s₁.fd = none)
    (hopened : s₁.opened = s.opened) (hwritten : s₁.written = s.written) (hclient : s₁.client = s.client) :
    Retried sender m policy s s' conn mid := by
  refine ⟨h.client.trans hclient, h.fd, hopened ▸ h.opened_le, hwritten ▸ h.written, ?_, ?_⟩
  · intro d hd
    rw [← hopened]
    exact h.registrations d hd
  · rcases h.same_or_new with ⟨hsame, -⟩ | hnew
    · rw [hfd] at hsame
      cases hsame
    · rw [← hopened]
      exact Or.inr hnew

/-! ## The recursion -/

/-- The retry loop ends from this state, whatever it writes. -/
def RetryReturns (e : Endian) (k : ℕ) (s : Library) : Prop :=
  ∀ policy, AtlasClient.sendRegistrationCommand e s.client = .ok policy → ∀ sender m, ∃ s' conn mid,
    Returns (fun n => writeToSocketRetry e n sender m s) s' ∧ Retried sender m policy s s' conn mid ∧ s'.os.Works k

/-- What `socket_connect` does: the socket cannot be had, or the connection is registered. -/
def ConnectReturns (policy : Bytes) (k : ℕ) (s s' : Library) : Prop :=
  (s'.fd = none ∧ s'.opened = s.opened ∧ s'.written = s.written ∧ s'.client = s.client ∧
    ∃ k', k = k' + 1 ∧ s'.os.Works k') ∨
  ((∃ conn mid, Connected policy s s' conn mid) ∧ s'.os.Works k)

/-- **Connecting ends**, when writing on an open connection does. -/
theorem connect_returns (hretry : ∀ s : Library, s.fd ≠ none → s.os.Works k → RetryReturns e k s)
    (hw : s.os.Works k) (hp : AtlasClient.sendRegistrationCommand e s.client = .ok policy) :
    ∃ s', Returns (fun n => socketConnect e n s) s' ∧ ConnectReturns policy k s s' := by
  cases hhead : s.os.sockets.head with
  | false =>
    obtain ⟨k', hk, hw'⟩ := hw.socket_failed hhead
    refine ⟨{ s with fd := none, os := { s.os with sockets := s.os.sockets.tail } }, connect_failed ?_,
      Or.inl ⟨rfl, rfl, rfl, rfl, k', hk, hw'⟩⟩
    simp only [openSocket, hhead, Bool.false_eq_true, if_false]
  | true =>
    set s₀ : Library :=
      { s with fd := some s.opened, opened := s.opened + 1, os := { s.os with sockets := s.os.sockets.tail } } with hs₀
    have hopen : s.openSocket = (true, s₀) := by simp only [openSocket, hhead, if_true, hs₀]
    have hw₀ : s₀.os.Works k := hw.socket
    obtain ⟨b, hb⟩ := hw₀.connects
    obtain ⟨cs, hcs, hloop⟩ := connectLoop_returns b hb
    set s₁ : Library := { s₀ with os := { s₀.os with connects := cs } } with hs₁
    have hw₁ : s₁.os.Works k := ⟨hw₀.bounds, hcs, hw₀.whole⟩
    obtain ⟨s', conn, mid, hreturns, hretried, hw'⟩ := hretry s₁ (by simp [hs₁, hs₀]) hw₁ policy hp .registration policy
    have hconn : Connected policy s s' conn (mid ++ [registered policy conn]) := hretried.connected rfl rfl rfl rfl
    exact ⟨s', connect_opened hopen hloop (registration_returns hp hreturns), Or.inr ⟨⟨conn, _, hconn⟩, hw'⟩⟩

/-- **After a failure**: connecting, and the loop again. -/
theorem retry_after (hretry : ∀ s : Library, s.fd ≠ none → s.os.Works k → RetryReturns e k s)
    (hless : ∀ k' < k, ∀ s : Library, s.os.Works k' → RetryReturns e k' s) (hw : s₀.os.Works k)
    (hp : AtlasClient.sendRegistrationCommand e s₀.client = .ok policy) (sender : Sender) (m : Bytes) :
    ∃ s₁ s' conn mid k', Returns (fun n => socketConnect e n s₀) s₁ ∧
      Returns (fun n => writeToSocketRetry e n sender m s₁) s' ∧ Retried sender m policy s₀ s' conn mid ∧
      k' ≤ k ∧ s'.os.Works k' := by
  obtain ⟨s₁, hconnect, ⟨hfd, hopened, hwritten, hclient, k', hk, hw₁⟩ | ⟨⟨conn', mid', hconn⟩, hw₁⟩⟩ :=
    connect_returns hretry hw hp
  · obtain ⟨s', conn, mid, hreturns, hretried, hw'⟩ := hless k' (by omega) s₁ hw₁ policy (by rw [hclient, hp]) sender m
    exact ⟨s₁, s', conn, mid, k', hconnect, hreturns, hretried.of_closed hfd hopened hwritten hclient, by omega, hw'⟩
  · obtain ⟨s', conn, mid, hreturns, hretried, hw'⟩ :=
      hretry s₁ (by simp [hconn.fd]) hw₁ policy (by rw [hconn.client, hp]) sender m
    exact ⟨s₁, s', conn, _, k, hconnect, hreturns, hconn.retried hretried, Nat.le_refl _, hw'⟩

/-- **On an open connection** the loop ends, if it does with fewer failures to come. -/
theorem retry_open (hless : ∀ k' < k, ∀ s : Library, s.os.Works k' → RetryReturns e k' s) (hfd : s.fd ≠ none)
    (hw : s.os.Works k) : RetryReturns e k s := by
  intro policy hp sender m
  obtain ⟨conn, hconn⟩ := Option.ne_none_iff_exists'.1 hfd
  cases hhead : s.os.writes.head with
  | complete =>
    refine ⟨_, conn, [], retry_done (write_complete hconn hhead sender m), ?_, hw.write⟩
    exact ⟨rfl, hconn, Nat.le_refl _, by rw [List.append_nil], by simp [Registrations], Or.inl ⟨hconn, rfl⟩⟩
  | short n => exact absurd hhead (hw.whole 0 n)
  | failed =>
    obtain ⟨k', hk, hw'⟩ := hw.write_failed (by rw [hhead]; decide)
    set s₀ : Library := { s with os := { s.os with writes := s.os.writes.tail } }
    have hw₀ : s₀.os.Works k' := hw'
    obtain ⟨s₁, s', conn', mid, k₁, hconnect, hreturns, h, hk₁, hw₁⟩ :=
      retry_after (fun s₁ _ hw₁ => hless k' (by omega) s₁ hw₁) (fun k₁ hk₁ => hless k₁ (by omega)) hw₀ hp sender m
    refine ⟨s', conn', mid, retry_again (write_failed hconn hhead sender m) (by omega) hconnect hreturns, ?_,
      hw₁.mono (by omega)⟩
    exact ⟨h.client, h.fd, h.opened_le, h.written, h.registrations, h.same_or_new⟩

/-- **The retry loop ends**, by induction on the failures to come; without a connection it opens one first. -/
theorem retry_returns (e : Endian) : ∀ (k : ℕ) (s : Library), s.os.Works k → RetryReturns e k s := by
  intro k
  induction k using Nat.strong_induction_on with
  | _ k ih =>
    intro s hw
    by_cases hfd : s.fd = none
    · intro policy hp sender m
      obtain ⟨s₁, s', conn, mid, k₁, hconnect, hreturns, h, hk₁, hw₁⟩ :=
        retry_after (fun s₁ hfd₁ hw₁ => retry_open ih hfd₁ hw₁) ih hw hp sender m
      exact ⟨s', conn, mid, retry_again (write_none hfd sender m) (by omega) hconnect hreturns, h, hw₁.mono hk₁⟩
    · exact retry_open ih hfd hw

/-! ## The result -/

/-- What has been delivered between two states. -/
def since (s s' : Library) : List Delivery := s'.written.drop s.written.length

/-- The property for a call that writes the message `m`, from one state to the other. -/
structure Reconnects (policy m : Bytes) (s s' : Library) : Prop where
  kept : s'.written = s.written ++ since s s'
  /-- the message is delivered exactly once, over all connections -/
  once : ∃ conn, (since s s').filter (fun d => d.sender = .caller) = [⟨conn, .caller, m⟩]
  /-- the first delivery on each connection opened by the call is the policy -/
  first : ∀ c, s.opened ≤ c → c < s'.opened → ∀ d, (since s s').find? (fun d => d.conn = c) = some d →
    d = registered policy c
  /-- the policy is delivered in front of the message on the same connection, if one has been opened -/
  behind : s.opened < s'.opened → ∃ conn pre post, since s s' = pre ++ registered policy conn :: post ∧
    ⟨conn, .caller, m⟩ ∈ post

theorem Retried.reconnects (h : Retried .caller m policy s s' conn mid) : Reconnects policy m s s' := by
  have hsince : since s s' = mid ++ [⟨conn, .caller, m⟩] := by
    rw [since, h.written, List.append_assoc, List.drop_left]
  have hcaller : mid.filter (fun d => d.sender = .caller) = [] := by
    rw [List.filter_eq_nil_iff]
    intro d hd
    obtain ⟨c, -, -, rfl⟩ := h.registrations d hd
    simp [registered]
  refine ⟨by rw [hsince, h.written, List.append_assoc], ⟨conn, ?_⟩, ?_, ?_⟩
  · rw [hsince, List.filter_append, hcaller]
    rfl
  · intro c hc hc' d hd
    rw [hsince, List.find?_append] at hd
    cases hfind : mid.find? (fun d => d.conn = c) with
    | some d' =>
      rw [hfind] at hd
      cases hd
      obtain ⟨c', -, -, rfl⟩ := h.registrations d (List.mem_of_find?_eq_some hfind)
      have hconn := List.find?_some hfind
      simp only [registered] at hconn
      rw [of_decide_eq_true hconn]
    | none =>
      -- the message would be the first on a new connection, which has been registered
      rw [hfind] at hd
      have hconn : conn = c := by
        by_contra hne
        simp [hne] at hd
      rcases h.same_or_new with ⟨-, hopened⟩ | ⟨-, hmem⟩
      · omega
      · rw [List.find?_eq_none] at hfind
        exact absurd (by simp [registered, hconn]) (hfind _ hmem)
  · intro hopened
    rcases h.same_or_new with ⟨-, hsame⟩ | ⟨-, hmem⟩
    · omega
    · obtain ⟨pre, post, rfl⟩ := List.append_of_mem hmem
      exact ⟨conn, pre, post ++ [⟨conn, .caller, m⟩], by rw [hsince]; simp, by simp⟩

/-- **Retrying writes reconnects correctly.** For every message, every state and all answers to `socket`,
`connect` and `write` of which finitely many are failures: `write_to_socket_retry` returns; the message
is then delivered exactly once; on each connection that has been opened the policy is delivered
first, and if one has been opened, the message is delivered behind the policy on its connection. -/
theorem retry_reconnects (e : Endian) (m : Bytes) (s : Library) (h : s.os.FailsFinitely) :
    ∃ policy s', AtlasClient.sendRegistrationCommand e s.client = .ok policy ∧
      Returns (fun n => writeToSocketRetry e n .caller m s) s' ∧ Reconnects policy m s s' := by
  obtain ⟨k, hw⟩ := h.works
  have hp := sendRegistration_eq e s.client
  obtain ⟨s', conn, mid, hreturns, hretried, -⟩ := retry_returns e k s hw _ hp .caller m
  exact ⟨_, s', hp, hreturns, hretried.reconnects⟩

/-- The first write fails, and so do the first write of the registration and one `connect`. -/
def troubled : Library where
  fd := some 0
  opened := 1
  os := ⟨fun _ => true, fun i => i ≠ 0, fun i => if i < 2 then .failed else .complete, fun _ => none⟩
  written := []
  client := ⟨2, 60, 512⟩

theorem troubled_failsFinitely : troubled.os.FailsFinitely where
  sockets := ⟨0, fun _ _ => rfl⟩
  connects := ⟨1, fun _ hi => decide_eq_true (Nat.one_le_iff_ne_zero.1 hi)⟩
  writes := ⟨2, fun _ hi => if_neg (Nat.not_lt.2 hi)⟩
  whole i n h := by
    change (if i < 2 then WriteResult.failed else .complete) = .short n at h
    split at h <;> cases h

theorem retry_reconnects_troubled : ∃ policy s',
    AtlasClient.sendRegistrationCommand .little troubled.client = .ok policy ∧
    Returns (fun n => writeToSocketRetry .little n .caller [1, 2, 3] troubled) s' ∧
      Reconnects policy [1, 2, 3] troubled s' :=
  retry_reconnects .little [1, 2, 3] troubled troubled_failsFinitely

end Library

end AtlasClient
