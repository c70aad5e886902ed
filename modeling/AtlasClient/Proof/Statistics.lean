import AtlasClient.Proof.Reputation
import AtlasClient.Spec.DataPlane
import Mathlib.Algebra.Order.BigOperators.Group.List
import Mathlib.Algebra.Order.Ring.Nat
import Mathlib.Data.List.Infix

/-!
# Packet statistics from end to end

The library counts in an `int` and sends it whole; the connector copies the first two
bytes. On a little-endian host these are the low half.

* `run_spec`: without signed overflow, the library's statistics are those of the packets
  since the last report.
* `report_iff`: **a report arrives unchanged**, or saturated, exactly when neither number
  is one that the low half misrepresents.
* `averagesTrue_iff`: **the average is a true one** after each packet of a window exactly when the packets
  can be counted and added in an `int`.
-/

namespace AtlasClient

open Framing Loop

variable {cfg : Cfg} {fd : ℤ} {w : Client} {ws : List PayloadLen} {es : List StatEvent}

/-! ## Packets -/

/-- The packets since the last report of a run. -/
def packetsSince (es : List StatEvent) : List PayloadLen :=
  es.foldl (fun ws e => match e with | .pkt payloadLen => ws ++ [payloadLen] | .report => []) []

def totalLen (ws : List PayloadLen) : ℕ := (ws.map Subtype.val).sum

/-- The average length, rounded down. -/
def averageLen (ws : List PayloadLen) : ℕ := totalLen ws / ws.length

/-- The packets can be counted and added in an `int`. -/
def Countable (ws : List PayloadLen) : Prop := ws.length < 2 ^ 31 ∧ totalLen ws < 2 ^ 31

instance (ws : List PayloadLen) : Decidable (Countable ws) := by unfold Countable; infer_instance

/-- What the library holds after the packets. -/
def statsOf (ws : List PayloadLen) : Statistics := ⟨ws.length, totalLen ws, averageLen ws⟩

theorem packetsSince_pkt (es : List StatEvent) (l : PayloadLen) :
    packetsSince (es ++ [.pkt l]) = packetsSince es ++ [l] := by
  simp [packetsSince, List.foldl_append]

theorem packetsSince_report (es : List StatEvent) : packetsSince (es ++ [.report]) = [] := by
  simp [packetsSince, List.foldl_append]

theorem totalLen_append (ws : List PayloadLen) (l : PayloadLen) : totalLen (ws ++ [l]) = totalLen ws + l.1 := by
  simp [totalLen]

theorem averageLen_le (ws : List PayloadLen) : averageLen ws ≤ totalLen ws := Nat.div_le_self _ _

theorem addInt_natCast {a b : ℕ} : addInt a b = if a + b <
    2 ^ 31 then .ok ((a + b : ℕ) : ℤ) else .error .intOverflow := by
  unfold addInt IsInt
  push_cast
  congr 1
  simp only [eq_iff_iff]
  omega

/-- **`atlas_pkt_received`** counts one more packet, unless that overflows. -/
theorem pktReceived_spec (ws : List PayloadLen) (l : PayloadLen) :
    atlasPktReceived l.1 (statsOf ws) =
      if Countable (ws ++ [l]) then .ok (statsOf (ws ++ [l])) else .error .intOverflow := by
  have h1 : addInt (statsOf ws).payloadSamples 1 = _ := addInt_natCast (a := ws.length) (b := 1)
  have h2 : addInt (statsOf ws).payloadTotal l.1 = _ := addInt_natCast (a := totalLen ws) (b := l.1)
  have hcount : Countable (ws ++ [l]) ↔ ws.length + 1 < 2 ^ 31 ∧ totalLen ws + l.1 < 2 ^ 31 := by
    unfold Countable
    rw [totalLen_append, List.length_append, List.length_singleton]
  simp only [atlasPktReceived, bind]
  by_cases hn : ws.length + 1 < 2 ^ 31
  swap
  · rw [bind_of_error (h1.trans (if_neg hn)), if_neg fun h => hn (hcount.1 h).1]
  rw [bind_of_ok (h1.trans (if_pos hn))]
  by_cases ht : totalLen ws + l.1 < 2 ^ 31
  swap
  · rw [bind_of_error (h2.trans (if_neg ht)), if_neg fun h => ht (hcount.1 h).2]
  rw [bind_of_ok (h2.trans (if_pos ht)), if_pos (hcount.2 ⟨hn, ht⟩)]
  -- the count is positive now
  have hdiv : divInt ((totalLen ws + l.1 : ℕ) : ℤ) ((ws.length + 1 : ℕ) : ℤ) =
      .ok (((totalLen ws + l.1) / (ws.length + 1) : ℕ) : ℤ) := by
    have hle : (totalLen ws + l.1) / (ws.length + 1) ≤ totalLen ws + l.1 := Nat.div_le_self _ _
    unfold divInt IsInt
    rw [← Int.ofNat_tdiv]
    generalize (totalLen ws + l.1) / (ws.length + 1) = q at hle ⊢
    rw [if_pos]
    refine ⟨?_, ?_, ?_⟩ <;> omega
  rw [bind_of_ok hdiv]
  simp only [statsOf, averageLen, totalLen_append, List.length_append, List.length_singleton]
  rfl

/-! ## Reports -/

/-- The low half of an `int` in the memory of a little-endian host. -/
theorem read16_intBytes {n : ℕ} (h : n < 2 ^ 31) (post : Bytes) :
    read16 .little (intBytes .little n ++ post) 0 = .ok (UInt16.ofNat n) := by
  have hn : (UInt32.ofInt n).toNat = n := by
    unfold UInt32.ofInt
    rw [UInt32.toNat_ofNat']
    omega
  simp only [intBytes, hostBytes32, hn, read16, List.cons_append, List.getElem?_cons_zero,
    List.getElem?_cons_succ, ofHost]
  congr 1
  apply UInt16.toNat_inj.1
  rw [word_toNat]
  simp only [UInt8.toNat_ofNat', UInt16.toNat_ofNat']
  omega

@[simp] theorem intBytes_length (e : Endian) (v : ℤ) : (intBytes e v).length = 4 := by cases e <;> rfl

/-- The two commands of a report. -/
def reportCmds (e : Endian) (s : Statistics) : List Cmd :=
  [Cmd.of AtlasCmdType.dataPlanePacketsPerMinute (intBytes e s.payloadSamples) (by simp),
    Cmd.of AtlasCmdType.dataPlanePacketsAvg (intBytes e s.payloadAvg) (by simp)]

theorem reportCmds_fit (e : Endian) (s : Statistics) : (encode (reportCmds e s)).length = 16 := by
  simp [reportCmds, Frame.bytes_length, Cmd.size_eq]

/-- **`send_statistics_command`** sends the two commands and resets the statistics. -/
theorem sendStatistics_spec (e : Endian) (s : Statistics) :
    sendStatisticsCommand e s = .ok (encode (reportCmds e s), Statistics.init) := by
  have hbuf := cmdBatchBytes_ok e (reportCmds e s) (by rw [reportCmds_fit]; omega)
  have hargs : (reportCmds e s).map Cmd.args =
      [(AtlasCmdType.dataPlanePacketsPerMinute, 4, intBytes e s.payloadSamples),
        (AtlasCmdType.dataPlanePacketsAvg, 4, intBytes e s.payloadAvg)] := by cases e <;> rfl
  rw [hargs] at hbuf
  simp only [sendStatisticsCommand, bind, bind_of_ok hbuf]
  rfl

/-- **The connector stores the low half** of the number of packets. -/
theorem handle_perMin {n : ℕ} (he : cfg.endian = .little) (hn : n < 2 ^ 31) (len : UInt16) (post : Bytes) (w : Client) :
    dataPlaneHandle cfg ⟨AtlasCmdType.dataPlanePacketsPerMinute, len, intBytes .little n ++ post⟩ w =
      .ok (.inl (mapConn (fun c => { c with packetsPerMin := UInt16.ofNat n }) w)) := by
  have hread := read16_intBytes hn post
  rw [← he] at hread ⊢
  have hset : Connector.setPacketsPerMin cfg (intBytes cfg.endian n ++ post) w.app.conn =
      .ok { w.app.conn with packetsPerMin := UInt16.ofNat n } := bind_of_ok hread _
  unfold dataPlaneHandle
  rw [if_neg (show ¬ AtlasCmdType.dataPlanePacketsPerMinute = AtlasCmdType.dataPlanePolicy by decide), if_pos rfl,
    withConn_ok hset]
  rfl

/-- **And of the average.** -/
theorem handle_avg {n : ℕ} (he : cfg.endian = .little) (hn : n < 2 ^ 31) (len : UInt16) (post : Bytes) (w : Client) :
    dataPlaneHandle cfg ⟨AtlasCmdType.dataPlanePacketsAvg, len, intBytes .little n ++ post⟩ w =
      .ok (.inl (mapConn (fun c => { c with packetsAvg := UInt16.ofNat n }) w)) := by
  have hread := read16_intBytes hn post
  rw [← he] at hread ⊢
  have hset : Connector.setPacketsAvg cfg (intBytes cfg.endian n ++ post) w.app.conn =
      .ok { w.app.conn with packetsAvg := UInt16.ofNat n } := bind_of_ok hread _
  unfold dataPlaneHandle
  rw [if_neg (show ¬ AtlasCmdType.dataPlanePacketsAvg = AtlasCmdType.dataPlanePolicy by decide),
    if_neg (show ¬ AtlasCmdType.dataPlanePacketsAvg = AtlasCmdType.dataPlanePacketsPerMinute by decide), if_pos rfl,
    withConn_ok hset]
  rfl

/-- What the connector does with a command of a report of `n` packets with the average `a`. -/
def storeReport (n a : ℕ) (cmd : Cmd) : Client → Client :=
  mapConn fun c =>
    if cmd.type = AtlasCmdType.dataPlanePacketsPerMinute then { c with packetsPerMin := UInt16.ofNat n }
    else { c with packetsAvg := UInt16.ofNat a }

theorem handle_report (he : cfg.endian = .little) (hw : Countable ws) :
    ∀ c ∈ reportCmds .little (statsOf ws), ∀ (post : Bytes) (w : Client),
      dataPlaneHandle cfg ⟨c.type, c.length, c.value ++ post⟩ w =
        .ok (.inl (storeReport ws.length (averageLen ws) c w)) := by
  have havg : averageLen ws < 2 ^ 31 := Nat.lt_of_le_of_lt (averageLen_le ws) hw.2
  intro c hc post w
  rcases List.mem_cons.1 hc with rfl | hc
  · exact handle_perMin he hw.1 _ post w
  · rw [List.mem_singleton] at hc
    subst hc; exact handle_avg he havg _ post w

/-- **`atlas_data_plane_read_cb`** stores the low halves of the two numbers. -/
theorem readCb_report (he : cfg.endian = .little) (fd : ℤ) (hw : Countable ws) (w : Client) :
    ∃ w', atlasDataPlaneReadCb cfg fd (some (encode (reportCmds cfg.endian (statsOf ws)))) w = .ok w' ∧
      w'.app.conn.packetsPerMin = UInt16.ofNat ws.length ∧ w'.app.conn.packetsAvg = UInt16.ofNat (averageLen ws) := by
  have hne : reportCmds .little (statsOf ws) ≠ [] := List.cons_ne_nil _ _
  have hfold := foldCmds_total _ w (handle_report he hw)
  rw [he, readCb_eq cfg fd hne (by rw [reportCmds_fit]; omega), hfold]
  exact ⟨_, rfl, rfl, rfl⟩

/-- **A report** resets the statistics and stores the low halves. -/
theorem step_report (he : cfg.endian = .little) (fd : ℤ) (hw : Countable ws) (w : Client) :
    ∃ w', Reporting.step cfg fd ⟨statsOf ws, w⟩ .report = .ok ⟨Statistics.init, w'⟩ ∧
      w'.app.conn.packetsPerMin = UInt16.ofNat ws.length ∧ w'.app.conn.packetsAvg = UInt16.ofNat (averageLen ws) := by
  obtain ⟨w', hread, hn, ha⟩ := readCb_report he fd hw w
  refine ⟨w', ?_, hn, ha⟩
  simp only [Reporting.step, bind]
  rw [bind_of_ok (sendStatistics_spec cfg.endian (statsOf ws))]
  exact bind_of_ok hread _

/-! ## Runs -/

theorem run_snoc (s : Reporting) (es : List StatEvent) (e : StatEvent) :
    Reporting.run cfg fd s (es ++ [e]) = (Reporting.run cfg fd s es).bind fun s => s.step cfg fd e := by
  simp only [Reporting.run, List.foldlM_append, List.foldlM_cons, List.foldlM_nil, bind_pure]
  rfl

/-- No count and no sum of a run overflows. -/
def NoOverflow (es : List StatEvent) : Prop := ∀ pre ∈ es.inits, Countable (packetsSince pre)

theorem noOverflow_snoc {e : StatEvent} : NoOverflow (es ++ [e]) ↔
    NoOverflow es ∧ Countable (packetsSince (es ++ [e])) := by
  unfold NoOverflow
  simp only [List.mem_inits, List.prefix_concat_iff]
  constructor
  · intro h
    exact ⟨fun pre hpre => h pre (Or.inr hpre), h _ (Or.inl rfl)⟩
  · rintro ⟨h, hlast⟩ pre (rfl | hpre)
    · exact hlast
    · exact h pre hpre

theorem countable_nil : Countable [] := ⟨by simp, by simp [totalLen]⟩

/-- **A run** keeps the statistics of the packets since the last report, until an overflow. -/
theorem run_spec (he : cfg.endian = .little) (fd : ℤ) (w : Client) (es : List StatEvent) :
    (NoOverflow es → ∃ w', Reporting.run cfg fd ⟨Statistics.init, w⟩ es = .ok ⟨statsOf (packetsSince es), w'⟩) ∧
      (¬ NoOverflow es → ∃ f, Reporting.run cfg fd ⟨Statistics.init, w⟩ es = .error f) := by
  induction es using List.reverseRecOn with
  | nil =>
    refine ⟨fun _ => ⟨w, rfl⟩, fun h => absurd ?_ h⟩
    intro pre hpre
    rw [List.mem_inits, List.prefix_nil] at hpre
    rw [hpre]; exact countable_nil
  | append_singleton es e ih =>
    rw [noOverflow_snoc, run_snoc]
    by_cases hes : NoOverflow es
    swap
    · -- an overflow before this call
      obtain ⟨f, hf⟩ := ih.2 hes
      exact ⟨fun h => absurd h.1 hes, fun _ => ⟨f, bind_of_error hf _⟩⟩
    obtain ⟨w', hw'⟩ := ih.1 hes
    rw [bind_of_ok hw']
    cases e with
    | pkt l =>
      rw [packetsSince_pkt]
      have hpkt := pktReceived_spec (packetsSince es) l
      by_cases hc : Countable (packetsSince es ++ [l])
      · rw [if_pos hc] at hpkt
        refine ⟨fun _ => ⟨w', ?_⟩, fun h => absurd ⟨hes, hc⟩ h⟩
        simp only [Reporting.step, bind, bind_of_ok hpkt]
        rfl
      · rw [if_neg hc] at hpkt
        refine ⟨fun h => absurd h.2 hc, fun _ => ⟨.intOverflow, ?_⟩⟩
        simp only [Reporting.step, bind]
        rw [bind_of_error hpkt]
    | report =>
      rw [packetsSince_report]
      obtain ⟨w'', hstep, -⟩ := step_report he fd (hes es (by simp)) w'
      exact ⟨fun _ => ⟨w'', hstep⟩, fun h => absurd ⟨hes, countable_nil⟩ h⟩

/-! ## What arrives -/

/-- The low half of the number is the number, or the largest value if it is larger. -/
def ArrivesRight (n : ℕ) : Prop := n ≤ 65535 ∨ n % 65536 = 65535

instance (n : ℕ) : Decidable (ArrivesRight n) := by unfold ArrivesRight; infer_instance

theorem arrivesRight_iff (n : ℕ) : (UInt16.ofNat n).toNat = min n 65535 ↔ ArrivesRight n := by
  unfold ArrivesRight
  rw [UInt16.toNat_ofNat']
  omega

/-- The connector's two getters after a report of the packets `ws`: the number and the average
length, each as it is or the largest value. -/
structure Reported (ws : List PayloadLen) (w : Client) : Prop where
  perMin : w.app.conn.packetsPerMin.toNat = min ws.length 65535
  avg : w.app.conn.packetsAvg.toNat = min (averageLen ws) 65535

/-- **A report after a run** stores the low halves of the two numbers. -/
theorem run_report (cfg : Cfg) (he : cfg.endian = .little) (fd : ℤ) (w : Client) (h : NoOverflow es) :
    ∃ s, Reporting.run cfg fd ⟨Statistics.init, w⟩ (es ++ [.report]) = .ok s ∧
      s.client.app.conn.packetsPerMin = UInt16.ofNat (packetsSince es).length ∧
      s.client.app.conn.packetsAvg = UInt16.ofNat (averageLen (packetsSince es)) := by
  obtain ⟨w', hw'⟩ := (run_spec he fd w es).1 h
  obtain ⟨w'', hstep, hn, ha⟩ := step_report he fd (h es (by simp)) w'
  refine ⟨⟨Statistics.init, w''⟩, ?_, hn, ha⟩
  rw [run_snoc, bind_of_ok hw', hstep]

/-- **Statistics arrive unchanged, and exactly when.** For every run of received packets and
reports on a little-endian host, and a report after it: the connector then holds the number of
packets since the previous report and their average length, each saturated at 65535, if and
only if no `int` has overflowed and each of the two is at most 65535 or ends in 16 ones. -/
theorem report_iff (cfg : Cfg) (he : cfg.endian = .little) (fd : ℤ) (w : Client) (es : List StatEvent) :
    (∃ s, Reporting.run cfg fd ⟨Statistics.init, w⟩ (es ++ [.report]) = .ok s ∧
        Reported (packetsSince es) s.client) ↔
      NoOverflow es ∧ ArrivesRight (packetsSince es).length ∧ ArrivesRight (averageLen (packetsSince es)) := by
  by_cases hes : NoOverflow es
  swap
  · obtain ⟨f, hf⟩ := (run_spec he fd w es).2 hes
    rw [run_snoc, bind_of_error hf]
    exact iff_of_false (fun ⟨s, h, _⟩ => by cases h) fun h => hes h.1
  obtain ⟨s, hs, hn, ha⟩ := run_report cfg he fd w hes
  rw [hs]
  constructor
  · rintro ⟨s', hs', hr⟩
    obtain rfl : s = s' := Except.ok.inj hs'
    have h1 := hr.perMin
    have h2 := hr.avg
    rw [hn, arrivesRight_iff] at h1
    rw [ha, arrivesRight_iff] at h2
    exact ⟨hes, h1, h2⟩
  · rintro ⟨-, h1, h2⟩
    refine ⟨s, rfl, ?_, ?_⟩
    · rw [hn]; exact (arrivesRight_iff _).2 h1
    · rw [ha]; exact (arrivesRight_iff _).2 h2

/-- Two packets after a report. -/
theorem report_iff_two : ∃ s, Reporting.run Cfg.plain 7 ⟨Statistics.init, Client.connected Os.calm⟩
    ([.pkt ⟨9, by decide⟩, .report, .pkt ⟨100, by decide⟩, .pkt ⟨51, by decide⟩] ++ [.report]) = .ok s ∧
      Reported (packetsSince [.pkt ⟨9, by decide⟩, .report, .pkt ⟨100, by decide⟩, .pkt ⟨51, by decide⟩]) s.client :=
  (report_iff Cfg.plain rfl 7 _ _).2 ⟨by unfold NoOverflow; decide, by decide, by decide⟩

/-! ### A flood -/

/-- `n` packets of one byte. -/
def flood (n : ℕ) : List StatEvent := List.replicate n (.pkt ⟨1, by decide⟩)

theorem packetsSince_flood (n : ℕ) : packetsSince (flood n) = List.replicate n ⟨1, by decide⟩ := by
  induction n with
  | zero => rfl
  | succ n ih =>
    unfold flood at ih ⊢
    rw [List.replicate_succ', packetsSince_pkt, ih, List.replicate_succ']

theorem flood_noOverflow {n : ℕ} (hn : n < 2 ^ 31) : NoOverflow (flood n) := by
  intro pre hpre
  rw [List.mem_inits] at hpre
  unfold flood at hpre
  obtain ⟨hle, heq⟩ := List.prefix_replicate_iff.1 hpre
  rw [heq]
  have hpkts := packetsSince_flood pre.length
  unfold flood at hpkts
  rw [hpkts]
  unfold Countable totalLen
  simp only [List.length_replicate, List.map_replicate, List.sum_replicate_nat, Nat.mul_one]
  omega

/-- **65536 packets** arrive as none. -/
theorem flood_arrives_as_none :
    ¬ ∀ (cfg : Cfg) (fd : ℤ) (w : Client) (es : List StatEvent), cfg.endian = .little →
      ∃ s, Reporting.run cfg fd ⟨Statistics.init, w⟩ (es ++ [.report]) = .ok s ∧
        Reported (packetsSince es) s.client := by
  intro h
  obtain ⟨s, hs, hr⟩ := h Cfg.plain 7 (Client.connected Os.calm) (flood 65536) rfl
  obtain ⟨s', hs', hn, -⟩ := run_report Cfg.plain rfl 7 (Client.connected Os.calm)
    (flood_noOverflow (n := 65536) (by omega))
  obtain rfl : s' = s := Except.ok.inj (hs'.symm.trans hs)
  have hmin := hr.perMin
  rw [hn, packetsSince_flood, List.length_replicate, UInt16.toNat_ofNat'] at hmin
  omega

/-! ## The average -/

/-- The calls of `atlas_pkt_received` in a window, from the statistics at its beginning. -/
def pktsReceived (s : Statistics) (ws : List PayloadLen) : Except Fault Statistics :=
  ws.foldlM (fun s l => atlasPktReceived l.1 s) s

theorem pktsReceived_snoc (s : Statistics) (ws : List PayloadLen) (l : PayloadLen) :
    pktsReceived s (ws ++ [l]) = (pktsReceived s ws).bind fun s => atlasPktReceived l.1 s := by
  simp only [pktsReceived, List.foldlM_append, List.foldlM_cons, List.foldlM_nil, bind_pure]
  rfl

theorem Countable.of_append {vs : List PayloadLen} (h : Countable (ws ++ vs)) : Countable ws := by
  obtain ⟨hlen, htotal⟩ := h
  simp only [totalLen, List.length_append, List.map_append, List.sum_append] at hlen htotal
  refine ⟨by omega, ?_⟩
  rw [totalLen]
  omega

/-- **A window** keeps the statistics of its packets, until an overflow. -/
theorem pktsReceived_spec (ws : List PayloadLen) :
    pktsReceived Statistics.init ws = if Countable ws then .ok (statsOf ws) else .error .intOverflow := by
  induction ws using List.reverseRecOn with
  | nil => exact (if_pos countable_nil).symm
  | append_singleton ws l ih =>
    rw [pktsReceived_snoc, ih]
    by_cases hws : Countable ws
    · rw [if_pos hws, bind_of_ok rfl, pktReceived_spec]
    · rw [if_neg hws, if_neg fun h => hws h.of_append]
      rfl

/-- The statistics are those of the packets: their number, the quotient of their exact sum by it, and so a
number between the smallest and the largest length. -/
structure TrueAverage (ws : List PayloadLen) (s : Statistics) : Prop where
  samples : s.payloadSamples = ws.length
  total : s.payloadTotal = totalLen ws
  avg : s.payloadAvg = (totalLen ws / ws.length : ℕ)
  between : ∀ lo hi : ℕ, (∀ l ∈ ws, lo ≤ l.1 ∧ l.1 ≤ hi) → lo ≤ s.payloadAvg ∧ s.payloadAvg ≤ hi

/-- An average is between the bounds of what is averaged. -/
theorem averageLen_between (hne : ws ≠ []) {lo hi : ℕ} (h : ∀ l ∈ ws, lo ≤ l.1 ∧ l.1 ≤ hi) :
    lo ≤ averageLen ws ∧ averageLen ws ≤ hi := by
  have hpos : 0 < ws.length := List.length_pos_of_ne_nil hne
  have hlo : ws.length * lo ≤ totalLen ws := by
    have := List.card_nsmul_le_sum (ws.map Subtype.val) lo (by
      intro n hn
      obtain ⟨l, hl, rfl⟩ := List.mem_map.1 hn
      exact (h l hl).1)
    simpa [totalLen] using this
  have hhi : totalLen ws ≤ ws.length * hi := by
    have := List.sum_le_card_nsmul (ws.map Subtype.val) hi (by
      intro n hn
      obtain ⟨l, hl, rfl⟩ := List.mem_map.1 hn
      exact (h l hl).2)
    simpa [totalLen] using this
  exact ⟨(Nat.le_div_iff_mul_le hpos).2 (by rwa [Nat.mul_comm]), Nat.div_le_of_le_mul hhi⟩

theorem trueAverage_statsOf (hne : ws ≠ []) : TrueAverage ws (statsOf ws) where
  samples := rfl
  total := rfl
  avg := rfl
  between lo hi h := by
    obtain ⟨h1, h2⟩ := averageLen_between hne h
    exact ⟨Int.ofNat_le.2 h1, Int.ofNat_le.2 h2⟩

/-- The property for a window: each call returns, and leaves the statistics of the packets so far. -/
def AveragesTrue (s : Statistics) (ws : List PayloadLen) : Prop :=
  ∀ pre post, ws = pre ++ post → pre ≠ [] → ∃ s', pktsReceived s pre = .ok s' ∧ TrueAverage pre s'

/-- **The average is a true average, and exactly when.** For every window of packets that begins with a
reset, of whatever statistics: after each call the number of samples is the number of packets in the
window, and the average is the quotient of the exact sum of their lengths by it, without an overflow
and without a division by zero, if and only if the number of packets and the sum of their lengths are
below 2^31. -/
theorem averagesTrue_iff (e : Endian) (s : Statistics) (ws : List PayloadLen) :
    ∃ buf s₀, sendStatisticsCommand e s = .ok (buf, s₀) ∧ s₀ = Statistics.init ∧
      (AveragesTrue s₀ ws ↔ Countable ws) := by
  refine ⟨_, _, sendStatistics_spec e s, rfl, ?_⟩
  constructor
  · intro h
    by_cases hne : ws = []
    · rw [hne]; exact countable_nil
    obtain ⟨s', hs', -⟩ := h ws [] (by simp) hne
    by_contra hno
    rw [pktsReceived_spec, if_neg hno] at hs'
    cases hs'
  · rintro h pre post rfl hne
    exact ⟨statsOf pre, (pktsReceived_spec pre).trans (if_pos h.of_append), trueAverage_statsOf hne⟩

/-- **Two long packets** overflow the sum. -/
theorem long_packets_overflow : ¬ ∀ ws : List PayloadLen, AveragesTrue Statistics.init ws := by
  intro h
  let l : PayloadLen := ⟨2 ^ 31 - 1, by decide⟩
  obtain ⟨s', hs', -⟩ := h [l, l] [l, l] [] rfl (by simp)
  rw [pktsReceived_spec, if_neg (by decide)] at hs'
  cases hs'

end AtlasClient
