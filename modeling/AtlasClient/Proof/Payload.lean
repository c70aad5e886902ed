import AtlasClient.Spec.Payload
import AtlasClient.Proof.Feedback

/-!
# What the payload callbacks report

Every payload is a batch of the identity and one text.

* `isDecimal_decimal`: what is printed is the decimal representation.
* `featurePayload_eq`: the payload of a string.
-/

namespace AtlasClient

open Framing Loop

/-! ## Printed numbers -/

theorem digit_toNat {c : Char} (hc : c.isDigit) : (UInt8.ofNat c.toNat).toNat = c.toNat := by
  simp only [Char.isDigit, Bool.and_eq_true, decide_eq_true_eq, UInt32.le_iff_toNat_le] at hc
  have hle : c.toNat ≤ 57 := hc.2
  rw [UInt8.toNat_ofNat']
  omega

/-- A digit is read as a digit. -/
theorem isdigit_of_isDigit {c : Char} (hc : c.isDigit) : isdigit (UInt8.ofNat c.toNat) := by
  have hval := digit_toNat hc
  simp only [Char.isDigit, Bool.and_eq_true, decide_eq_true_eq, UInt32.le_iff_toNat_le] at hc
  simp only [isdigit, decide_eq_true_eq, UInt8.le_iff_toNat_le, hval]
  exact hc

/-- The value of printed digits. -/
theorem digitsValue_map {cs : List Char} (h : ∀ c ∈ cs, c.isDigit) :
    digitsValue (cs.map fun c => UInt8.ofNat c.toNat) = Nat.ofDigitChars 10 cs 0 := by
  unfold digitsValue
  rw [Nat.ofDigitChars_eq_foldl]
  generalize 0 = init
  induction cs generalizing init with
  | nil => rfl
  | cons c cs ih =>
    rw [List.map_cons, List.foldl_cons, List.foldl_cons, digit_toNat (h c List.mem_cons_self)]
    exact ih (fun d hd => h d (List.mem_cons_of_mem _ hd)) _

/-- **What is printed is the decimal representation.** -/
theorem isDecimal_decimal (n : ℕ) : IsDecimal (decimal n) n := by
  have hdigits : ∀ c ∈ Nat.toDigits 10 n, c.isDigit := fun c hc =>
    Nat.isDigit_of_mem_toDigits (by decide) (by decide) hc
  refine ⟨?_, ?_, ?_⟩
  · unfold decimal
    simp [Nat.toDigits_ne_nil]
  · intro c hc
    obtain ⟨d, hd, rfl⟩ := List.mem_map.1 hc
    exact isdigit_of_isDigit (hdigits d hd)
  · unfold decimal
    rw [digitsValue_map hdigits, Nat.ofDigitChars_ten_toDigits]

theorem IsDecimal.noNul {s : Bytes} {n : ℕ} (h : IsDecimal s n) : 0 ∉ s := fun h0 => by
  have := h.2.1 0 h0
  simp [isdigit] at this

/-- A number of 64 bits has at most 20 digits. -/
theorem decimal_length {n : ℕ} (h : n < 2 ^ 64) : (decimal n).length ≤ 20 := by
  unfold decimal
  rw [List.length_map, Nat.length_toDigits_le_iff (by decide) (by decide)]
  omega

/-! ## The payload of a string -/

variable (cfg : Cfg)

/-- The two commands of a payload. -/
def featureCmds (type : UInt16) (s : Bytes) (h : s.length < 65536) : List Cmd :=
  [Cmd.of AtlasCmdType.identity cfg.identity cfg.identity_lt, Cmd.of type s h]

/-- **The payload of a string** is the batch of the identity and the string. -/
theorem featurePayload_eq (type : UInt16) {s rest : Bytes} (h0 : 0 ∉ s) (h : s.length ≤ 128) :
    featurePayload cfg type (s ++ 0 :: rest) = .ok (encode (featureCmds cfg type s (by omega))) := by
  have hid := cfg.identity_length
  have hlen : strlen (s ++ 0 :: rest) = .ok s.length := by rw [strlen_ok (by simp), cString_append h0]
  have hfit : (encode (featureCmds cfg type s (by omega))).length < 65536 := by
    simp only [featureCmds, encode_cons, encode_nil, List.append_nil, List.length_append, Frame.bytes_length,
      Cmd.size_eq,
      Cmd.of_value]
    omega
  have hbatch := cmdBatchBytes_pass cfg.endian [Cmd.of AtlasCmdType.identity cfg.identity cfg.identity_lt]
    (0 :: rest) hfit
  simp only [featurePayload, hlen, bind, Except.bind]
  exact hbatch

/-- Which is a batch of the two. -/
theorem featurePayload_isBatch (type : UInt16) {s : Bytes} (rest : Bytes) (h0 : 0 ∉ s) (h : s.length ≤ 128) :
    ∃ bs, featurePayload cfg type (s ++ 0 :: rest) = .ok bs ∧
      IsBatch bs [(AtlasCmdType.identity, cfg.identity), (type, s)] :=
  ⟨_, featurePayload_eq cfg type h0 h, _, rfl, rfl⟩

/-! ## The hostname -/

/-- A string without its last line: up to the last newline, or all of it. -/
def Shortened (s text : Bytes) : Prop := 10 ∉ s ∧ text = s ∨ ∃ line, s = text ++ 10 :: line ∧ 10 ∉ line

/-- The search from the end: there is no newline in the part `u` behind the place that is looked at. -/
theorem removeNewline_loop {u : Bytes} (t rest : Bytes) {n : ℕ} (h0 : 0 ∉ t ++ u) (hu : 10 ∉ u) (hn : t.length < n) :
    ∃ text rest', loop .diverges (newlineBody (t ++ u ++ 0 :: rest)) n ((t.length : ℤ) - 1) = .ok (text ++ 0 :: rest') ∧
      0 ∉ text ∧ text.length ≤ (t ++ u).length ∧ Shortened (t ++ u) text := by
  obtain ⟨n, rfl⟩ : ∃ m, n = m + 1 := ⟨n - 1, by omega⟩
  induction t using List.reverseRecOn generalizing u n with
  | nil =>
    refine ⟨u, rest, loop_done ?_, by simpa using h0, by simp, .inl ⟨by simpa using hu, by simp⟩⟩
    simp [newlineBody]
  | append_singleton t c ih =>
    have hget : (t ++ [c] ++ u ++ 0 :: rest)[t.length]? = some c := by simp
    have hpos : ((t ++ [c]).length : ℤ) - 1 = t.length := by simp
    rw [hpos]
    have hlt : ¬ (t.length : ℤ) < 0 := by omega
    by_cases hc : c = 10
    · -- the newline is overwritten
      subst hc
      have hset : (t ++ [10] ++ u ++ 0 :: rest).set t.length 0 = t ++ 0 :: (u ++ 0 :: rest) := by
        simp
      refine ⟨t, u ++ 0 :: rest, loop_done ?_, fun h => h0 (by simp [h]), by simp, .inr ⟨u, by simp, hu⟩⟩
      simp only [newlineBody, if_neg hlt, Int.toNat_natCast, hget, if_true, hset]
    · have hround : newlineBody (t ++ [c] ++ u ++ 0 :: rest) (t.length : ℤ) = .ok (.inl ((t.length : ℤ) - 1)) := by
        simp only [newlineBody, if_neg hlt, Int.toNat_natCast, hget, if_neg hc]
      obtain ⟨m, rfl⟩ : ∃ m, n = m + 1 := ⟨n - 1, by simp at hn; omega⟩
      rw [loop_next hround]
      have hcons : t ++ [c] ++ u = t ++ c :: u := by simp
      rw [hcons] at h0 ⊢
      have hu' : 10 ∉ c :: u := by simp [hu, Ne.symm hc]
      exact ih h0 hu' m (by simp at hn; omega)

theorem removeNewline_spec {s : Bytes} (rest : Bytes) (h0 : 0 ∉ s) :
    ∃ text rest', removeNewline (s ++ 0 :: rest) = .ok (text ++ 0 :: rest') ∧ 0 ∉ text ∧ text.length ≤ s.length ∧
      Shortened s text := by
  have hlen : strlen (s ++ 0 :: rest) = .ok s.length := by rw [strlen_ok (by simp), cString_append h0]
  have hloop := removeNewline_loop (u := []) s rest (n := s.length + 1) (by simpa using h0) (by simp) (by omega)
  simp only [List.append_nil] at hloop
  simpa only [removeNewline, hlen, bind, Except.bind] using hloop

/-- **The hostname** is what the file says up to its last newline, or all of it, and no more than the first 32 bytes
up to a NUL. -/
theorem hostname_payload (bs : HostnameRead) (hne : bs.1 ≠ []) :
    ∃ buf text, atlasTelemetryPayloadHostname cfg (some bs) false = .ok buf ∧
      IsBatch buf [(AtlasCmdType.identity, cfg.identity), (AtlasCmdType.telemetryHostname, text)] ∧
      Shortened (cString bs.1) text := by
  have hle := bs.2
  -- the bytes are read into a block that ends with a NUL
  have hread : writeAt (List.replicate 33 0) 0 bs.1 = .ok (bs.1 ++ 0 :: List.replicate (32 - bs.1.length) 0) := by
    unfold writeAt
    rw [if_pos (by simp; omega), ← List.replicate_succ]
    simp only [List.take_zero, List.nil_append, List.drop_replicate, Except.ok.injEq, List.append_cancel_left_eq]
    congr 1
    omega
  have hstring : cString (bs.1 ++ 0 :: List.replicate (32 - bs.1.length) 0) = cString bs.1 :=
    takeWhile_string (by simp) _ _
  have hnul : 0 ∈ bs.1 ++ 0 :: List.replicate (32 - bs.1.length) 0 := by simp
  obtain ⟨rest, hblock⟩ := exists_string hnul
  rw [hstring] at hblock
  have hlen : (cString bs.1).length ≤ bs.1.length := (List.takeWhile_prefix _).length_le
  obtain ⟨text, rest', hremove, htext0, htext, hshort⟩ := removeNewline_spec rest (zero_not_mem_cString bs.1)
  obtain ⟨buf, hbuf, hbatch⟩ := featurePayload_isBatch cfg AtlasCmdType.telemetryHostname rest' htext0 (by omega)
  refine ⟨buf, text, ?_, hbatch, hshort⟩
  simp only [atlasTelemetryPayloadHostname, Bool.false_eq_true, if_false, if_neg hne, hread, bind, Except.bind, hblock,
    hremove, hbuf]

/-! ## The kernel information -/

/-- A text cut to 128 characters, at the start of a block of 129. -/
def Cut (text block : Bytes) : Prop := ∃ rest, block = text.take 128 ++ 0 :: rest ∧ block.length = 129

theorem Cut.append {text block s : Bytes} (h : Cut text block) (h0 : 0 ∉ text) :
    ∃ block', appendKernInfo block s = .ok block' ∧ Cut (text ++ s) block' := by
  obtain ⟨rest, hblock, hlen⟩ := h
  have h0' : 0 ∉ text.take 128 := fun hmem => h0 ((List.take_sublist _ _).subset hmem)
  have hstrlen : strlen block = .ok (text.take 128).length := by
    rw [hblock, strlen_ok (by simp), cString_append h0']
  have hle : (text.take 128).length ≤ 128 := List.length_take_le _ _
  generalize hn : 129 - (text.take 128).length - 1 = n at *
  have htake : (text ++ s).take 128 = text.take 128 ++ s.take n := by
    rw [List.take_append, ← hn, List.length_take]
    congr 2
    omega
  -- as many characters as there is room for before the NUL
  have hroom : (text.take 128).length + (s.take n ++ [0]).length ≤ block.length := by
    simp only [List.length_append, List.length_singleton, List.length_take] at hle hn ⊢
    omega
  refine ⟨block.take (text.take 128).length ++ (s.take n ++ [0]) ++
    block.drop ((text.take 128).length + (s.take n ++ [0]).length), ?_,
    block.drop ((text.take 128).length + (s.take n ++ [0]).length), ?_, ?_⟩
  · simp only [appendKernInfo, strncat, hstrlen, bind, Except.bind, hn, writeAt, if_pos hroom]
  · have hprefix : block.take (text.take 128).length = text.take 128 := by
      rw [hblock]
      exact List.take_left
    rw [htake, hprefix]
    simp
  · simp only [List.length_append, List.length_take, List.length_drop, List.length_singleton] at hroom ⊢
    omega

theorem cut_fold {l : List Bytes} (h0 : ∀ s ∈ l, 0 ∉ s) : ∀ {text block : Bytes}, Cut text block → 0 ∉ text →
    ∃ block', l.foldlM appendKernInfo block = .ok block' ∧ Cut (text ++ l.flatten) block' := by
  induction l with
  | nil => exact fun h _ => ⟨_, rfl, by simpa using h⟩
  | cons s l ih =>
    intro text block h htext
    have hs : 0 ∉ s := h0 s List.mem_cons_self
    obtain ⟨block', hblock', hcut⟩ := h.append (s := s) htext
    obtain ⟨block'', hblock'', hcut'⟩ := ih (fun t ht => h0 t (List.mem_cons_of_mem _ ht)) hcut (by simp [htext, hs])
    refine ⟨block'', ?_, by simpa using hcut'⟩
    rw [List.foldlM_cons, hblock']
    exact hblock''

theorem cut_strncpy (s : Bytes) : ∃ block, strncpy (List.replicate 129 0) s 128 = .ok block ∧ Cut s block := by
  refine ⟨(s ++ List.replicate (128 - s.length) 0).take 128 ++ [0], ?_, ?_⟩
  · have hlen : ((s ++ List.replicate (128 - s.length) 0).take 128).length = 128 := by
      rw [List.length_take, List.length_append, List.length_replicate]
      omega
    unfold strncpy writeAt
    rw [hlen, if_pos (by simp), List.take_zero, List.nil_append, List.drop_replicate]
    rfl
  · refine ⟨List.replicate (128 - s.length) 0, ?_, ?_⟩
    · have hle : (List.replicate (128 - s.length) (0 : UInt8)).take (128 - s.length) =
          List.replicate (128 - s.length) 0 :=
        List.take_of_length_le (by simp)
      rw [List.take_append, hle, List.append_assoc, ← List.replicate_succ', List.replicate_succ]
    · rw [List.length_append, List.length_take, List.length_append, List.length_replicate, List.length_singleton]
      omega

/-- The fields of `struct utsname`, separated by blanks. -/
def Utsname.text (buffer : Utsname) : Bytes :=
  [buffer.sysname, [32], buffer.nodename, [32], buffer.release, [32], buffer.version, [32], buffer.machine].flatten

/-- **The kernel information** is the first 128 characters of the fields separated by blanks: however long the fields
are, nothing is written outside the block. -/
theorem kernInfo_payload (buffer : Utsname) :
    ∃ buf, atlasTelemetryPayloadKernInfo cfg (some buffer) false = .ok buf ∧
      IsBatch buf [(AtlasCmdType.identity, cfg.identity), (AtlasCmdType.telemetryKernInfo, buffer.text.take 128)] := by
  have hstrings := buffer.strings
  simp only [List.forall_mem_cons, List.not_mem_nil, false_imp_iff, implies_true, and_true] at hstrings
  obtain ⟨hsys, hnode, hrelease, hversion, hmachine⟩ := hstrings
  obtain ⟨block, hblock, hcut⟩ := cut_strncpy buffer.sysname
  have hfields : ∀ s ∈ [[32], buffer.nodename, [32], buffer.release, [32], buffer.version, [32], buffer.machine],
      0 ∉ s := by
    simp only [List.forall_mem_cons, hnode, hrelease, hversion, hmachine]
    simp
  obtain ⟨block', hblock', rest, hblock'', -⟩ := cut_fold hfields hcut hsys
  have htext : 0 ∉ buffer.text := by
    simp [Utsname.text, hsys, hnode, hrelease, hversion, hmachine]
  obtain ⟨buf, hbuf, hbatch⟩ := featurePayload_isBatch cfg AtlasCmdType.telemetryKernInfo rest
    (fun h => htext ((List.take_sublist _ _).subset h)) (List.length_take_le 128 buffer.text)
  refine ⟨buf, ?_, hbatch⟩
  simp only [atlasTelemetryPayloadKernInfo, Bool.false_eq_true, if_false, hblock, bind, Except.bind]
  rw [hblock', hblock'']
  exact hbuf

/-! ## All features -/

/-- The command type of the feature at a place of `telemetryPaths`. -/
def featureTypes : Vector UInt16 15 :=
  #v[AtlasCmdType.telemetryHostname, AtlasCmdType.telemetryKernInfo, AtlasCmdType.telemetrySysinfoUptime,
    AtlasCmdType.telemetrySysinfoTotalram, AtlasCmdType.telemetrySysinfoFreeram,
    AtlasCmdType.telemetrySysinfoSharedram, AtlasCmdType.telemetrySysinfoBufferram,
    AtlasCmdType.telemetrySysinfoTotalswap, AtlasCmdType.telemetrySysinfoFreeswap,
    AtlasCmdType.telemetrySysinfoProcs, AtlasCmdType.telemetrySysinfoLoad1, AtlasCmdType.telemetrySysinfoLoad5,
    AtlasCmdType.telemetrySysinfoLoad15, AtlasCmdType.telemetryPacketsPerMinute, AtlasCmdType.telemetryPacketsAvg]

/-- The numbers of `struct sysinfo` in the order of their features. -/
def Sysinfo.numbers (info : Sysinfo) : Vector UInt64 11 :=
  #v[info.uptime.toUInt64, info.totalram, info.freeram, info.sharedram, info.bufferram, info.totalswap, info.freeswap,
    info.procs.toUInt64, info.loads.get 0, info.loads.get 1, info.loads.get 2]

/-- What the feature at a place has to say: which texts, or nothing. -/
def report (r : Readings) (useThreshold : Bool) (place : ℕ) : Option (Bytes → Prop) :=
  if place = 0 then
    r.hostname.bind fun bs => if useThreshold ∨ bs.1 = [] then none else some (Shortened (cString bs.1))
  else if place = 1 then
    if useThreshold then none else r.uname.map fun buffer text => text = buffer.text.take 128
  else if place = 13 then some fun text => IsDecimal text r.packetsPerMin.toNat
  else if place = 14 then some fun text => IsDecimal text r.packetsAvg.toNat
  else
    r.sysinfo.bind fun info =>
      -- of the numbers of the system only that of the processes has a threshold
      if useThreshold ∧ (place = 9 → info.procs < r.procsThreshold) then none
      else info.numbers[place - 2]?.map fun n text => IsDecimal text n.toNat

/-- A callback that reports what it has to: a batch of the identity and one text, or no payload. -/
def Tells (type : UInt16) (out : Except Fault Bytes) (texts : Option (Bytes → Prop)) : Prop :=
  match texts with
  | none => out = .ok []
  | some p => ∃ buf text, out = .ok buf ∧ IsBatch buf [(AtlasCmdType.identity, cfg.identity), (type, text)] ∧ p text

theorem numberPayload_tells (type : UInt16) {n : ℕ} (h : n < 2 ^ 64) :
    Tells cfg type (numberPayload cfg type n) (some fun text => IsDecimal text n) := by
  have hlen := decimal_length h
  have hdec := isDecimal_decimal n
  obtain ⟨buf, hbuf, hbatch⟩ := featurePayload_isBatch cfg type
    ((List.replicate 33 0).drop ((decimal n).length + 1)) hdec.noNul (by omega)
  refine ⟨buf, decimal n, ?_, hbatch, hdec⟩
  have hcopy : strcpy (List.replicate 33 0) (decimal n) =
      .ok (decimal n ++ 0 :: (List.replicate 33 0).drop ((decimal n).length + 1)) := strcpy_ok (by simp; omega)
  simp only [numberPayload, hcopy, bind, Except.bind, hbuf]

/-- A callback that prints a number of the system. -/
theorem sysinfoPayload_tells (r : Readings) (useThreshold : Bool) (type : UInt16) (value : Sysinfo → UInt64) {place : ℕ}
    (hplace : place ∉ [0, 1, 9, 13, 14]) (hvalue : ∀ info : Sysinfo, info.numbers[place - 2]? = some (value info)) :
    Tells cfg type (sysinfoPayload cfg type (fun info => (value info).toNat) r.sysinfo useThreshold)
      (report r useThreshold place) := by
  simp only [List.mem_cons, List.not_mem_nil, or_false, not_or] at hplace
  obtain ⟨h0, h1, h9, h13, h14⟩ := hplace
  simp only [report, if_neg h0, if_neg h1, if_neg h13, if_neg h14, h9, false_imp_iff, and_true, hvalue]
  cases r.sysinfo with
  | none => cases useThreshold <;> rfl
  | some info =>
    cases useThreshold with
    | true => rfl
    | false => exact numberPayload_tells cfg type (value info).toNat_lt

theorem procs_tells (r : Readings) (useThreshold : Bool) :
    Tells cfg AtlasCmdType.telemetrySysinfoProcs
      (atlasTelemetryPayloadProcs cfg r.procsThreshold r.sysinfo useThreshold)
      (report r useThreshold 9) := by
  have hnumber : ∀ info : Sysinfo, info.numbers[7].toNat = info.procs.toNat := fun info => UInt16.toNat_toUInt64 _
  cases hinfo : r.sysinfo with
  | none => simp [report, hinfo, Tells, atlasTelemetryPayloadProcs]
  | some info =>
    by_cases hthreshold : useThreshold = true ∧ info.procs < r.procsThreshold
    · simp [report, hinfo, Tells, atlasTelemetryPayloadProcs, hthreshold]
    · have hreport : report r useThreshold 9 = some fun text => IsDecimal text info.procs.toNat := by
        simp [report, hinfo, hthreshold, hnumber]
      rw [hreport]
      simp only [atlasTelemetryPayloadProcs, if_neg hthreshold]
      exact numberPayload_tells cfg _ (lt_trans info.procs.toNat_lt (by decide))

theorem hostname_tells (r : Readings) (useThreshold : Bool) :
    Tells cfg AtlasCmdType.telemetryHostname (atlasTelemetryPayloadHostname cfg r.hostname useThreshold)
      (report r useThreshold 0) := by
  cases hfile : r.hostname with
  | none => cases useThreshold <;> simp [report, hfile, Tells, atlasTelemetryPayloadHostname]
  | some bs =>
    by_cases hnone : useThreshold = true ∨ bs.1 = []
    · have hout : atlasTelemetryPayloadHostname cfg (some bs) useThreshold = .ok [] := by
        rcases hnone with h | h <;> simp [atlasTelemetryPayloadHostname, h]
      simp [report, hfile, Tells, hout, hnone]
    · obtain ⟨hread, hne⟩ := not_or.1 hnone
      rw [Bool.not_eq_true] at hread
      subst hread
      have hreport : report r false 0 = some (Shortened (cString bs.1)) := by simp [report, hfile, hne]
      rw [hreport]
      exact hostname_payload cfg bs hne

theorem kernInfo_tells (r : Readings) (useThreshold : Bool) :
    Tells cfg AtlasCmdType.telemetryKernInfo (atlasTelemetryPayloadKernInfo cfg r.uname useThreshold)
      (report r useThreshold 1) := by
  cases useThreshold with
  | true => rfl
  | false =>
    cases huname : r.uname with
    | none => simp [report, huname, Tells, atlasTelemetryPayloadKernInfo]
    | some buffer =>
      obtain ⟨buf, hbuf, hbatch⟩ := kernInfo_payload cfg buffer
      have hreport : report r false 1 = some fun text => text = buffer.text.take 128 := by simp [report, huname]
      rw [hreport]
      exact ⟨buf, _, hbuf, hbatch, rfl⟩

/-- Whatever the system answers, a callback does not fault and **reports what its feature has to say**, under the
command type of the feature. -/
theorem payload_tells (r : Readings) (useThreshold : Bool) (place : Fin 15) :
    Tells cfg (featureTypes.get place) (payloadCallback cfg r place useThreshold) (report r useThreshold place) := by
  have hsysinfo := fun type value place => @sysinfoPayload_tells cfg r useThreshold type value place
  match place with
  | 0 => exact hostname_tells cfg r useThreshold
  | 1 => exact kernInfo_tells cfg r useThreshold
  | 2 => exact hsysinfo _ (fun info => info.uptime.toUInt64) 2 (by decide) fun _ => rfl
  | 3 => exact hsysinfo _ Sysinfo.totalram 3 (by decide) fun _ => rfl
  | 4 => exact hsysinfo _ Sysinfo.freeram 4 (by decide) fun _ => rfl
  | 5 => exact hsysinfo _ Sysinfo.sharedram 5 (by decide) fun _ => rfl
  | 6 => exact hsysinfo _ Sysinfo.bufferram 6 (by decide) fun _ => rfl
  | 7 => exact hsysinfo _ Sysinfo.totalswap 7 (by decide) fun _ => rfl
  | 8 => exact hsysinfo _ Sysinfo.freeswap 8 (by decide) fun _ => rfl
  | 9 => exact procs_tells cfg r useThreshold
  | 10 => exact hsysinfo _ (fun info => info.loads.get 0) 10 (by decide) fun _ => rfl
  | 11 => exact hsysinfo _ (fun info => info.loads.get 1) 11 (by decide) fun _ => rfl
  | 12 => exact hsysinfo _ (fun info => info.loads.get 2) 12 (by decide) fun _ => rfl
  | 13 => exact numberPayload_tells cfg _ (lt_trans r.packetsPerMin.toNat_lt (by decide))
  | 14 => exact numberPayload_tells cfg _ (lt_trans r.packetsAvg.toNat_lt (by decide))

end AtlasClient
