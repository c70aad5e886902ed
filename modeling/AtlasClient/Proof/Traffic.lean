import AtlasClient.Lib.Tokens
import AtlasClient.Proof.Command
import AtlasClient.Proof.Config
import AtlasClient.Proof.Overrun
import AtlasClient.Proof.Subscribe
import AtlasClient.Spec.Traffic

/-!
# The publish argument

`traffic_generator` takes its tokens in sixes and does not look whether they are there.

* `publishEntry_eq`: one entry.
* `trafficGenerator_eq`: **which arguments are read, and as what**; all others are undefined behaviour.
* `trafficGenerator_publishArgument`: an argument that is printed from entries is read back.
-/

namespace AtlasClient

open Loop Tokens

variable {atof : Bytes → Float} {long : LongType} {p s : Bytes}

/-! ## Tokens of a string -/

/-- The tokens of a string. -/
abbrev tokensOf (s : Bytes) : List Bytes := tokens (fun c => decide (c ∈ colon)) s

/-- **The next token** of a string, or the end of it. -/
theorem nextToken_cases (hs : 0 ∉ s) (rest : Bytes) :
    (tokensOf s = [] ∧ strtok colon (s ++ 0 :: rest) = .ok none) ∨
    ∃ t s', tokensOf s = t :: tokensOf s' ∧ 0 ∉ t ∧ 0 ∉ s' ∧ s'.length < s.length ∧
      strtok colon (s ++ 0 :: rest) = .ok (some (t, s' ++ 0 :: rest)) := by
  rw [strtok_string zero_not_mem_colon hs]
  cases hskip : s.dropWhile fun c => decide (c ∈ colon) with
  | nil =>
    left
    refine ⟨tokens_eq_nil hskip, ?_⟩
    simp only [token, hskip, if_true, Option.map_none]
  | cons c t =>
    right
    have htoken := token_eq hskip
    have htokens := tokens_cons hskip
    have hnot : ∀ l : Bytes, l.takeWhile (fun c => !decide (c ∈ colon)) = l.takeWhile (· ∉ colon) ∧
        l.dropWhile (fun c => !decide (c ∈ colon)) = l.dropWhile (· ∉ colon) := fun l => by simp [decide_not]
    obtain ⟨hp, hnext⟩ := token_sublist htoken
    rw [(hnot _).1, (hnot _).2] at htokens
    refine ⟨_, _, htokens, fun h => hs (hp.subset h), fun h => hs (hnext.subset h), ?_, by rw [htoken]; rfl⟩
    -- a character of the token is gone
    have hlen : (c :: t).length ≤ s.length := by
      rw [← hskip]
      exact (List.dropWhile_sublist _).length_le
    have hc : c ∉ colon := by
      have hne : s.dropWhile (fun c => decide (c ∈ colon)) ≠ [] := by
        rw [hskip]
        exact List.cons_ne_nil c t
      have hhead := List.head_dropWhile_not (fun c => decide (c ∈ colon)) hne
      simp only [hskip, List.head_cons, decide_eq_false_iff_not] at hhead
      exact hhead
    rw [List.dropWhile_cons_of_pos (by simpa using hc)]
    have hdrop := (List.dropWhile_sublist (· ∉ colon) (l := t)).length_le
    rw [List.length_tail]
    rw [List.length_cons] at hlen
    omega

/-- A token that must be there. -/
theorem nextToken_eq (hs : 0 ∉ s) (rest : Bytes) :
    (tokensOf s = [] ∧ nextToken (s ++ 0 :: rest) = .error .badAccess) ∨
    ∃ t s', tokensOf s = t :: tokensOf s' ∧ 0 ∉ t ∧ 0 ∉ s' ∧ s'.length < s.length ∧
      nextToken (s ++ 0 :: rest) = .ok (t, s' ++ 0 :: rest) := by
  rcases nextToken_cases hs rest with ⟨hnil, htok⟩ | ⟨t, s', hcons, ht, hs', hlen, htok⟩
  · exact .inl ⟨hnil, bind_of_ok htok _⟩
  · exact .inr ⟨t, s', hcons, ht, hs', hlen, bind_of_ok htok _⟩

/-! ## One entry -/

/-- The six tokens of an entry. -/
structure PublishFields where
  feature : Bytes
  publishRate : Bytes
  baseValue : Bytes
  deviation : Bytes
  qos : Bytes
  length : Bytes
  deriving DecidableEq

/-- What the tokens stand for. -/
def PublishFields.info (atof : Bytes → Float) (long : LongType) (f : PublishFields) : PublishInfo where
  feature := f.feature
  publishRate := atoi long f.publishRate
  baseValue := (atof f.baseValue).toFloat32
  deviation := (atof f.deviation).toFloat32
  qos := atoi long f.qos
  packetLength := if f.length = ascii "default" then 0 else atoi long f.length
  publishMsg := if f.length = ascii "default" then some (List.replicate 257 0) else mallocInt (atoi long f.length)

/-- The tokens in sixes, if they come out even. -/
def sixes : List Bytes → Option (List PublishFields)
  | [] => some []
  | f :: r :: b :: d :: q :: l :: ts => (sixes ts).map (⟨f, r, b, d, q, l⟩ :: ·)
  | _ => none

/-- **One entry**: it is read if its feature fits and five tokens more are there. -/
theorem publishEntry_eq (hp : 0 ∉ p) (hs : 0 ∉ s) (rest : Bytes) :
    ((featureMaxLen ≤ p.length ∨ sixes (p :: tokensOf s) = none) ∧
      publishEntry atof long p (s ++ 0 :: rest) = .error .badAccess) ∨
    ∃ (f : PublishFields) (s' : Bytes), p.length < featureMaxLen ∧ f.feature = p ∧
      sixes (p :: tokensOf s) = (sixes (tokensOf s')).map (f :: ·) ∧ 0 ∉ s' ∧ s'.length < s.length ∧
      publishEntry atof long p (s ++ 0 :: rest) = .ok (f.info atof long, s' ++ 0 :: rest) := by
  by_cases hfit : p.length < featureMaxLen
  swap
  · left
    have hcopy : strcpy (List.replicate featureMaxLen 0) p = .error .badAccess :=
      strcpy_error (by rw [List.length_replicate]; exact Nat.not_lt.1 hfit)
    refine ⟨.inl (Nat.not_lt.1 hfit), ?_⟩
    exact bind_of_error hcopy _
  have hcopy : strcpy (List.replicate featureMaxLen 0) p = _ := strcpy_ok (by rw [List.length_replicate]; exact hfit)
  have hfeature := cString_append hp ((List.replicate featureMaxLen (0 : UInt8)).drop (p.length + 1))
  simp only [publishEntry, hcopy, bind, Except.bind]
  rcases nextToken_eq hs rest with ⟨h1, e1⟩ | ⟨r, s1, h1, -, hs1, hl1, e1⟩
  · exact .inl ⟨.inr (by rw [h1]; rfl), by rw [e1]⟩
  rcases nextToken_eq hs1 rest with ⟨h2, e2⟩ | ⟨b, s2, h2, -, hs2, hl2, e2⟩
  · exact .inl ⟨.inr (by rw [h1, h2]; rfl), by simp only [e1, e2]⟩
  rcases nextToken_eq hs2 rest with ⟨h3, e3⟩ | ⟨d, s3, h3, -, hs3, hl3, e3⟩
  · exact .inl ⟨.inr (by rw [h1, h2, h3]; rfl), by simp only [e1, e2, e3]⟩
  rcases nextToken_eq hs3 rest with ⟨h4, e4⟩ | ⟨q, s4, h4, -, hs4, hl4, e4⟩
  · exact .inl ⟨.inr (by rw [h1, h2, h3, h4]; rfl), by simp only [e1, e2, e3, e4]⟩
  rcases nextToken_eq hs4 rest with ⟨h5, e5⟩ | ⟨l, s5, h5, -, hs5, hl5, e5⟩
  · exact .inl ⟨.inr (by rw [h1, h2, h3, h4, h5]; rfl), by simp only [e1, e2, e3, e4, e5]⟩
  right
  refine ⟨⟨p, r, b, d, q, l⟩, s5, hfit, rfl, by rw [h1, h2, h3, h4, h5]; rfl, hs5, by omega, ?_⟩
  simp only [e1, e2, e3, e4, e5, hfeature, PublishFields.info]
  split <;> rfl

/-! ## The argument -/

/-- What the generator has set up for the entries. -/
def Traffic.of (atof : Bytes → Float) (long : LongType) (fs : List PublishFields) : Traffic where
  publishStr := Vector.ofFn fun i => (fs[i.1]?).elim .zero (PublishFields.info atof long)
  subscribed := fs.map fun f => ⟨requestReputationTopic ++ f.feature, 2⟩

theorem traffic_nil : (⟨Vector.replicate _ .zero, []⟩ : Traffic) = Traffic.of atof long [] := by
  simp only [Traffic.of, List.map_nil, Traffic.mk.injEq, and_true]
  ext i hi
  simp

/-- One entry more. -/
theorem traffic_concat (fs : List PublishFields) (f : PublishFields) (h : fs.length < publishFeaturesMax) :
    (⟨(Traffic.of atof long fs).publishStr.set fs.length (f.info atof long) h,
      (Traffic.of atof long fs).subscribed ++ [⟨requestReputationTopic ++ f.feature, 2⟩]⟩ : Traffic) =
      Traffic.of atof long (fs ++ [f]) := by
  simp only [Traffic.of, List.map_append, List.map_cons, List.map_nil, Traffic.mk.injEq, and_true]
  ext i hi
  rw [Vector.getElem_set, Vector.getElem_ofFn, Vector.getElem_ofFn]
  by_cases hlt : i < fs.length
  · rw [if_neg (by omega), List.getElem?_append_left hlt]
  · by_cases heq : fs.length = i
    · subst heq
      simp
    · have hge : (fs ++ [f]).length ≤ i := by
        rw [List.length_append, List.length_singleton]
        omega
      have hge' : fs.length ≤ i := Nat.not_lt.1 hlt
      rw [if_neg heq, List.getElem?_eq_none hge', List.getElem?_eq_none hge]

/-- The topic of a feature. -/
theorem requestTopic_ok {feature : Bytes} (hf : 0 ∉ feature) (hlen : feature.length < featureMaxLen) :
    requestTopic feature = .ok (requestReputationTopic ++ feature) := by
  have hcopy : strcpy zeroBuffer requestReputationTopic = .ok (requestReputationTopic ++ 0 :: zeroBuffer.drop 15) :=
    strcpy_ok (by rw [zeroBuffer_length]; decide)
  have hzero : 0 ∉ requestReputationTopic := by decide
  have hblock : (requestReputationTopic ++ 0 :: zeroBuffer.drop 15).length = dataPlaneBufferLen := by
    rw [(strcpy_block hcopy).1, zeroBuffer_length]
  have hprefix : requestReputationTopic.length = 14 := rfl
  have hfits : requestReputationTopic.length + feature.length < dataPlaneBufferLen := by
    have hsizes : featureMaxLen + 14 ≤ dataPlaneBufferLen := by decide
    omega
  have hcat := strcat_ok (t := feature) hzero rfl (by rw [hblock]; exact hfits)
  have hstring : 0 ∉ requestReputationTopic ++ feature := by
    rw [List.mem_append, not_or]
    exact ⟨hzero, hf⟩
  unfold requestTopic
  rw [hcopy]
  refine (bind_of_ok hcat _).trans ?_
  rw [cString_append hstring]

/-- What the tokens of the argument come to. -/
def generated (atof : Bytes → Float) (long : LongType) (before : List PublishFields) (ts : List Bytes) :
    Except Fault Traffic :=
  match sixes ts with
  | none => .error .badAccess
  | some fs =>
    if (before ++ fs).length ≤ publishFeaturesMax ∧ ∀ f ∈ fs, f.feature.length < featureMaxLen then
      .ok (Traffic.of atof long (before ++ fs))
    else .error .badAccess

/-- The feature of the first entry is the first token. -/
theorem sixes_head {ts : List Bytes} {fs : List PublishFields} (h : sixes (p :: ts) = some fs) :
    ∃ f fs', fs = f :: fs' ∧ f.feature = p := by
  match ts, h with
  | r :: b :: d :: q :: l :: ts, h =>
    simp only [sixes, Option.map_eq_some_iff] at h
    obtain ⟨fs', -, rfl⟩ := h
    exact ⟨_, fs', rfl, rfl⟩

/-- **The loop** goes on with the entries that are left. -/
theorem trafficLoop_eq (rest : Bytes) : ∀ (n : ℕ) {s : Bytes} (before : List PublishFields)
    {tok : Option (Bytes × Bytes)},
    0 ∉ s → s.length < n → before.length ≤ publishFeaturesMax → strtok colon (s ++ 0 :: rest) = .ok tok →
    loop .diverges (trafficBody atof long) (n + 1) (before.length, tok, Traffic.of atof long before) =
      generated atof long before (tokensOf s) := by
  intro n
  induction n with
  | zero => exact fun _ _ _ hlen => absurd hlen (Nat.not_lt_zero _)
  | succ n ih =>
    intro s before tok hs hlen hbefore htok
    rcases nextToken_cases hs rest with ⟨hnil, hnone⟩ | ⟨p, s₁, hcons, hp, hs₁, hlen₁, hsome⟩
    · rw [hnone] at htok
      cases htok
      rw [hnil, generated]
      simp only [sixes, List.append_nil, hbefore, true_and, List.not_mem_nil, false_implies, implies_true, if_true]
      exact loop_done rfl
    rw [hsome] at htok
    cases htok
    rw [hcons]
    -- an error of the round is one of the argument
    have hfail : ∀ {body : Except Fault ((ℕ × Option (Bytes × Bytes) × Traffic) ⊕ Traffic)},
        trafficBody atof long (before.length, some (p, s₁ ++ 0 :: rest), Traffic.of atof long before) = body →
        body = .error .badAccess → loop .diverges (trafficBody atof long) (n + 1 + 1)
          (before.length, some (p, s₁ ++ 0 :: rest), Traffic.of atof long before) = .error .badAccess :=
      fun hbody herr => loop_fail (hbody.trans herr)
    by_cases hroom : before.length < publishFeaturesMax
    swap
    · rw [hfail (dif_neg hroom) rfl, generated]
      cases hsix : sixes (p :: tokensOf s₁) with
      | none => rfl
      | some fs =>
        obtain ⟨f, fs', rfl, -⟩ := sixes_head hsix
        simp only
        rw [if_neg]
        rintro ⟨hle, -⟩
        rw [List.length_append, List.length_cons] at hle
        omega
    have hbody : trafficBody atof long (before.length, some (p, s₁ ++ 0 :: rest), Traffic.of atof long before) =
        ((publishEntry atof long p (s₁ ++ 0 :: rest)).bind fun r => (requestTopic r.1.feature).bind fun topic =>
          (strtok colon r.2).bind fun t => .ok (.inl (before.length + 1, t,
            ⟨(Traffic.of atof long before).publishStr.set before.length r.1 hroom,
              (Traffic.of atof long before).subscribed ++ [⟨topic, 2⟩]⟩))) := dif_pos hroom
    rcases publishEntry_eq hp hs₁ rest with ⟨hbad, hentry⟩ | ⟨f, s₂, hshort, hfeature, hsix, hs₂, hlen₂, hentry⟩
    · rw [hfail hbody (bind_of_error hentry _), generated]
      cases hsix : sixes (p :: tokensOf s₁) with
      | none => rfl
      | some fs =>
        obtain ⟨f, fs', rfl, hf⟩ := sixes_head hsix
        simp only
        rw [if_neg]
        rintro ⟨-, hall⟩
        have hf' := hall f List.mem_cons_self
        rw [hf] at hf'
        rcases hbad with hlong | hnone
        · omega
        · rw [hnone] at hsix
          cases hsix
    · have htopic : requestTopic (f.info atof long).feature = .ok (requestReputationTopic ++ f.feature) :=
        requestTopic_ok (by rw [PublishFields.info, hfeature]; exact hp)
          (by rw [PublishFields.info, hfeature]; exact hshort)
      obtain ⟨tok, htok⟩ : ∃ tok, strtok colon (s₂ ++ 0 :: rest) = .ok tok :=
        ⟨_, strtok_string zero_not_mem_colon hs₂ rest⟩
      have hround : trafficBody atof long (before.length, some (p, s₁ ++ 0 :: rest), Traffic.of atof long before) =
          .ok (.inl ((before ++ [f]).length, tok, Traffic.of atof long (before ++ [f]))) := by
        rw [hbody, ← traffic_concat before f hroom, List.length_append, List.length_singleton]
        exact (bind_of_ok hentry _).trans ((bind_of_ok htopic _).trans (bind_of_ok htok _))
      have hbefore' : (before ++ [f]).length ≤ publishFeaturesMax := by
        rw [List.length_append, List.length_singleton]
        omega
      rw [loop_next hround, ih (before ++ [f]) hs₂ (by omega) hbefore' htok]
      simp only [generated, hsix]
      cases sixes (tokensOf s₂) with
      | none => rfl
      | some fs =>
        simp only [Option.map_some, List.append_assoc, List.singleton_append, List.forall_mem_cons, hfeature, hshort,
          true_and]

/-- The whole argument, up to its NUL. -/
theorem trafficGenerator_generated (atof : Bytes → Float) (long : LongType) (publishArg : Bytes) :
    trafficGenerator atof long publishArg = generated atof long [] (tokensOf (cString publishArg)) := by
  have hs := zero_not_mem_cString publishArg
  obtain ⟨rest, hblock⟩ := exists_string (by simp : (0 : UInt8) ∈ publishArg ++ [0])
  have hsame : cString (publishArg ++ [0]) = cString publishArg := takeWhile_string (by simp) publishArg []
  rw [hsame] at hblock
  have hlen : (cString publishArg).length < publishArg.length + 1 :=
    Nat.lt_succ_of_le (List.takeWhile_sublist _).length_le
  obtain ⟨tok, htok⟩ : ∃ tok, strtok colon (cString publishArg ++ 0 :: rest) = .ok tok :=
    ⟨_, strtok_string zero_not_mem_colon hs rest⟩
  have hloop : loop .diverges (trafficBody atof long) (publishArg.length + 2) (0, tok, Traffic.of atof long []) =
      generated atof long [] (tokensOf (cString publishArg)) :=
    trafficLoop_eq rest (publishArg.length + 1) [] hs hlen (Nat.zero_le _) htok
  rw [trafficGenerator, hblock, traffic_nil]
  exact (bind_of_ok htok _).trans hloop

/-- **The publish argument is read exactly so.** For every argument: if its tokens between `:` come in sixes, at most 32
of them, and each first one is shorter than 32 characters, then every six are an entry of the table, in their order,
with a subscription to the requests for its feature, and the other entries stay empty; in every other case the generator
reads through `NULL` or writes outside of the table or of a feature. -/
theorem trafficGenerator_eq (atof : Bytes → Float) (long : LongType) (publishArg : Bytes) :
    trafficGenerator atof long publishArg =
      match sixes (tokensOf (cString publishArg)) with
      | none => .error .badAccess
      | some fs =>
        if fs.length ≤ publishFeaturesMax ∧ ∀ f ∈ fs, f.feature.length < featureMaxLen then
          .ok (Traffic.of atof long fs)
        else .error .badAccess := by
  rw [trafficGenerator_generated]
  simp only [generated, List.nil_append]

/-! ## Printed arguments -/

/-- The tokens of an entry, in the order of the usage text. -/
def PublishFields.tokens (f : PublishFields) : List Bytes :=
  [f.feature, f.publishRate, f.baseValue, f.deviation, f.qos, f.length]

/-- Tokens that the argument can carry, and a feature that fits into its array. -/
structure PublishFields.Printable (f : PublishFields) : Prop where
  token : ∀ t ∈ f.tokens, t ≠ [] ∧ 0 ∉ t ∧ ∀ c ∈ t, c ∉ colon
  short : f.feature.length < featureMaxLen

def publishArgument (fs : List PublishFields) : Bytes := colon.intercalate (fs.flatMap PublishFields.tokens)

theorem sixes_tokens (fs : List PublishFields) : sixes (fs.flatMap PublishFields.tokens) = some fs := by
  induction fs with
  | nil => rfl
  | cons f fs ih =>
    rw [List.flatMap_cons]
    simp only [PublishFields.tokens, List.cons_append, List.nil_append, sixes] at ih ⊢
    rw [ih]
    rfl

/-- Separators and tokens have no NUL. -/
theorem zero_not_mem_intercalate {ts : List Bytes} (h : ∀ t ∈ ts, 0 ∉ t) : 0 ∉ colon.intercalate ts := by
  induction ts with
  | nil => simp
  | cons t ts ih =>
    have ht : 0 ∉ t := h t List.mem_cons_self
    have hts : 0 ∉ colon.intercalate ts := ih fun u hu => h u (List.mem_cons_of_mem _ hu)
    cases ts with
    | nil =>
      rw [List.intercalate_singleton]
      exact ht
    | cons u us =>
      rw [List.intercalate_cons_cons, List.mem_append, List.mem_append]
      rintro ((hmem | hmem) | hmem)
      · exact ht hmem
      · exact zero_not_mem_colon hmem
      · exact hts hmem

/-- **A printed argument is read back**: each entry has the values of its tokens. The usage text describes one entry;
several are printed one after the other, with `:` between them, which is how the code reads them. -/
theorem trafficGenerator_publishArgument (atof : Bytes → Float) (long : LongType) (fs : List PublishFields)
    (hfs : ∀ f ∈ fs, f.Printable) (hlen : fs.length ≤ publishFeaturesMax) :
    trafficGenerator atof long (publishArgument fs) = .ok (Traffic.of atof long fs) := by
  have htoken : ∀ t ∈ fs.flatMap PublishFields.tokens, t ≠ [] ∧ 0 ∉ t ∧ ∀ c ∈ t, c ∉ colon := by
    intro t ht
    obtain ⟨f, hf, htf⟩ := List.mem_flatMap.1 ht
    exact (hfs f hf).token t htf
  have hstring : cString (publishArgument fs) = publishArgument fs := by
    have hzero : 0 ∉ publishArgument fs := zero_not_mem_intercalate fun t ht => (htoken t ht).2.1
    exact List.takeWhile_eq_self_iff.2 fun c hc => decide_eq_true (ne_of_mem_of_not_mem hc hzero)
  have htokens : tokensOf (publishArgument fs) = fs.flatMap PublishFields.tokens := by
    refine tokens_intercalate (by decide) _ fun t ht => ⟨(htoken t ht).1, fun c hc => ?_⟩
    exact decide_eq_false ((htoken t ht).2.2 c hc)
  rw [trafficGenerator_generated, hstring, htokens, generated, sixes_tokens]
  exact if_pos ⟨hlen, fun f hf => (hfs f hf).short⟩

/-- `t:5:9:1:2:default:air_pressure:10:30:2:1:8` -/
def usageFields : List PublishFields :=
  [⟨ascii "t", ascii "5", ascii "9", ascii "1", ascii "2", ascii "default"⟩,
    ⟨ascii "air_pressure", ascii "10", ascii "30", ascii "2", ascii "1", ascii "8"⟩]

theorem usageFields_printable : ∀ f ∈ usageFields, f.Printable := by
  have htoken : ∀ f ∈ usageFields, ∀ t ∈ f.tokens, t ≠ [] ∧ 0 ∉ t ∧ ∀ c ∈ t, c ∉ colon := by decide +kernel
  have hshort : ∀ f ∈ usageFields, f.feature.length < featureMaxLen := by decide
  exact fun f hf => ⟨htoken f hf, hshort f hf⟩

/-- Two entries. -/
theorem trafficGenerator_usageFields : trafficGenerator (fun _ => 0) lp64 (publishArgument usageFields) =
    .ok (Traffic.of (fun _ => 0) lp64 usageFields) :=
  trafficGenerator_publishArgument (fun _ => 0) lp64 usageFields usageFields_printable (Nat.le_of_ble_eq_true rfl)

/-! ## What is published -/

/-- The text of a `float` that `%f` prints: the sign, up to 39 digits, the point and six digits more, or a word. -/
structure PrintsFloat (text : Float32 → Bytes) : Prop where
  ne_nil : ∀ v, text v ≠ []
  no_nul : ∀ v, 0 ∉ text v
  no_colon : ∀ v, ∀ c ∈ text v, c ∉ colon
  length_le : ∀ v, (text v).length ≤ 47

/-- The identity of a device. -/
structure IsDeviceId (identity : Bytes) : Prop where
  ne_nil : identity ≠ []
  no_nul : 0 ∉ identity
  no_colon : ∀ c ∈ identity, c ∉ colon
  short : identity.length < 64

/-- An entry whose messages can be handled: its feature is a string in its array, and a forced length is that of a block
and of a message that `handle_data` has room for. -/
structure PublishInfo.Sound (info : PublishInfo) : Prop where
  no_nul : 0 ∉ info.feature
  short : info.feature.length < featureMaxLen
  block : info.packetLength = 0 ∧ info.publishMsg = some (List.replicate 257 0) ∨
    0 < info.packetLength ∧ info.packetLength < 256 ∧ info.publishMsg = mallocInt info.packetLength

variable {text : Float32 → Bytes} {identity : Bytes} {info : PublishInfo}

theorem topic_string (hinfo : info.Sound) :
    writeAt (List.replicate (dataPlaneBufferLen + 1) 0) 0 (dataTopic ++ info.feature ++ [0]) =
      .ok (dataTopic ++ info.feature ++ 0 :: (List.replicate (dataPlaneBufferLen + 1) (0 : UInt8)).drop
        ((dataTopic ++ info.feature).length + 1)) := by
  refine strcpy_ok ?_
  have hshort := hinfo.short
  have hsizes : dataTopic.length + featureMaxLen ≤ dataPlaneBufferLen + 1 := by decide
  rw [List.length_append, List.length_replicate]
  omega

theorem topic_cString (hinfo : info.Sound) (rest : Bytes) :
    cString (dataTopic ++ info.feature ++ 0 :: rest) = dataTopic ++ info.feature := by
  refine cString_append ?_ rest
  rw [List.mem_append, not_or]
  exact ⟨zero_not_mem_dataTopic, hinfo.no_nul⟩

/-- The payload with a value. -/
def valuePayload (identity value : Bytes) : Bytes := identity ++ colon ++ value

theorem valuePayload_length (htext : PrintsFloat text) (hid : IsDeviceId identity) (v : Float32) :
    (valuePayload identity (text v)).length ≤ 111 := by
  have hshort := hid.short
  have hlen := htext.length_le v
  simp only [valuePayload, List.length_append, List.length_singleton]
  omega

theorem zero_not_mem_valuePayload (htext : PrintsFloat text) (hid : IsDeviceId identity) (v : Float32) :
    0 ∉ valuePayload identity (text v) := by
  simp only [valuePayload, List.mem_append, not_or]
  exact ⟨⟨hid.no_nul, zero_not_mem_colon⟩, htext.no_nul v⟩

/-- **A simulated value** is sent with the identity in front. -/
theorem publish_value (htext : PrintsFloat text) (hid : IsDeviceId identity) (hinfo : info.Sound)
    (h0 : info.packetLength = 0) (r : Float32) : publishFeatureValue text identity r info =
      .ok ⟨dataTopic ++ info.feature, valuePayload identity
        (text (randomNumberGenerator info.baseValue info.deviation r)),
        info.qos⟩ := by
  have hblock : info.publishMsg = some (List.replicate 257 0) := by
    rcases hinfo.block with ⟨-, hblock⟩ | ⟨hpos, -⟩
    · exact hblock
    · omega
  have hnul := zero_not_mem_valuePayload htext hid (randomNumberGenerator info.baseValue info.deviation r)
  have hlen := valuePayload_length htext hid (randomNumberGenerator info.baseValue info.deviation r)
  have hwrite := topic_string hinfo
  generalize hvalue : valuePayload identity (text (randomNumberGenerator info.baseValue info.deviation r)) =
    payload at hnul hlen
  have hprint : writeAt (List.replicate 257 0) 0 (payload ++ [0]) =
      .ok (payload ++ 0 :: (List.replicate 257 (0 : UInt8)).drop (payload.length + 1)) :=
    strcpy_ok (by rw [List.length_replicate]; omega)
  have hstrlen : strlen (payload ++ 0 :: (List.replicate 257 (0 : UInt8)).drop (payload.length + 1)) =
      .ok payload.length := by
    rw [strlen, if_pos (List.mem_append_right _ List.mem_cons_self), cString_append hnul]
  have hread := readAt_head payload (0 :: (List.replicate 257 (0 : UInt8)).drop (payload.length + 1)) rfl
  have hvalue' : identity ++ colon ++ text (randomNumberGenerator info.baseValue info.deviation r) = payload := hvalue
  simp only [publishFeatureValue, hwrite, hblock, h0, if_true, hvalue', hprint, hstrlen, hread, bind, Except.bind]
  rw [topic_cString hinfo]

/-- **A packet of a forced length** has that many zeros. -/
theorem publish_forced (text : Float32 → Bytes) (identity : Bytes) (hinfo : info.Sound) (h0 : info.packetLength ≠ 0)
    (r : Float32) :
    publishFeatureValue text identity r info =
      .ok ⟨dataTopic ++ info.feature, List.replicate info.packetLength.toNat 48, info.qos⟩ := by
  obtain ⟨hpos, hblock⟩ : 0 < info.packetLength ∧
    info.publishMsg = some (List.replicate info.packetLength.toNat 0) := by
    rcases hinfo.block with ⟨hzero, -⟩ | ⟨hpos, -, hblock⟩
    · exact absurd hzero h0
    · exact ⟨hpos, by rw [hblock, mallocInt, if_neg (by omega)]⟩
  have hwrite := topic_string hinfo
  have hset : writeAt (List.replicate info.packetLength.toNat 0) 0 (List.replicate info.packetLength.toNat 48) =
      .ok (List.replicate info.packetLength.toNat 48) := by
    unfold writeAt
    rw [if_pos (by simp)]
    simp
  have hread : readAt (List.replicate info.packetLength.toNat (48 : UInt8)) 0 info.packetLength.toNat =
      .ok (List.replicate info.packetLength.toNat 48) := by
    unfold readAt
    rw [if_pos (by simp)]
    simp
  simp only [publishFeatureValue, hwrite, hblock, if_neg h0, hset, hread, bind, Except.bind]
  rw [topic_cString hinfo]

/-- **A value comes back** as the sample of the device. -/
theorem sample_value (hid : IsDeviceId identity) {value : Bytes} (hne : value ≠ []) (hnul : 0 ∉ value)
    (hcolon : ∀ c ∈ value, c ∉ colon) : sample (valuePayload identity value) = some (identity, value) := by
  have hstring : cString (valuePayload identity value) = valuePayload identity value := by
    refine List.takeWhile_eq_self_iff.2 fun c hc => decide_eq_true ?_
    rw [valuePayload, List.mem_append, List.mem_append] at hc
    rcases hc with (hc | hc) | hc
    · exact ne_of_mem_of_not_mem hc hid.no_nul
    · exact ne_of_mem_of_not_mem hc zero_not_mem_colon
    · exact ne_of_mem_of_not_mem hc hnul
  have hfirst : token colon (valuePayload identity value) = some (identity, value) := by
    rw [valuePayload, List.append_assoc, List.singleton_append]
    exact token_append hid.ne_nil hid.no_colon List.mem_cons_self value
  rw [sample, hstring, hfirst, Option.bind_some, token_whole hne hcolon]
  rfl

/-- A packet of zeros is no sample. -/
theorem sample_forced (n : ℕ) : sample (List.replicate n 48) = none := by
  have hstring : cString (List.replicate n (48 : UInt8)) = List.replicate n 48 := by
    refine List.takeWhile_eq_self_iff.2 fun c hc => ?_
    rw [List.eq_of_mem_replicate hc]
    decide
  cases n with
  | zero => rfl
  | succ n =>
    have hfirst : token colon (List.replicate (n + 1) (48 : UInt8)) = some (List.replicate (n + 1) 48, []) := by
      refine token_whole (by simp) fun c hc => ?_
      rw [List.eq_of_mem_replicate hc]
      decide
    rw [sample, hstring, hfirst]
    rfl

end AtlasClient
