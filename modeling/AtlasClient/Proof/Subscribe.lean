import AtlasClient.Spec.Application

/-!
# The subscriptions of the data plane

`subscribe_topics` looks for `:` in its first call of `strtok` and for `,` in the later ones.

* `subscribeTopic_ok`, `subscribeTopic_long`: one topic.
* `subscribeTopics_two`, `subscribeTopics_overrun`: what becomes of the names behind the first one.
* `subscribesAll_iff`: **every name is subscribed** exactly when there are at most two.
-/

namespace AtlasClient

open Loop

/-- A name of the `--subscribe` argument: neither separator is in it, and the topic buffer has room for the topic
and its NUL. -/
structure FeatureName where
  name : Bytes
  ne_nil : name ≠ []
  no_nul : 0 ∉ name
  no_colon : ∀ c ∈ name, c ∉ colon
  no_comma : ∀ c ∈ name, c ∉ comma
  fits : dataTopic.length + name.length < dataPlaneBufferLen

/-- The argument, as the usage text describes it. -/
def subscribeArgument (names : List FeatureName) : Bytes := colon.intercalate (names.map FeatureName.name)

variable {names : List FeatureName} {name next : FeatureName} {p : Bytes} {qos : ℤ}

/-- The topic buffer when the prefix has been copied. -/
theorem strcpy_dataTopic : strcpy zeroBuffer dataTopic = .ok (dataTopic ++ 0 :: zeroBuffer.drop 12) :=
  strcpy_ok (by rw [zeroBuffer_length]; decide)

theorem zero_not_mem_dataTopic : 0 ∉ dataTopic := by decide

theorem buffer_length : (dataTopic ++ 0 :: zeroBuffer.drop 12).length = 256 := by
  rw [(strcpy_block strcpy_dataTopic).1, zeroBuffer_length]

/-- **One topic.** -/
theorem subscribeTopic_ok (hp : 0 ∉ p) (hlen : dataTopic.length + p.length < dataPlaneBufferLen) (qos : ℤ) :
    subscribeTopic p qos = .ok ⟨dataTopic ++ p, qos⟩ := by
  have hcat := strcat_ok (t := p) zero_not_mem_dataTopic rfl (by rw [buffer_length]; exact hlen)
  have hstring : 0 ∉ dataTopic ++ p := by
    rw [List.mem_append, not_or]
    exact ⟨zero_not_mem_dataTopic, hp⟩
  unfold subscribeTopic
  rw [strcpy_dataTopic]
  refine (bind_of_ok hcat _).trans ?_
  rw [cString_append hstring]

/-- A topic that is too long for its buffer. -/
theorem subscribeTopic_long (hlen : dataPlaneBufferLen ≤ dataTopic.length + p.length) (qos : ℤ) :
    subscribeTopic p qos = .error .badAccess := by
  have hcat := strcat_error (t := p) zero_not_mem_dataTopic rfl (by rw [buffer_length]; exact hlen)
  unfold subscribeTopic
  rw [strcpy_dataTopic]
  exact bind_of_error hcat _

/-- The rest of the argument. -/
theorem subscribeArgument_cons : subscribeArgument (name :: next :: names) =
    name.name ++ 58 :: subscribeArgument (next :: names) := by
  simp [subscribeArgument, List.intercalate_cons_cons]

theorem subscribeArgument_ne_nil : subscribeArgument (name :: names) ≠ [] := by
  cases names with
  | nil => simpa [subscribeArgument] using name.ne_nil
  | cons next names => rw [subscribeArgument_cons]; simp

/-- The argument is a string without `,`. -/
theorem subscribeArgument_chars : ∀ (names : List FeatureName), ∀ c ∈ subscribeArgument names, c ≠ 0 ∧ c ∉ comma := by
  intro names
  induction names with
  | nil => intro c hc; cases hc
  | cons name names ih =>
    have hname : ∀ c ∈ name.name, c ≠ 0 ∧ c ∉ comma := fun c hc =>
      ⟨ne_of_mem_of_not_mem hc name.no_nul, name.no_comma c hc⟩
    cases names with
    | nil =>
      have hone : subscribeArgument [name] = name.name := List.intercalate_singleton
      rw [hone]
      exact hname
    | cons next names =>
      rw [subscribeArgument_cons]
      intro c hc
      rcases List.mem_append.1 hc with hc | hc
      · exact hname c hc
      · rcases List.mem_cons.1 hc with rfl | hc
        · exact ⟨by decide, by decide⟩
        · exact ih c hc

theorem subscribeArgument_string (names : List FeatureName) : 0 ∉ subscribeArgument names :=
  fun h => (subscribeArgument_chars names 0 h).1 rfl

/-- A round in which the topic fits. -/
theorem subscribeBody_ok {rest : Bytes} {token : Option (Bytes × Bytes)} {subscription : Subscription}
    (subscribed : List Subscription) (hsub : subscribeTopic p qos = .ok subscription)
    (hnext : strtok comma rest = .ok token) :
    subscribeBody qos (some (p, rest), subscribed) = .ok (.inl (token, subscribed ++ [subscription])) := by
  simp only [subscribeBody, hsub, hnext, bind, Except.bind]

/-- The string is at its end. -/
theorem strtok_end {delim : Bytes} (hd : 0 ∉ delim) : strtok delim [0] = .ok none :=
  strtok_string (s := []) hd List.not_mem_nil []

/-- **One name** is subscribed. -/
theorem subscribeTopics_one (name : FeatureName) (qos : ℤ) :
    subscribeTopics (subscribeArgument [name]) qos = .ok [⟨dataTopic ++ name.name, qos⟩] := by
  have hone : subscribeArgument [name] = name.name := List.intercalate_singleton
  have hfirst := strtok_string zero_not_mem_colon name.no_nul []
  rw [token_whole name.ne_nil name.no_colon] at hfirst
  have hround := subscribeBody_ok [] (subscribeTopic_ok name.no_nul name.fits qos)
    (strtok_end zero_not_mem_comma)
  rw [hone, subscribeTopics]
  refine (bind_of_ok hfirst _).trans ?_
  exact (loop_next hround).trans (loop_done rfl)

/-- **The names behind the first one** are one topic. -/
theorem subscribeTopics_two (name next : FeatureName) (names : List FeatureName) (qos : ℤ) :
    subscribeTopics (subscribeArgument (name :: next :: names)) qos =
      (subscribeTopic (subscribeArgument (next :: names)) qos).bind fun subscription =>
        .ok [⟨dataTopic ++ name.name, qos⟩, subscription] := by
  have hrest := subscribeArgument_string (next :: names)
  have hfirst := strtok_string zero_not_mem_colon (subscribeArgument_string (name :: next :: names)) []
  rw [subscribeArgument_cons, token_append name.ne_nil name.no_colon List.mem_cons_self] at hfirst
  have hsecond := strtok_string zero_not_mem_comma hrest []
  rw [token_whole subscribeArgument_ne_nil fun c hc => (subscribeArgument_chars _ c hc).2] at hsecond
  have hround := subscribeBody_ok [] (subscribeTopic_ok name.no_nul name.fits qos) hsecond
  rw [subscribeArgument_cons, subscribeTopics]
  refine (bind_of_ok hfirst _).trans ((loop_next hround).trans ?_)
  cases hsub : subscribeTopic (subscribeArgument (next :: names)) qos with
  | error f =>
    refine loop_fail (f := f) ?_
    show subscribeBody qos (some (subscribeArgument (next :: names), _), _) = _
    simp only [subscribeBody, hsub, bind, Except.bind]
  | ok subscription =>
    have hround' := subscribeBody_ok [⟨dataTopic ++ name.name, qos⟩] hsub
      (strtok_end zero_not_mem_comma)
    obtain ⟨n, hn⟩ : ∃ n, (name.name ++ 58 :: subscribeArgument (next :: names)).length + 1 = n + 2 :=
      ⟨name.name.length + (subscribeArgument (next :: names)).length,
        by rw [List.length_append, List.length_cons]; omega⟩
    rw [hn]
    exact (loop_next hround').trans (loop_done rfl)

/-- Where they are too long together, the topic buffer is overrun, however short each of them is. -/
theorem subscribeTopics_overrun (hlen : dataPlaneBufferLen ≤
    dataTopic.length + (subscribeArgument (next :: names)).length)
    (qos : ℤ) : subscribeTopics (subscribeArgument (name :: next :: names)) qos = .error .badAccess := by
  rw [subscribeTopics_two, subscribeTopic_long hlen]
  rfl

/-- The property for a list of names. -/
def SubscribesAll (names : List FeatureName) (qos : ℤ) : Prop :=
  subscribeTopics (subscribeArgument names) qos = .ok (names.map fun name => ⟨dataTopic ++ name.name, qos⟩)

/-- More than two names never make as many topics. -/
theorem not_subscribesAll (name next third : FeatureName) (names : List FeatureName) (qos : ℤ) :
    ¬ SubscribesAll (name :: next :: third :: names) qos := by
  unfold SubscribesAll
  rw [subscribeTopics_two]
  intro h
  obtain ⟨subscription, -, htopics⟩ := bind_ok.1 h
  have hlen := congrArg List.length (Except.ok.inj htopics)
  simp at hlen

/-- **Every name is subscribed, and exactly when.** For every list of names and every QoS: the topics subscribed are
those of the names, each once and in order, if and only if there are at most two names. The second call of
`strtok` is given `,` where the argument has `:`. -/
theorem subscribesAll_iff (names : List FeatureName) (qos : ℤ) : SubscribesAll names qos ↔ names.length ≤ 2 := by
  rcases names with _ | ⟨name, _ | ⟨next, _ | ⟨third, names⟩⟩⟩
  · exact iff_of_true rfl (Nat.zero_le 2)
  · exact iff_of_true (subscribeTopics_one name qos) (Nat.le_succ 1)
  · refine iff_of_true ?_ (Nat.le_refl 2)
    have hone : subscribeArgument [next] = next.name := List.intercalate_singleton
    unfold SubscribesAll
    rw [subscribeTopics_two, hone, subscribeTopic_ok next.no_nul next.fits]
    rfl
  · exact iff_of_false (not_subscribesAll name next third names qos) (by simp)

/-- A name of one letter. -/
def letterName (c : UInt8) (h : c ≠ 0 ∧ c ≠ 58 ∧ c ≠ 44) : FeatureName where
  name := [c]
  ne_nil := List.cons_ne_nil c []
  no_nul := fun hmem => h.1 (List.mem_singleton.1 hmem).symm
  no_colon := fun _ hd hmem => h.2.1 ((List.mem_singleton.1 hd).symm.trans (List.mem_singleton.1 hmem))
  no_comma := fun _ hd hmem => h.2.2 ((List.mem_singleton.1 hd).symm.trans (List.mem_singleton.1 hmem))
  fits := Nat.lt_of_lt_of_le (Nat.lt_succ_self 12) (Nat.le_add_left 13 243)

/-- `a`, `b` and `c` -/
def threeNames : List FeatureName :=
  [letterName 97 (by decide), letterName 98 (by decide), letterName 99 (by decide)]

/-- **The third name is not subscribed**: the topics are `atlas/data/a` and `atlas/data/b:c`. -/
theorem three_names : ¬ (∀ names qos, SubscribesAll names qos) ∧
    subscribeTopics (subscribeArgument threeNames) 1 =
      .ok [⟨dataTopic ++ [97], 1⟩, ⟨dataTopic ++ [98, 58, 99], 1⟩] := by
  refine ⟨fun h => not_subscribesAll _ _ _ [] 1 (h threeNames 1), ?_⟩
  have hcall := subscribeTopics_two threeNames[0] threeNames[1] [threeNames[2]] 1
  rw [subscribeTopic_ok (by decide) (by decide)] at hcall
  exact hcall

end AtlasClient
