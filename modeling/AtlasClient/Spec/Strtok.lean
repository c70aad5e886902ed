import AtlasClient.Spec.Bytes
import Mathlib.Data.List.TakeWhile

/-!
# Strings and tokens

`strcpy`, `strcat` and `strtok` of the C library.

* `token`: the first token of a string, and what is behind it.
* `strtok_string`: `strtok` on a block with a string in it.
-/

namespace AtlasClient

/-! ## Copies -/

/-- The string `s` and its NUL at the start of the block `dst`. -/
def strcpy (dst s : Bytes) : Except Fault Bytes := writeAt dst 0 (s ++ [0])

/-- The string `s` behind the string in `dst`. -/
def strcat (dst s : Bytes) : Except Fault Bytes := writeAt dst (cString dst).length (s ++ [0])

theorem strcpy_ok {dst s : Bytes} (h : s.length < dst.length) :
    strcpy dst s = .ok (s ++ 0 :: dst.drop (s.length + 1)) := by
  unfold strcpy writeAt
  rw [if_pos (by simp; omega)]
  simp

theorem strcpy_error {dst s : Bytes} (h : dst.length ≤ s.length) : strcpy dst s = .error .badAccess := by
  unfold strcpy writeAt
  rw [if_neg (by simp; omega)]

/-- A copy is as long as the block, and ends with a NUL. -/
theorem strcpy_block {dst s block : Bytes} (h : strcpy dst s = .ok block) : block.length = dst.length ∧ 0 ∈ block := by
  rcases Nat.lt_or_ge s.length dst.length with hlt | hge
  · rw [strcpy_ok hlt] at h
    cases h
    simp
    omega
  · rw [strcpy_error hge] at h
    cases h

theorem cString_append {s : Bytes} (h : 0 ∉ s) (rest : Bytes) : cString (s ++ 0 :: rest) = s := by
  unfold cString
  rw [List.takeWhile_append_of_pos fun c hc => by simpa using ne_of_mem_of_not_mem hc h]
  simp

/-- What is copied is the string in the block. -/
theorem cString_strcpy {dst s block : Bytes} (hs : 0 ∉ s) (h : strcpy dst s = .ok block) : cString block = s := by
  rcases Nat.lt_or_ge s.length dst.length with hlt | hge
  · rw [strcpy_ok hlt] at h
    cases h
    exact cString_append hs _
  · rw [strcpy_error hge] at h
    cases h

theorem zero_not_mem_cString (s : Bytes) : 0 ∉ cString s := fun h => by
  simpa using List.mem_takeWhile_imp h

/-- A block with a NUL is a string and what is behind it. -/
theorem exists_string {block : Bytes} (h : 0 ∈ block) : ∃ rest, block = cString block ++ 0 :: rest := by
  induction block with
  | nil => cases h
  | cons c block ih =>
    by_cases hc : c = 0
    · exact ⟨block, by simp [cString, hc]⟩
    · obtain ⟨rest, hrest⟩ := ih (List.mem_of_ne_of_mem (Ne.symm hc) h)
      refine ⟨rest, ?_⟩
      have hcons : cString (c :: block) = c :: cString block := by simp [cString, hc]
      rw [hcons, List.cons_append, ← hrest]

theorem strcat_ok {dst s t : Bytes} {rest : Bytes} (hs : 0 ∉ s) (hdst : dst = s ++ 0 :: rest)
    (h : s.length + t.length < dst.length) :
    strcat dst t = .ok (s ++ t ++ 0 :: dst.drop (s.length + t.length + 1)) := by
  have hlen : (cString dst).length = s.length := by rw [hdst, cString_append hs]
  unfold strcat writeAt
  rw [hlen, if_pos (by simp; omega)]
  simp [hdst, Nat.add_assoc]

theorem strcat_error {dst s t : Bytes} {rest : Bytes} (hs : 0 ∉ s) (hdst : dst = s ++ 0 :: rest)
    (h : dst.length ≤ s.length + t.length) : strcat dst t = .error .badAccess := by
  have hlen : (cString dst).length = s.length := by rw [hdst, cString_append hs]
  unfold strcat writeAt
  rw [hlen, if_neg (by simp; omega)]

/-! ## Tokens -/

/-- A call of `strtok`, from the start of the block or from where the call before has stopped: the token, and
where the next call starts. The delimiter behind a token becomes a NUL, so that the token is a string; there is
no token before the NUL. -/
def strtok (delim s : Bytes) : Except Fault (Option (Bytes × Bytes)) :=
  match s.dropWhile (· ∈ delim) with
  | [] => .error .badAccess
  | c :: s =>
    if c = 0 then .ok none
    else
      match (c :: s).dropWhile fun c => c ≠ 0 ∧ c ∉ delim with
      | [] => .error .badAccess
      | d :: rest => .ok (some ((c :: s).takeWhile fun c => c ≠ 0 ∧ c ∉ delim, if d = 0 then 0 :: rest else rest))

/-- The first token of a string, and what is behind the delimiter that ends it. -/
def token (delim s : Bytes) : Option (Bytes × Bytes) :=
  let s := s.dropWhile (· ∈ delim)
  if s = [] then none else some (s.takeWhile (· ∉ delim), (s.dropWhile (· ∉ delim)).tail)

theorem dropWhile_string {p : UInt8 → Bool} (hp : p 0 = false) (s rest : Bytes) :
    (s ++ 0 :: rest).dropWhile p = s.dropWhile p ++ 0 :: rest := by
  rw [List.dropWhile_append, List.dropWhile_cons_of_neg (by simp [hp])]
  split
  · next h => rw [List.isEmpty_iff.1 h, List.nil_append]
  · rfl

theorem takeWhile_string {p : UInt8 → Bool} (hp : p 0 = false) (s rest : Bytes) :
    (s ++ 0 :: rest).takeWhile p = s.takeWhile p := by
  rw [List.takeWhile_append, List.takeWhile_cons_of_neg (by simp [hp]), List.append_nil]
  split
  · next h => exact (List.takeWhile_prefix p).eq_of_length h |>.symm
  · rfl

theorem token_eq {delim s t : Bytes} {c : UInt8} (h : s.dropWhile (· ∈ delim) = c :: t) :
    token delim s = some ((c :: t).takeWhile (· ∉ delim), ((c :: t).dropWhile (· ∉ delim)).tail) := by
  simp only [token, h]
  rfl

/-- A token and what is behind it are parts of the string. -/
theorem token_sublist {delim s p next : Bytes} (h : token delim s = some (p, next)) : p.Sublist s ∧ next.Sublist s := by
  simp only [token] at h
  split at h
  · cases h
  · cases h
    have hskip : (s.dropWhile (· ∈ delim)).Sublist s := List.dropWhile_sublist _
    exact ⟨(List.takeWhile_sublist _).trans hskip, ((List.tail_sublist _).trans (List.dropWhile_sublist _)).trans hskip⟩

/-- A token is not skipped. -/
theorem dropWhile_token {delim s : Bytes} (hs : s ≠ []) (hsep : ∀ c ∈ s, c ∉ delim) (t : Bytes) :
    (s ++ t).dropWhile (· ∈ delim) = s ++ t := by
  cases s with
  | nil => exact absurd rfl hs
  | cons c s => exact List.dropWhile_cons_of_neg (by simpa using hsep c List.mem_cons_self)

/-- A token and the delimiter behind it. -/
theorem token_append {delim s : Bytes} (hs : s ≠ []) (hsep : ∀ c ∈ s, c ∉ delim) {d : UInt8} (hd : d ∈ delim)
    (t : Bytes) :
    token delim (s ++ d :: t) = some (s, t) := by
  simp only [token, dropWhile_token hs hsep]
  rw [if_neg (by simp), List.takeWhile_append_of_pos (by simpa using hsep),
    List.dropWhile_append_of_pos (by simpa using hsep)]
  simp [hd]

/-- A string without a delimiter is one token. -/
theorem token_whole {delim s : Bytes} (hs : s ≠ []) (hsep : ∀ c ∈ s, c ∉ delim) : token delim s = some (s, []) := by
  have hskip := dropWhile_token hs hsep []
  rw [List.append_nil] at hskip
  have htake : s.takeWhile (· ∉ delim) = s := List.takeWhile_eq_self_iff.2 (by simpa using hsep)
  have hdrop : s.dropWhile (· ∉ delim) = [] := List.dropWhile_eq_nil_iff.2 (by simpa using hsep)
  simp only [token, hskip, if_neg hs, htake, hdrop, List.tail_nil]

/-- In a string the NUL that ends a token is the NUL behind the string. -/
theorem token_stop {s : Bytes} (delim : Bytes) (hs : 0 ∉ s) :
    s.takeWhile (fun c => c ≠ 0 ∧ c ∉ delim) = s.takeWhile (· ∉ delim) ∧
      s.dropWhile (fun c => c ≠ 0 ∧ c ∉ delim) = s.dropWhile (· ∉ delim) := by
  induction s with
  | nil => exact ⟨rfl, rfl⟩
  | cons c s ih =>
    obtain ⟨htake, hdrop⟩ := ih fun h => hs (List.mem_cons_of_mem _ h)
    have hc : c ≠ 0 := fun h => hs (h ▸ List.mem_cons_self)
    by_cases hd : c ∈ delim
    · simp [hd]
    · simp [hd, hc] at htake hdrop ⊢
      exact ⟨htake, hdrop⟩

/-- **`strtok` finds the tokens** of the string in a block. -/
theorem strtok_string {delim s : Bytes} (hd : 0 ∉ delim) (hs : 0 ∉ s) (rest : Bytes) :
    strtok delim (s ++ 0 :: rest) = .ok ((token delim s).map fun t => (t.1, t.2 ++ 0 :: rest)) := by
  unfold strtok
  rw [dropWhile_string (by simpa using hd)]
  cases hskip : s.dropWhile (· ∈ delim) with
  | nil => simp [token, hskip]
  | cons c t =>
    have hmem : ∀ x ∈ c :: t, x ∈ s := fun x hx => (List.dropWhile_sublist _).subset (hskip ▸ hx)
    have ht : 0 ∉ c :: t := fun h => hs (hmem 0 h)
    have hc : c ≠ 0 := ne_of_mem_of_not_mem List.mem_cons_self ht
    obtain ⟨htake, hdrop⟩ := token_stop delim ht
    rw [token_eq hskip, ← htake, ← hdrop, List.cons_append]
    simp only [if_neg hc]
    rw [← List.cons_append, dropWhile_string (by simp), takeWhile_string (by simp)]
    cases hstop : (c :: t).dropWhile fun c => c ≠ 0 ∧ c ∉ delim with
    | nil => rfl
    | cons d u =>
      have hmem : d ∈ c :: t := (List.dropWhile_sublist _).subset (hstop ▸ List.mem_cons_self)
      have hd : d ≠ 0 := ne_of_mem_of_not_mem hmem ht
      simp only [List.cons_append, if_neg hd]
      rfl

end AtlasClient
