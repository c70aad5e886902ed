import AtlasClient.Proof.Append

/-!
# The cursor

`atlas_cmd_batch_get` converts each header that it returns, in the buffer of the batch. A second
walk converts the headers back, and reads the next offset from a length in the wrong byte order.

* `get_converts`: what one call does to a batch that has not been changed.
* `readOnly_iff`: **the cursor is read-only** exactly as long as the headers it converts look the
  same in both byte orders, and the batch is not empty.
-/

namespace AtlasClient

open Framing Loop Machine

variable {e : Endian} {b b' : AtlasCmdBatch} {cmds : List Cmd} {c d : Cmd}

/-! ## Batches that are built -/

/-- What `atlas_cmd_batch_new`, `atlas_cmd_batch_add` and `atlas_cmd_batch_set_raw` build. -/
inductive Built (e : Endian) : AtlasCmdBatch → Prop
  | new : Built e atlasCmdBatchNew
  | add {b b' : AtlasCmdBatch} (c : Cmd) (h : Built e b)
    (hadd : atlasCmdBatchAdd e b c.type c.length c.value = .ok b') : Built e b'
  | setRaw {b b' : AtlasCmdBatch} {buf : Bytes} {len : UInt16} {status : AtlasStatus} (h : Built e b)
    (hraw : atlasCmdBatchSetRaw e b buf len = .ok (status, b')) : Built e b'

/-- **A batch that is built holds commands.** -/
theorem Built.holds (h : Built e b) : ∃ cmds, Holds b cmds := by
  induction h with
  | new => exact ⟨[], holds_new⟩
  | @add b b' c _ hadd ih =>
    obtain ⟨cmds, hc⟩ := ih
    by_cases hfit : (encode (cmds ++ [c])).length < 65536
    · obtain ⟨b₁, hadd₁, hholds⟩ := add_ok (e := e) hc c hfit
      rw [hadd] at hadd₁
      cases hadd₁
      exact ⟨_, hholds⟩
    · -- the length wraps, and no batch is left
      rw [encode_append, List.length_append, ← hc.buf, ← hc.len, encode_cons, encode_nil, List.append_nil,
        c.bytes_length, c.size_eq, c.value_length] at hfit
      rw [add_wraps b c (by omega)] at hadd
      cases hadd
  | @setRaw b b' buf len status _ hraw ih =>
    rcases setRaw_cases hraw with ⟨-, rfl⟩ | ⟨rfl, hle, -⟩
    · exact ih
    · rw [← List.take_append_drop len.toNat buf] at hraw
      obtain ⟨cmds, -, -, hholds⟩ := setRaw_holds (by rw [List.length_take]; omega) hraw
      exact ⟨cmds, hholds⟩

/-! ## The machine -/

/-- The batch and the calls of `atlas_cmd_batch_get` so far, each with its answer. -/
structure Walk where
  batch : Except Fault AtlasCmdBatch
  calls : List (Option ℕ × Option ℕ)

def Walk.start (b : AtlasCmdBatch) : Walk := ⟨.ok b, []⟩

def Walk.step (e : Endian) (s : Walk) (currentCmd : Option ℕ) : Walk :=
  match s.batch.bind fun b => atlasCmdBatchGet e b currentCmd with
  | .ok (b, next) => ⟨.ok b, s.calls ++ [(currentCmd, next)]⟩
  | .error f => ⟨.error f, s.calls⟩

/-- A command is asked for with `NULL`, or with a command that an earlier call has returned. -/
def Walk.Legal (s : Walk) : Option ℕ → Prop
  | none => True
  | some off => ∃ x ∈ s.calls, x.2 = some off

instance Walk.decidableLegal (s : Walk) (currentCmd : Option ℕ) : Decidable (s.Legal currentCmd) := by
  cases currentCmd <;> unfold Walk.Legal <;> infer_instance

/-! ## The property -/

/-- The walk has not changed the batch `b`: neither its bytes nor what a fresh iteration yields; the
same argument has had the same answer, and an empty batch has yielded `NULL`. -/
structure ReadOnly (e : Endian) (b : AtlasCmdBatch) (s : Walk) : Prop where
  bytes : ∃ b', s.batch = .ok b' ∧ atlasCmdBatchGetBuf b' = atlasCmdBatchGetBuf b
  fresh : ∀ b', s.batch = .ok b' → yieldCmds e b' = yieldCmds e b
  successor : ∀ x ∈ s.calls, ∀ y ∈ s.calls, x.1 = y.1 → x.2 = y.2
  empty : b.buf_ = [] → ∀ x ∈ s.calls, x.1 = none → x.2 = none

def ReadOnlyAt (e : Endian) (b : AtlasCmdBatch) (s : Walk) (currentCmd : Option ℕ) : Prop :=
  ReadOnly e b (s.step e currentCmd)

/-- The command that a call asks for: the first one, or the one behind the argument. -/
inductive Asks : List Cmd → Option ℕ → Cmd → Prop
  | first (c : Cmd) (post : List Cmd) : Asks (c :: post) none c
  | next (pre : List Cmd) (d c : Cmd) (post : List Cmd) :
    Asks (pre ++ d :: c :: post) (some (encode pre).length) c

/-- The two bytes of the type are equal, and so are those of the length. -/
def Cmd.Symmetric (c : Cmd) : Prop := hi c.type = lo c.type ∧ hi c.length = lo c.length

/-- There are commands, and the header of the one that is asked for needs no conversion. -/
def NeedsNone (e : Endian) (cmds : List Cmd) (_ : Walk) (currentCmd : Option ℕ) : Prop :=
  cmds ≠ [] ∧ (e = .big ∨ ∀ c, Asks cmds currentCmd c → c.Symmetric)

/-! ## One call -/

theorem hostBytes_eq_netBytes {v : UInt16} : hostBytes e v = netBytes v ↔ e = .big ∨ hi v = lo v := by
  cases e
  · simp only [hostBytes, netBytes, List.cons.injEq, and_true, reduceCtorEq, false_or]
    exact ⟨fun h => h.2, fun h => ⟨h.symm, h⟩⟩
  · simp [hostBytes, netBytes]

/-- **When a header needs no conversion.** -/
theorem Cmd.hostForm_eq_bytes (c : Cmd) : c.hostForm e = c.bytes ↔ e = .big ∨ c.Symmetric := by
  rw [c.bytes_eq, Cmd.hostForm]
  constructor
  · intro h
    obtain ⟨ht, h⟩ := List.append_inj h (by simp)
    obtain ⟨hl, -⟩ := List.append_inj h (by simp)
    rcases hostBytes_eq_netBytes.1 ht with h1 | h1
    · exact Or.inl h1
    · exact (hostBytes_eq_netBytes.1 hl).imp_right fun h2 => ⟨h1, h2⟩
  · intro h
    rw [hostBytes_eq_netBytes.2 (h.imp_right And.left), hostBytes_eq_netBytes.2 (h.imp_right And.right)]

/-- A command is known by its offset. -/
theorem prefix_eq_of_length {pre pre' : List Cmd} {l : List Cmd} (h : pre <+: l) (h' : pre' <+: l)
    (hlen : (encode pre).length = (encode pre').length) : pre = pre' := by
  have key : ∀ {p q : List Cmd}, p <+: q → (encode p).length = (encode q).length → p = q := by
    rintro p q ⟨t, rfl⟩ heq
    rw [encode_append, List.length_append] at heq
    have ht : encode t = [] := List.length_eq_zero_iff.1 (by omega)
    rw [encode_eq_nil.1 ht, List.append_nil]
  rcases List.prefix_or_prefix_of_prefix h h' with hp | hp
  · exact key hp hlen
  · exact (key hp hlen.symm).symm

theorem asks_none {post : List Cmd} (h : Asks (c :: post) none d) : d = c := by
  generalize hl : c :: post = l at h
  generalize hcur : none = cur at h
  cases h with
  | first c' post' => exact (List.cons.inj hl).1.symm
  | next pre d' c' post' => cases hcur

/-- Behind a command only the next one is asked for. -/
theorem asks_some {pre post : List Cmd} (hc : cmds = pre ++ d :: post) (h : Asks cmds (some (encode pre).length) c) :
    ∃ post', post = c :: post' := by
  generalize hcur : some (encode pre).length = cur at h
  cases h with
  | first c post => cases hcur
  | next pre' d' c post' =>
    have hpre : pre' = pre := prefix_eq_of_length (l := pre' ++ d' :: c :: post') (List.prefix_append _ _)
      (hc ▸ List.prefix_append _ _) (Option.some.inj hcur).symm
    subst hpre
    have := List.append_cancel_left hc
    simp only [List.cons.injEq] at this
    exact ⟨post', this.2.symm⟩

/-- A cursor that stands on a command whose header has not changed, or before the first one. -/
inductive Stands (e : Endian) (cmds : List Cmd) : Option ℕ → Prop
  | start : Stands e cmds none
  | on (pre : List Cmd) (d : Cmd) (post : List Cmd) (h : cmds = pre ++ d :: post) (hd : d.hostForm e = d.bytes) :
    Stands e cmds (some (encode pre).length)

/-- **One call on a batch that has not been changed**: the command it asks for is converted, or there
is none and the batch stays as it is. -/
theorem get_converts (hb : Holds b cmds) (hne : cmds ≠ []) {cur : Option ℕ} (hcur : Stands e cmds cur) :
    (∃ pre c post, cmds = pre ++ c :: post ∧ Asks cmds cur c ∧ (∀ c', Asks cmds cur c' → c' = c) ∧
      atlasCmdBatchGet e b cur =
        .ok (⟨b.length_, encode pre ++ (c.hostForm e ++ encode post)⟩, some (encode pre).length)) ∨
    ((∀ c, ¬ Asks cmds cur c) ∧ atlasCmdBatchGet e b cur = .ok (b, none)) := by
  obtain ⟨len, buf⟩ := b
  have hbuf := hb.buf
  have hlen := hb.len
  simp only at hbuf hlen
  subst hbuf
  cases hcur with
  | start =>
    left
    rcases cmds with _ | ⟨c, post⟩
    · exact absurd rfl hne
    · refine ⟨[], c, post, rfl, .first c post, fun c' hc' => asks_none hc', ?_⟩
      rw [encode_cons, get_first]
      rfl
  | on pre d post hc hd =>
    subst hc
    have henc : encode (pre ++ d :: post) = encode pre ++ (d.hostForm e ++ encode post) := by
      rw [encode_append, encode_cons, hd]
    rcases post with _ | ⟨c, post⟩
    · right
      refine ⟨?_, ?_⟩
      · intro c hc
        obtain ⟨post', hpost⟩ := asks_some rfl hc
        cases hpost
      · rw [encode_append, encode_cons, encode_nil, List.append_nil] at hlen
        rw [henc, encode_nil]
        exact get_last e (encode pre) d len hlen
    · left
      have hsplit : pre ++ d :: c :: post = (pre ++ [d]) ++ c :: post := by simp
      refine ⟨pre ++ [d], c, post, hsplit, .next pre d c post, ?_, ?_⟩
      · intro c' hc'
        obtain ⟨post', hpost⟩ := asks_some rfl hc'
        cases hpost
        rfl
      · rw [encode_append, encode_cons, encode_cons] at hlen
        have hpre : encode (pre ++ [d]) = encode pre ++ d.hostForm e := by
          rw [encode_append, encode_cons, encode_nil, List.append_nil, hd]
        rw [henc, encode_cons, hpre]
        exact get_next e (encode pre) d c (encode post) len hlen

/-- A batch without commands has no header to convert. -/
theorem get_empty (hb : Holds b []) : atlasCmdBatchGet e b none = .error .badAccess := by
  have hbuf : b.buf_ = [] := hb.buf
  simp only [atlasCmdBatchGet, ntohHeader, hbuf, bind]
  rfl

/-! ## The walk -/

/-- The batch is unchanged, and every call so far would have the same answer again. -/
structure WalkInv (e : Endian) (b : AtlasCmdBatch) (cmds : List Cmd) (s : Walk) : Prop where
  batch : s.batch = .ok b
  same : ∀ x ∈ s.calls, atlasCmdBatchGet e b x.1 = .ok (b, x.2)
  stands : ∀ x ∈ s.calls, Stands e cmds x.2

theorem WalkInv.legal {s : Walk} (h : WalkInv e b cmds s) {cur : Option ℕ} (hl : s.Legal cur) : Stands e cmds cur := by
  cases cur with
  | none => exact .start
  | some off =>
    obtain ⟨x, hx, hoff⟩ := hl
    exact hoff ▸ h.stands x hx

theorem step_ok {s : Walk} {cur next : Option ℕ} (hs : s.batch = .ok b)
    (hget : atlasCmdBatchGet e b cur = .ok (b', next)) : s.step e cur = ⟨.ok b', s.calls ++ [(cur, next)]⟩ := by
  rw [Walk.step, hs, bind_of_ok rfl, hget]

/-- What the answers of an unchanged batch have in common. -/
theorem WalkInv.readOnly {s : Walk} (h : WalkInv e b cmds s) (hne : b.buf_ ≠ []) : ReadOnly e b s := by
  refine ⟨⟨b, h.batch, rfl⟩, ?_, ?_, fun h0 => absurd h0 hne⟩
  · intro b' hb'
    rw [h.batch] at hb'
    cases hb'
    rfl
  · intro x hx y hy hxy
    have hget := h.same x hx
    rw [hxy, h.same y hy] at hget
    exact (Prod.mk.inj (Except.ok.inj hget)).2.symm

/-- **A call that converts nothing** keeps the invariant. -/
theorem WalkInv.step {s : Walk} {cur : Option ℕ} (h : WalkInv e b cmds s) (hb : Holds b cmds) (hl : s.Legal cur)
    (hc : NeedsNone e cmds s cur) : WalkInv e b cmds (s.step e cur) := by
  obtain ⟨hne, hsym⟩ := hc
  have happ : ∀ next, atlasCmdBatchGet e b cur = .ok (b, next) → Stands e cmds next →
      WalkInv e b cmds (s.step e cur) := by
    intro next hget hnext
    rw [step_ok h.batch hget]
    refine ⟨rfl, List.forall_mem_append.2 ⟨h.same, ?_⟩, List.forall_mem_append.2 ⟨h.stands, ?_⟩⟩
    · simpa using hget
    · simpa using hnext
  rcases get_converts hb hne (h.legal hl) with ⟨pre, c, post, hcmds, hask, -, hget⟩ | ⟨-, hget⟩
  · have hform : c.hostForm e = c.bytes := c.hostForm_eq_bytes.2 (hsym.imp_right fun hs => hs c hask)
    have hsame : (⟨b.length_, encode pre ++ (c.hostForm e ++ encode post)⟩ : AtlasCmdBatch) = b := by
      have hbuf : encode pre ++ (c.hostForm e ++ encode post) = b.buf_ := by
        rw [hb.buf, hcmds, encode_append, encode_cons, hform]
      rw [hbuf]
    rw [hsame] at hget
    exact happ _ hget (.on pre c post hcmds hform)
  · exact happ _ hget .start

/-- A call that leaves the batch as it is converts nothing. -/
theorem WalkInv.needsNone {s : Walk} {cur : Option ℕ} (h : WalkInv e b cmds s) (hb : Holds b cmds) (hl : s.Legal cur)
    (hr : ReadOnlyAt e b s cur) : NeedsNone e cmds s cur := by
  obtain ⟨b', hb', hbytes⟩ := hr.bytes
  have hne : cmds ≠ [] := by
    rintro rfl
    have hcur : cur = none := by
      cases h.legal hl with
      | start => rfl
      | on pre d post hc _ => simp at hc
    rw [Walk.step, h.batch, bind_of_ok rfl, hcur, get_empty hb] at hb'
    cases hb'
  refine ⟨hne, ?_⟩
  rcases get_converts hb hne (h.legal hl) with ⟨pre, c, post, hcmds, -, huniq, hget⟩ | ⟨hnone, -⟩
  · rw [step_ok h.batch hget] at hb'
    cases hb'
    have hbuf := congrArg Prod.fst hbytes
    simp only [atlasCmdBatchGetBuf, hb.buf, hcmds, encode_append, encode_cons] at hbuf
    have hform := List.append_cancel_right (List.append_cancel_left hbuf)
    exact (c.hostForm_eq_bytes.1 hform).imp_right fun hsym c' hc' => huniq c' hc' ▸ hsym
  · exact Or.inr fun c hc => absurd hc (hnone c)

/-- **The cursor is read-only exactly as long as it converts nothing.** For every batch that is
built and every sequence of calls, with `NULL` or with commands that were returned before: every
call leaves the bytes and the fresh iterations as they were and answers as before, an empty batch
with `NULL`, if and only if the batch has a command, and the host is big-endian or every command
that a call asks for has a type of two equal bytes and a length of two equal bytes. -/
theorem readOnly_iff (hb : Built e b) : ∃ cmds, b.buf_ = encode cmds ∧ ∀ calls : List (Option ℕ),
    Along (Walk.step e) Walk.Legal (Walk.start b) calls →
      (Along (Walk.step e) (ReadOnlyAt e b) (Walk.start b) calls ↔
        Along (Walk.step e) (NeedsNone e cmds) (Walk.start b) calls) := by
  obtain ⟨cmds, hc⟩ := hb.holds
  refine ⟨cmds, hc.buf, fun calls hl => along_exact (WalkInv e b cmds) Walk.Legal ?_ ?_ ?_ hl⟩
  · intro s cur hs hlegal hn
    have hinv := hs.step hc hlegal hn
    exact ⟨hinv.readOnly (by rw [hc.buf, Ne, encode_eq_nil]; exact hn.1), hinv⟩
  · intro s cur hs hlegal hr
    exact hs.needsNone hc hlegal hr
  · exact ⟨rfl, by simp [Walk.start], by simp [Walk.start]⟩

/-- On a big-endian host an identity and a keep-alive can be walked again and again. -/
theorem readOnly_bigEndian : Along (Walk.step .big) (ReadOnlyAt .big ⟨11, [0, 2, 0, 1, 7, 0, 1, 0, 2, 3, 4]⟩)
    (Walk.start ⟨11, [0, 2, 0, 1, 7, 0, 1, 0, 2, 3, 4]⟩) [none, some 0, none, some 0, some 5, some 0] := by
  have hfirst : Built .big ⟨5, [0, 2, 0, 1, 7]⟩ := .add (Cmd.of 2 [7] (by decide)) .new rfl
  have hbuilt : Built .big ⟨11, [0, 2, 0, 1, 7, 0, 1, 0, 2, 3, 4]⟩ := .add (Cmd.of 1 [3, 4] (by decide)) hfirst rfl
  obtain ⟨cmds, hcmds, hiff⟩ := readOnly_iff hbuilt
  have hne : cmds ≠ [] := by
    rintro rfl
    cases hcmds
  exact (hiff _ (by decide)).2 (along_iff_forall.2 fun _ _ _ _ => ⟨hne, Or.inl rfl⟩)

/-- **The second walk reads garbage.** On a little-endian host the header of an identity command is
left in host order by the first call, and a fresh iteration takes its length 1 for 256. -/
theorem second_walk_garbled :
    ¬ ∀ b, Built .little b → ∀ calls, Along (Walk.step .little) Walk.Legal (Walk.start b) calls →
      Along (Walk.step .little) (ReadOnlyAt .little b) (Walk.start b) calls := by
  intro h
  have hbuilt : Built .little ⟨5, [0, 2, 0, 1, 7]⟩ := .add (Cmd.of 2 [7] (by decide)) .new rfl
  have hrun := h _ hbuilt [none] (by decide)
  have hfresh := hrun.1.fresh ⟨5, [2, 0, 1, 0, 7]⟩ rfl
  exact absurd hfresh (by decide)

end AtlasClient
