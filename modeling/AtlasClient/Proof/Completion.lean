import AtlasClient.Lib.Run
import AtlasClient.Proof.Net
import Mathlib.Data.List.Nodup
import Mathlib.Data.List.Range

/-!
# Completion of CoAP requests

The CoAP client under arbitrary callers: requests arrive in any order, and a callback
issues any requests of its own (`Journal.plan`). The callback of an accepted request is
its label, so that the journal tells who was called back, and how often.

* `messageHandlers_spec`: what a list of PDUs does, whatever they contain.
* `completes_iff`: **every request is completed exactly once, by the time its entry leaves
  the table, if and only if no call of `coap_io_process` hands over two PDUs with the
  token of the request.** `message_handler` does not look at the dirty flag.
-/

namespace AtlasClient

open FirstMatch Machine

/-! ## The machine -/

/-- The label of a request is its place among the accepted ones. -/
structure Journal where
  /-- the URIs of the accepted requests -/
  issued : List String
  /-- label and URI of each callback that was invoked -/
  done : List (ℕ × String)
  /-- URI and timeout of the requests that the `n`-th invoked callback issues -/
  plan : ℕ → List (String × ℕ)

abbrev CoapRun := World Empty ℕ Journal

def CoapRun.init (os : Os) (plan : ℕ → List (String × ℕ)) : CoapRun := ⟨Net.init os, [], ⟨[], [], plan⟩⟩

def issue (uri : String) (timeout : ℕ) (w : CoapRun) : CoapRun :=
  let (status, net) := atlasCoapClientRequest (some uri) timeout (some w.app.issued.length) w.net
  if status = .ok then { w with net := net, app := { w.app with issued := w.app.issued ++ [uri] } }
  else { w with net := net }

def issueAll (reqs : List (String × ℕ)) (w : CoapRun) : CoapRun :=
  reqs.foldl (fun w q => issue q.1 q.2 w) w

/-- The callback of a request is invoked. -/
def invoked (label : ℕ) (uri : String) (w : CoapRun) : CoapRun :=
  w.mapApp fun j => { j with done := j.done ++ [(label, uri)] }

def journal (e : Endian) : Program Empty ℕ Journal where
  endian := e
  alarmCb cb := cb.elim
  coapCb label uri _ _ w := issueAll (w.app.plan w.app.done.length) (invoked label uri w)

inductive CoapEvent
  | request (uri : String) (timeout : ℕ)
  /-- the descriptor is ready, and `coap_io_process` hands over the PDUs -/
  | ready (fd : ℤ) (pdus : List CoapPdu)
  | alarm (fd : ℤ)
  deriving DecidableEq, Repr

def CoapRun.step (e : Endian) (w : CoapRun) : CoapEvent → CoapRun
  | .request uri timeout => issue uri timeout w
  | .ready fd pdus => coapClientSchedCallback (journal e) fd pdus w
  | .alarm fd => (journal e).fire fd w

/-! ## What must hold -/

/-- The table holds the requests whose callback has not been invoked, in the order in which they
were accepted; no callback is invoked twice, and each is given the URI of its request. -/
structure ExactlyOnce (w : CoapRun) : Prop where
  table : w.net.reqEntry.map CoapReq.callback =
    (List.range w.app.issued.length).filter (· ∉ w.app.done.map Prod.fst)
  once : (w.app.done.map Prod.fst).Nodup
  uri : ∀ x ∈ w.app.done, w.app.issued[x.1]? = some x.2

def CoapRun.Completes (e : Endian) (w : CoapRun) (ev : CoapEvent) : Prop := ExactlyOnce (w.step e ev)

/-- How many of the PDUs carry the token of the request. -/
def hits (e : Endian) (p : CoapReq ℕ) (pdus : List CoapPdu) : ℕ :=
  pdus.countP fun received => validateToken e received p.token

/-- `coap_io_process` hands over at most one PDU with the token of the request. -/
def CoapRun.OneHit (e : Endian) (w : CoapRun) : CoapEvent → Prop
  | .ready fd pdus => ∀ p, w.net.reqEntry.find? (fun p => p.coapFd = fd) = some p → hits e p pdus ≤ 1
  | _ => True

variable {e : Endian}

/-! ## Issuing requests -/

/-- `w'` is `w` after the requests `new` have been accepted. -/
structure Adds (w w' : CoapRun) (new : List (CoapReq ℕ)) : Prop where
  reqs : w'.net.reqEntry = w.net.reqEntry ++ new
  issued : w'.app.issued = w.app.issued ++ new.map CoapReq.uri
  labels : new.map CoapReq.callback = List.range' w.app.issued.length new.length
  clean : ∀ r ∈ new, r.dirty = false
  done : w'.app.done = w.app.done
  ctx : (w.net.reqEntry.map CoapReq.ctx).Nodup → (w'.net.reqEntry.map CoapReq.ctx).Nodup

theorem Adds.refl (w : CoapRun) : Adds w w [] :=
  ⟨by simp, by simp, by simp, by simp, rfl, id⟩

/-- The labels of requests issued one after the other. -/
theorem labels_append {issued : List String} {new new' : List (CoapReq ℕ)}
    (h : new.map CoapReq.callback = List.range' issued.length new.length)
    (h' : new'.map CoapReq.callback = List.range' (issued ++ new.map CoapReq.uri).length new'.length) :
    (new ++ new').map CoapReq.callback = List.range' issued.length (new ++ new').length := by
  rw [List.length_append, List.length_map] at h'
  rw [List.map_append, h, h', List.length_append]
  exact List.range'_append_1

theorem Adds.trans {w₁ w₂ w₃ : CoapRun} {new new' : List (CoapReq ℕ)} (h : Adds w₁ w₂ new)
    (h' : Adds w₂ w₃ new') : Adds w₁ w₃ (new ++ new') where
  reqs := by rw [h'.reqs, h.reqs, List.append_assoc]
  issued := by rw [h'.issued, h.issued, List.append_assoc, List.map_append]
  labels := labels_append h.labels (h.issued ▸ h'.labels)
  clean := List.forall_mem_append.2 ⟨h.clean, h'.clean⟩
  done := by rw [h'.done, h.done]
  ctx := fun hn => h'.ctx (h.ctx hn)

theorem issue_adds (uri : String) (timeout : ℕ) (w : CoapRun) : ∃ new, Adds w (issue uri timeout w) new := by
  unfold issue
  rcases request_cases uri timeout w.app.issued.length w.net with
    ⟨hs, -, -, hr, -⟩ | ⟨hs, -, -, r, hacc⟩
  · refine ⟨[], ?_⟩
    simp only [if_neg hs]
    exact ⟨by simp [hr], by simp, by simp, by simp, rfl, by simp [hr]⟩
  · refine ⟨[r], ?_⟩
    simp only [if_pos hs]
    exact ⟨hacc.reqs, by simp [hacc.uri], by simp [hacc.callback], by simp [hacc.clean], rfl,
      hacc.ctx_nodup⟩

theorem issueAll_adds (reqs : List (String × ℕ)) : ∀ w : CoapRun, ∃ new, Adds w (issueAll reqs w) new := by
  induction reqs with
  | nil => intro w; exact ⟨[], Adds.refl w⟩
  | cons q reqs ih =>
    intro w
    obtain ⟨new, h⟩ := issue_adds q.1 q.2 w
    obtain ⟨new', h'⟩ := ih (issue q.1 q.2 w)
    exact ⟨new ++ new', h.trans h'⟩

/-! ## The invariant -/

structure CoapInv (w : CoapRun) : Prop where
  once : ExactlyOnce w
  uri : ∀ r ∈ w.net.reqEntry, w.app.issued[r.callback]? = some r.uri
  ctx : (w.net.reqEntry.map CoapReq.ctx).Nodup
  clean : ∀ r ∈ w.net.reqEntry, r.dirty = false

theorem coapInv_init (os : Os) (plan : ℕ → List (String × ℕ)) : CoapInv (CoapRun.init os plan) :=
  ⟨⟨rfl, List.nodup_nil, by simp [CoapRun.init]⟩, by simp [CoapRun.init, Net.init],
    by simp [CoapRun.init, Net.init], by simp [CoapRun.init, Net.init]⟩

theorem CoapInv.done_lt {w : CoapRun} (h : CoapInv w) {l : ℕ} (hl : l ∈ w.app.done.map Prod.fst) :
    l < w.app.issued.length := by
  obtain ⟨x, hx, rfl⟩ := List.mem_map.1 hl
  obtain ⟨hlt, -⟩ := List.getElem?_eq_some_iff.1 (h.once.uri x hx)
  exact hlt

/-- The labels that are not done, after new ones. -/
theorem filter_range_add {D : List ℕ} {n k : ℕ} (hD : ∀ l ∈ D, l < n) :
    (List.range (n + k)).filter (· ∉ D) = (List.range n).filter (· ∉ D) ++ List.range' n k := by
  rw [List.range_add, List.filter_append, List.range'_eq_map_range]
  congr 1
  rw [List.filter_eq_self]
  intro l hl
  obtain ⟨i, -, rfl⟩ := List.mem_map.1 hl
  have hno : n + i ∉ D := fun hm => by have := hD _ hm; omega
  simpa using hno

/-- The URIs of the requests in the table and of the new ones. -/
theorem issued_append {issued : List String} {new : List (CoapReq ℕ)}
    (hl : new.map CoapReq.callback = List.range' issued.length new.length) :
    ∀ r ∈ new, (issued ++ new.map CoapReq.uri)[r.callback]? = some r.uri := by
  intro r hr
  obtain ⟨i, hi, rfl⟩ := List.mem_iff_getElem.1 hr
  have hcb : new[i].callback = issued.length + i := by
    have h1 : (new.map CoapReq.callback)[i]? = (List.range' issued.length new.length)[i]? := by rw [hl]
    simpa [hi] using h1
  rw [hcb, List.getElem?_append_right (by omega)]
  simp [hi]

theorem getElem?_issued {issued more : List String} {l : ℕ} {u : String} (h : issued[l]? = some u) :
    (issued ++ more)[l]? = some u := by
  obtain ⟨hlt, heq⟩ := List.getElem?_eq_some_iff.1 h
  rw [List.getElem?_append_left hlt, h]

/-- **Accepting requests keeps the invariant.** -/
theorem CoapInv.adds {w w' : CoapRun} (h : CoapInv w) (new : List (CoapReq ℕ)) (ha : Adds w w' new) :
    CoapInv w' := by
  refine ⟨⟨?_, ?_, ?_⟩, ?_, ha.ctx h.ctx, ?_⟩
  · rw [ha.reqs, List.map_append, ha.labels, h.once.table, ha.issued, ha.done, List.length_append,
      List.length_map, filter_range_add fun l hl => h.done_lt hl]
  · rw [ha.done]; exact h.once.once
  · intro x hx
    rw [ha.done] at hx
    rw [ha.issued]; exact getElem?_issued (h.once.uri x hx)
  · intro r hr
    rw [ha.reqs] at hr
    rw [ha.issued]
    rcases List.mem_append.1 hr with hr | hr
    · exact getElem?_issued (h.uri r hr)
    · exact issued_append ha.labels r hr
  · rw [ha.reqs]
    exact List.forall_mem_append.2 ⟨h.clean, ha.clean⟩

/-- The labels that are not done, when one of them is done. -/
theorem undone_erase {D pre post : List ℕ} {k n : ℕ} (h : (List.range n).filter (· ∉ D) = pre ++ k :: post) :
    (List.range n).filter (· ∉ D ++ [k]) = pre ++ post := by
  have hnodup : (pre ++ k :: post).Nodup := h ▸ List.nodup_range.filter _
  have hk : k ∉ pre := fun hm => (List.nodup_append.1 hnodup).2.2 k hm k (by simp) rfl
  have hsplit : (List.range n).filter (· ∉ D ++ [k]) = (pre ++ k :: post).filter (· != k) := by
    rw [← h, List.filter_filter]
    refine List.filter_congr fun l _ => ?_
    rw [Bool.eq_iff_iff]
    simp [and_comm]
  rw [hsplit, ← hnodup.erase_eq_filter, List.erase_append_right _ hk, List.erase_cons_head]

/-- **Unlinking a request whose callback was invoked once keeps the invariant**, whatever the
callback has added at the end of the table. -/
theorem CoapInv.complete {w w' : CoapRun} {pre post new : List (CoapReq ℕ)} {p : CoapReq ℕ} (h : CoapInv w)
    (hl : w.net.reqEntry = pre ++ p :: post) (hr : w'.net.reqEntry = pre ++ (post ++ new))
    (hi : w'.app.issued = w.app.issued ++ new.map CoapReq.uri)
    (hlab : new.map CoapReq.callback = List.range' w.app.issued.length new.length)
    (hclean : ∀ r ∈ new, r.dirty = false) (hctx : (w'.net.reqEntry.map CoapReq.ctx).Nodup)
    (hd : w'.app.done = w.app.done ++ [(p.callback, p.uri)]) : CoapInv w' := by
  have hp : p ∈ w.net.reqEntry := by rw [hl]; simp
  have hup := h.uri p hp
  have hplt : p.callback < w.app.issued.length := (List.getElem?_eq_some_iff.1 hup).1
  have htab := h.once.table
  rw [hl, List.map_append, List.map_cons] at htab
  -- the label of the request is not among the invoked ones
  have hnd : p.callback ∉ w.app.done.map Prod.fst := by
    have hm : p.callback ∈ (List.range w.app.issued.length).filter (· ∉ w.app.done.map Prod.fst) := by
      rw [← htab]; simp
    simpa using (List.mem_filter.1 hm).2
  have hrest := undone_erase htab.symm
  have hrestmem : ∀ r ∈ pre ++ post, r ∈ w.net.reqEntry := by
    intro r hm
    rw [hl]
    exact sublist_split.subset hm
  refine ⟨⟨?_, ?_, ?_⟩, ?_, hctx, ?_⟩
  · rw [hr, ← List.append_assoc, List.map_append, List.map_append, hlab, ← hrest, hi, hd, List.map_append,
      List.map_singleton, List.length_append, List.length_map, filter_range_add]
    intro l hl'
    rcases List.mem_append.1 hl' with hl' | hl'
    · exact h.done_lt hl'
    · rw [List.mem_singleton.1 hl']; exact hplt
  · rw [hd, List.map_append, List.map_singleton, ← List.concat_eq_append, List.nodup_concat]
    exact ⟨hnd, h.once.once⟩
  · intro x hx
    rw [hd, List.mem_append] at hx
    rw [hi]
    rcases hx with hx | hx
    · exact getElem?_issued (h.once.uri x hx)
    · rw [List.mem_singleton] at hx
      subst hx; exact getElem?_issued hup
  · intro r hr'
    rw [hr, ← List.append_assoc, List.mem_append] at hr'
    rw [hi]
    rcases hr' with hr' | hr'
    · exact getElem?_issued (h.uri r (hrestmem r hr'))
    · exact issued_append hlab r hr'
  · intro r hr'
    rw [hr, ← List.append_assoc, List.mem_append] at hr'
    rcases hr' with hr' | hr'
    · exact h.clean r (hrestmem r hr')
    · exact hclean r hr'

/-! ## Responses -/

/-- The entry at the head of a split is the one that is found and changed. -/
theorem at_pre {ctx session : ℕ} {pre : List (CoapReq ℕ)} (h : ∀ x ∈ pre, x.ctx ≠ ctx) :
    ∀ x ∈ pre, CoapReq.at ctx session x = false := by
  intro x hx
  simp [CoapReq.at, h x hx]

theorem at_self (p : CoapReq ℕ) : CoapReq.at p.ctx p.session p = true := by simp [CoapReq.at]

/-- `w'` is `w` after the response handler has been given PDUs, `k` of them with the token of `p`. -/
structure Handed (pre post : List (CoapReq ℕ)) (p : CoapReq ℕ) (k : ℕ) (w w' : CoapRun)
    (new : List (CoapReq ℕ)) : Prop where
  reqs : w'.net.reqEntry = pre ++ { p with dirty := p.dirty || decide (0 < k) } :: (post ++ new)
  issued : w'.app.issued = w.app.issued ++ new.map CoapReq.uri
  labels : new.map CoapReq.callback = List.range' w.app.issued.length new.length
  clean : ∀ r ∈ new, r.dirty = false
  done : w'.app.done = w.app.done ++ List.replicate k (p.callback, p.uri)
  ctx : (w'.net.reqEntry.map CoapReq.ctx).Nodup

variable {pre post : List (CoapReq ℕ)} {p : CoapReq ℕ} {w : CoapRun}

/-- **One PDU**: with the token of the request, it marks the entry and invokes the callback, dirty
or not; otherwise nothing happens. -/
theorem messageHandler_spec (hl : w.net.reqEntry = pre ++ p :: post)
    (hctx : (w.net.reqEntry.map CoapReq.ctx).Nodup) (received : CoapPdu) :
    ∃ new, Handed pre post p (hits e p [received]) w
      (messageHandler (journal e) p.ctx p.session received w) new := by
  have hpre : ∀ x ∈ pre, x.ctx ≠ p.ctx := by
    rw [hl, List.map_append, List.map_cons, List.nodup_append] at hctx
    exact fun x hx => hctx.2.2 _ (List.mem_map_of_mem hx) _ (by simp)
  have hfind : w.net.reqEntry.find? (CoapReq.at p.ctx p.session) = some p := by
    rw [hl, List.find?_append, List.find?_eq_none.2 fun x hx => by simp [at_pre hpre x hx]]
    simp [at_self]
  unfold messageHandler
  rw [hfind]
  by_cases hv : validateToken e received p.token = true
  · have hk : hits e p [received] = 1 := by simp [hits, hv]
    simp only [journal, hv, Bool.not_true, Bool.false_eq_true, if_false]
    rw [hk]
    -- the entry is marked and the invocation recorded; then the callback issues its requests
    set w₀ : CoapRun := invoked p.callback p.uri (w.mapNet (markDirty p.ctx p.session)) with hw₀
    have hmark : w₀.net.reqEntry = pre ++ { p with dirty := true } :: post := by
      show updFirst _ _ w.net.reqEntry = _
      rw [hl]; exact updFirst_split (at_pre hpre) (at_self p)
    have hctx₀ : (w₀.net.reqEntry.map CoapReq.ctx).Nodup := by rw [hl] at hctx; simpa [hmark] using hctx
    obtain ⟨new, ha⟩ := issueAll_adds (w.app.plan w.app.done.length) w₀
    refine ⟨new, ?_⟩
    exact ⟨ha.reqs.trans (by rw [hmark]; simp), ha.issued, ha.labels, ha.clean, ha.done, ha.ctx hctx₀⟩
  · have hk : hits e p [received] = 0 := by simp [hits, hv]
    refine ⟨[], ?_⟩
    rw [hk]
    simp only [journal, hv, Bool.not_false, if_true]
    exact ⟨by simp [hl], by simp, by simp, by simp, by simp, hctx⟩

theorem hits_cons (e : Endian) (p : CoapReq ℕ) (received : CoapPdu) (pdus : List CoapPdu) :
    hits e p (received :: pdus) = hits e p [received] + hits e p pdus := by
  simp only [hits, List.countP_cons, List.countP_nil]
  omega

theorem Handed.trans {w₁ w₂ : CoapRun} {k k' : ℕ} {new new' : List (CoapReq ℕ)}
    (h : Handed pre post p k w w₁ new)
    (h' : Handed pre (post ++ new) { p with dirty := p.dirty || decide (0 < k) } k' w₁ w₂ new') :
    Handed pre post p (k + k') w w₂ (new ++ new') where
  reqs := by
    rw [h'.reqs, List.append_assoc]
    have hd : (p.dirty || decide (0 < k) || decide (0 < k')) = (p.dirty || decide (0 < k + k')) := by
      rw [Bool.or_assoc, ← Bool.decide_or, decide_eq_decide.2 (show 0 < k ∨ 0 < k' ↔ 0 < k + k' by omega)]
    simp only [hd]
  issued := by rw [h'.issued, h.issued, List.append_assoc, List.map_append]
  labels := labels_append h.labels (h.issued ▸ h'.labels)
  clean := List.forall_mem_append.2 ⟨h.clean, h'.clean⟩
  done := by rw [h'.done, h.done, List.replicate_add, List.append_assoc]
  ctx := h'.ctx

/-- **What a list of PDUs does**: each one with the token of the request invokes the callback. -/
theorem messageHandlers_spec (pdus : List CoapPdu) : ∀ {p : CoapReq ℕ} {post : List (CoapReq ℕ)} {w : CoapRun},
    w.net.reqEntry = pre ++ p :: post → (w.net.reqEntry.map CoapReq.ctx).Nodup →
    ∃ new, Handed pre post p (hits e p pdus) w
      (pdus.foldl (fun w received => messageHandler (journal e) p.ctx p.session received w) w) new := by
  induction pdus with
  | nil =>
    intro p post w hl hctx
    exact ⟨[], by simp [hits, hl], by simp, by simp, by simp, by simp [hits], hctx⟩
  | cons received pdus ih =>
    intro p post w hl hctx
    obtain ⟨new, h⟩ := messageHandler_spec (e := e) hl hctx received
    obtain ⟨new', h'⟩ := ih h.reqs h.ctx
    refine ⟨new ++ new', ?_⟩
    rw [hits_cons, List.foldl_cons]
    exact h.trans h'

/-! ## Steps and runs -/

theorem Handed.unlinked {w' : CoapRun} {k : ℕ} {new : List (CoapReq ℕ)} {fd : ℤ}
    (h : Handed pre post p k w w' new) (hpre : ∀ x ∈ pre, decide (x.coapFd = fd) = false)
    (hp : p.coapFd = fd) : (unlinkIfDirty fd w'.net).reqEntry =
      if p.dirty || decide (0 < k) then pre ++ (post ++ new) else w'.net.reqEntry := by
  have hfind : w'.net.reqEntry.find? (fun p => p.coapFd = fd) =
      some { p with dirty := p.dirty || decide (0 < k) } := by
    rw [h.reqs, List.find?_append, List.find?_eq_none.2 fun x hx => by simpa using hpre x hx]
    simp [hp]
  unfold unlinkIfDirty
  rw [hfind]
  by_cases hd : (p.dirty || decide (0 < k)) = true
  · simp only [hd, if_true, cancel_reqEntry, h.reqs]
    exact eraseP_split hpre (by simpa using hp)
  · simp [hd]

/-- **A ready descriptor** with at most one PDU that carries the token keeps the invariant. -/
theorem ready_ok (h : CoapInv w) {fd : ℤ} {pdus : List CoapPdu} (hc : w.OneHit e (.ready fd pdus)) :
    CoapInv (w.step e (.ready fd pdus)) := by
  unfold CoapRun.step coapClientSchedCallback
  simp only
  cases hf : w.net.reqEntry.find? fun p => p.coapFd = fd with
  | none => exact h
  | some p =>
    obtain ⟨pre, post, hl, hpre, hp⟩ := find?_split hf
    simp only [decide_eq_true_eq] at hp
    obtain ⟨new, hh⟩ := messageHandlers_spec (e := e) pdus hl h.ctx
    have hclean : p.dirty = false := h.clean p (by rw [hl]; simp)
    have hun := hh.unlinked hpre hp
    rw [hclean, Bool.false_or] at hun
    simp only
    set w' := pdus.foldl (fun w received => messageHandler (journal e) p.ctx p.session received w) w
    have hle := hc p hf
    rcases Nat.eq_zero_or_pos (hits e p pdus) with hk | hk
    · -- no PDU carries the token: nothing has happened to the entry
      have hrq := hh.reqs
      rw [hk] at hun hrq
      simp only [hclean, Bool.false_or, Nat.lt_irrefl, decide_false] at hun hrq
      have hp0 : ({ p with dirty := false } : CoapReq ℕ) = p := by rw [← hclean]
      rw [hp0] at hrq
      refine h.adds new ⟨?_, hh.issued, hh.labels, hh.clean, ?_, fun _ => ?_⟩
      · show (unlinkIfDirty fd w'.net).reqEntry = _
        rw [hun, if_neg (by simp), hrq, hl]; simp
      · show w'.app.done = _
        have hdn := hh.done
        rw [hk] at hdn; simpa using hdn
      · show ((unlinkIfDirty fd w'.net).reqEntry.map CoapReq.ctx).Nodup
        rw [hun, if_neg (by simp)]; exact hh.ctx
    · have hk1 : hits e p pdus = 1 := by omega
      have hrq := hh.reqs
      have hdn := hh.done
      rw [hk1] at hun hdn
      have hun' : (unlinkIfDirty fd w'.net).reqEntry = pre ++ (post ++ new) := by rw [hun]; simp
      refine h.complete hl hun' hh.issued hh.labels hh.clean ?_ hdn
      show ((unlinkIfDirty fd w'.net).reqEntry.map CoapReq.ctx).Nodup
      rw [hun']
      have hn := hh.ctx
      rw [hrq] at hn
      exact hn.sublist (sublist_split.map _)

/-- **A timeout keeps the invariant**: the callback runs while the entry is still in the table,
and what it adds stands behind the entry. -/
theorem timeout_ok (h : CoapInv w) (id : ℤ) : CoapInv (requestAlarmCb (journal e) id w) := by
  unfold requestAlarmCb
  cases hf : w.net.reqEntry.find? fun p => p.alarmId = id with
  | none => exact h
  | some p =>
    obtain ⟨pre, post, hl, hpre, hp⟩ := find?_split hf
    simp only [journal]
    obtain ⟨new, ha⟩ := issueAll_adds (w.app.plan w.app.done.length) (invoked p.callback p.uri w)
    set w' := issueAll (w.app.plan w.app.done.length) (invoked p.callback p.uri w)
    have hctx : (w'.net.reqEntry.map CoapReq.ctx).Nodup := ha.ctx h.ctx
    have hrq : w'.net.reqEntry = pre ++ p :: (post ++ new) := by
      rw [ha.reqs]
      show w.net.reqEntry ++ new = _
      rw [hl]; simp
    have hun : (unlinkTimedOut id p.coapFd w'.net).reqEntry = pre ++ (post ++ new) := by
      show w'.net.reqEntry.eraseP _ = _
      rw [hrq]; exact eraseP_split hpre hp
    refine h.complete hl hun ha.issued ha.labels ha.clean ?_ ha.done
    show ((unlinkTimedOut id p.coapFd w'.net).reqEntry.map CoapReq.ctx).Nodup
    rw [hun]
    rw [hrq] at hctx
    exact hctx.sublist (sublist_split.map _)

theorem CoapInv.congr {w' : CoapRun} (h : CoapInv w) (hr : w'.net.reqEntry = w.net.reqEntry)
    (ha : w'.app = w.app) : CoapInv w' := by
  refine h.adds [] ⟨?_, ?_, ?_, by simp, ?_, ?_⟩
  · simpa using hr
  · simp [ha]
  · simp
  · rw [ha]
  · rw [hr]; exact id

theorem alarm_ok (h : CoapInv w) (fd : ℤ) : CoapInv (w.step e (.alarm fd)) := by
  unfold CoapRun.step Program.fire atlasAlarmTrigger
  simp only
  cases w.net.alarmEntry.find? fun p => p.alarmId = fd with
  | none => exact h
  | some p =>
    have hrun : CoapInv ((journal e).runAlarm p.callback p.alarmId w) := by
      cases p.callback with
      | requestAlarmCb => exact timeout_ok h _
      | app cb => exact cb.elim
    simp only
    split
    · exact hrun.congr (cancel_reqEntry _ _) rfl
    · exact hrun

/-- **One step keeps the invariant**, if no call of `coap_io_process` hits a request twice. -/
theorem coapInv_step {ev : CoapEvent} (h : CoapInv w) (hc : w.OneHit e ev) : CoapInv (w.step e ev) := by
  cases ev with
  | request uri timeout =>
    obtain ⟨new, ha⟩ := issue_adds uri timeout w
    exact h.adds new ha
  | ready fd pdus => exact ready_ok h hc
  | alarm fd => exact alarm_ok h fd

/-- A request that is hit twice is completed twice. -/
theorem oneHit_of_completes {ev : CoapEvent} (h : CoapInv w) (hr : w.Completes e ev) : w.OneHit e ev := by
  cases ev with
  | request uri timeout => trivial
  | alarm fd => trivial
  | ready fd pdus =>
    intro p hf
    obtain ⟨pre, post, hl, -, -⟩ := find?_split hf
    obtain ⟨new, hh⟩ := messageHandlers_spec (e := e) pdus hl h.ctx
    have hnd := hr.once
    unfold CoapRun.step coapClientSchedCallback at hnd
    simp only [hf, World.mapNet, hh.done, List.map_append, List.map_replicate] at hnd
    exact List.nodup_replicate.1 (List.nodup_append.1 hnd).2.1

/-- **Exactly-once completion, and exactly when.** For every sequence of answers of the system
and of requests issued by callbacks, and every interleaving of requests, responses and timeouts:
after every step the table holds the requests that have not been called back, in the order of
their acceptance, no request has been called back twice, and each with its own URI, if and only
if no call of `coap_io_process` hands over two PDUs with the token of the request. -/
theorem completes_iff (e : Endian) (os : Os) (plan : ℕ → List (String × ℕ)) (evs : List CoapEvent) :
    Along (CoapRun.step e) (CoapRun.Completes e) (CoapRun.init os plan) evs ↔
      Along (CoapRun.step e) (CoapRun.OneHit e) (CoapRun.init os plan) evs := by
  refine along_exact_all CoapInv ?_ ?_ (coapInv_init os plan)
  · intro w ev h hc
    have hinv := coapInv_step h hc
    exact ⟨hinv.once, hinv⟩
  · intro w ev h hr
    exact oneHit_of_completes h hr

/-- **A duplicated response completes a request twice.** -/
theorem duplicate_completes_twice :
    ¬ ∀ (e : Endian) (os : Os) (plan : ℕ → List (String × ℕ)) (evs : List CoapEvent),
      Along (CoapRun.step e) (CoapRun.Completes e) (CoapRun.init os plan) evs := by
  intro h
  have hrun := h .little Os.calm (fun _ => [])
    [.request "coaps://gw:10100/gateway/register" 5000,
      .ready 2 [⟨.ack, 69, [0, 0, 0, 0], []⟩, ⟨.ack, 69, [0, 0, 0, 0], []⟩]]
  have honce := hrun.2.1.once
  exact absurd honce (by decide)

end AtlasClient
