import LinuxWinsock.Async.Cancel

namespace LinuxWinsock.Async

open Function TransitionSystem LinkedList

/-!
# What a cancellation takes out of the list

The loop of `WSACancelAsyncRequest` unlinks with a trailing pointer, from the head, the middle or
the end of the list.  It looks for the request at the address that the handle is; the host
functions return a number instead.

* `CancelExact` — a cancellation marks one request and takes it out, and leaves all others as
  they are;
* `cancelExact_self` — a cancellation by the address of the request does so;
* `cancelExact_iff` — and a cancellation by anything else does not;
* `cancel_never_exact` — so no handle that a host function has returned cancels its request.
-/

variable {r r' : Requests} {hd : HANDLE} {p : Addr} {req : AsyncRequest} {l₁ l₂ : List Addr}

/-! ### The loop with its trailing pointer -/

/-- A record with a link is one of a host request. -/
theorem Record.host_of_next {x : Record} {q : Addr} (h : x.next = some q) : ∃ req, x = .host req := by
  cases x with
  | host req => exact ⟨req, rfl⟩
  | service req => cases h

/-- **The search.**  The loop comes to its match with the previous request in hand. -/
theorem cancelLoop_eq_cancelMatch {n : Nat} {prev cur : Option Addr}
    (hc : Chain Record.next r.heap cur (l₁ ++ hd :: l₂)) (hnot : hd ∉ l₁) (hn : l₁.length < n)
    (hhd : r.heap.cell hd = some (.host req)) :
    cancelLoop hd r n prev cur = cancelMatch r (l₁.getLast?.or prev) hd req := by
  induction l₁ generalizing cur prev n with
  | nil =>
    cases hc with
    | cons _ _ =>
      cases n with
      | zero => simp at hn
      | succ n => simp [cancelLoop, hhd]
  | cons a l₁ ih =>
    cases hc with
    | @cons _ x _ hx hrest =>
      -- the record has a link, as the list goes on
      obtain ⟨before, rfl⟩ : ∃ before, x = .host before := by
        cases l₁ with
        | nil => exact Record.host_of_next (Chain.eq_some hrest)
        | cons b l₁ => exact Record.host_of_next (Chain.eq_some hrest)
      rw [List.mem_cons, not_or] at hnot
      cases n with
      | zero => simp at hn
      | succ n =>
        have hlt : l₁.length < n := by simpa using hn
        have hstep : cancelLoop hd r (n + 1) prev (some a) =
            cancelLoop hd r n (some a) (Record.host before).next := by
          simp [cancelLoop, hx, Ne.symm hnot.1, Record.next]
        rw [hstep, ih hrest hnot.2 hlt, List.getLast?_cons]
        cases l₁.getLast? <;> rfl

/-- The loop goes through a list without a match, and changes nothing. -/
theorem cancelLoop_of_not_mem {n : Nat} {prev cur : Option Addr} {l : List Addr}
    (hc : Chain Record.next r.heap cur l) (hnot : hd ∉ l) (h : cancelLoop hd r n prev cur = some r') :
    r' = r := by
  induction hc generalizing prev n with
  | nil =>
    cases n <;> exact (Option.some.inj h).symm
  | @cons a x l hx _ ih =>
    rw [List.mem_cons, not_or] at hnot
    cases n with
    | zero => cases h
    | succ n =>
      simp only [cancelLoop, hx] at h
      cases x with
      | service req => cases h
      | host req =>
        dsimp only at h
        rw [if_neg (Ne.symm hnot.1)] at h
        exact ih hnot.2 h

/-- Nor does it if no record lies at the handle, whether or not the list ends. -/
theorem cancelLoop_of_free {n : Nat} {prev cur : Option Addr} (hfree : r.heap.cell hd = none)
    (h : cancelLoop hd r n prev cur = some r') : r' = r := by
  induction n generalizing prev cur with
  | zero =>
    cases cur with
    | none => exact (Option.some.inj h).symm
    | some a => cases h
  | succ n ih =>
    cases cur with
    | none => exact (Option.some.inj h).symm
    | some a =>
      simp only [cancelLoop] at h
      split at h
      · rename_i req ha
        have hne : a ≠ hd := by
          rintro rfl
          rw [hfree] at ha
          cases ha
        rw [if_neg hne] at h
        exact ih h
      · cases h

/-! ### The unlinking -/

/-- The rest of the list does not come back to a request. -/
theorem not_mem_rest {cur : Option Addr} (hl : Chain Record.next r.heap cur (l₁ ++ p :: l₂)) :
    p ∉ l₁ ++ l₂ :=
  (List.nodup_cons.mp (List.nodup_middle.mp hl.nodup)).1

/-- A record but for its link. -/
def Record.unlinked : Record → Record
  | .host req => .host { req with next := none }
  | .service req => .service req

/-- **The match** marks the request, and gives its link to the one before it or to the head. -/
theorem cancelMatch_unlinks (hl : r.ReqList (l₁ ++ p :: l₂))
    (hp : r.heap.cell p = some (.host req)) :
    ∃ r', cancelMatch r l₁.getLast? p req = some r' ∧ r'.ReqList (l₁ ++ l₂) ∧
      r'.heap.cell p = some (.host { req with cancelled := true }) ∧
      ∀ q, q ≠ p → (r'.heap.cell q).map Record.unlinked = (r.heap.cell q).map Record.unlinked := by
  have hout : p ∉ l₁ ++ l₂ := not_mem_rest hl
  rcases List.eq_nil_or_concat' l₁ with rfl | ⟨l, b, rfl⟩
  · -- the request is the head
    refine ⟨_, rfl, ?_, Heap.put_cell_self _ _ _, ?_⟩
    · have hlist : Chain Record.next r.heap r.head ([] ++ p :: l₂) := hl
      exact (hlist.rest hp).put_of_not_mem hout _
    · intro q hq
      rw [Heap.put_cell_of_ne _ _ hq]
  · rw [List.append_assoc, List.singleton_append] at hl hout
    have hbout : b ∉ l ++ p :: l₂ := not_mem_rest hl
    -- the request before it, whose link leads to it
    obtain ⟨x, hb, hlink⟩ : ∃ x, r.heap.cell b = some x ∧ x.next = some p := by
      obtain ⟨x, hx⟩ := Chain.allocated hl b (by simp)
      exact ⟨x, hx, (Chain.rest hl hx).eq_some⟩
    obtain ⟨before, rfl⟩ := Record.host_of_next hlink
    have hbp : b ≠ p := by
      rintro rfl
      exact hout (by simp)
    have hlast : (l ++ [b]).getLast? = some b := List.getLast?_concat
    have hcell : (r.heap.put p (.host { req with cancelled := true })).cell b =
        some (.host before) := by
      rw [Heap.put_cell_of_ne _ _ hbp, hb]
    refine ⟨⟨(r.heap.put p (.host { req with cancelled := true })).put b
      (.host { before with next := req.next }), r.head⟩, ?_, ?_, ?_, ?_⟩
    · rw [hlast]
      simp only [cancelMatch, hcell]
    · rw [List.append_assoc, List.singleton_append]
      refine Chain.unlink hl hp (Heap.put_cell_self _ _ _) rfl (fun c hc z hz => ⟨z, ?_, rfl⟩)
      rw [List.mem_append] at hc
      have hcb : c ≠ b := by
        rintro rfl
        exact hbout (List.mem_append.mpr (hc.imp_right (List.mem_cons_of_mem p)))
      have hcp : c ≠ p := by
        rintro rfl
        exact hout (List.mem_append.mpr (hc.imp_right (List.mem_cons_of_mem b)))
      rw [Heap.put_cell_of_ne _ _ hcb, Heap.put_cell_of_ne _ _ hcp, hz]
    · rw [Heap.put_cell_of_ne _ _ hbp.symm, Heap.put_cell_self]
    · intro q hq
      by_cases hqb : q = b
      · rw [hqb, Heap.put_cell_self, hb]
        rfl
      · rw [Heap.put_cell_of_ne _ _ hqb, Heap.put_cell_of_ne _ _ hq]

/-! ### Exactly one request -/

/-- The cancellation returns; the request at `p` is marked and no longer in the list, and every
    other one keeps its fields and, in a list that ends, its place. -/
def CancelExact (w : World) (hd : HANDLE) (p : Addr) : Prop :=
  ∃ r', wsaCancelAsyncRequest w.toRequests hd = some r' ∧
    (∃ req, r'.heap.cell p = some (.host req) ∧ req.cancelled = true) ∧
    ¬ Reaches Record.next r'.heap p r'.head ∧
    (∀ q, q ≠ p →
      (r'.heap.cell q).map Record.unlinked = (w.requests.cell q).map Record.unlinked) ∧
    ∀ l, w.toRequests.ReqList l → r'.ReqList (l.erase p)

variable {w : World} {l : List Addr}

/-- **By its address** a request is cancelled as it should be, wherever it is in the list. -/
theorem cancelExact_self (hl : w.toRequests.ReqList l) (hmem : p ∈ l)
    (hp : w.requests.cell p = some (.host req)) : CancelExact w p p := by
  obtain ⟨l₁, l₂, rfl⟩ := List.append_of_mem hmem
  have hout : p ∉ l₁ ++ l₂ := not_mem_rest hl
  have hfront : p ∉ l₁ := fun h => hout (List.mem_append_left l₂ h)
  have herase : (l₁ ++ p :: l₂).erase p = l₁ ++ l₂ := by
    rw [List.erase_append_right _ hfront, List.erase_cons_head]
  obtain ⟨r', hr', hlist, hmark, hkept⟩ := cancelMatch_unlinks hl hp
  have hlen : l₁.length < w.requests.live.card := by
    have h := Chain.length_le hl
    rw [List.length_append, List.length_cons] at h
    exact lt_of_lt_of_le (by omega) h
  refine ⟨r', ?_, ⟨_, hmark, rfl⟩, ?_, hkept, ?_⟩
  · have hloop : wsaCancelAsyncRequest w.toRequests p =
        cancelMatch w.toRequests (l₁.getLast?.or none) p req :=
      cancelLoop_eq_cancelMatch hl hfront hlen hp
    rw [hloop, Option.or_none, hr']
  · rw [Chain.reaches_iff hlist]
    exact hout
  · intro l hl'
    rw [Chain.unique hl' hl, herase]
    exact hlist

/-- By a handle at which no record lies, no request of the list is cancelled. -/
theorem not_cancelExact_of_free (hreach : Reaches Record.next w.requests p w.gAsyncRequests)
    (hfree : w.requests.cell hd = none) : ¬ CancelExact w hd p := by
  rintro ⟨r', hr', _, hout, _⟩
  obtain rfl : r' = w.toRequests := cancelLoop_of_free hfree hr'
  exact hout hreach

/-- **Exactness.**  In a list of host requests that ends, a cancellation takes out the request
    at `p` and does nothing else exactly if its handle is the address `p`. -/
theorem cancelExact_iff (hl : w.toRequests.ReqList l) (hmem : p ∈ l)
    (hhost : ∀ q ∈ l, ∃ req, w.requests.cell q = some (.host req)) :
    CancelExact w hd p ↔ hd = p := by
  constructor
  · rintro ⟨r', hr', _, hout, _, hlist⟩
    by_contra hne
    by_cases hin : hd ∈ l
    · -- the request at the handle is taken out, so this one is not
      obtain ⟨req, hreq⟩ := hhost hd hin
      obtain ⟨r'', hr'', _, _, _, hlist'⟩ := cancelExact_self hl hin hreq
      obtain rfl := Option.some.inj (hr'.symm.trans hr'')
      have herase := Chain.unique (hlist l hl) (hlist' l hl)
      have hstays : p ∈ l.erase hd := (List.mem_erase_of_ne (Ne.symm hne)).mpr hmem
      rw [← herase] at hstays
      exact List.Nodup.not_mem_erase (Chain.nodup hl) hstays
    · obtain rfl : r' = w.toRequests := cancelLoop_of_not_mem hl hin hr'
      exact hout ((Chain.reaches_iff hl).mpr hmem)
  · rintro rfl
    obtain ⟨req, hreq⟩ := hhost hd hmem
    exact cancelExact_self hl hmem hreq

/-! ### The handles of the host functions -/

/-- No record lies at a number that a host function has returned. -/
def HandlesApart (w : World) : Prop :=
  ∀ c p hd, w.calls c = .hostReturned p hd → w.requests.cell hd = none

/-- **A returned handle never cancels its request.**  In every state: if a host function has
    returned the handle for the request at `p`, which is still in the list, then a cancellation by
    this handle does not mark and take out the request. -/
theorem cancel_never_exact (w : World) (c : Nat) (p : Addr) (hd : HANDLE)
    (hret : w.calls c = .hostReturned p hd)
    (hlisted : Reaches Record.next w.requests p w.gAsyncRequests) (hapart : HandlesApart w) :
    ¬ CancelExact w hd p :=
  not_cancelExact_of_free hlisted (hapart c p hd hret)

/-- Two lookups, the requests at 4096 and 8192, with the handles 1 and 2. -/
def twoLookups : List Label :=
  [.hostCall 0 (.byName [97] (some 1) 64) (some 4096), .insert 0, .create 0 true,
    .hostCall 1 (.byAddr [127, 0, 0, 1] 4 2 (some 2) 64) (some 8192), .insert 1, .create 1 true]

theorem twoLookups_run : ∃ tr w, (system knowsOne).Run tr w ∧
    w.calls 0 = .hostReturned 4096 1 ∧ w.calls 1 = .hostReturned 8192 2 ∧ HandlesApart w ∧
    w.toRequests.ReqList [8192, 4096] ∧ ∃ req, w.requests.cell 4096 = some (.host req) := by
  have hrun := run_of_exec_isSome World.start (next knowsOne) twoLookups rfl
  refine ⟨_, _, hrun, rfl, rfl, ?_, .cons rfl (.cons rfl .nil), _, rfl⟩
  intro c p hd hret
  match c with
  | 0 =>
    obtain ⟨-, rfl⟩ := CallPc.hostReturned.inj hret
    rfl
  | 1 =>
    obtain ⟨-, rfl⟩ := CallPc.hostReturned.inj hret
    rfl
  | c + 2 => cases hret

/-- The first of the two requests is cancelled by its address, but not by its handle. -/
theorem cancel_never_exact_first : ∃ tr w, (system knowsOne).Run tr w ∧
    w.calls 0 = .hostReturned 4096 1 ∧ ¬ CancelExact w 1 4096 ∧ CancelExact w 4096 4096 := by
  obtain ⟨tr, w, hrun, hret, -, hapart, hlist, req, hreq⟩ := twoLookups_run
  have hlisted := (Chain.reaches_iff hlist (a := 4096)).mpr (by decide)
  exact ⟨tr, w, hrun, hret, cancel_never_exact w 0 4096 1 hret hlisted hapart,
    cancelExact_self hlist (by decide) hreq⟩

/-- A cancellation by the handle of the second request, which is the head of the list, leaves it
    there. -/
theorem cancel_misses : ∃ tr w, (system knowsOne).Run tr w ∧ HandlesApart w ∧
    ∃ c p hd, w.calls c = .hostReturned p hd ∧
      Reaches Record.next w.requests p w.gAsyncRequests ∧ ¬ CancelExact w hd p := by
  obtain ⟨tr, w, hrun, -, hret, hapart, hlist, -⟩ := twoLookups_run
  have hlisted := (Chain.reaches_iff hlist (a := 8192)).mpr (by decide)
  exact ⟨tr, w, hrun, hapart, 1, 8192, 2, hret, hlisted,
    not_cancelExact_of_free hlisted (hapart 1 8192 2 hret)⟩

end LinuxWinsock.Async
