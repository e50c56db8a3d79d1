import LinuxWinsock.Async.Calls

namespace LinuxWinsock.Async

open Function TransitionSystem LinkedList

/-!
# The list of host requests and its rollback

A host call inserts its request at the head of `g_async_requests`, releases the mutex, and
if `pthread_create` fails takes the mutex again and sets the head to the request's own
link.

* `ListExact` — the list ends, and holds the requests inserted and not rolled back;
* `listExact_step` — a rollback keeps that exactly if it finds its own request at the
  head, and every other step keeps it;
* `requests_kept` — so without cancellations no request is lost and none is left dangling
  in a run whose rollbacks all find their own request at the head.
-/

variable {resolve : Query → Option Answer} {w w' : World} {l : Label} {tr : Trace}

/-! ### The requests that belong in the list -/

/-- The record of a host call from its insertion on, until it is unlinked. -/
def CallPc.listed : CallPc → Option Addr
  | .inserted p _ => some p
  | .createFailed p => some p
  | .hostReturned p _ => some p
  | _ => none

/-- The request at `p` belongs in the list. -/
def Listed (w : World) (p : Addr) : Prop := ∃ c, (w.calls c).listed = some p

/-- The list ends, and holds the requests that belong in it. -/
def ListExact (w : World) : Prop := ∃ L, w.toRequests.ReqList L ∧ ∀ p, p ∈ L ↔ Listed w p

theorem CallPc.has_of_listed {pc : CallPc} {p : Addr} (h : pc.listed = some p) : pc.Has p := by
  cases pc with
  | inserted q hd => exact .inl h
  | createFailed q => exact .inl h
  | hostReturned q hd => exact .inl h
  | _ => cases h

/-- A rollback finds its own request at the head of the list. -/
def AtHead (w : World) : Label → Prop
  | .unlink c => ∀ p, w.calls c = .createFailed p → w.gAsyncRequests = some p
  | _ => True

/-! ### What each step does to the list -/

/-- A step that keeps the head, the links of the list and what belongs in it. -/
theorem ListExact.of_links (h : ListExact w) (hhead : w'.gAsyncRequests = w.gAsyncRequests)
    (hlisted : ∀ c, (w'.calls c).listed = (w.calls c).listed)
    (hlinks : ∀ p, Listed w p → ∀ x, w.requests.cell p = some x →
      ∃ y, w'.requests.cell p = some y ∧ y.next = x.next) : ListExact w' := by
  obtain ⟨L, hL, hmem⟩ := h
  refine ⟨L, ?_, fun p => ?_⟩
  · show Chain Record.next w'.requests w'.gAsyncRequests L
    rw [hhead]
    exact Chain.congr hL (fun p hp => hlinks p ((hmem p).mp hp))
  · rw [hmem p]
    unfold Listed
    simp only [hlisted]

/-- A call whose request keeps its place. -/
theorem listed_update {c : Nat} {pc pc' : CallPc} (hc : w.calls c = pc)
    (h : pc'.listed = pc.listed) (d : Nat) :
    (update w.calls c pc' d).listed = (w.calls d).listed := by
  by_cases hd : d = c
  · rw [hd, update_self, hc, h]
  · rw [update_of_ne hd]

/-- A request that belongs in the list is not at an address that is free. -/
theorem ne_of_listed (hinv : CallInv w) {p q : Addr} (hq : Listed w q)
    (hfresh : w.requests.cell p = none) : q ≠ p := by
  rintro rfl
  obtain ⟨c, hc⟩ := hq
  exact hinv.allocated (CallPc.has_of_listed hc) hfresh

/-- A store that keeps the link keeps every link. -/
theorem links_put {heap : Heap Record} {p : Addr} {rec rec' : Record}
    (hp : heap.cell p = some rec) (hnext : rec'.next = rec.next) (q : Addr) (x : Record)
    (hx : heap.cell q = some x) : ∃ y, (heap.put p rec').cell q = some y ∧ y.next = x.next := by
  by_cases hq : q = p
  · subst hq
    obtain rfl := Option.some.inj (hp.symm.trans hx)
    exact ⟨rec', Heap.put_cell_self _ _ _, hnext⟩
  · exact ⟨x, by rw [Heap.put_cell_of_ne _ _ hq]; exact hx, rfl⟩

theorem Record.next_finish (rec : Record) (error : Int) : (rec.finish error).next = rec.next := by
  cases rec <;> rfl

/-- **Insertion.**  The request becomes the head, in front of what was there. -/
theorem listExact_inserted (hinv : CallInv w) (h : ListExact w) {c : Nat} {p : Addr}
    {req : AsyncRequest} (pc : w.calls c = .allocated p) :
    ListExact ({ w with
      gAsyncHandleCounter := w.gAsyncHandleCounter + 1
      requests := w.requests.put p (.host { req with next := w.gAsyncRequests })
      gAsyncRequests := some p }.setCall c (.inserted p w.gAsyncHandleCounter)) := by
  obtain ⟨L, hL, hmem⟩ := h
  have hown : (w.calls c).Has p := .inl (by rw [pc]; rfl)
  -- the record is not in the list yet
  have hout : p ∉ L := by
    intro hp
    obtain ⟨d, hd⟩ := (hmem p).mp hp
    obtain rfl := hinv.distinct d c p (CallPc.has_of_listed hd) hown
    rw [pc] at hd
    cases hd
  refine ⟨p :: L, Chain.cons (Heap.put_cell_self _ _ _) (Chain.put_of_not_mem hL hout _), ?_⟩
  intro q
  rw [List.mem_cons, hmem q]
  constructor
  · rintro (rfl | ⟨d, hd⟩)
    · refine ⟨c, ?_⟩
      show (update w.calls c _ c).listed = _
      rw [update_self]; rfl
    · have hdc : d ≠ c := by
        rintro rfl
        rw [pc] at hd; cases hd
      refine ⟨d, ?_⟩
      show (update w.calls c _ d).listed = _
      rw [update_of_ne hdc]
      exact hd
  · rintro ⟨d, hd⟩
    have hd : (update w.calls c (.inserted p w.gAsyncHandleCounter) d).listed = some q := hd
    by_cases hdc : d = c
    · rw [hdc, update_self] at hd
      exact .inl (Option.some.inj hd).symm
    · rw [update_of_ne hdc] at hd
      exact .inr ⟨d, hd⟩

/-- After a rollback the requests that belong in the list are the old ones but this one. -/
theorem listed_unlinked (hinv : CallInv w) {c : Nat} {p : Addr} {head : Option Addr}
    (pc : w.calls c = .createFailed p) (q : Addr) :
    Listed ({ w with gAsyncRequests := head }.setCall c (.unlinked p)) q ↔
      Listed w q ∧ q ≠ p := by
  have hown : (w.calls c).listed = some p := by rw [pc]; rfl
  constructor
  · rintro ⟨d, hnew⟩
    have hd : (update w.calls c (.unlinked p) d).listed = some q := hnew
    by_cases hdc : d = c
    · rw [hdc, update_self] at hd; cases hd
    · rw [update_of_ne hdc] at hd
      have hhas : (w.calls d).Has q := CallPc.has_of_listed hd
      refine ⟨⟨d, hd⟩, fun hqp => ?_⟩
      rw [hqp] at hhas
      exact hdc (hinv.distinct d c p hhas (CallPc.has_of_listed hown))
  · rintro ⟨⟨d, hd⟩, hqp⟩
    have hdc : d ≠ c := by
      rintro rfl
      exact hqp (Option.some.inj (hd.symm.trans hown))
    refine ⟨d, ?_⟩
    show (update w.calls c _ d).listed = _
    rw [update_of_ne hdc]
    exact hd

/-- **Rollback.**  Setting the head to the request's own link keeps the list exactly if the
    request is at the head: otherwise those in front of it are lost. -/
theorem listExact_unlinked (hinv : CallInv w) (h : ListExact w) {c : Nat} {p : Addr}
    {rec : Record} (pc : w.calls c = .createFailed p) (live : w.requests.cell p = some rec) :
    ListExact ({ w with gAsyncRequests := rec.next }.setCall c (.unlinked p)) ↔
      w.gAsyncRequests = some p := by
  obtain ⟨L, hL, hmem⟩ := h
  have hL : Chain Record.next w.requests w.gAsyncRequests L := hL
  have hown : (w.calls c).listed = some p := by rw [pc]; rfl
  obtain ⟨L₁, L₂, hsplit⟩ := List.append_of_mem ((hmem p).mpr ⟨c, hown⟩)
  -- from the request on, the list is its own rest
  have hrest : Chain Record.next w.requests rec.next L₂ := by
    cases hL.drop hsplit with
    | cons hx hrest =>
      obtain rfl := Option.some.inj (live.symm.trans hx)
      exact hrest
  have hnodup := hL.nodup
  rw [hsplit] at hnodup
  rw [hL.head_eq_iff hsplit]
  constructor
  · rintro ⟨L', hL', hmem'⟩
    obtain rfl := Chain.unique hL' hrest
    cases L₁ with
    | nil => rfl
    | cons b L₁ =>
      -- `b` belongs in the list, but is in front of what is left
      have hb : b ≠ p ∧ b ∉ L' := by
        simp only [List.cons_append, List.nodup_cons, List.mem_append, List.mem_cons,
          not_or] at hnodup
        exact ⟨hnodup.1.2.1, hnodup.1.2.2⟩
      have hbL : b ∈ L := by rw [hsplit]; exact List.mem_cons_self
      have hin : b ∈ L' := (hmem' b).mpr ((listed_unlinked hinv pc b).mpr ⟨(hmem b).mp hbL, hb.1⟩)
      exact absurd hin hb.2
  · rintro rfl
    refine ⟨L₂, hrest, fun q => ?_⟩
    rw [listed_unlinked hinv pc q, ← hmem q, hsplit, List.nil_append, List.mem_cons]
    have hp : p ∉ L₂ := (List.nodup_cons.mp hnodup).1
    constructor
    · intro hq
      exact ⟨.inr hq, fun heq => hp (heq ▸ hq)⟩
    · rintro ⟨rfl | hq, hqp⟩
      · exact absurd rfl hqp
      · exact hq

/-- **The list of host requests.**  Where it is exact it stays so in every step but a
    cancellation, except that a rollback has to find its own request at the head. -/
theorem listExact_step (hinv : CallInv w) (h : ListExact w) (hno : NoCancel l)
    (hs : Step resolve w l w') : ListExact w' ↔ AtHead w l := by
  have hkeep : ∀ (p : Addr), Listed w p → ∀ x, w.requests.cell p = some x →
      ∃ y, w.requests.cell p = some y ∧ y.next = x.next := fun _ _ x hx => ⟨x, hx, rfl⟩
  -- storing a record at an address that is free
  have hfreshPut : ∀ {p : Addr} (rec : Record), w.requests.cell p = none →
      ∀ q, Listed w q → ∀ x, w.requests.cell q = some x →
        ∃ y, (w.requests.put p rec).cell q = some y ∧ y.next = x.next := by
    intro p rec hfresh q hq x hx
    exact ⟨x, by rw [Heap.put_cell_of_ne _ _ (ne_of_listed hinv hq hfresh)]; exact hx, rfl⟩
  cases hs with
  | hostFailed pc =>
    exact iff_of_true (h.of_links rfl (listed_update pc rfl) hkeep) trivial
  | hostAllocated pc fresh =>
    exact iff_of_true (h.of_links rfl (listed_update pc rfl) (hfreshPut _ fresh)) trivial
  | inserted pc live => exact iff_of_true (listExact_inserted hinv h pc) trivial
  | started pc =>
    exact iff_of_true (h.of_links rfl (listed_update pc rfl) hkeep) trivial
  | createFailed pc =>
    exact iff_of_true (h.of_links rfl (listed_update pc rfl) hkeep) trivial
  | @unlinked c p rec pc live =>
    rw [listExact_unlinked hinv h pc live]
    constructor
    · intro hhead q hq
      obtain rfl := CallPc.createFailed.inj (pc.symm.trans hq)
      exact hhead
    · intro hall
      exact hall p pc
  | @released c p pc =>
    refine iff_of_true (h.of_links rfl (listed_update pc rfl) ?_) trivial
    intro q hq x hx
    have hqp : q ≠ p := by
      rintro rfl
      obtain ⟨d, hd⟩ := hq
      obtain rfl := hinv.distinct d c q (CallPc.has_of_listed hd) (.inl (by rw [pc]; rfl))
      rw [pc] at hd; cases hd
    exact ⟨x, by rw [← hx]; exact Heap.free_cell_of_ne _ hqp, rfl⟩
  | serviceFailed err pc =>
    exact iff_of_true (h.of_links rfl (listed_update pc rfl) hkeep) trivial
  | serviceStarted pc _ fresh =>
    exact iff_of_true (h.of_links rfl (listed_update pc rfl) (hfreshPut _ fresh)) trivial
  | cancelled _ => exact absurd hno id
  | tested _ _ => exact iff_of_true (h.of_links rfl (fun _ => rfl) hkeep) trivial
  | resolved _ _ => exact iff_of_true (h.of_links rfl (fun _ => rfl) hkeep) trivial
  | dropped _ live _ =>
    exact iff_of_true (h.of_links rfl (fun _ => rfl)
      (fun q _ => links_put live (Record.next_finish _ _) q)) trivial
  | chosen _ _ _ => exact iff_of_true (h.of_links rfl (fun _ => rfl) hkeep) trivial
  | copied _ live _ =>
    exact iff_of_true (h.of_links rfl (fun _ => rfl)
      (fun q _ => links_put live (Record.next_finish _ _) q)) trivial

/-- **The list over whole runs.**  Without cancellations the list is exact throughout a run
    exactly if every rollback finds its own request at the head. -/
theorem listExact_iff_atHead (h : (system resolve).Run tr w)
    (hno : AllSteps (fun _ _ l => NoCancel l) tr) :
    Always (fun _ w => ListExact w) tr w ↔ AllSteps (fun _ w l => AtHead w l) tr := by
  refine h.always_iff_allSteps ?_ ?_ hno
  · intro s hs
    obtain rfl : s = World.start := hs
    refine ⟨[], .nil, fun p => ⟨nofun, ?_⟩⟩
    rintro ⟨c, hc⟩
    cases hc
  · intro tr s l t hr hexact hno hstep
    exact listExact_step (callInv_of_run hr) hexact hno (step_of_next hstep)

/-! ### Once all calls have returned -/

/-- The call has not been made, or it has returned. -/
def CallPc.quiet : CallPc → Bool
  | .idle => true
  | .hostReturned _ _ => true
  | .serviceReturned _ => true
  | .failed _ => true
  | _ => false

/-- A call that is over and has a request in the list has returned its handle. -/
theorem CallPc.hostReturned_of_listed {pc : CallPc} {p : Addr} (h : pc.listed = some p)
    (hq : pc.quiet) : ∃ hd, pc = .hostReturned p hd := by
  cases pc with
  | hostReturned q hd =>
    obtain rfl := Option.some.inj h
    exact ⟨hd, rfl⟩
  | inserted q hd => cases hq
  | createFailed q => cases hq
  | _ => cases h

/-- The list ends without meeting a record that is freed, and once all calls have returned
    it holds exactly the host requests whose calls returned a handle, each once. -/
def RequestsKept (w : World) : Prop :=
  ∃ L, w.toRequests.ReqList L ∧ L.Nodup ∧ (∀ p ∈ L, (w.requests.cell p).isSome) ∧
    ((∀ c, (w.calls c).quiet) → ∀ p, p ∈ L ↔ ∃ c h, w.calls c = .hostReturned p h)

theorem ListExact.requestsKept (h : ListExact w) : RequestsKept w := by
  obtain ⟨L, hL, hmem⟩ := h
  refine ⟨L, hL, Chain.nodup hL, fun p hp => ?_, fun hquiet p => ?_⟩
  · obtain ⟨x, hx⟩ := Chain.allocated hL p hp
    have hx : w.requests.cell p = some x := hx
    rw [hx]; rfl
  · rw [hmem p]
    constructor
    · rintro ⟨c, hc⟩
      exact ⟨c, CallPc.hostReturned_of_listed hc (hquiet c)⟩
    · rintro ⟨c, hd, hc⟩
      exact ⟨c, by rw [hc]; rfl⟩

/-- **No request is lost or left dangling** in a run without cancellations whose rollbacks
    all find their own request at the head. -/
theorem requests_kept (resolve : Query → Option Answer) (tr : Trace) (w : World)
    (h : (system resolve).Run tr w) (hno : AllSteps (fun _ _ l => NoCancel l) tr)
    (hhead : AllSteps (fun _ w l => AtHead w l) tr) : Always (fun _ w => RequestsKept w) tr w :=
  Always.mono (fun _ _ hexact => hexact.requestsKept) ((listExact_iff_atHead h hno).mpr hhead)

/-- A resolver that knows nothing. -/
def noAnswer : Query → Option Answer := fun _ => none

/-- Two calls overlap, and the thread of the later one cannot be created: its rollback finds
    its own request at the head. -/
theorem requests_kept_after_rollback : ∃ tr w, (system noAnswer).Run tr w ∧
    w.calls 0 = .hostReturned 100 1 ∧ w.calls 1 = .failed WSAENETDOWN ∧
    w.gAsyncRequests = some 100 ∧ Always (fun _ w => RequestsKept w) tr w := by
  have hrun := run_of_exec_isSome World.start (next noAnswer)
    [.hostCall 0 (.byName [97] (some 1) 64) (some 100), .insert 0,
      .hostCall 1 (.byName [98] (some 2) 64) (some 101), .insert 1,
      .create 1 false, .unlink 1, .release 1, .create 0 true] rfl
  refine ⟨_, _, hrun, rfl, rfl, rfl, requests_kept noAnswer _ _ hrun ?_ ?_⟩
  · exact ⟨trivial, trivial, trivial, trivial, trivial, trivial, trivial, trivial, trivial⟩
  · refine ⟨trivial, trivial, fun p hp => ?_, trivial, trivial, trivial, trivial, trivial, trivial⟩
    obtain rfl := CallPc.createFailed.inj hp
    rfl

/-- Two calls overlap, and the thread of the earlier one cannot be created: its rollback
    sets the head to its own link, and the later request is lost. -/
theorem request_lost_by_rollback : ∃ tr w, (system noAnswer).Run tr w ∧
    AllSteps (fun _ _ l => NoCancel l) tr ∧ w.calls 1 = .hostReturned 101 2 ∧
    w.gAsyncRequests = none ∧ ¬ RequestsKept w := by
  have hrun := run_of_exec_isSome World.start (next noAnswer)
    [.hostCall 0 (.byName [97] (some 1) 64) (some 100), .insert 0,
      .hostCall 1 (.byName [98] (some 2) 64) (some 101), .insert 1,
      .create 0 false, .create 1 true, .unlink 0, .release 0] rfl
  refine ⟨_, _, hrun, ?_, rfl, rfl, ?_⟩
  · exact ⟨trivial, trivial, trivial, trivial, trivial, trivial, trivial, trivial, trivial⟩
  · rintro ⟨L, hL, _, _, hmem⟩
    have hin : 101 ∈ L := by
      refine (hmem (fun c => ?_) 101).mpr ⟨1, 2, rfl⟩
      -- two calls were made and are over, the others never are
      rcases c with _ | _ | c <;> rfl
    have hL : Chain Record.next _ none L := hL
    cases hL with
    | nil => cases hin

end LinuxWinsock.Async
