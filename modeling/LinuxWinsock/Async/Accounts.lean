import LinuxWinsock.Async.Threads

namespace LinuxWinsock.Async

open Function TransitionSystem

/-!
# Who frees the records

A call that fails frees its record itself.  The record of a lookup is left to its thread, and no
thread frees one.

* `Accounted`, `accounted_of_run` — a record that is allocated is that of a call;
* `returnsHandle`, `threads_of_step` — a lookup starts its thread in the step in which it returns a
  handle;
* `records_leaked` — so a run in which no call is under way has as many records on the heap as
  lookups that returned a handle: all of theirs, and none of a call that failed.
-/

variable {resolve : Query → Option Answer} {w w' : World} {l : Label} {tr : Trace}

/-! ### Records and calls -/

/-- A record that is allocated is that of a call. -/
def Accounted (w : World) : Prop := ∀ p, w.requests.cell p ≠ none → ∃ c, (w.calls c).Has p

/-- A step that moves the call `c` keeps the accounts, if what is allocated then is the record of `c`
    or another one that was before. -/
theorem Accounted.of_call (h : Accounted w) {c : Nat} {pc : CallPc}
    (hcalls : w'.calls = update w.calls c pc)
    (hkept : ∀ p, w'.requests.cell p ≠ none → pc.Has p ∨
      w.requests.cell p ≠ none ∧ ¬ (w.calls c).Has p) : Accounted w' := by
  intro p hp
  rcases hkept p hp with hhas | ⟨hbefore, hnot⟩
  · exact ⟨c, by rw [hcalls, update_self]; exact hhas⟩
  · obtain ⟨d, hd⟩ := h p hbefore
    have hdc : d ≠ c := by
      rintro rfl
      exact hnot hd
    exact ⟨d, by rw [hcalls, update_of_ne hdc]; exact hd⟩

/-- The call allocates nothing, and keeps the record it has. -/
theorem Accounted.of_setCall (h : Accounted w) {c : Nat} {pc : CallPc}
    (hcalls : w'.calls = update w.calls c pc) (hheap : w'.requests = w.requests)
    (hkeeps : ∀ p, (w.calls c).Has p → pc.Has p) : Accounted w' := by
  refine h.of_call hcalls (fun p hp => ?_)
  rw [hheap] at hp
  by_cases hhas : (w.calls c).Has p
  · exact .inl (hkeeps p hhas)
  · exact .inr ⟨hp, hhas⟩

/-- The call stores its record, and has no other. -/
theorem Accounted.of_put (h : Accounted w) {c : Nat} {pc : CallPc} {p : Addr} {rec : Record}
    (hcalls : w'.calls = update w.calls c pc) (hheap : w'.requests = w.requests.put p rec)
    (hnew : pc.Has p) (hold : ∀ q, (w.calls c).Has q → q = p) : Accounted w' := by
  refine h.of_call hcalls (fun q hq => ?_)
  rw [hheap] at hq
  by_cases hqp : q = p
  · rw [hqp]
    exact .inl hnew
  · rw [Heap.put_cell_of_ne _ _ hqp] at hq
    exact .inr ⟨hq, fun hhas => hqp (hold q hhas)⟩

/-- The call frees its record, and has no other. -/
theorem Accounted.of_free (h : Accounted w) {c : Nat} {pc : CallPc} {p : Addr}
    (hcalls : w'.calls = update w.calls c pc) (hheap : w'.requests = w.requests.free p)
    (hold : ∀ q, (w.calls c).Has q → q = p) : Accounted w' := by
  refine h.of_call hcalls (fun q hq => .inr ?_)
  rw [hheap, Heap.free_cell] at hq
  split at hq
  · exact absurd rfl hq
  · rename_i hqp
    exact ⟨hq, fun hhas => hqp (hold q hhas)⟩

/-- A step that moves no call and allocates nothing keeps the accounts. -/
theorem Accounted.of_heapUpdated (h : Accounted w) (hcalls : w'.calls = w.calls)
    (hheap : HeapUpdated w.requests w'.requests) : Accounted w' := by
  intro p hp
  rw [hcalls]
  exact h p (fun hnone => hp ((hheap p).1 hnone))

/-- A call that has no record yet. -/
theorem not_has_idle (p : Addr) : ¬ CallPc.idle.Has p := by
  rintro (h | h)
  · cases h
  · cases h

/-- A host call that is under way has one record. -/
theorem CallPc.Has.eq_of_hostRecord {pc : CallPc} {p q : Addr} (h : pc.Has q)
    (hhost : pc.hostRecord = some p) (hservice : pc.serviceRecord = none) : q = p := by
  rcases h with h | h
  · exact Option.some.inj (h.symm.trans hhost)
  · rw [hservice] at h
    cases h

theorem Accounted.step (h : Accounted w) (hs : Step resolve w l w') : Accounted w' := by
  cases hs with
  | hostFailed pc =>
    refine h.of_setCall rfl rfl (fun p hp => ?_)
    rw [pc] at hp
    exact absurd hp (not_has_idle p)
  | @hostAllocated c call p pc fresh =>
    refine h.of_put rfl rfl (.inl rfl) (fun q hq => ?_)
    rw [pc] at hq
    exact absurd hq (not_has_idle q)
  | @inserted c p req pc live =>
    refine h.of_put rfl rfl (.inl rfl) (fun q hq => ?_)
    rw [pc] at hq
    exact hq.eq_of_hostRecord rfl rfl
  | @started c p hd pc =>
    refine h.of_setCall rfl rfl (fun q hq => ?_)
    rw [pc] at hq
    exact hq
  | @createFailed c p hd pc =>
    refine h.of_setCall rfl rfl (fun q hq => ?_)
    rw [pc] at hq
    exact hq
  | @unlinked c p rec pc live =>
    refine h.of_setCall rfl rfl (fun q hq => ?_)
    rw [pc] at hq
    exact hq
  | @released c p pc =>
    refine h.of_free rfl rfl (fun q hq => ?_)
    rw [pc] at hq
    exact hq.eq_of_hostRecord rfl rfl
  | serviceFailed err pc =>
    refine h.of_setCall rfl rfl (fun p hp => ?_)
    rw [pc] at hp
    exact absurd hp (not_has_idle p)
  | @serviceStarted c call req p pc request fresh =>
    refine h.of_put rfl rfl (.inr rfl) (fun q hq => ?_)
    rw [pc] at hq
    exact absurd hq (not_has_idle q)
  | cancelled cancel => exact h.of_heapUpdated rfl (cancel_updated cancel)
  | tested _ _ => exact h.of_heapUpdated rfl (.refl _)
  | resolved _ _ => exact h.of_heapUpdated rfl (.refl _)
  | dropped _ live _ =>
    exact h.of_heapUpdated rfl ((HeapUpdated.refl _).put live (Record.updated_finish _ _))
  | chosen _ _ _ => exact h.of_heapUpdated rfl (.refl _)
  | copied _ live _ =>
    exact h.of_heapUpdated rfl ((HeapUpdated.refl _).put live (Record.updated_finish _ _))

theorem accounted_of_run (h : (system resolve).Run tr w) : Accounted w := by
  refine h.invariant (P := fun _ w => Accounted w) ?_ ?_
  · intro s hs p hp
    obtain rfl : s = World.start := hs
    exact absurd rfl hp
  · intro tr s l t _ ih hstep
    exact ih.step (step_of_next hstep)

/-! ### Threads and handles -/

/-- In this step a lookup returns a handle. -/
def returnsHandle (_ : World) : Label → Bool
  | .create _ ok => ok
  | .serviceCall _ call malloc created => call.request.isSome && malloc.isSome && created
  | _ => false

/-- The threads after a step that starts one at `p`. -/
def StartsAt (w w' : World) (p : Addr) : Prop :=
  w.threads p = none ∧ ∀ q, w'.threads q ≠ none ↔ q = p ∨ w.threads q ≠ none

theorem startsAt_of_update {p : Addr} {pc : ThreadPc} (hnone : w.threads p = none)
    (hthreads : w'.threads = update w.threads p (some pc)) : StartsAt w w' p := by
  refine ⟨hnone, fun q => ?_⟩
  rw [hthreads]
  by_cases hqp : q = p
  · rw [hqp, update_self]
    exact ⟨fun _ => .inl rfl, fun _ => Option.some_ne_none pc⟩
  · rw [update_of_ne hqp]
    exact ⟨.inr, fun hor => hor.resolve_left hqp⟩

/-- A request for which no handle was returned has no thread. -/
theorem CallInv.thread_eq_none (hinv : CallInv w) {c : Nat} {p : Addr} (hp : (w.calls c).Has p)
    (hret : ∀ hd q, ¬ (w.calls c).Returned hd q) : w.threads p = none := by
  by_contra hne
  obtain ⟨hd, d, hd'⟩ := (hinv.threads p).mp hne
  obtain rfl := hinv.distinct c d p hp hd'.has
  exact hret hd p hd'

/-- A service call that returns a handle starts a thread, and no other does. -/
theorem serviceCall_threads (hinv : CallInv w) {c : Nat} {call : ServiceCall}
    {malloc : Option Addr} {created : Bool}
    (h : serviceCallStep w c call malloc created = some w') :
    if returnsHandle w (.serviceCall c call malloc created) then ∃ p, StartsAt w w' p
    else w'.threads = w.threads := by
  unfold serviceCallStep at h
  show if (call.request.isSome && malloc.isSome && created) = true then ∃ p, StartsAt w w' p
    else w'.threads = w.threads
  split at h
  · rename_i hreq
    obtain rfl := Option.some.inj h
    rw [hreq]
    rfl
  · obtain rfl := Option.some.inj h
    rw [Option.isSome_none, Bool.and_false]
    rfl
  · rename_i req p hidle hreq
    rw [hreq, Option.isSome_some, Option.isSome_some, Bool.true_and, Bool.true_and]
    split at h
    · rename_i hfresh
      cases created with
      | true =>
        obtain rfl := Option.some.inj h
        rw [if_pos rfl]
        have hnone : w.threads p = none := by
          by_contra hne
          obtain ⟨hd, hret⟩ := (hinv.threads p).mp hne
          exact hret.allocated hinv (cell_of_freshAt hfresh)
        exact ⟨p, startsAt_of_update hnone rfl⟩
      | false =>
        obtain rfl := Option.some.inj h
        rfl
    · cases h
  · cases h

/-- **A thread is started exactly in the steps that return a handle.** -/
theorem threads_of_step (hinv : CallInv w) (h : next resolve w l = some w') :
    if returnsHandle w l then ∃ p, StartsAt w w' p
    else ∀ q, w'.threads q ≠ none ↔ w.threads q ≠ none := by
  have hs := step_of_next h
  have hmoved : ∀ {q : Addr} {pc pc' : ThreadPc}, w.threads q = some pc → ∀ p,
      update w.threads q (some pc') p ≠ none ↔ w.threads p ≠ none := by
    intro q pc pc' hpc p
    exact not_congr (setThread_threads hpc p)
  cases l with
  | hostCall c call malloc =>
    cases hs with
    | hostFailed _ => exact fun q => Iff.rfl
    | hostAllocated _ _ => exact fun q => Iff.rfl
  | insert c =>
    cases hs with
    | inserted _ _ => exact fun q => Iff.rfl
  | create c ok =>
    cases hs with
    | @started _ p hd pc =>
      refine ⟨p, startsAt_of_update (hinv.thread_eq_none (c := c) (.inl ?_) ?_) rfl⟩
      · rw [pc]
        rfl
      · rw [pc]
        rintro hd' q (hq | ⟨hq, -⟩)
        · cases hq
        · cases hq
    | createFailed _ => exact fun q => Iff.rfl
  | unlink c =>
    cases hs with
    | unlinked _ _ => exact fun q => Iff.rfl
  | release c =>
    cases hs with
    | released _ => exact fun q => Iff.rfl
  | serviceCall c call malloc created =>
    have hthreads := serviceCall_threads hinv h
    split
    · rename_i hret
      rwa [if_pos hret] at hthreads
    · rename_i hret
      rw [if_neg hret] at hthreads
      intro q
      rw [hthreads]
  | cancel hd =>
    cases hs with
    | cancelled _ => exact fun q => Iff.rfl
  | thread p scratch =>
    cases hs with
    | tested pc _ => exact hmoved pc
    | resolved pc _ => exact hmoved pc
    | dropped pc _ _ => exact hmoved pc
    | chosen pc _ _ => exact hmoved pc
    | copied pc _ _ => exact hmoved pc

/-! ### The census -/

/-- The records for which a thread was started. -/
def threadRecords (w : World) : Finset Addr :=
  w.requests.live.filter (fun p => (w.threads p).isSome)

theorem mem_threadRecords (hinv : CallInv w) (p : Addr) :
    p ∈ threadRecords w ↔ w.threads p ≠ none := by
  rw [threadRecords, Finset.mem_filter, w.requests.mem_live, ← Option.isSome_iff_ne_none]
  refine ⟨fun h => h.2, fun h => ⟨?_, h⟩⟩
  obtain ⟨hd, hret⟩ := (hinv.threads p).mp (Option.isSome_iff_ne_none.mp h)
  exact Option.isSome_iff_ne_none.mpr (hret.allocated hinv)

/-- As many threads were started as handles returned. -/
theorem card_threadRecords (h : (system resolve).Run tr w) :
    (threadRecords w).card = tr.countP (fun e => returnsHandle e.1 e.2) := by
  refine Run.card_eq_countP threadRecords ?_ ?_ ?_ h
  · rintro s rfl
    rfl
  · intro tr s l t hrun hstep hret
    have hinv := callInv_of_run hrun
    have hinv' := hinv.step (step_of_next hstep)
    have hthreads := threads_of_step hinv hstep
    rw [if_pos hret] at hthreads
    obtain ⟨p, hnone, hiff⟩ := hthreads
    refine ⟨p, fun hp => (mem_threadRecords hinv p).mp hp hnone, ?_⟩
    ext q
    rw [mem_threadRecords hinv', hiff, Finset.mem_insert, mem_threadRecords hinv]
  · intro tr s l t hrun hstep hret
    have hinv := callInv_of_run hrun
    have hinv' := hinv.step (step_of_next hstep)
    have hthreads := threads_of_step hinv hstep
    rw [if_neg (by rw [hret]; exact Bool.false_ne_true)] at hthreads
    ext q
    rw [mem_threadRecords hinv', hthreads, mem_threadRecords hinv]

/-- The call is between its `malloc` and its return. -/
def UnderWay (pc : CallPc) : Prop := ∃ p, pc.Has p ∧ ∀ hd q, ¬ pc.Returned hd q

/-- **Each lookup leaks its record, and no failed call does.**  In every run a record on the heap is
    that of exactly one call, there are at least as many records as lookups that have returned a
    handle, and when no call is under way there are exactly as many: those of the lookups, whether
    they have ended or not. -/
theorem records_leaked (resolve : Query → Option Answer) (h : (system resolve).Run tr w) :
    (∀ p, w.requests.cell p ≠ none ↔ ∃! c, (w.calls c).Has p) ∧
    tr.countP (fun e => returnsHandle e.1 e.2) ≤ w.requests.live.card ∧
    ((∀ c, ¬ UnderWay (w.calls c)) →
      w.requests.live.card = tr.countP (fun e => returnsHandle e.1 e.2)) := by
  have hinv := callInv_of_run h
  have hacc := accounted_of_run h
  have hcard := card_threadRecords h
  have hsub : threadRecords w ⊆ w.requests.live := Finset.filter_subset _ _
  refine ⟨fun p => ⟨fun hp => ?_, ?_⟩, ?_, fun hquiet => ?_⟩
  · obtain ⟨c, hc⟩ := hacc p hp
    exact ⟨c, hc, fun d hd => hinv.distinct d c p hd hc⟩
  · rintro ⟨c, hc, -⟩
    exact hinv.allocated hc
  · rw [← hcard]
    exact Finset.card_le_card hsub
  · rw [← hcard]
    congr 1
    apply (Finset.Subset.antisymm hsub ?_).symm
    intro p hp
    have hlive := Option.isSome_iff_ne_none.mp ((w.requests.mem_live p).mp hp)
    obtain ⟨c, hc⟩ := hacc p hlive
    -- a call that has a record and is not under way has returned
    have hret : ∃ hd q, (w.calls c).Returned hd q := by
      by_contra hno
      exact hquiet c ⟨p, hc, fun hd q hr => hno ⟨hd, q, hr⟩⟩
    obtain ⟨hd, q, hr⟩ := hret
    have hqp : q = p := by
      rcases hr with heq | ⟨heq, -⟩
      · rw [heq] at hc
        exact (hc.eq_of_hostRecord rfl rfl).symm
      · rw [heq] at hc
        rcases hc with hc | hc
        · cases hc
        · exact Option.some.inj hc
    obtain rfl := hqp
    exact (mem_threadRecords hinv q).mpr ((hinv.threads q).mpr ⟨hd, c, hr⟩)

/-- A lookup comes to its end, and a second one fails. -/
def endedAndFailed : List Label :=
  answeredLookup ++ [.hostCall 1 (.byName [98] (some 2) 64) (some 101), .insert 1, .create 1 false,
    .unlink 1, .release 1]

/-- The record of the first one stays on the heap. -/
theorem records_leaked_one : ∃ tr w, (system knowsOne).Run tr w ∧ w.threads 100 = some .done ∧
    w.calls 1 = .failed WSAENETDOWN ∧ w.requests.live.card = 1 := by
  have hrun := run_of_exec_isSome World.start (next knowsOne) endedAndFailed rfl
  obtain ⟨-, -, hcard⟩ := records_leaked knowsOne hrun
  refine ⟨_, _, hrun, rfl, rfl, (hcard ?_).trans (by decide)⟩
  intro c
  match c with
  | 0 =>
    rintro ⟨p, -, hno⟩
    exact hno 1 100 (.inl rfl)
  | 1 =>
    rintro ⟨p, hhas | hhas, -⟩
    · cases hhas
    · cases hhas
  | c + 2 =>
    rintro ⟨p, hhas, -⟩
    exact not_has_idle p hhas

end LinuxWinsock.Async
