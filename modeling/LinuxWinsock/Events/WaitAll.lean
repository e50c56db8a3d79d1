import LinuxWinsock.Events.Wait
import LinuxWinsock.Lib.Progress

namespace LinuxWinsock

open Kernel TransitionSystem

/-!
# Waiting while other threads run

A call of `WSAWaitForMultipleEvents` reads the array, waits in `select` and reads the array again.
`select` makes passes over its descriptors, in which it looks at one after the other.  Between all
of these other threads take any steps of the event system.

* `waitSystem` — one call among the other threads, from a reachable state on;
* `wait_uninterrupted` — without other threads it is `wsaWaitForMultipleEvents`;
* `WaitInv` — what is known of the array at each place of the call;
* `wait_all_first` — `fWaitAll` is ignored: a call that returns an index has seen the event there
  signalled and those before it in the array not, each at a moment of its own, and need not have
  seen any other.
-/

/-! ### One call among other threads -/

/-- The arguments of the call, except `fAlertable`.  The array has `cEvents` handles. -/
structure WaitArgs where
  cEvents : BitVec 32
  lphEvents : List WSAEVENT
  fWaitAll : Bool
  dwTimeout : BitVec 32
  length_eq : cEvents.toNat = lphEvents.length

/-- Where the call stands. -/
inductive WaitPc where
  | called
  /-- In `select`, before a pass over the descriptors. -/
  | selecting (call : SelectCall)
  /-- In a pass that has still to look at `rest`, and has found what `found` says. -/
  | polling (call : SelectCall) (rest : List Fd) (found : Fd → Bool)
  /-- `select` has left these descriptors in the set. -/
  | selected (isset : Fd → Bool)
  | returned (ret : BitVec 32) (lastError : Int)

/-- The call is in `select`. -/
def WaitPc.InSelect : WaitPc → Prop
  | .selecting _ | .polling _ _ _ => True
  | _ => False

structure Waiting where
  world : World
  wait : WaitPc

/-- A step of another thread, of the kernel or of a monitor, or one of the call. -/
inductive WaitLabel where
  | other (l : Label)
  | build
  | startPass
  | poll (fd : Fd)
  | passEnds
  | selectFails
  | selectTimesOut
  | selectReturns
  | scan

/-- The descriptors that `select` looks at. -/
def SelectCall.watched (call : SelectCall) : List Fd :=
  call.readfds.filter (fun fd => decide (call.Watches fd))

theorem SelectCall.mem_watched {call : SelectCall} {fd : Fd} :
    fd ∈ call.watched ↔ call.Watches fd := by
  simp only [watched, List.mem_filter, decide_eq_true_eq, and_iff_right_iff_imp]
  exact fun h => h.1

/-- One step.  `fWaitAll` is not looked at. -/
def waitNext (args : WaitArgs) (s : Waiting) (l : WaitLabel) : Option Waiting :=
  match s.wait, l with
  | .returned _ _, _ => none
  | _, .other l => (next s.world l).map (fun w => { s with world := w })
  | .called, .build =>
    match waitCall s.world args.cEvents (some args.lphEvents) args.dwTimeout with
    | some (.ok call) => some { s with wait := .selecting call }
    | some (.error r) => some { s with wait := .returned r.1 r.2 }
    | none => none
  | .selecting call, .startPass =>
    some { s with wait := .polling call call.watched (fun _ => false) }
  | .polling call rest found, .poll fd =>
    if fd ∈ rest then
      some { s with
        wait := .polling call (rest.filter (· ≠ fd))
          (Function.update found fd (s.world.kernel.readable fd)) }
    else none
  | .polling call [] found, .passEnds =>
    -- there is one pass only if the timeout is zero
    if call.readfds.any found = false ∧ call.timeout ≠ some (0, 0) then
      some { s with wait := .selecting call }
    else none
  | .selecting _, .selectFails | .polling _ _ _, .selectFails =>
    some { s with wait := .returned WSA_WAIT_FAILED WSAENETDOWN }
  | .polling call [] found, .selectTimesOut =>
    -- without a timeout `select` waits until there is something to read
    if call.readfds.any found = false ∧ call.timeout ≠ none then
      some { s with wait := .returned WSA_WAIT_TIMEOUT 0 }
    else none
  | .polling call [] found, .selectReturns =>
    if call.readfds.any found then some { s with wait := .selected found } else none
  | .selected isset, .scan =>
    (waitScan s.world args.cEvents (some args.lphEvents) isset).map
      (fun r => { s with wait := .returned r.1 r.2 })
  | _, _ => none

/-- A call that starts in a reachable state of the event system. -/
def waitSystem (args : WaitArgs) : TransitionSystem Waiting WaitLabel where
  init s := s.wait = .called ∧ ∃ tr, system.Run tr s.world
  step s l t := waitNext args s l = some t

variable {args : WaitArgs} {s t : Waiting} {l : WaitLabel}

/-- One more step. -/
theorem waitRun_step {tr : List (Waiting × WaitLabel)} (h : (waitSystem args).Run tr s)
    (l : WaitLabel) (hn : waitNext args s l = some t) : (waitSystem args).Run ((s, l) :: tr) t :=
  .step h hn

/-- The steps as a relation. -/
inductive WaitStep (args : WaitArgs) (s : Waiting) : WaitLabel → Waiting → Prop
  | other {l : Label} {w : World} (step : next s.world l = some w) :
      WaitStep args s (.other l) { s with world := w }
  | built {call : SelectCall} (pc : s.wait = .called)
      (ok : waitCall s.world args.cEvents (some args.lphEvents) args.dwTimeout = some (.ok call)) :
      WaitStep args s .build { s with wait := .selecting call }
  | rejected {r : BitVec 32 × Int} (pc : s.wait = .called)
      (error : waitCall s.world args.cEvents (some args.lphEvents) args.dwTimeout =
        some (.error r)) :
      WaitStep args s .build { s with wait := .returned r.1 r.2 }
  | passStarted {call : SelectCall} (pc : s.wait = .selecting call) :
      WaitStep args s .startPass { s with wait := .polling call call.watched (fun _ => false) }
  | polled {call : SelectCall} {rest : List Fd} {found : Fd → Bool} {fd : Fd}
      (pc : s.wait = .polling call rest found) (mem : fd ∈ rest) :
      WaitStep args s (.poll fd)
        { s with
          wait := .polling call (rest.filter (· ≠ fd))
            (Function.update found fd (s.world.kernel.readable fd)) }
  | passEnded {call : SelectCall} {found : Fd → Bool} (pc : s.wait = .polling call [] found)
      (quiet : call.readfds.any found = false) (again : call.timeout ≠ some (0, 0)) :
      WaitStep args s .passEnds { s with wait := .selecting call }
  | failed (pc : s.wait.InSelect) :
      WaitStep args s .selectFails { s with wait := .returned WSA_WAIT_FAILED WSAENETDOWN }
  | timedOut {call : SelectCall} {found : Fd → Bool} (pc : s.wait = .polling call [] found)
      (quiet : call.readfds.any found = false) (finite : call.timeout ≠ none) :
      WaitStep args s .selectTimesOut { s with wait := .returned WSA_WAIT_TIMEOUT 0 }
  | ready {call : SelectCall} {found : Fd → Bool} (pc : s.wait = .polling call [] found)
      (any : call.readfds.any found = true) :
      WaitStep args s .selectReturns { s with wait := .selected found }
  | scanned {isset : Fd → Bool} {r : BitVec 32 × Int} (pc : s.wait = .selected isset)
      (scan : waitScan s.world args.cEvents (some args.lphEvents) isset = some r) :
      WaitStep args s .scan { s with wait := .returned r.1 r.2 }

/-- **All that a step can do.** -/
theorem waitStep_of_next (h : waitNext args s l = some t) : WaitStep args s l t := by
  unfold waitNext at h
  split at h
  · cases h
  · obtain ⟨w, hw, rfl⟩ := Option.map_eq_some_iff.mp h
    exact .other hw
  · rename_i pc
    split at h
    · rename_i call hcall
      obtain rfl := Option.some.inj h
      exact .built pc hcall
    · rename_i r hcall
      obtain rfl := Option.some.inj h
      exact .rejected pc hcall
    · cases h
  · rename_i call pc
    obtain rfl := Option.some.inj h
    exact .passStarted pc
  · rename_i call rest found fd pc
    split at h
    · rename_i mem
      obtain rfl := Option.some.inj h
      exact .polled pc mem
    · cases h
  · rename_i call found pc
    split at h
    · rename_i guard
      obtain rfl := Option.some.inj h
      exact .passEnded pc guard.1 guard.2
    · cases h
  · rename_i call pc
    obtain rfl := Option.some.inj h
    exact .failed (by rw [pc]; trivial)
  · rename_i call rest found pc
    obtain rfl := Option.some.inj h
    exact .failed (by rw [pc]; trivial)
  · rename_i call found pc
    split at h
    · rename_i guard
      obtain rfl := Option.some.inj h
      exact .timedOut pc guard.1 guard.2
    · cases h
  · rename_i call found pc
    split at h
    · rename_i any
      obtain rfl := Option.some.inj h
      exact .ready pc any
    · cases h
  · rename_i isset pc
    obtain ⟨r, hr, rfl⟩ := Option.map_eq_some_iff.mp h
    exact .scanned pc hr
  · cases h

/-! ### The call alone -/

/-- The step is one of the call. -/
def WaitLabel.Own : WaitLabel → Prop
  | .other _ => False
  | .build | .startPass | .poll _ | .passEnds | .selectFails | .selectTimesOut | .selectReturns
  | .scan => True

/-- What is in the set if nothing changes while `select` looks at the descriptors. -/
def leftInSet (k : Kernel) (call : SelectCall) (fd : Fd) : Bool :=
  decide (call.Watches fd) && k.readable fd

/-- Without other threads a pass comes to its end, and finds what is readable. -/
theorem exists_pass (args : WaitArgs) (w : World) (call : SelectCall) (rest : List Fd)
    (found : Fd → Bool) :
    ∃ ls, (waitSystem args).Path ⟨w, .polling call rest found⟩ ls
        ⟨w, .polling call [] (fun fd => if fd ∈ rest then w.kernel.readable fd else found fd)⟩ ∧
      (∀ l ∈ ls, l.Own) ∧ ls.length ≤ rest.length := by
  -- by induction on how many descriptors are left
  induction hn : rest.length using Nat.strongRecOn generalizing rest found with
  | ind n ih =>
    cases rest with
    | nil => exact ⟨[], by simpa using .nil, by simp, Nat.zero_le _⟩
    | cons fd rest =>
      have hrest : (fd :: rest).filter (· ≠ fd) = rest.filter (· ≠ fd) := by simp
      have hlen : (rest.filter (· ≠ fd)).length ≤ rest.length := List.length_filter_le _ _
      rw [List.length_cons] at hn
      obtain ⟨ls, hpath, hown, hle⟩ := ih _ (by omega) (rest.filter (· ≠ fd))
        (Function.update found fd (w.kernel.readable fd)) rfl
      have hstep : waitNext args ⟨w, .polling call (fd :: rest) found⟩ (.poll fd) =
          some ⟨w, .polling call (rest.filter (· ≠ fd))
            (Function.update found fd (w.kernel.readable fd))⟩ := by
        rw [← hrest]
        exact if_pos List.mem_cons_self
      have hfound : (fun g => if g ∈ rest.filter (· ≠ fd) then w.kernel.readable g
          else Function.update found fd (w.kernel.readable fd) g) =
          fun g => if g ∈ fd :: rest then w.kernel.readable g else found g := by
        funext g
        by_cases hg : g = fd
        · subst hg
          simp
        · simp [hg]
      rw [hfound] at hpath
      refine ⟨.poll fd :: ls, .cons hstep hpath, ?_, ?_⟩
      · intro l hl
        rcases List.mem_cons.mp hl with rfl | hl
        · trivial
        · exact hown l hl
      · rw [List.length_cons]
        omega

/-- **Without other threads** the steps of the call are `wsaWaitForMultipleEvents`. -/
theorem wait_uninterrupted {w : World} {call : SelectCall} {o : Outcome (BitVec 32)}
    (hcall : waitCall w args.cEvents (some args.lphEvents) args.dwTimeout = some (.ok call))
    (hany : call.readfds.any (leftInSet w.kernel call) = true)
    (h : wsaWaitForMultipleEvents (fun call => .ready (leftInSet w.kernel call)) w args.cEvents
      (some args.lphEvents) args.dwTimeout = some o) :
    ∃ ls, (waitSystem args).Path ⟨w, .called⟩ ls ⟨o.world, .returned o.ret o.lastError⟩ ∧
      ∀ l ∈ ls, l.Own := by
  rw [wsaWaitForMultipleEvents_of_waitCall hcall] at h
  obtain ⟨r, hr, rfl⟩ := Option.map_eq_some_iff.mp h
  have hscan : waitScan w args.cEvents (some args.lphEvents) (leftInSet w.kernel call) =
      some r := hr
  obtain ⟨ls, hpass, hown, -⟩ := exists_pass args w call call.watched (fun _ => false)
  have hleft : (fun fd => if fd ∈ call.watched then w.kernel.readable fd else false) =
      leftInSet w.kernel call := by
    funext fd
    by_cases hfd : call.Watches fd
    · simp [leftInSet, SelectCall.mem_watched, hfd]
    · simp [leftInSet, SelectCall.mem_watched, hfd]
  rw [hleft] at hpass
  have hbuild : waitNext args ⟨w, .called⟩ .build = some ⟨w, .selecting call⟩ := by
    simp only [waitNext, hcall]
  have hreturns : waitNext args ⟨w, .polling call [] (leftInSet w.kernel call)⟩ .selectReturns =
      some ⟨w, .selected (leftInSet w.kernel call)⟩ := if_pos hany
  have hreturned : waitNext args ⟨w, .selected (leftInSet w.kernel call)⟩ .scan =
      some ⟨w, .returned r.1 r.2⟩ := by
    simp only [waitNext, hscan, Option.map_some]
  refine ⟨.build :: .startPass :: (ls ++ [.selectReturns, .scan]), ?_, ?_⟩
  · exact .cons hbuild (.cons rfl (hpass.append (.cons hreturns (.single hreturned))))
  · intro l hl
    simp only [List.mem_cons, List.mem_append, List.not_mem_nil, or_false] at hl
    rcases hl with rfl | rfl | hl | rfl | rfl
    · trivial
    · trivial
    · exact hown l hl
    · trivial
    · trivial

/-! ### Events under steps of other threads -/

/-- The event is live and set. -/
def eventSignaled (w : World) (h : WSAEVENT) : Bool :=
  h.any (fun p => (w.events.cell p).any (·.signaled))

/-- An event that stays live keeps its descriptor. -/
theorem eventFd_kept {w w' : World} {l : Label} (he : Effect w l w') {hd : WSAEVENT} {fd : Fd}
    (h : eventFd w hd = some fd) (h' : eventFd w' hd ≠ none) : eventFd w' hd = some fd := by
  obtain ⟨p, event, rfl, hp, rfl⟩ := eventFd_eq_some.mp h
  have hsame : w'.events = w.events → eventFd w' (some p) = some event.eventfd := by
    intro hevents
    exact eventFd_eq_some.mpr ⟨p, event, rfl, by rw [hevents, hp], rfl⟩
  -- an effect stores at one address at most
  cases he with
  | quiet _ _ _ _ events => exact hsame events
  | signalled q e flag _ _ live _ _ events =>
    apply eventFd_eq_some.mpr
    by_cases hpq : p = q
    · subst hpq
      obtain rfl := Option.some.inj (hp.symm.trans live)
      exact ⟨p, { event with signaled := flag }, rfl, by rw [events, Heap.put_cell_self], rfl⟩
    · exact ⟨p, event, rfl, by rw [events, Heap.put_cell_of_ne _ _ hpq, hp], rfl⟩
  | eventCreated q efd _ _ fresh _ _ events =>
    have hpq : p ≠ q := by
      rintro rfl
      rw [hp] at fresh
      cases fresh
    exact eventFd_eq_some.mpr
      ⟨p, event, rfl, by rw [events, Heap.put_cell_of_ne _ _ hpq, hp], rfl⟩
  | eventClosed q e _ _ _ live _ events =>
    by_cases hpq : p = q
    · subst hpq
      apply absurd _ h'
      simp [eventFd, events]
    · exact eventFd_eq_some.mpr
        ⟨p, event, rfl, by rw [events, Heap.free_cell_of_ne _ hpq, hp], rfl⟩
  | socketOpened _ _ _ _ _ _ events => exact hsame events
  | socketClosed _ _ _ _ _ events => exact hsame events
  | updated _ _ _ _ _ _ _ _ _ events => exact hsame events
  | created _ _ _ _ _ _ _ created => exact hsame created.events

/-- Events that stay live keep their descriptors. -/
theorem eventFds_kept {w w' : World} {l : Label} (he : Effect w l w') {handles : List WSAEVENT}
    {fds : List Fd} (h : handles.map (eventFd w) = fds.map some)
    (h' : ∀ hd ∈ handles, eventFd w' hd ≠ none) : handles.map (eventFd w') = fds.map some := by
  induction handles generalizing fds with
  | nil => exact h
  | cons hd handles ih =>
    cases fds with
    | nil => simp at h
    | cons fd fds =>
      rw [List.map_cons, List.map_cons, List.cons_eq_cons] at h
      rw [List.map_cons, List.map_cons, eventFd_kept he h.1 (h' hd List.mem_cons_self),
        ih h.2 (fun g hg => h' g (List.mem_cons_of_mem hd hg))]

/-- The flag of an event that stays live is the one that the step leaves, or as before. -/
theorem eventSignaled_of_effect {w w' : World} {l : Label} (he : Effect w l w') {p : Addr}
    (hlive : eventFd w (some p) ≠ none) (hlive' : eventFd w' (some p) ≠ none) :
    signals w l = some (p, eventSignaled w' (some p)) ∨
      eventSignaled w' (some p) = eventSignaled w (some p) := by
  have hcell : w'.events.cell p = w.events.cell p →
      eventSignaled w' (some p) = eventSignaled w (some p) := by
    intro h
    show (w'.events.cell p).any _ = (w.events.cell p).any _
    rw [h]
  have hsame : w'.events = w.events → eventSignaled w' (some p) = eventSignaled w (some p) :=
    fun h => hcell (by rw [h])
  cases he with
  | quiet _ _ _ _ events => exact .inr (hsame events)
  | signalled q event flag marks _ _ _ _ events =>
    by_cases hq : p = q
    · subst hq
      left
      rw [marks.signals]
      simp [eventSignaled, events]
    · exact .inr (hcell (by rw [events, Heap.put_cell_of_ne _ _ hq]))
  | eventCreated q efd _ _ fresh _ _ events =>
    have hq : p ≠ q := by
      rintro rfl
      exact hlive (by simp [eventFd, fresh])
    exact .inr (hcell (by rw [events, Heap.put_cell_of_ne _ _ hq]))
  | eventClosed q event _ _ _ _ _ events =>
    have hq : p ≠ q := by
      rintro rfl
      exact hlive' (by simp [eventFd, events])
    exact .inr (hcell (by rw [events, Heap.free_cell_of_ne _ hq]))
  | socketOpened _ _ _ _ _ _ events => exact .inr (hsame events)
  | socketClosed _ _ _ _ _ events => exact .inr (hsame events)
  | updated _ _ _ _ _ _ _ _ _ events => exact .inr (hsame events)
  | created _ _ _ _ _ _ _ created => exact .inr (hsame created.events)

/-- The descriptor of a live event is readable exactly if the event is set. -/
theorem readable_eq_eventSignaled {w : World} (hinv : Inv w) {hd : WSAEVENT} {fd : Fd}
    (h : eventFd w hd = some fd) : w.kernel.readable fd = eventSignaled w hd := by
  obtain ⟨p, event, rfl, hp, rfl⟩ := eventFd_eq_some.mp h
  rw [readable_of_counterIsFlag (hinv.events.flag p event hp)]
  simp [eventSignaled, hp]

/-! ### What is known during the call -/

/-- A call of `select` is made for at most 64 events. -/
theorem le_of_waitCall {w : World} {call : SelectCall}
    (h : waitCall w args.cEvents (some args.lphEvents) args.dwTimeout = some (.ok call)) :
    0 < args.lphEvents.length ∧ args.lphEvents.length ≤ WSA_MAXIMUM_WAIT_EVENTS := by
  simp only [waitCall] at h
  split at h
  · simp at h
  · rename_i hcount
    rw [not_or] at hcount
    have hne : args.cEvents.toNat ≠ 0 := fun hzero => hcount.1 (BitVec.eq_of_toNat_eq hzero)
    rw [← args.length_eq]
    exact ⟨Nat.pos_of_ne_zero hne, Nat.le_of_not_lt hcount.2⟩

/-- A call that returns before `select` fails. -/
theorem failed_of_waitCall {w : World} {r : BitVec 32 × Int}
    (h : waitCall w args.cEvents (some args.lphEvents) args.dwTimeout = some (.error r)) :
    r.1 = WSA_WAIT_FAILED := by
  simp only [waitCall] at h
  split at h
  · obtain rfl := Except.error.inj (Option.some.inj h)
    rfl
  · split at h
    · cases h
    · obtain rfl := Except.error.inj (Option.some.inj h)
      rfl
    · simp at h

/-- At some moment the event at `i` was signalled, or not signalled, as `b` says. -/
def WaitArgs.SeenAs (args : WaitArgs) (visited : List Waiting) (i : Nat) (b : Bool) : Prop :=
  ∃ u ∈ visited, ∃ hd, args.lphEvents[i]? = some hd ∧ eventSignaled u.world hd = b

theorem WaitArgs.SeenAs.mono {visited visited' : List Waiting} {i : Nat} {b : Bool}
    (h : args.SeenAs visited i b) (hsub : ∀ s ∈ visited, s ∈ visited') :
    args.SeenAs visited' i b := by
  obtain ⟨u, hu, hd, hget, hset⟩ := h
  exact ⟨u, hsub u hu, hd, hget, hset⟩

/-- What `select` is called with; `fds` are the descriptors of the array. -/
structure SelectFor (args : WaitArgs) (fds : List Fd) (call : SelectCall) : Prop where
  few : args.lphEvents.length ≤ WSA_MAXIMUM_WAIT_EVENTS
  watches : ∀ fd, call.Watches fd ↔ fd ∈ fds
  timeout : call.timeout = selectTimeout args.dwTimeout
  length : call.readfds.length = args.lphEvents.length

/-- What the call returns, by what was seen of the events. -/
inductive SeenAnswer (args : WaitArgs) (visited : List Waiting) : BitVec 32 → Prop
  | failed : SeenAnswer args visited WSA_WAIT_FAILED
  | index {i : Nat} (lt : i < args.lphEvents.length) (set : args.SeenAs visited i true)
      (before : ∀ j < i, args.SeenAs visited j false) :
      SeenAnswer args visited (WSA_WAIT_EVENT_0 + BitVec.ofNat 32 i)
  | timedOut (few : args.lphEvents.length ≤ WSA_MAXIMUM_WAIT_EVENTS)
      (finite : args.dwTimeout ≠ WSA_INFINITE)
      (quiet : ∀ i < args.lphEvents.length, args.SeenAs visited i false) :
      SeenAnswer args visited WSA_WAIT_TIMEOUT

/-- What is known at each place of the call: what has been found of an event was so at some
    moment. -/
def WaitPc.Known (args : WaitArgs) (fds : List Fd) (visited : List Waiting) : WaitPc → Prop
  | .called => True
  | .selecting call => SelectFor args fds call
  | .polling call rest found => SelectFor args fds call ∧
      rest.length ≤ args.lphEvents.length ∧ (∀ fd, fd ∈ rest ∨ found fd = true → fd ∈ fds) ∧
      ∀ i fd, fds[i]? = some fd → fd ∉ rest → args.SeenAs visited i (found fd)
  | .selected isset => args.lphEvents.length ≤ WSA_MAXIMUM_WAIT_EVENTS ∧ fds.any isset = true ∧
      ∀ i fd, fds[i]? = some fd → args.SeenAs visited i (isset fd)
  | .returned ret _ => SeenAnswer args visited ret

/-- The states visited become more. -/
theorem WaitPc.Known.mono {fds : List Fd} {visited visited' : List Waiting} {pc : WaitPc}
    (h : pc.Known args fds visited) (hsub : ∀ s ∈ visited, s ∈ visited') :
    pc.Known args fds visited' := by
  cases pc with
  | called => trivial
  | selecting call => exact h
  | polling call rest found =>
    obtain ⟨hfor, hlen, hfds, hseen⟩ := h
    exact ⟨hfor, hlen, hfds, fun i fd hfd hrest => (hseen i fd hfd hrest).mono hsub⟩
  | selected isset =>
    obtain ⟨hfew, hany, hseen⟩ := h
    exact ⟨hfew, hany, fun i fd hfd => (hseen i fd hfd).mono hsub⟩
  | returned ret err =>
    cases h with
    | failed => exact .failed
    | index lt set before => exact .index lt (set.mono hsub) (fun j hj => (before j hj).mono hsub)
    | timedOut few finite quiet =>
      exact .timedOut few finite (fun i hi => (quiet i hi).mono hsub)

/-- The world is reachable, and the events have the descriptors `fds`. -/
structure WaitInv (args : WaitArgs) (fds : List Fd) (visited : List Waiting) (s : Waiting) :
    Prop where
  reachable : ∃ tr, system.Run tr s.world
  descriptors : args.lphEvents.map (eventFd s.world) = fds.map some
  known : s.wait.Known args fds visited

/-- The events of the array are live. -/
def WaitArgs.Live (args : WaitArgs) (w : World) : Prop :=
  ∀ hd ∈ args.lphEvents, eventFd w hd ≠ none

instance (w : World) : Decidable (args.Live w) :=
  inferInstanceAs (Decidable (∀ hd ∈ args.lphEvents, eventFd w hd ≠ none))

/-- Live events have descriptors. -/
theorem exists_fds {w : World} {handles : List WSAEVENT} (h : ∀ hd ∈ handles, eventFd w hd ≠ none) :
    ∃ fds : List Fd, handles.map (eventFd w) = fds.map some := by
  induction handles with
  | nil => exact ⟨[], rfl⟩
  | cons hd handles ih =>
    obtain ⟨fd, hfd⟩ := Option.ne_none_iff_exists'.mp (h hd List.mem_cons_self)
    obtain ⟨fds, hfds⟩ := ih (fun g hg => h g (List.mem_cons_of_mem hd hg))
    exact ⟨fd :: fds, by rw [List.map_cons, List.map_cons, hfd, hfds]⟩

/-- Two maps that agree on live events. -/
theorem map_fds {w : World} {handles : List WSAEVENT} {fds : List Fd} {f : Fd → Bool}
    {g : WSAEVENT → Bool} (hlive : handles.map (eventFd w) = fds.map some)
    (hfg : ∀ hd fd, eventFd w hd = some fd → fd ∈ fds → f fd = g hd) :
    fds.map f = handles.map g := by
  induction handles generalizing fds with
  | nil =>
    obtain rfl : fds = [] := by simpa using hlive.symm
    rfl
  | cons hd handles ih =>
    cases fds with
    | nil => simp at hlive
    | cons fd fds =>
      rw [List.map_cons, List.map_cons, List.cons_eq_cons] at hlive
      rw [List.map_cons, List.map_cons, hfg hd fd hlive.1 List.mem_cons_self]
      congr 1
      apply ih hlive.2
      intro hd' fd' h hmem
      exact hfg hd' fd' h (List.mem_cons_of_mem fd hmem)

/-- The first place at which a list maps to `true`. -/
theorem findIdx?_eq_of_map {α β : Type} {l : List α} {m : List β} {f : α → Bool} {g : β → Bool}
    (h : l.map f = m.map g) : l.findIdx? f = m.findIdx? g := by
  have hf := List.findIdx?_map (f := f) (l := l) (p := id)
  have hg := List.findIdx?_map (f := g) (l := m) (p := id)
  rw [h, hg] at hf
  exact hf.symm

variable {fds : List Fd} {visited : List Waiting}

/-- The event that a descriptor belongs to. -/
theorem handle_of_fd {w : World} {handles : List WSAEVENT}
    (h : handles.map (eventFd w) = fds.map some) {i : Nat} {fd : Fd} (hfd : fds[i]? = some fd) :
    ∃ hd, handles[i]? = some hd ∧ eventFd w hd = some fd := by
  have hget := congrArg (·[i]?) h
  simp only [List.getElem?_map, hfd, Option.map_some] at hget
  exact Option.map_eq_some_iff.mp hget

/-- What `select` finds of a descriptor is what the event at its place is. -/
theorem WaitInv.readable (hinv : WaitInv args fds visited s) {i : Nat} {hd : WSAEVENT} {fd : Fd}
    (hfd : fds[i]? = some fd) (hget : args.lphEvents[i]? = some hd) :
    s.world.kernel.readable fd = eventSignaled s.world hd := by
  have hi : Inv s.world := hinv.reachable.elim (fun _ hrun => inv_of_run hrun)
  obtain ⟨hd', hget', hhd⟩ := handle_of_fd hinv.descriptors hfd
  obtain rfl := Option.some.inj (hget'.symm.trans hget)
  exact readable_eq_eventSignaled hi hhd

/-- The first pass of a call of `select`, and each one after it. -/
theorem known_passStarted {call : SelectCall} (h : SelectFor args fds call) :
    (WaitPc.polling call call.watched (fun _ => false)).Known args fds visited := by
  refine ⟨h, ?_, ?_, ?_⟩
  · exact (List.length_filter_le _ _).trans_eq h.length
  · rintro fd (hfd | hfound)
    · exact (h.watches fd).mp (SelectCall.mem_watched.mp hfd)
    · cases hfound
  · intro i fd hfd hrest
    have hwatched := (h.watches fd).mpr (List.mem_of_getElem? hfd)
    exact absurd (SelectCall.mem_watched.mpr hwatched) hrest

/-- A look at one descriptor: its event is as it is found at this moment. -/
theorem known_polled {call : SelectCall} {rest : List Fd} {found : Fd → Bool} {fd : Fd}
    (hinv : WaitInv args fds visited s) (hs : s ∈ visited)
    (pc : s.wait = .polling call rest found) (mem : fd ∈ rest) :
    (WaitPc.polling call (rest.filter (· ≠ fd))
      (Function.update found fd (s.world.kernel.readable fd))).Known args fds visited := by
  obtain ⟨hfor, hlen, hfds, hseen⟩ := (pc ▸ hinv.known : (WaitPc.polling _ _ _).Known _ _ _)
  refine ⟨hfor, (List.length_filter_le _ _).trans hlen, ?_, ?_⟩
  · rintro g (hg | hg)
    · exact hfds g (.inl (List.mem_of_mem_filter hg))
    · by_cases hgfd : g = fd
      · subst hgfd
        exact hfds g (.inl mem)
      · rw [Function.update_of_ne hgfd] at hg
        exact hfds g (.inr hg)
  · intro i g hg hrest
    by_cases hgfd : g = fd
    · subst hgfd
      obtain ⟨hd, hget, -⟩ := handle_of_fd hinv.descriptors hg
      rw [Function.update_self, hinv.readable hg hget]
      exact ⟨s, hs, hd, hget, rfl⟩
    · rw [Function.update_of_ne hgfd]
      refine hseen i g hg (fun hmem => hrest ?_)
      exact List.mem_filter.mpr ⟨hmem, by simpa using hgfd⟩

/-- A pass that has found nothing has looked at all events. -/
theorem not_found_of_quiet {call : SelectCall} {found : Fd → Bool} (h : SelectFor args fds call)
    (quiet : call.readfds.any found = false) {fd : Fd} (hfd : fd ∈ fds) : found fd = false := by
  have hmem := ((h.watches fd).mpr hfd).1
  simpa using List.any_eq_false.mp quiet fd hmem

/-- The scan finds the first descriptor in the set. -/
theorem seenAnswer_of_scan {w : World} {isset : Fd → Bool} {r : BitVec 32 × Int}
    (hfds : args.lphEvents.map (eventFd w) = fds.map some) (hany : fds.any isset = true)
    (hseen : ∀ i fd, fds[i]? = some fd → args.SeenAs visited i (isset fd))
    (hscan : waitScan w args.cEvents (some args.lphEvents) isset = some r) :
    SeenAnswer args visited r.1 := by
  obtain ⟨i, hi⟩ := Option.isSome_iff_exists.mp (List.findIdx?_isSome.trans hany)
  rw [waitScan_of_live hfds args.length_eq, hi] at hscan
  obtain rfl := Option.some.inj hscan
  obtain ⟨hlt, hset, hbefore⟩ := List.findIdx?_eq_some_iff_getElem.mp hi
  refine .index (length_of_live hfds ▸ hlt) ?_ (fun j hj => ?_)
  · have hfound := hseen i _ (List.getElem?_eq_getElem hlt)
    rwa [hset] at hfound
  · have hfound := hseen j _ (List.getElem?_eq_getElem (hj.trans hlt))
    rwa [Bool.eq_false_iff.mpr (hbefore j hj)] at hfound

/-- Every step keeps what is known, as long as the events stay live. -/
theorem WaitInv.step (hinv : WaitInv args fds visited s) (hs : s ∈ visited)
    (hlive : args.Live t.world) (hstep : WaitStep args s l t) :
    WaitInv args fds (t :: visited) t := by
  have hsub : ∀ u ∈ visited, u ∈ t :: visited := fun u hu => List.mem_cons_of_mem t hu
  have hmono := hinv.known.mono hsub
  obtain ⟨⟨tr, hrun⟩, hfds, hknown⟩ := hinv
  cases hstep with
  | @other l w step =>
    obtain ⟨_, he⟩ := effect_of_run hrun step
    exact ⟨⟨_, .step hrun step⟩, eventFds_kept he hfds hlive, hmono⟩
  | @built call pc ok =>
    obtain ⟨hpos, hmax⟩ := le_of_waitCall ok
    obtain ⟨call', hcall', hwatch, htimeout, hlength⟩ :=
      waitCall_of_live hfds args.length_eq hpos hmax args.dwTimeout
    obtain rfl := Except.ok.inj (Option.some.inj (ok.symm.trans hcall'))
    exact ⟨⟨tr, hrun⟩, hfds, hmax, hwatch, htimeout, hlength⟩
  | @rejected r pc error =>
    refine ⟨⟨tr, hrun⟩, hfds, ?_⟩
    show SeenAnswer args _ r.1
    rw [failed_of_waitCall error]
    exact .failed
  | @passStarted call pc =>
    rw [pc] at hknown
    exact ⟨⟨tr, hrun⟩, hfds, known_passStarted hknown⟩
  | polled pc mem =>
    exact ⟨⟨tr, hrun⟩, hfds, (known_polled ⟨⟨tr, hrun⟩, hfds, hknown⟩ hs pc mem).mono hsub⟩
  | passEnded pc quiet again =>
    rw [pc] at hknown
    exact ⟨⟨tr, hrun⟩, hfds, hknown.1⟩
  | failed pc => exact ⟨⟨tr, hrun⟩, hfds, .failed⟩
  | @timedOut call found pc quiet finite =>
    rw [pc] at hmono
    obtain ⟨hfor, -, -, hseen⟩ := hmono
    refine ⟨⟨tr, hrun⟩, hfds, .timedOut hfor.few ?_ ?_⟩
    · rwa [hfor.timeout, Ne, (selectTimeout_spec args.dwTimeout).1] at finite
    · intro i hi
      have hlt : i < fds.length := (length_of_live hfds).symm ▸ hi
      have hfound := hseen i _ (List.getElem?_eq_getElem hlt) List.not_mem_nil
      rwa [not_found_of_quiet hfor quiet (List.getElem_mem hlt)] at hfound
  | @ready call found pc any =>
    rw [pc] at hmono
    obtain ⟨hfor, -, hof, hseen⟩ := hmono
    refine ⟨⟨tr, hrun⟩, hfds, hfor.few, ?_, fun i fd hfd => hseen i fd hfd List.not_mem_nil⟩
    obtain ⟨fd, -, hfound⟩ := List.any_eq_true.mp any
    exact List.any_eq_true.mpr ⟨fd, hof fd (.inr hfound), hfound⟩
  | @scanned isset r pc scan =>
    rw [pc] at hmono
    obtain ⟨-, hany, hseen⟩ := hmono
    exact ⟨⟨tr, hrun⟩, hfds, seenAnswer_of_scan hfds hany hseen scan⟩

/-- What is known holds throughout a run in which the events stay live. -/
theorem waitInv_of_run {tr : List (Waiting × WaitLabel)} (h : (waitSystem args).Run tr s)
    (hlive : ∀ u ∈ visits tr s, args.Live u.world) :
    ∃ fds, WaitInv args fds (visits tr s) s := by
  induction h with
  | @init s hs =>
    obtain ⟨hpc, hrun⟩ := hs
    obtain ⟨fds, hfds⟩ := exists_fds (hlive s (mem_visits_self [] s))
    refine ⟨fds, hrun, hfds, ?_⟩
    rw [hpc]
    trivial
  | @step tr s t l hr hst ih =>
    obtain ⟨fds, hinv⟩ := ih (fun u hu => hlive u (mem_visits_cons hu))
    refine ⟨fds, hinv.step (mem_visits_self tr s) ?_ (waitStep_of_next hst)⟩
    exact hlive t (mem_visits_self _ t)

/-! ### What is returned -/

/-- **Wait for all, as it is.**  Whatever `fWaitAll` says: if the events of the array stay live
    and the call returns the index `i`, then the event at `i` was signalled at some moment of the
    call, and each event before it in the array was at some moment of the call not signalled. -/
theorem wait_all_first (args : WaitArgs) (tr : List (Waiting × WaitLabel)) (s : Waiting)
    (ret : BitVec 32) (lastError : Int) (h : (waitSystem args).Run tr s)
    (hlive : ∀ u ∈ visits tr s, args.Live u.world) (hret : s.wait = .returned ret lastError) :
    ∀ i < args.lphEvents.length, ret = WSA_WAIT_EVENT_0 + BitVec.ofNat 32 i →
      (∃ u ∈ visits tr s, ∃ hd, args.lphEvents[i]? = some hd ∧
        eventSignaled u.world hd = true) ∧
      ∀ j < i, ∃ u ∈ visits tr s, ∃ hd, args.lphEvents[j]? = some hd ∧
        eventSignaled u.world hd = false := by
  intro i hi hindex
  obtain ⟨fds, hinv⟩ := waitInv_of_run h hlive
  have hknown := hinv.known
  rw [hret] at hknown
  have hlt : i < args.cEvents.toNat := args.length_eq ▸ hi
  cases (hknown : SeenAnswer args (visits tr s) ret) with
  | failed => exact absurd hindex.symm (waitEvent_ne_failed hlt)
  | timedOut few _ _ => exact absurd hindex.symm (waitEvent_ne_timeout (lt_of_lt_of_le hi few))
  | @index k lt set before =>
    have hlt' : k < args.cEvents.toNat := args.length_eq ▸ lt
    obtain rfl := waitEvent_inj (hlt'.trans args.cEvents.isLt) (hlt.trans args.cEvents.isLt) hindex
    exact ⟨set, before⟩

/-- Two new events, at the addresses 1 and 2, of which the first is set. -/
def firstOfTwo : List Label :=
  [.createEvent ⟨some 3, some 1⟩, .createEvent ⟨some 4, some 2⟩, .setEvent (some 1)]

/-- A call that waits for both of them, without a timeout. -/
def bothEvents : WaitArgs where
  cEvents := 2
  lphEvents := [some 1, some 2]
  fWaitAll := true
  dwTimeout := WSA_INFINITE
  length_eq := rfl

/-- The call among no other steps returns the first of the two events. -/
theorem bothEvents_run : ∃ tr s, (waitSystem bothEvents).Run tr s ∧
    (∀ u ∈ visits tr s, bothEvents.Live u.world) ∧ s.wait = .returned (WSA_WAIT_EVENT_0 + 0) 0 ∧
    ∀ u ∈ visits tr s, eventSignaled u.world (some 2) = false := by
  have hreach := run_of_exec_isSome World.start next firstOfTwo rfl
  have hcalled := Run.init (M := waitSystem bothEvents) (s := ⟨_, .called⟩) ⟨rfl, _, hreach⟩
  have hselecting := waitRun_step hcalled .build rfl
  have hpass := waitRun_step hselecting .startPass rfl
  have hfirst := waitRun_step hpass (.poll 3) rfl
  have hsecond := waitRun_step hfirst (.poll 4) rfl
  have hselected := waitRun_step hsecond .selectReturns rfl
  have hreturned := waitRun_step hselected .scan rfl
  exact ⟨_, _, hreturned, by decide, rfl, by decide⟩

/-- The theorem in that run. -/
theorem wait_all_first_both : ∃ tr s, (waitSystem bothEvents).Run tr s ∧
    bothEvents.fWaitAll = true ∧ s.wait = .returned (WSA_WAIT_EVENT_0 + 0) 0 ∧
    ∃ u ∈ visits tr s, eventSignaled u.world (some 1) = true := by
  obtain ⟨tr, s, hrun, hlive, hret, -⟩ := bothEvents_run
  obtain ⟨⟨u, hu, hd, hget, hset⟩, -⟩ :=
    wait_all_first bothEvents tr s _ _ hrun hlive hret 0 (by decide) rfl
  obtain rfl : some 1 = hd := Option.some.inj hget
  exact ⟨tr, s, hrun, rfl, hret, u, hu, hset⟩

/-- The call waits for all, and returns although the second event was never signalled. -/
theorem wait_all_returns_early : ∃ args tr s, (waitSystem args).Run tr s ∧ args.fWaitAll = true ∧
    (∀ u ∈ visits tr s, args.Live u.world) ∧
    (∃ i < args.lphEvents.length, s.wait = .returned (WSA_WAIT_EVENT_0 + BitVec.ofNat 32 i) 0) ∧
    ¬ ∀ hd ∈ args.lphEvents, ∃ u ∈ visits tr s, eventSignaled u.world hd = true := by
  obtain ⟨tr, s, hrun, hlive, hret, hnever⟩ := bothEvents_run
  refine ⟨bothEvents, tr, s, hrun, rfl, hlive, ⟨0, by decide, hret⟩, fun hall => ?_⟩
  obtain ⟨u, hu, hset⟩ := hall (some 2) (by decide)
  rw [hnever u hu] at hset
  cases hset

end LinuxWinsock
