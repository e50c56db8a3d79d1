import LinuxWinsock.Events.Invariant

namespace LinuxWinsock

open Kernel TransitionSystem

/-!
# Events as flags

The purpose of an event object is a flag that clients and monitor threads set and reset.
`lastSignal` reads that flag off the history of a run; the code keeps it twice, in the
record and in the counter of the `eventfd`.

* `signaled_eq_lastSignal` — the record's flag is the flag of the history;
* `event_object_invariant` — so is the counter, and hence no set fails, the drain loop of a
  reset ends after one read, and `select` sees the last completed set or reset.
-/

variable {w w' : World} {l : Label} {tr : Trace}

/-- What the last set or reset of the event at `p` did; a new event counts as reset. -/
def lastSignal (p : Addr) : Trace → Option Bool := latestAt signals p

/-- One step: the flags of the records follow the history. -/
theorem signaled_step (he : Effect w l w')
    (hP : ∀ p event, w.events.cell p = some event → lastSignal p tr = some event.signaled) :
    ∀ p event, w'.events.cell p = some event →
      lastSignal p ((w, l) :: tr) = some event.signaled := by
  unfold lastSignal at *
  -- a step that signals nothing and makes no event
  have hkept : signals w l = none →
      (∀ p event, w'.events.cell p = some event → w.events.cell p = some event) →
      ∀ p event, w'.events.cell p = some event →
        latestAt signals p ((w, l) :: tr) = some event.signaled := by
    intro hsig hback p event hp
    rw [latestAt_cons_none hsig]
    exact hP p event (hback p event hp)
  -- a step that leaves `flag` in the record at `q`
  have hput : ∀ q event flag, signals w l = some (q, flag) → event.signaled = flag →
      w'.events = w.events.put q event → ∀ p e, w'.events.cell p = some e →
        latestAt signals p ((w, l) :: tr) = some e.signaled := by
    intro q event flag hsig hflag hevents p e hp
    rw [hevents] at hp
    rw [latestAt_cons_some hsig]
    rcases Heap.cell_of_put hp with ⟨rfl, rfl⟩ | ⟨hpq, hp⟩
    · rw [if_pos rfl, hflag]
    · rw [if_neg (fun heq => hpq heq.symm)]
      exact hP p e hp
  cases he with
  | quiet marks _ _ _ events => exact hkept marks.signals (fun p e hp => by rwa [events] at hp)
  | signalled q event flag marks _ _ _ _ events => exact hput q _ flag marks.signals rfl events
  | eventCreated q efd marks _ _ _ _ events => exact hput q _ false marks.signals rfl events
  | eventClosed q event marks _ _ _ _ events =>
    refine hkept marks.signals (fun p e hp => ?_)
    rw [events] at hp
    exact (Heap.cell_of_free hp).2
  | socketOpened _ _ marks _ _ _ events =>
    exact hkept marks.signals (fun p e hp => by rwa [events] at hp)
  | socketClosed _ marks _ _ _ events =>
    exact hkept marks.signals (fun p e hp => by rwa [events] at hp)
  | updated _ _ _ _ _ marks _ _ _ events =>
    exact hkept marks.signals (fun p e hp => by rwa [events] at hp)
  | created _ _ _ _ _ marks _ created =>
    exact hkept marks.signals (fun p e hp => by rwa [created.events] at hp)

/-- In every reachable state, the flag of a live event is what its last completed set or
    reset left. -/
theorem signaled_eq_lastSignal (h : system.Run tr w) {p : Addr} {event : WSAEventStruct}
    (hp : w.events.cell p = some event) : lastSignal p tr = some event.signaled := by
  refine h.invariant (P := fun tr w => ∀ p event, w.events.cell p = some event →
    lastSignal p tr = some event.signaled) ?_ ?_ p event hp
  · intro s hs p event hp
    obtain rfl : s = World.start := hs
    cases hp
  · intro tr s l t hrun ih hstep
    exact signaled_step (effect_of_run hrun hstep).2 ih

/-- A counter that is the flag is not 0 exactly if the flag is set. -/
theorem readable_of_counterIsFlag {k : Kernel} {event : WSAEventStruct}
    (h : CounterIsFlag k event) : k.readable event.eventfd = event.signaled := by
  have hcount : k.counter event.eventfd = some (if event.signaled then 1 else 0) := h
  rw [readable, hcount]
  cases event.signaled with
  | true => rfl
  | false => rfl

/-- **Events.**  In every reachable state, for every event that has not been closed: the
    counter of its `eventfd` is its flag; `WSASetEvent` and `WSAResetEvent` on it return
    `TRUE`; the drain loop makes at most one successful read and ends; and `select` sees
    the event readable exactly if its last completed set or reset was a set. -/
theorem event_object_invariant (h : system.Run tr w) :
    ∀ p event, w.events.cell p = some event →
      w.kernel.counter event.eventfd = some (if event.signaled then 1 else 0) ∧
      (∃ w', wsaSetEvent w (some p) = some ⟨w', true, 0⟩) ∧
      (∃ w', wsaResetEvent w (some p) = some ⟨w', true, 0⟩) ∧
      (∃ reads k, reads ≤ 1 ∧
        ∀ n, drain event.eventfd (n + drainReads) w.kernel = some (reads, k)) ∧
      (w.kernel.readable event.eventfd = true ↔ lastSignal p tr = some true) := by
  intro p event hp
  have hflag : CounterIsFlag w.kernel event := (inv_of_run h).events.flag p event hp
  obtain ⟨w₁, hset, _⟩ := wsaSetEvent_spec hp hflag
  obtain ⟨w₂, hreset, _⟩ := wsaResetEvent_spec hp hflag
  refine ⟨hflag, ⟨w₁, hset⟩, ⟨w₂, hreset⟩, drain_spec event.eventfd w.kernel, ?_⟩
  rw [readable_of_counterIsFlag hflag, signaled_eq_lastSignal h hp, Option.some.injEq]

/-- Two events, one of them set by the monitor of a socket that has become readable. -/
theorem event_object_after_monitor : ∃ tr w, system.Run tr w ∧
    w.events.cell 200 = some ⟨3, true⟩ ∧ w.events.cell 201 = some ⟨4, false⟩ ∧
    w.kernel.counter 3 = some 1 ∧ (w.kernel.readable 4 = true ↔ lastSignal 201 tr = some true) := by
  have hrun := run_of_exec_isSome World.start next
    [.createEvent ⟨some 3, some 200⟩, .createEvent ⟨some 4, some 201⟩, .socket 5 false,
      .eventSelect ⟨some 100, some 6, true, true⟩ 5 (some 200) FD_READ,
      .network 5 EPOLLIN 0, .setEvent (some 201), .monitor 100 .failed,
      .monitor 100 (.returned [5]), .monitor 100 .failed, .monitor 100 .failed,
      .monitor 100 .failed, .resetEvent (some 201)] rfl
  have hinv := event_object_invariant hrun
  exact ⟨_, _, hrun, rfl, rfl, (hinv 200 ⟨3, true⟩ rfl).1, (hinv 201 ⟨4, false⟩ rfl).2.2.2.2⟩

end LinuxWinsock
