import LinuxWinsock.Events.Invariant

namespace LinuxWinsock

open Kernel TransitionSystem

/-!
# What the monitor saw and what `WSAEnumNetworkEvents` reports

The monitor thread signals an event because conditions hold for a socket, and the client
asks `WSAEnumNetworkEvents` which.  `pending` reads off the history of a run what was
signalled for a socket since the last report.

* `reported_iff_allSteps` — the monitor leaves what it saw nowhere, and the only bit ever
  reported is `FD_CONNECT`, for a pending error.  So all that was signalled is reported
  throughout a run exactly if every report is asked for when nothing is pending but
  `EPOLLOUT` for sockets registered for `FD_CONNECT`, and an error is.
-/

variable {w w' : World} {l : Label} {tr : Trace}

/-- The `epoll` conditions with the network events each stands for. -/
def conditions : List (BitVec 32 × BitVec 64) :=
  [(EPOLLIN, FD_READ ||| FD_ACCEPT), (EPOLLOUT, FD_WRITE ||| FD_CONNECT), (EPOLLPRI, FD_OOB),
    (EPOLLRDHUP, FD_CLOSE)]

/-- These are the conditions `WSAEventSelect` translates a mask to. -/
theorem epollEvents_condition (mask : BitVec 64) :
    ∀ c ∈ conditions, epollEvents mask &&& c.1 ≠ 0 ↔ mask &&& c.2 ≠ 0 := by
  intro c hc
  simp only [conditions, List.mem_cons, List.not_mem_nil, or_false] at hc
  unfold epollEvents
  rcases hc with rfl | rfl | rfl | rfl <;>
    by_cases h₁ : mask &&& (FD_READ ||| FD_ACCEPT) = 0 <;>
    by_cases h₂ : mask &&& (FD_WRITE ||| FD_CONNECT) = 0 <;>
    by_cases h₃ : mask &&& FD_OOB = 0 <;>
    by_cases h₄ : mask &&& FD_CLOSE = 0 <;>
    simp only [h₁, h₂, h₃, h₄, ne_eq, not_true_eq_false, not_false_eq_true, if_true, if_false,
      iff_true, iff_false] <;> decide

/-- The step is the monitor's call of `WSASetEvent` on an event: the socket, its registered
    mask, and the conditions `epoll_wait` had reported. -/
def raises (w : World) : Label → Option (SOCKET × BitVec 64 × BitVec 32)
  | .monitor p _ =>
    match w.monitor p, w.maps.cell p with
    | some (.call (some _) rev _), some map => some (map.sock, map.networkEvents, rev)
    | _, _ => none
  | _ => none

/-- The socket whose mapping a call of `WSAEnumNetworkEvents` that returns 0 is for. -/
def reports (w : World) : Label → Option SOCKET
  | .enumNetworkEvents s h hasOut =>
    if (wsaEnumNetworkEvents w s h hasOut).any (fun r => decide (r.1.ret = 0)) then some s
    else none
  | _ => none

/-- The registered masks and the conditions signalled for `s` since the last call of
    `WSAEnumNetworkEvents` for it that returned 0. -/
def pending (s : SOCKET) : Trace → List (BitVec 64 × BitVec 32)
  | [] => []
  | (w, l) :: tr =>
    if reports w l = some s then []
    else match raises w l with
      | some (s', mask, rev) => if s' = s then (mask, rev) :: pending s tr else pending s tr
      | none => pending s tr

/-- For each condition signalled that stands for registered events, one of these is in
    `out`. -/
def Delivered (sent : List (BitVec 64 × BitVec 32)) (out : BitVec 64) : Prop :=
  ∀ e ∈ sent, ∀ c ∈ conditions, e.2 &&& c.1 ≠ 0 → e.1 &&& c.2 ≠ 0 → out &&& (e.1 &&& c.2) ≠ 0

/-- If the latest step was a call of `WSAEnumNetworkEvents` that returned 0, what had been
    signalled for the socket is in its report. -/
def Reported : Trace → Prop
  | (w, .enumNetworkEvents s h hasOut) :: tr =>
    ∀ r, wsaEnumNetworkEvents w s h hasOut = some r → r.1.ret = 0 →
      Delivered (pending s tr) r.2.lNetworkEvents
  | _ => True

/-- If the step asks for the report of a socket that has a mapping, all that is pending for
    it are conditions registered by `FD_CONNECT`, and if there are any, an error is
    pending too. -/
def OnlyConnectErrors (tr : Trace) (w : World) : Label → Prop
  | .enumNetworkEvents s _ hasOut =>
    hasOut = true → (∃ p m, w.maps.cell p = some m ∧ m.sock = s) →
      ∀ e ∈ pending s tr, ∀ c ∈ conditions, e.2 &&& c.1 ≠ 0 → e.1 &&& c.2 ≠ 0 →
        FD_CONNECT &&& (e.1 &&& c.2) ≠ 0 ∧ errorPending w.kernel s
  | _ => True

/-- A report delivers exactly the conditions registered by `FD_CONNECT`, and only if an
    error is pending. -/
theorem delivered_reportError (k : Kernel) (s : SOCKET) (sent : List (BitVec 64 × BitVec 32)) :
    Delivered sent (reportError k s).1.lNetworkEvents ↔
      ∀ e ∈ sent, ∀ c ∈ conditions, e.2 &&& c.1 ≠ 0 → e.1 &&& c.2 ≠ 0 →
        FD_CONNECT &&& (e.1 &&& c.2) ≠ 0 ∧ errorPending k s := by
  unfold Delivered
  rcases reportError_events k s with ⟨herr, hev⟩ | ⟨herr, hev⟩
  · rw [hev]
    constructor
    · intro h e he c hc hrev hmask
      exact ⟨h e he c hc hrev hmask, herr⟩
    · intro h e he c hc hrev hmask
      exact (h e he c hc hrev hmask).1
  · rw [hev]
    have hzero : ∀ b : BitVec 64, 0 &&& b = 0 := fun b => BitVec.zero_and
    constructor
    · intro h e he c hc hrev hmask
      exact absurd (hzero _) (h e he c hc hrev hmask)
    · intro h e he c hc hrev hmask
      exact absurd (h e he c hc hrev hmask).2 herr

/-- One step: a report has all that was signalled exactly under the condition. -/
theorem reported_step (hi : Inv w) (hn : next w l = some w') :
    Reported ((w, l) :: tr) ↔ OnlyConnectErrors tr w l := by
  cases l with
  | enumNetworkEvents s h hasOut =>
    obtain ⟨r, hr, _⟩ := Option.map_eq_some_iff.mp hn
    exact enumReport_iff (P := fun out => Delivered (pending s tr) out.lNetworkEvents) hi hr
      (fun _ _ _ _ => delivered_reportError w.kernel s (pending s tr))
  | _ => exact Iff.rfl

/-- **Reports.**  Throughout a run, each call of `WSAEnumNetworkEvents` that returns 0
    reports all that the monitor signalled for the socket since the last one, exactly if at
    each such call all that is pending are conditions registered by `FD_CONNECT`, and an
    error if there are any. -/
theorem reported_iff_allSteps (h : system.Run tr w) :
    Always (fun tr _ => Reported tr) tr w ↔ AllSteps OnlyConnectErrors tr := by
  refine h.always_iff_allSteps (fun _ _ => trivial) ?_ (AllSteps.trivial tr)
  intro tr s l t hrun _ _ hstep
  exact reported_step (inv_of_run hrun) hstep

/-- A connection attempt fails, the monitor signals it, and the report has `FD_CONNECT`. -/
theorem connect_error_reported : ∃ tr w, system.Run tr w ∧ Always (fun tr _ => Reported tr) tr w ∧
    ∃ w₀ tr₀, tr = (w₀, .enumNetworkEvents 5 (some 200) true) :: tr₀ ∧
      pending 5 tr₀ = [(FD_CONNECT, EPOLLOUT)] := by
  have hrun := run_of_exec_isSome World.start next
    [.createEvent ⟨some 3, some 200⟩, .socket 5 false,
      .eventSelect ⟨some 100, some 6, true, true⟩ 5 (some 200) FD_CONNECT,
      .network 5 EPOLLOUT 111, .monitor 100 .failed, .monitor 100 (.returned [5]),
      .monitor 100 .failed, .monitor 100 .failed, .monitor 100 .failed,
      .enumNetworkEvents 5 (some 200) true] rfl
  refine ⟨_, _, hrun, (reported_iff_allSteps hrun).mpr ?_, _, _, rfl, rfl⟩
  show OnlyConnectErrors _ _ _ ∧ True ∧ True ∧ True ∧ True ∧ True ∧ True ∧ True ∧ True ∧ True ∧ True
  refine ⟨fun _ _ e he c hc hrev hmask => ⟨?_, EPOLLOUT, 111, rfl, by decide⟩, by decide⟩
  obtain rfl : e = (FD_CONNECT, EPOLLOUT) := List.mem_singleton.mp he
  have hconnect : ∀ c ∈ conditions, EPOLLOUT &&& c.1 ≠ 0 → FD_CONNECT &&& c.2 ≠ 0 →
      FD_CONNECT &&& (FD_CONNECT &&& c.2) ≠ 0 := by
    intro c hc
    simp only [conditions, List.mem_cons, List.not_mem_nil, or_false] at hc
    rcases hc with rfl | rfl | rfl | rfl <;> decide
  exact hconnect c hc hrev hmask

/-- A socket becomes readable and the monitor signals its event, but the report that
    follows is empty. -/
theorem readiness_not_reported : ∃ tr w, system.Run tr w ∧ ¬ Reported tr := by
  have hrun := run_of_exec_isSome World.start next
    [.createEvent ⟨some 3, some 200⟩, .socket 5 false,
      .eventSelect ⟨some 100, some 6, true, true⟩ 5 (some 200) FD_READ,
      .network 5 EPOLLIN 0, .monitor 100 .failed, .monitor 100 (.returned [5]),
      .monitor 100 .failed, .monitor 100 .failed, .monitor 100 .failed,
      .enumNetworkEvents 5 (some 200) true] rfl
  refine ⟨_, _, hrun, fun hrep => ?_⟩
  have hdel := hrep _ rfl rfl
  have hbit := hdel (FD_READ, EPOLLIN) (by decide) (EPOLLIN, FD_READ ||| FD_ACCEPT) (by decide)
    (by decide) (by decide)
  exact hbit (by decide)

end LinuxWinsock
