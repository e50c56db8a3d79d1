import LinuxWinsock.Events.EventSelect
import LinuxWinsock.Lib.Transition

namespace LinuxWinsock

open Kernel

/-!
# The event system: clients, monitor threads and the network

The calls of any number of client threads, the steps of the monitor threads and the
changes the network makes to sockets, interleaved.  A call is one step: what it does to
the map it does under `g_map_mutex`, and to an event under the event's mutex.  (The reset
at the end of `WSAEnumNetworkEvents` is a critical section of its own; a run in which it
comes apart from the report is one with `enumNetworkEvents s none` and a later
`resetEvent`.)  A monitor takes one step for each shared access.

* `monitorStep`, `monitorStep_cases` — one step of `event_monitor_thread`, and all it can
  do;
* `next`, `system` — the transition system;
* `closes`, `signals`, `registers` — what a step is to a history of the system: properties
  of runs speak about their latest step that closed, signalled or registered something.
-/

/-! ### The monitor thread -/

/-- What `epoll_wait` answers: a failure with `EINTR`, any other failure, or the watched
    descriptors it reports, none of them on a timeout. -/
inductive EpollAnswer where
  | interrupted
  | failed
  | returned (fds : List Fd)

/-- A batch `epoll_wait` can return on `e`: at most the ten entries it has room for, each
    for another descriptor, of which some watched condition holds. -/
def batchPossible (k : Kernel) (e : Fd) (fds : List Fd) : Bool :=
  decide (fds.length ≤ 10) && decide fds.Nodup && fds.all (fun f => decide (k.revents e f ≠ 0))

namespace World

/-- The state with the monitor of the mapping at `p` moved to `pc`. -/
def setMonitor (w : World) (p : Addr) (pc : MonitorPc) : World :=
  { w with monitor := fun q => if q = p then some pc else w.monitor q }

end World

/-- One step of the thread that monitors the mapping at `p`. -/
def monitorStep (w : World) (p : Addr) (answer : EpollAnswer) : Option World :=
  match w.monitor p, w.maps.cell p with
  -- the test of `running`, under the mutex of the mapping
  | some .top, some map => some (w.setMonitor p (if map.running then .wait else .exited))
  | some .wait, some map =>
    match answer with
    -- EINTR is the one failure the thread survives
    | .interrupted => some (w.setMonitor p .top)
    | .failed => some (w.setMonitor p .exited)
    | .returned fds =>
      if batchPossible w.kernel map.epollFd fds then
        some (w.setMonitor p (.batch (fds.map (w.kernel.revents map.epollFd))))
      else none
  | some (.batch []), some _ => some (w.setMonitor p .top)
  -- `map->event` is read twice, without the mutex: for the test and for the call
  | some (.batch (rev :: left)), some map =>
    some (w.setMonitor p (if map.event = none then .batch left else .checked rev left))
  | some (.checked rev left), some map => some (w.setMonitor p (.call map.event rev left))
  | some (.call event _ left), some _ =>
    (wsaSetEvent w event).map (fun o => o.world.setMonitor p (.batch left))
  | _, _ => none

/-- The steps of the thread as a relation: from where to which state, with `map` the
    mapping it monitors. -/
inductive MonitorMove (w : World) (p : Addr) (map : SocketEventMap) : MonitorPc → World → Prop
  | test : MonitorMove w p map .top (w.setMonitor p (if map.running then .wait else .exited))
  | interrupted : MonitorMove w p map .wait (w.setMonitor p .top)
  | failed : MonitorMove w p map .wait (w.setMonitor p .exited)
  | returned {fds : List Fd} (possible : batchPossible w.kernel map.epollFd fds = true) :
      MonitorMove w p map .wait
        (w.setMonitor p (.batch (fds.map (w.kernel.revents map.epollFd))))
  | done : MonitorMove w p map (.batch []) (w.setMonitor p .top)
  | skip {rev : BitVec 32} {left : List (BitVec 32)} (hnull : map.event = none) :
      MonitorMove w p map (.batch (rev :: left)) (w.setMonitor p (.batch left))
  | check {rev : BitVec 32} {left : List (BitVec 32)} (hnull : map.event ≠ none) :
      MonitorMove w p map (.batch (rev :: left)) (w.setMonitor p (.checked rev left))
  | read {rev : BitVec 32} {left : List (BitVec 32)} :
      MonitorMove w p map (.checked rev left) (w.setMonitor p (.call map.event rev left))
  | signal {event : WSAEVENT} {rev : BitVec 32} {left : List (BitVec 32)} {o : Outcome Bool}
      (set : wsaSetEvent w event = some o) :
      MonitorMove w p map (.call event rev left) (o.world.setMonitor p (.batch left))

/-- What a step of the thread can do. -/
theorem monitorStep_cases {w w' : World} {p : Addr} {answer : EpollAnswer}
    (h : monitorStep w p answer = some w') :
    ∃ pc map, w.monitor p = some pc ∧ w.maps.cell p = some map ∧ MonitorMove w p map pc w' := by
  unfold monitorStep at h
  split at h
  · rename_i map hpc hmap
    obtain rfl := Option.some.inj h
    exact ⟨_, map, hpc, hmap, .test⟩
  · rename_i map hpc hmap
    split at h
    · obtain rfl := Option.some.inj h
      exact ⟨_, map, hpc, hmap, .interrupted⟩
    · obtain rfl := Option.some.inj h
      exact ⟨_, map, hpc, hmap, .failed⟩
    · split at h
      · rename_i hposs
        obtain rfl := Option.some.inj h
        exact ⟨_, map, hpc, hmap, .returned hposs⟩
      · cases h
  · rename_i map hpc hmap
    obtain rfl := Option.some.inj h
    exact ⟨_, map, hpc, hmap, .done⟩
  · rename_i rev left map hpc hmap
    obtain rfl := Option.some.inj h
    refine ⟨_, map, hpc, hmap, ?_⟩
    by_cases hnull : map.event = none
    · rw [if_pos hnull]
      exact .skip hnull
    · rw [if_neg hnull]
      exact .check hnull
  · rename_i map hpc hmap
    obtain rfl := Option.some.inj h
    exact ⟨_, map, hpc, hmap, .read⟩
  · rename_i map hpc hmap
    obtain ⟨o, ho, rfl⟩ := Option.map_eq_some_iff.mp h
    exact ⟨_, map, hpc, hmap, .signal ho⟩
  · cases h

/-! ### The steps of the system -/

/-- The steps: the API calls with their arguments and the answers they get, the opening of
    a socket, a change made by the network, and a step of the monitor of a mapping. -/
inductive Label where
  | createEvent (answers : CreateAnswers)
  | closeEvent (hEvent : WSAEVENT)
  | setEvent (hEvent : WSAEVENT)
  | resetEvent (hEvent : WSAEVENT)
  | waitForMultipleEvents (select : SelectCall → SelectAnswer) (cEvents : BitVec 32)
      (lphEvents : Option (List WSAEVENT)) (dwTimeout : BitVec 32)
  | eventSelect (answers : SelectAnswers) (s : SOCKET) (hEventObject : WSAEVENT)
      (lNetworkEvents : BitVec 64)
  | enumNetworkEvents (s : SOCKET) (hEventObject : WSAEVENT) (hasOut : Bool)
  | socket (fd : Fd) (nonblock : Bool)
  | closesocket (s : SOCKET)
  | disconnectEx (shutdownOk : Bool) (s : SOCKET) (dwFlags : BitVec 32)
  | network (fd : Fd) (ready : BitVec 32) (error : Int)
  | monitor (p : Addr) (answer : EpollAnswer)

/-- Only sockets are handed to the calls that close one: the descriptors the library has
    opened for itself are not known to its clients. -/
def closable (k : Kernel) (s : SOCKET) : Bool := (k.file s).all (·.socketState.isSome)

/-- The step labelled `l`; `none` where the label does not fit the state, or where the code
    would touch memory that is not allocated. -/
def next (w : World) : Label → Option World
  | .createEvent a => if a.possible w then some (wsaCreateEvent a w).world else none
  | .closeEvent h => (wsaCloseEvent w h).map Outcome.world
  | .setEvent h => (wsaSetEvent w h).map Outcome.world
  | .resetEvent h => (wsaResetEvent w h).map Outcome.world
  | .waitForMultipleEvents select c hs t =>
    (wsaWaitForMultipleEvents select w c hs t).map Outcome.world
  | .eventSelect a s h mask =>
    if a.possible w then (wsaEventSelect a w s h mask).map Outcome.world else none
  | .enumNetworkEvents s h hasOut =>
    (wsaEnumNetworkEvents w s h hasOut).map (fun r => r.1.world)
  | .socket fd nonblock =>
    if 0 ≤ fd ∧ (w.kernel.file fd).isNone then
      some { w with kernel := w.kernel.openAt fd nonblock (.socket 0 0) }
    else none
  | .closesocket s => if closable w.kernel s then some (closesocket w s).world else none
  | .disconnectEx ok s flags =>
    -- `shutdown` fails on a descriptor that is not open
    if closable w.kernel s ∧ (ok → (w.kernel.file s).isSome) then
      some (disconnectEx ok w s flags).world
    else none
  | .network fd ready error =>
    (w.kernel.setSocket fd ready error).map (fun k => { w with kernel := k })
  | .monitor p answer => monitorStep w p answer

/-- The transition system of the event functions. -/
def system : TransitionSystem World Label := .ofFun World.start next

/-- A history of the system, the latest step first. -/
abbrev Trace := List (World × Label)

/-! ### What a step closes, signals and registers -/

/-- The descriptor of the client's that the step closes. -/
def closes (w : World) : Label → Option Fd
  | .closeEvent (some p) => (w.events.cell p).map (·.eventfd)
  | .closesocket s => (w.kernel.file s).map (fun _ => s)
  | .disconnectEx ok s flags => if ok ∧ flags &&& TF_REUSE_SOCKET = 0 then some s else none
  | _ => none

/-- The event the step completes a set (`true`) or a reset (`false`) of.  A new event
    starts as if it had been reset. -/
def signals (w : World) : Label → Option (Addr × Bool)
  | .createEvent ⟨some _, some p⟩ => some (p, false)
  | .setEvent (some p) => some (p, true)
  | .resetEvent (some p) => some (p, false)
  | .enumNetworkEvents s (some p) hasOut =>
    if (wsaEnumNetworkEvents w s (some p) hasOut).any (fun r => decide (r.1.ret = 0))
    then some (p, false) else none
  | .monitor q _ =>
    match w.monitor q with
    | some (.call (some p) _ _) => some (p, true)
    | _ => none
  | _ => none

/-- The arguments of a call of `WSAEventSelect` that returns 0. -/
def registers (w : World) : Label → Option (SOCKET × WSAEVENT × BitVec 64)
  | .eventSelect a s h mask =>
    if (wsaEventSelect a w s h mask).any (fun o => decide (o.ret = 0)) then some (s, h, mask)
    else none
  | _ => none

end LinuxWinsock
