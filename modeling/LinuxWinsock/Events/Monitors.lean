import LinuxWinsock.Events.Closing
import LinuxWinsock.Events.Ownership
import LinuxWinsock.Events.WaitAll

namespace LinuxWinsock

open Kernel TransitionSystem

/-!
# What the monitor threads still do, and how soon

A monitor looks at its mapping's event between `epoll_wait` and `WSASetEvent`, and nobody waits for
it when the event is replaced or the socket closed.

* `Attended`, `attended_of_run` — no monitor is told to stop, and each of its batches has one entry
  at most;
* `stale_signals` — a replaced event is signalled once more at most, and only by a monitor that was
  in `WSASetEvent` with it already;
* `closed_socket_silent` — after its socket is closed a monitor makes one more call at most, even
  if the number is used and registered again;
* `monitor_delivers` — while the socket is ready, the event is set by the seventh step of its
  monitor.
-/

variable {w w' : World} {l : Label} {tr tr' : Trace}

/-! ### Places of a monitor -/

/-- The entries of its batch that a monitor has not done with. -/
def MonitorPc.entries : MonitorPc → Nat
  | .batch left => left.length
  | .checked _ left => left.length + 1
  | .call _ _ left => left.length + 1
  | _ => 0

/-- No monitor is told to stop, and a batch has at most one entry. -/
structure Attended (w : World) : Prop where
  running : ∀ p m, w.maps.cell p = some m → m.running = true
  entries : ∀ p pc, w.monitor p = some pc → pc.entries ≤ 1

/-- A batch is for the mapping's socket, once or not at all. -/
theorem batch_of_possible (hi : Inv w) {p : Addr} {m : SocketEventMap}
    (hm : w.maps.cell p = some m) {fds : List Fd}
    (hposs : batchPossible w.kernel m.epollFd fds = true) :
    fds = [] ∨ fds = [m.sock] ∧ w.kernel.revents m.epollFd m.sock ≠ 0 := by
  obtain ⟨L, hL⟩ := hi.maps
  simp only [batchPossible, Bool.and_eq_true, decide_eq_true_eq, List.all_eq_true] at hposs
  obtain ⟨⟨-, hnodup⟩, hall⟩ := hposs
  have hsock : ∀ f ∈ fds, f = m.sock := by
    intro f hf
    apply hL.watch p m f hm
    intro hnone
    apply hall f hf
    rw [Kernel.revents, hnone]
  cases fds with
  | nil => exact .inl rfl
  | cons f fds =>
    obtain rfl := hsock f List.mem_cons_self
    refine .inr ⟨?_, hall _ List.mem_cons_self⟩
    have hnil : fds = [] := by
      apply List.eq_nil_iff_forall_not_mem.mpr
      intro g hg
      have hgs := hsock g (List.mem_cons_of_mem _ hg)
      exact (List.nodup_cons.mp hnodup).1 (hgs ▸ hg)
    rw [hnil]

/-- Where a step takes a monitor that has no more than one entry. -/
theorem entries_of_move (hi : Inv w) {p : Addr} {m : SocketEventMap}
    (hm : w.maps.cell p = some m) {pc pc' : MonitorPc} (hone : pc.entries ≤ 1)
    (hmove : MonitorMove w p m pc w') (hpc' : w'.monitor p = some pc') : pc'.entries ≤ 1 := by
  cases hmove with
  | test =>
    rw [setMonitor_self] at hpc'
    obtain rfl := Option.some.inj hpc'
    split
    · exact Nat.zero_le _
    · exact Nat.zero_le _
  | @returned fds hposs =>
    rw [setMonitor_self] at hpc'
    obtain rfl := Option.some.inj hpc'
    show (fds.map _).length ≤ 1
    rw [List.length_map]
    rcases batch_of_possible hi hm hposs with rfl | ⟨rfl, -⟩
    · exact Nat.zero_le _
    · exact Nat.le_refl _
  | interrupted | failed | done =>
    rw [setMonitor_self] at hpc'
    obtain rfl := Option.some.inj hpc'
    exact Nat.zero_le _
  | skip hnull =>
    rw [setMonitor_self] at hpc'
    obtain rfl := Option.some.inj hpc'
    exact Nat.le_of_succ_le hone
  | check hnull =>
    rw [setMonitor_self] at hpc'
    obtain rfl := Option.some.inj hpc'
    exact hone
  | read =>
    rw [setMonitor_self] at hpc'
    obtain rfl := Option.some.inj hpc'
    exact hone
  | signal hset =>
    rw [setMonitor_self] at hpc'
    obtain rfl := Option.some.inj hpc'
    exact Nat.le_of_succ_le hone

/-- No step clears `running`. -/
theorem running_of_effect (ha : Attended w) (he : Effect w l w') :
    ∀ p m, w'.maps.cell p = some m → m.running = true := by
  have hframe : Frame w l w' → ∀ p m, w'.maps.cell p = some m → m.running = true := by
    intro hf p m hm
    rw [hf.maps] at hm
    exact ha.running p m hm
  cases he with
  | quiet _ frame => exact hframe frame
  | signalled _ _ _ _ frame => exact hframe frame
  | eventCreated _ _ _ frame => exact hframe frame
  | eventClosed _ _ _ frame => exact hframe frame
  | socketOpened _ _ _ frame => exact hframe frame
  | socketClosed _ _ frame => exact hframe frame
  | updated _ _ _ q n _ live _ _ _ maps =>
    intro p m hm
    rw [maps] at hm
    rcases Heap.cell_of_put hm with ⟨-, rfl⟩ | ⟨-, hm⟩
    · exact ha.running q n live
    · exact ha.running p m hm
  | created _ _ _ map epollFd _ _ hc =>
    intro p m hm
    rw [hc.maps] at hm
    rcases Heap.cell_of_put hm with ⟨-, rfl⟩ | ⟨-, hm⟩
    · rfl
    · exact ha.running p m hm

theorem attended_of_effect (hi : Inv w) (ha : Attended w) (h : next w l = some w')
    (he : Effect w l w') : Attended w' := by
  refine ⟨running_of_effect ha he, fun p pc hpc => ?_⟩
  rcases monitor_cases h he p with ⟨hsame, -⟩ | ⟨s, hd, mask, epollFd, hc⟩ |
    ⟨answer, pc₀, m, -, hpc₀, hm, hmove⟩
  · rw [hsame] at hpc
    exact ha.entries p pc hpc
  · rw [hc.monitor] at hpc
    obtain rfl := Option.some.inj ((if_pos rfl).symm.trans hpc)
    exact Nat.zero_le _
  · exact entries_of_move hi hm (ha.entries p pc₀ hpc₀) hmove hpc

theorem attended_of_run (h : system.Run tr w) : Attended w := by
  refine h.invariant (P := fun _ w => Attended w) ?_ ?_
  · intro s hs
    obtain rfl : s = World.start := hs
    exact ⟨fun p m hm => (by cases hm), fun p pc hpc => (by cases hpc)⟩
  · intro tr s l t hrun ha hstep
    obtain ⟨hi, he⟩ := effect_of_run hrun hstep
    exact attended_of_effect hi ha hstep he

/-! ### The calls of `WSASetEvent` -/

/-- The event that a monitor is in `WSASetEvent` with. -/
def MonitorPc.calling : MonitorPc → Option WSAEVENT
  | .call event _ _ => some event
  | _ => none

/-- The event that the monitor of `p` is in `WSASetEvent` with. -/
def calling (w : World) (p : Addr) : Option WSAEVENT := (w.monitor p).bind MonitorPc.calling

/-- The step is a call of `WSASetEvent` by the monitor of `p`, with an event that `which` picks. -/
def setsBy (p : Addr) (which : WSAEVENT → Bool) (w : World) : Label → Bool
  | .monitor q _ => decide (q = p) && (calling w p).any which
  | _ => false

theorem setsBy_own (w : World) (p : Addr) (which : WSAEVENT → Bool) (answer : EpollAnswer) :
    setsBy p which w (.monitor p answer) = (calling w p).any which := by
  show (decide (p = p) && (calling w p).any which) = _
  rw [decide_eq_true rfl, Bool.true_and]

theorem setsBy_other {p : Addr} (which : WSAEVENT → Bool)
    (hl : ∀ answer, l ≠ .monitor p answer) : setsBy p which w l = false := by
  cases l with
  | monitor q answer =>
    have hqp : q ≠ p := by
      rintro rfl
      exact hl answer rfl
    show (decide (q = p) && (calling w p).any which) = false
    rw [decide_eq_false hqp, Bool.false_and]
  | _ => rfl

theorem calling_of_eq {p : Addr} {pc : MonitorPc} (h : w.monitor p = some pc) :
    calling w p = pc.calling := by
  rw [calling, h]
  rfl

/-- After its call of `WSASetEvent`, or before it reads the event, a monitor is in none; what it
    reads is the event of its mapping. -/
theorem calling_of_move {p : Addr} {m : SocketEventMap} {pc : MonitorPc}
    (hmove : MonitorMove w p m pc w') : calling w' p = none ∨
      calling w' p = some m.event ∧ ∃ rev left, pc = .checked rev left := by
  cases hmove with
  | test =>
    rw [calling_of_eq (setMonitor_self _ _)]
    split
    · exact .inl rfl
    · exact .inl rfl
  | @read rev left =>
    rw [calling_of_eq (setMonitor_self _ _)]
    exact .inr ⟨rfl, rev, left, rfl⟩
  | _ =>
    rw [calling_of_eq (setMonitor_self _ _)]
    exact .inl rfl

/-! ### After the event was replaced -/

/-- The mapping at `p` is for the socket `s`, and its event is not `e`. -/
def Replaced (p : Addr) (s : SOCKET) (e : Addr) (w : World) : Prop :=
  Inv w ∧ ∃ m, w.maps.cell p = some m ∧ m.sock = s ∧ m.event ≠ some e

/-- The calls with `e` that the monitor of `p` is in: one or none. -/
def callsIn (p : Addr) (e : Addr) (w : World) : Nat :=
  ((calling w p).any (fun h => decide (h = some e))).toNat

theorem callsIn_eq_zero {p e : Addr} {h : Option WSAEVENT} (hcalling : calling w p = h)
    (hne : h ≠ some (some e)) : callsIn p e w = 0 := by
  rw [callsIn, hcalling]
  cases h with
  | none => rfl
  | some event =>
    rw [Option.any_some, decide_eq_false (fun heq => hne (congrArg some heq))]
    rfl

/-- A call with `e` uses up the one that the monitor was in, and none is added. -/
theorem replaced_step {p : Addr} {s : SOCKET} {e : Addr} (hr : Replaced p s e w)
    (hreg : ∀ mask, registers w l ≠ some (s, some e, mask)) (h : next w l = some w') :
    Replaced p s e w' ∧
      callsIn p e w' + (setsBy p (fun h => decide (h = some e)) w l).toNat ≤ callsIn p e w := by
  obtain ⟨hi, m, hm, rfl, hne⟩ := hr
  have he := effect_of_next hi h
  obtain ⟨n, hn, hsock, -, hevent⟩ := mapping_of_effect he hm
  have hne' : n.event ≠ some e := by
    rcases hevent with heq | ⟨mask, hmask⟩
    · rwa [heq]
    · intro heq
      rw [heq] at hmask
      exact hreg mask hmask
  refine ⟨⟨inv_of_effect hi he, n, hn, hsock, hne'⟩, ?_⟩
  rcases monitor_cases h he p with ⟨hsame, hl⟩ | ⟨s, hd, mask, epollFd, hc⟩ |
    ⟨answer, pc, m', rfl, hpc, hm', hmove⟩
  · have hcalling : calling w' p = calling w p := by rw [calling, hsame, calling]
    rw [setsBy_other _ hl, callsIn, hcalling, callsIn]
    exact Nat.le_refl _
  · -- the monitor has a mapping already
    rw [hc.fresh] at hm
    cases hm
  · obtain rfl := Option.some.inj (hm.symm.trans hm')
    rw [setsBy_own]
    have hzero : callsIn p e w' = 0 := by
      rcases calling_of_move hmove with hnone | ⟨hread, -⟩
      · exact callsIn_eq_zero hnone (by simp)
      · exact callsIn_eq_zero hread (fun heq => hne (Option.some.inj heq))
    rw [hzero, callsIn]
    exact Nat.le_of_eq (Nat.zero_add _)

/-- **A replaced event is signalled once more at most.**  From any state that the system reaches in
    which the mapping at `p` has another event than `e` or none, as long as no call of
    `WSAEventSelect` gives `e` to its socket again, its monitor calls `WSASetEvent(e)` no more often
    than it is in that call already: once or not at all. -/
theorem stale_signals (h : system.Run tr w) {p e : Addr} {m : SocketEventMap}
    (hm : w.maps.cell p = some m) (hne : m.event ≠ some e) (h' : (system.startingAt w).Run tr' w')
    (hreg : AllSteps (fun _ u l => ∀ mask, registers u l ≠ some (m.sock, some e, mask)) tr') :
    tr'.countP (fun x => setsBy p (fun h => decide (h = some e)) x.1 x.2) ≤
      if calling w p = some (some e) then 1 else 0 := by
  have hcount := Run.countP_add_le (M := system) (I := Replaced p m.sock e) (callsIn p e)
    (fun tr s l t hr hok hstep => replaced_step hr hok hstep) h' hreg
    ⟨inv_of_run h, m, hm, rfl, hne⟩
  refine le_trans (Nat.le_of_add_right_le hcount.2) ?_
  split
  · exact Bool.toNat_le _
  · rename_i hcalling
    exact Nat.le_of_eq (callsIn_eq_zero rfl hcalling)

/-- The socket is ready, and its monitor has read the event. -/
def readFive : List Label :=
  registerFive ++ [.network 5 EPOLLIN 0, .monitor 100 .failed, .monitor 100 (.returned [5]),
    .monitor 100 .failed, .monitor 100 .failed]

/-- The state after that. -/
def fiveRead : World := ((exec next readFive [] World.start).getD ([], World.start)).2

/-- The state after that, and after the socket was dissociated from its event. -/
def fiveDissociated : World :=
  ((exec next (readFive ++ [.eventSelect ⟨none, none, false, false⟩ 5 none 0]) []
    World.start).getD ([], World.start)).2

/-- The one signal that may still come does. -/
theorem stale_signals_one : ∃ tr w tr' w', system.Run tr w ∧ (system.startingAt w).Run tr' w' ∧
    tr'.countP (fun x => setsBy 100 (fun h => decide (h = some 200)) x.1 x.2) = 1 ∧
    (if calling w 100 = some (some 200) then 1 else 0) = 1 := by
  have hrun := run_of_exec_isSome World.start next
    (readFive ++ [.eventSelect ⟨none, none, false, false⟩ 5 none 0]) rfl
  have hrun' := run_of_exec_isSome fiveDissociated next [.monitor 100 .failed] rfl
  have hle := stale_signals hrun (p := 100) (e := 200) rfl (by simp) hrun'
    ⟨fun mask heq => (by cases heq), trivial⟩
  exact ⟨_, fiveDissociated, _, _, hrun, hrun', le_antisymm hle (by decide), by decide⟩

/-! ### After the socket was closed -/

/-- The `epoll` instance of the mapping at `p` watches nothing. -/
def Unwatched (p : Addr) (w : World) : Prop :=
  Inv w ∧ ∃ m, w.maps.cell p = some m ∧ ∀ f, w.kernel.interest m.epollFd f = none

/-- The entries that the monitor of `p` has not done with. -/
def entriesAt (p : Addr) (w : World) : Nat := (w.monitor p).elim 0 MonitorPc.entries

theorem entriesAt_of_eq {p : Addr} {pc : MonitorPc} (h : w.monitor p = some pc) :
    entriesAt p w = pc.entries := by
  rw [entriesAt, h]
  rfl

/-- Nothing is added to the `epoll` instance of a mapping: a socket is added only to an instance
    that was just made. -/
theorem interest_none_of_effect (hi : Inv w) (he : Effect w l w') {p : Addr} {m : SocketEventMap}
    (hm : w.maps.cell p = some m) {f : Fd} (hnone : w.kernel.interest m.epollFd f = none) :
    w'.kernel.interest m.epollFd f = none := by
  obtain ⟨L, hL⟩ := hi.maps
  cases hreg : registers w l with
  | none =>
    obtain ⟨-, hint⟩ := interest_of_effect he hreg
    by_contra hsome
    exact (hint _ _ hsome).1 hnone
  | some r =>
    obtain ⟨s, hd, mask⟩ := r
    cases he.registration hreg with
    | updated q n _ _ kernel _ _ => rwa [kernel]
    | created map epollFd _ created =>
      rw [created.interest, if_neg (hL.epollFd_ne created hm)]
      exact hnone

theorem unwatched_step {p : Addr} (hu : Unwatched p w) (h : next w l = some w') :
    Unwatched p w' ∧ entriesAt p w' + (setsBy p (fun _ => true) w l).toNat ≤ entriesAt p w := by
  obtain ⟨hi, m, hm, hnone⟩ := hu
  have he := effect_of_next hi h
  obtain ⟨n, hn, -, hfd, -⟩ := mapping_of_effect he hm
  refine ⟨⟨inv_of_effect hi he, n, hn, fun f => ?_⟩, ?_⟩
  · rw [hfd]
    exact interest_none_of_effect hi he hm (hnone f)
  rcases monitor_cases h he p with ⟨hsame, hl⟩ | ⟨s, hd, mask, epollFd, hc⟩ |
    ⟨answer, pc, m', rfl, hpc, hm', hmove⟩
  · rw [setsBy_other _ hl, entriesAt, hsame]
    exact Nat.le_refl _
  · rw [hc.fresh] at hm
    cases hm
  · obtain rfl := Option.some.inj (hm.symm.trans hm')
    rw [setsBy_own, calling_of_eq hpc, entriesAt_of_eq hpc]
    cases hmove with
    | test =>
      rw [entriesAt_of_eq (setMonitor_self _ _)]
      split
      · exact Nat.le_refl 0
      · exact Nat.le_refl 0
    | interrupted | failed | done =>
      rw [entriesAt_of_eq (setMonitor_self _ _)]
      exact Nat.le_refl 0
    | @returned fds hposs =>
      -- nothing is watched, so the batch is empty
      rcases batch_of_possible hi hm hposs with rfl | ⟨-, hready⟩
      · rw [entriesAt_of_eq (setMonitor_self _ _)]
        exact Nat.le_refl 0
      · rw [Kernel.revents, hnone] at hready
        exact absurd rfl hready
    | skip =>
      rw [entriesAt_of_eq (setMonitor_self _ _)]
      exact Nat.le_succ _
    | check | read | signal =>
      rw [entriesAt_of_eq (setMonitor_self _ _)]
      exact Nat.le_refl _

/-- What closes registers nothing. -/
theorem registers_of_closes {s : Fd} (h : closes w l = some s) : registers w l = none := by
  cases l with
  | eventSelect a s hd mask => cases h
  | _ => rfl

/-- **A closed socket is silent.**  Once the descriptor of a mapping was closed, the mapping's
    monitor calls `WSASetEvent` no more often than it has entries left, so once or not at all,
    whatever the clients do next: the number may be used for another socket, and that be registered
    by a call of `WSAEventSelect` that returns 0. -/
theorem closed_socket_silent (h : system.Run tr w) {p : Addr} {m : SocketEventMap}
    (hm : w.maps.cell p = some m) (hcl : closes w l = some m.sock) {w₁ : World}
    (hstep : next w l = some w₁) (h' : (system.startingAt w₁).Run tr' w') :
    tr'.countP (fun x => setsBy p (fun _ => true) x.1 x.2) ≤ entriesAt p w ∧ entriesAt p w ≤ 1 := by
  obtain ⟨hi, he⟩ := effect_of_run h hstep
  obtain ⟨L, hL⟩ := hi.maps
  obtain ⟨n, hn, -, hfd, -⟩ := mapping_of_effect he hm
  -- the closed file leaves the set of the mapping's instance, which had nothing else in it
  have hnone : ∀ f, w₁.kernel.interest n.epollFd f = none := by
    intro f
    rw [hfd]
    by_contra hsome
    obtain ⟨-, hback⟩ := interest_of_effect he (registers_of_closes hcl)
    obtain ⟨hbefore, hother⟩ := hback _ _ hsome
    obtain rfl := hL.watch p m f hm hbefore
    exact hother hcl
  have hentries : entriesAt p w₁ = entriesAt p w := by
    rcases monitor_cases hstep he p with ⟨hsame, -⟩ | ⟨s, hd, mask, epollFd, hc⟩ |
      ⟨answer, pc, m', rfl, -⟩
    · rw [entriesAt, hsame, entriesAt]
    · rw [hc.fresh] at hm
      cases hm
    · cases hcl
  have hcount := Run.countP_add_le (M := system) (I := Unwatched p) (entriesAt p)
    (fun tr s l t hu _ hstep => unwatched_step hu hstep) h' (AllSteps.trivial tr')
    ⟨inv_of_effect hi he, n, hn, hnone⟩
  refine ⟨?_, ?_⟩
  · rw [← hentries]
    exact Nat.le_of_add_right_le hcount.2
  · rw [entriesAt]
    cases hpc : w.monitor p with
    | none => exact Nat.zero_le _
    | some pc => exact (attended_of_run h).entries p pc hpc

/-- The socket is closed while its monitor is in `WSASetEvent`, and its number is used and
    registered again. -/
theorem closed_socket_silent_reused : ∃ tr w w₁ tr' w', system.Run tr w ∧
    next w (.closesocket 5) = some w₁ ∧ (system.startingAt w₁).Run tr' w' ∧
    lastSelect 5 tr' = some (some 200, FD_READ) ∧
    tr'.countP (fun x => setsBy 100 (fun _ => true) x.1 x.2) ≤ 1 := by
  have hrun := run_of_exec_isSome World.start next readFive rfl
  have hrun' := run_of_exec_isSome (closesocket fiveRead 5).world next
    [.monitor 100 .failed, .socket 5 false,
      .eventSelect ⟨none, none, false, false⟩ 5 (some 200) FD_READ, .network 5 EPOLLIN 0,
      .monitor 100 .failed, .monitor 100 .failed, .monitor 100 (.returned [])] rfl
  have hsilent := closed_socket_silent hrun (p := 100) (l := .closesocket 5) rfl (by decide) rfl
    hrun'
  exact ⟨_, fiveRead, _, _, _, hrun, rfl, hrun', by decide, hsilent.1.trans hsilent.2⟩

/-! ### While the socket is ready -/

/-- The event at `e` is set. -/
abbrev IsSet (e : Addr) (w : World) : Prop := eventSignaled w (some e) = true

/-- The steps a monitor of a ready socket with the event `e` takes until the event is set. -/
def MonitorPc.ahead (e : Addr) : MonitorPc → Nat
  | .call (some e') _ _ => if e' = e then 1 else 7
  | .call none _ _ => 7
  | .checked _ _ => 2
  | .batch (_ :: _) => 3
  | .wait => 4
  | .top => 5
  | .batch [] => 6
  | .exited => 0

theorem MonitorPc.ahead_le (e : Addr) (pc : MonitorPc) : pc.ahead e ≤ 7 := by
  cases pc with
  | call event rev left =>
    cases event with
    | none => exact Nat.le_refl 7
    | some e' =>
      show (if e' = e then 1 else 7) ≤ 7
      split
      · exact Nat.le_of_ble_eq_true rfl
      · exact Nat.le_refl 7
  | batch left =>
    cases left with
    | nil => exact Nat.le_of_ble_eq_true rfl
    | cons rev left => exact Nat.le_of_ble_eq_true rfl
  | _ => exact Nat.le_of_ble_eq_true rfl

/-- As long as a monitor has not returned, some step is ahead. -/
theorem MonitorPc.ahead_pos (e : Addr) {pc : MonitorPc} (h : pc ≠ .exited) : 0 < pc.ahead e := by
  cases pc with
  | call event rev left =>
    cases event with
    | none => exact Nat.succ_pos 6
    | some e' =>
      show 0 < if e' = e then 1 else 7
      split
      · exact Nat.succ_pos 0
      · exact Nat.succ_pos 6
  | batch left =>
    cases left with
    | nil => exact Nat.succ_pos 5
    | cons rev left => exact Nat.succ_pos 2
  | exited => exact absurd rfl h
  | _ => exact Nat.succ_pos _

/-- The mapping at `p` ties the socket `s` to the event `e`, and has a monitor that runs. -/
structure Serving (p : Addr) (s : SOCKET) (e : Addr) (w : World) : Prop where
  inv : Inv w
  attended : Attended w
  mapping : ∃ m, w.maps.cell p = some m ∧ m.sock = s ∧ m.event = some e
  monitor : ∃ pc, w.monitor p = some pc ∧ pc ≠ .exited

/-- `epoll_wait` returns a batch, and an empty one only if the mapping's socket is not ready. -/
def EpollAnswer.honest (k : Kernel) (m : SocketEventMap) : EpollAnswer → Bool
  | .returned fds => !fds.isEmpty || decide (k.revents m.epollFd m.sock = 0)
  | _ => false

/-- What `epoll_wait` answers to a monitor that calls it is honest. -/
def epollHonest (w : World) : Label → Bool
  | .monitor p answer =>
    decide (w.monitor p ≠ some .wait) || (w.maps.cell p).all (fun m => answer.honest w.kernel m)
  | _ => true

/-- The socket of the mapping at `p` is ready for what the mapping's instance watches. -/
def ready (p : Addr) (w : World) : Bool :=
  (w.maps.cell p).all (fun m => decide (w.kernel.revents m.epollFd m.sock ≠ 0))

/-- What is registered for the socket `s` is the event `e` again, if anything is. -/
def registersOnly (s : SOCKET) (e : Addr) (w : World) (l : Label) : Bool :=
  (registers w l).all (fun r => decide (r.1 = s → r.2.1 = some e))

/-- The socket `s` of the mapping at `p` is ready, `epoll_wait` says so, and the step leaves the
    socket its event. -/
structure Undisturbed (p : Addr) (s : SOCKET) (e : Addr) (w : World) (l : Label) : Prop where
  ready : ready p w = true
  epoll : epollHonest w l = true
  registers : registersOnly s e w l = true

instance (p : Addr) (s : SOCKET) (e : Addr) (w : World) (l : Label) :
    Decidable (Undisturbed p s e w l) :=
  decidable_of_iff (ready p w = true ∧ epollHonest w l = true ∧ registersOnly s e w l = true)
    ⟨fun h => ⟨h.1, h.2.1, h.2.2⟩, fun h => ⟨h.ready, h.epoll, h.registers⟩⟩

/-- The mapping stays what it is under a step that registers nothing else for its socket. -/
theorem serving_mapping {p : Addr} {s : SOCKET} {e : Addr} (hs : Serving p s e w)
    (he : Effect w l w') (hreg : registersOnly s e w l = true) :
    ∃ m, w'.maps.cell p = some m ∧ m.sock = s ∧ m.event = some e := by
  obtain ⟨m, hm, rfl, hme⟩ := hs.mapping
  obtain ⟨n, hn, hsock, -, hevent⟩ := mapping_of_effect he hm
  refine ⟨n, hn, hsock, ?_⟩
  rcases hevent with heq | ⟨mask, hmask⟩
  · rw [heq, hme]
  · unfold registersOnly at hreg
    rw [hmask] at hreg
    exact of_decide_eq_true hreg rfl

/-- A call of `WSASetEvent` that returns leaves the event set. -/
theorem isSet_of_wsaSetEvent (hi : Inv w) {e : Addr} {o : Outcome Bool}
    (h : wsaSetEvent w (some e) = some o) : IsSet e o.world := by
  cases hcell : w.events.cell e with
  | none =>
    rw [wsaSetEvent, hcell] at h
    cases h
  | some event =>
    obtain ⟨w₁, hset, hs⟩ := wsaSetEvent_spec hcell (hi.events.flag e event hcell)
    obtain rfl := Option.some.inj (hset.symm.trans h)
    show (w₁.events.cell e).any (·.signaled) = true
    rw [hs.events, Heap.put_cell_self]
    rfl

/-- Elsewhere than in `epoll_wait` a step of the monitor sets the event or takes it nearer. -/
theorem ahead_of_move {p : Addr} {s : SOCKET} {e : Addr} (hs : Serving p s e w)
    {m : SocketEventMap} (hm : w.maps.cell p = some m) (hme : m.event = some e) {pc : MonitorPc}
    (hpc : w.monitor p = some pc) (hwait : pc ≠ .wait) (hmove : MonitorMove w p m pc w') :
    IsSet e w' ∨ ∃ pc', w'.monitor p = some pc' ∧ pc' ≠ .exited ∧ pc'.ahead e < pc.ahead e := by
  cases hmove with
  | test =>
    rw [if_pos (hs.attended.running p m hm)]
    exact .inr ⟨.wait, setMonitor_self _ _, by simp, Nat.lt_succ_self 4⟩
  | interrupted | failed | returned => exact absurd rfl hwait
  | done => exact .inr ⟨.top, setMonitor_self _ _, by simp, Nat.lt_succ_self 5⟩
  | skip hnull =>
    rw [hme] at hnull
    cases hnull
  | check hnull => exact .inr ⟨_, setMonitor_self _ _, by simp, Nat.lt_succ_self 2⟩
  | read =>
    refine .inr ⟨_, setMonitor_self _ _, by simp, ?_⟩
    rw [hme]
    show (if e = e then 1 else 7) < 2
    rw [if_pos rfl]
    exact Nat.lt_succ_self 1
  | @signal event rev left o hset =>
    by_cases hevent : event = some e
    · obtain rfl := hevent
      exact .inl (isSet_of_wsaSetEvent hs.inv hset)
    · -- a call with another event was the last one of its batch
      have hleft : left = [] := by
        have hone : left.length + 1 ≤ 1 := hs.attended.entries p _ hpc
        exact List.eq_nil_of_length_eq_zero (Nat.le_zero.mp (Nat.le_of_succ_le_succ hone))
      obtain rfl := hleft
      refine .inr ⟨_, setMonitor_self _ _, by simp, ?_⟩
      have hseven : (MonitorPc.call event rev []).ahead e = 7 := by
        cases event with
        | none => rfl
        | some e' => exact if_neg (fun heq => hevent (congrArg some heq))
      rw [hseven]
      exact Nat.lt_succ_self 6

/-- An own step of the monitor sets the event or takes it nearer to that. -/
theorem ahead_of_own {p : Addr} {s : SOCKET} {e : Addr} (hs : Serving p s e w)
    (hready : ready p w = true) {answer : EpollAnswer}
    (hepoll : epollHonest w (.monitor p answer) = true)
    (h : next w (.monitor p answer) = some w') {pc : MonitorPc} (hpc : w.monitor p = some pc) :
    IsSet e w' ∨ ∃ pc', w'.monitor p = some pc' ∧ pc' ≠ .exited ∧ pc'.ahead e < pc.ahead e := by
  obtain ⟨m, hm, rfl, hme⟩ := hs.mapping
  by_cases hwait : pc = .wait
  · obtain rfl := hwait
    have hne : w.kernel.revents m.epollFd m.sock ≠ 0 := by
      rw [ready, hm] at hready
      exact of_decide_eq_true hready
    have hanswer : answer.honest w.kernel m = true := by
      simpa only [epollHonest, hpc, hm, ne_eq, not_true_eq_false, decide_false, Bool.false_or,
        Option.all_some] using hepoll
    cases answer with
    | interrupted => cases hanswer
    | failed => cases hanswer
    | returned fds =>
      simp only [next, monitorStep, hpc, hm] at h
      split at h
      · rename_i hposs
        obtain rfl := Option.some.inj h
        refine .inr ⟨_, setMonitor_self _ _, by simp, ?_⟩
        rcases batch_of_possible hs.inv hm hposs with rfl | ⟨rfl, -⟩
        · -- the batch is not empty, since the socket is ready
          exact absurd (of_decide_eq_true hanswer) hne
        · exact Nat.lt_succ_self 3
      · cases h
  · obtain ⟨pc', m', hpc', hm', hmove⟩ := monitorStep_cases h
    obtain rfl := Option.some.inj (hpc.symm.trans hpc')
    obtain rfl := Option.some.inj (hm.symm.trans hm')
    exact ahead_of_move hs hm hme hpc hwait hmove

/-- The steps that the monitor of `p` takes until the event is set; none if it is. -/
def stepsAhead (p e : Addr) (w : World) : Nat :=
  if IsSet e w then 0 else (w.monitor p).elim 0 (MonitorPc.ahead e)

theorem stepsAhead_of_isSet {p e : Addr} (h : IsSet e w) : stepsAhead p e w = 0 := if_pos h

theorem stepsAhead_of_not {p e : Addr} (h : ¬ IsSet e w) {pc : MonitorPc}
    (hpc : w.monitor p = some pc) : stepsAhead p e w = pc.ahead e := by
  rw [stepsAhead, if_neg h, hpc]
  rfl

theorem stepsAhead_le {p e : Addr} {pc : MonitorPc} (hpc : w.monitor p = some pc) :
    stepsAhead p e w ≤ pc.ahead e := by
  by_cases h : IsSet e w
  · rw [stepsAhead_of_isSet h]
    exact Nat.zero_le _
  · exact Nat.le_of_eq (stepsAhead_of_not h hpc)

/-- The step is one of the monitor of `p`. -/
def stepOf (p : Addr) : Label → Bool
  | .monitor q _ => decide (q = p)
  | _ => false

/-- A mapping whose monitor has not returned has one that runs. -/
theorem serving_of_run (h : system.Run tr w) {p e : Addr} {m : SocketEventMap}
    (hm : w.maps.cell p = some m) (hme : m.event = some e) (hmon : w.monitor p ≠ some .exited) :
    Serving p m.sock e w := by
  obtain ⟨pc, hpc⟩ := Option.ne_none_iff_exists'.mp
    ((owned_of_run h).monitor p (by rw [hm]; exact Option.some_ne_none m))
  exact ⟨inv_of_run h, attended_of_run h, ⟨m, hm, rfl, hme⟩, pc, hpc,
    fun heq => hmon (heq ▸ hpc)⟩

/-- While the event is not set, each own step of the monitor lowers the number of those ahead, and no
    other step raises it. -/
theorem serving_step {p : Addr} {s : SOCKET} {e : Addr} (hs : Serving p s e w)
    (hok : Undisturbed p s e w l) (hnot : ¬ IsSet e w) (h : next w l = some w') :
    (IsSet e w' ∨ Serving p s e w') ∧
      stepsAhead p e w' + (stepOf p l).toNat ≤ stepsAhead p e w := by
  have he := effect_of_next hs.inv h
  have hinv := inv_of_effect hs.inv he
  have hatt := attended_of_effect hs.inv hs.attended h he
  have hmap := serving_mapping hs he hok.registers
  obtain ⟨pc, hpc, hne⟩ := hs.monitor
  rw [stepsAhead_of_not hnot hpc]
  rcases monitor_cases h he p with ⟨hsame, hl⟩ | ⟨_, hd, mask, epollFd, hc⟩ |
    ⟨answer, pc', m', rfl, -, -, -⟩
  · have hpc' : w'.monitor p = some pc := hsame.trans hpc
    have hstep : stepOf p l = false := by
      cases l with
      | monitor q answer =>
        apply decide_eq_false
        rintro rfl
        exact hl answer rfl
      | _ => rfl
    rw [hstep]
    exact ⟨.inr ⟨hinv, hatt, hmap, pc, hpc', hne⟩, stepsAhead_le hpc'⟩
  · obtain ⟨m, hm, -⟩ := hs.mapping
    rw [hc.fresh] at hm
    cases hm
  · have hstep : stepOf p (.monitor p answer) = true := decide_eq_true rfl
    rw [hstep, Bool.toNat_true]
    rcases ahead_of_own hs hok.ready hok.epoll h hpc with hset | ⟨pc', hpc', hne', hlt⟩
    · rw [stepsAhead_of_isSet hset, Nat.zero_add]
      exact ⟨.inl hset, MonitorPc.ahead_pos e hne⟩
    · refine ⟨.inr ⟨hinv, hatt, hmap, pc', hpc', hne'⟩, ?_⟩
      exact Nat.succ_le_of_lt ((stepsAhead_le hpc').trans_lt hlt)

/-- **A ready socket's event is set.**  From any state that the system reaches, as long as the socket
    of a mapping stays ready for what is watched, its registration keeps the event `e` and
    `epoll_wait` returns what is ready: by the time its monitor has taken seven steps, however the
    others' steps come in between, `e` was set at some moment. -/
theorem monitor_delivers (h : system.Run tr w) {p e : Addr} {m : SocketEventMap}
    (hm : w.maps.cell p = some m) (hme : m.event = some e) (hmon : w.monitor p ≠ some .exited)
    (h' : (system.startingAt w).Run tr' w')
    (hok : AllSteps (fun _ u l => Undisturbed p m.sock e u l) tr')
    (hcount : 7 ≤ tr'.countP (fun x => stepOf p x.2)) : ∃ u ∈ visits tr' w', IsSet e u := by
  by_contra hnever
  have hnot : ∀ u ∈ visits tr' w', ¬ IsSet e u := fun u hu hset => hnever ⟨u, hu, hset⟩
  have hsteps := allSteps_of_visits hnot
  have hstart := serving_of_run h hm hme hmon
  obtain ⟨pc, hpc, -⟩ := hstart.monitor
  have hstep : ∀ (tr : Trace) u l t, IsSet e u ∨ Serving p m.sock e u →
      Undisturbed p m.sock e u l ∧ ¬ IsSet e u → system.step u l t →
      (IsSet e t ∨ Serving p m.sock e t) ∧
        stepsAhead p e t + (stepOf p l).toNat ≤ stepsAhead p e u :=
    fun tr u l t hs hok hstep => serving_step (hs.resolve_left hok.2) hok.1 hok.2 hstep
  obtain ⟨hlast, hle⟩ := Run.countP_add_le (stepsAhead p e) hstep h' (hok.and hsteps) (.inr hstart)
  -- in the last state the event is not set either, so a step is still ahead
  have hend := hnot w' (mem_visits_self tr' w')
  obtain ⟨pc', hpc', hne'⟩ := (hlast.resolve_left hend).monitor
  have hpos := MonitorPc.ahead_pos e hne'
  rw [← stepsAhead_of_not hend hpc'] at hpos
  have hseven := (stepsAhead_le hpc).trans (MonitorPc.ahead_le e pc)
  omega

/-- The socket is ready while its monitor starts, and the clients are at something else. -/
def serveFive : List Label :=
  [.monitor 100 .failed, .createEvent ⟨some 8, some 201⟩, .monitor 100 (.returned [5]),
    .monitor 100 .failed, .setEvent (some 201), .monitor 100 .failed, .monitor 100 .failed,
    .monitor 100 .failed, .monitor 100 .failed]

/-- The state after `registerFive` and with the socket ready. -/
def fiveReady : World :=
  ((exec next (registerFive ++ [.network 5 EPOLLIN 0]) [] World.start).getD ([], World.start)).2

/-- Its monitor sets the event in those steps. -/
theorem monitor_delivers_five : ∃ tr w tr' w', system.Run tr w ∧
    (system.startingAt w).Run tr' w' ∧ ¬ IsSet 200 w ∧ ∃ u ∈ visits tr' w', IsSet 200 u := by
  have hrun := run_of_exec_isSome World.start next (registerFive ++ [.network 5 EPOLLIN 0]) rfl
  have hrun' := run_of_exec_isSome fiveReady next serveFive rfl
  have hset := monitor_delivers hrun (p := 100) (e := 200) rfl rfl (by decide) hrun' (by decide)
    (by decide)
  exact ⟨_, fiveReady, _, _, hrun, hrun', by decide, hset⟩

end LinuxWinsock
