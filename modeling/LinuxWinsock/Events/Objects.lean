import LinuxWinsock.Events.FdSet
import LinuxWinsock.Events.WaitAll
import LinuxWinsock.Lib.Simulation
import Mathlib.Logic.Function.Basic

namespace LinuxWinsock

open Kernel TransitionSystem

/-!
# Event objects as their clients know them

A client sees of an event its handle and what its calls return.  The abstract object is one flag
for each handle in use: calls set and clear it, a wait looks at it and leaves it alone.  The code
keeps the flag in a record and in the counter of an `eventfd`, and lets monitor threads set it.

* `EventStep`, `eventObjects` — the abstract objects;
* `eventCall` — what a step of the code looks like to them;
* `eventStep_of_next` — each step is one of theirs, or is not seen;
* `events_refine` — **refinement**: the calls of every run are a run of the abstract objects.
-/

/-! ### The abstract objects -/

/-- The handles in use, with a flag for each of them. -/
abbrev Signals := Addr → Option Bool

/-- The first event of an array that is signalled. -/
def Signals.first (g : Signals) (handles : List WSAEVENT) : Option Nat :=
  handles.findIdx? (fun h => decide (h.bind g = some true))

/-- The calls on events, with their arguments and what they return. -/
inductive EventCall where
  | create (ret : WSAEVENT)
  | close (hEvent : WSAEVENT) (ret : Bool)
  | set (hEvent : WSAEVENT) (ret : Bool)
  | reset (hEvent : WSAEVENT) (ret : Bool)
  | wait (cEvents : BitVec 32) (lphEvents : Option (List WSAEVENT)) (dwTimeout : BitVec 32)
      (ret : BitVec 32)

/-- What the calls do to the flags, and what they return. -/
inductive EventStep (g : Signals) : EventCall → Signals → Prop
  | notCreated : EventStep g (.create none) g
  | created {p : Addr} (unused : g p = none) :
      EventStep g (.create (some p)) (Function.update g p (some false))
  | closed {p : Addr} (live : g p ≠ none) :
      EventStep g (.close (some p) true) (Function.update g p none)
  | set {p : Addr} (live : g p ≠ none) :
      EventStep g (.set (some p) true) (Function.update g p (some true))
  | reset {p : Addr} (live : g p ≠ none) :
      EventStep g (.reset (some p) true) (Function.update g p (some false))
  | closeNull : EventStep g (.close none false) g
  | setNull : EventStep g (.set none false) g
  | resetNull : EventStep g (.reset none false) g
  | waitFailed {cEvents dwTimeout : BitVec 32} {lphEvents : Option (List WSAEVENT)} :
      EventStep g (.wait cEvents lphEvents dwTimeout WSA_WAIT_FAILED) g
  /-- A wait returns the first event of its array that is signalled, and does not reset it. -/
  | woken {cEvents dwTimeout : BitVec 32} {handles : List WSAEVENT} {i : Nat}
      (live : ∀ h ∈ handles.take cEvents.toNat, h.bind g ≠ none)
      (first : g.first (handles.take cEvents.toNat) = some i) :
      EventStep g (.wait cEvents (some handles) dwTimeout (WSA_WAIT_EVENT_0 + BitVec.ofNat 32 i)) g
  /-- It times out only if none is signalled, and never if it was to wait for ever. -/
  | timedOut {cEvents dwTimeout : BitVec 32} {handles : List WSAEVENT}
      (live : ∀ h ∈ handles.take cEvents.toNat, h.bind g ≠ none)
      (first : g.first (handles.take cEvents.toNat) = none) (finite : dwTimeout ≠ WSA_INFINITE) :
      EventStep g (.wait cEvents (some handles) dwTimeout WSA_WAIT_TIMEOUT) g

/-- The abstract objects, of which none is in use at first. -/
def eventObjects : TransitionSystem Signals EventCall where
  init g := g = fun _ => none
  step := EventStep

/-! ### What is seen of the code -/

/-- The flags of the records. -/
def World.flags (w : World) : Signals := fun p => (w.events.cell p).map (·.signaled)

/-- The call on events that a step is. -/
def eventCall (w : World) : Label → Option EventCall
  | .createEvent a => some (.create (wsaCreateEvent a w).ret)
  | .closeEvent h => (wsaCloseEvent w h).map (fun o => .close h o.ret)
  | .setEvent h => (wsaSetEvent w h).map (fun o => .set h o.ret)
  | .resetEvent h => (wsaResetEvent w h).map (fun o => .reset h o.ret)
  | .waitForMultipleEvents select c hs t =>
    (wsaWaitForMultipleEvents select w c hs t).map (fun o => .wait c hs t o.ret)
  -- a report ends in a reset of the event it was given, and drops what that returns
  | .enumNetworkEvents s (some p) hasOut =>
    if (wsaEnumNetworkEvents w s (some p) hasOut).any (fun r => decide (r.1.ret = 0)) then
      some (.reset (some p) true)
    else none
  | .monitor q _ =>
    match w.monitor q with
    | some (.call event _ _) => (wsaSetEvent w event).map (fun o => .set event o.ret)
    | _ => none
  | _ => none

/-- `select` times out only if none of the descriptors it is asked for is readable.  A wait is one
    step here, in which `select` sees all of them at once; `waitNext` lets it look at one after the
    other. -/
structure HonestSelect (w : World) (select : SelectCall → SelectAnswer) : Prop where
  spec : SelectSpec w.kernel.readable select
  quiet : ∀ call, select call = .timedOut → ∀ fd, call.Watches fd → w.kernel.readable fd = false

/-- `select` is as documented, and each event gets a descriptor that it can watch. -/
def SelectHonest (_ : Trace) (w : World) : Label → Prop
  | .waitForMultipleEvents select _ _ _ => HonestSelect w select
  | l => FitsFdSet l

variable {w w' : World} {l : Label} {tr : Trace}

/-! ### What a step does to the flags -/

/-- A record that is stored changes one flag. -/
theorem flags_of_put {p : Addr} {event : WSAEventStruct}
    (h : w'.events = w.events.put p event) :
    w'.flags = Function.update w.flags p (some event.signaled) := by
  ext1 q
  show (w'.events.cell q).map _ = _
  rw [h, Heap.put_cell]
  by_cases hq : q = p
  · subst hq
    rw [if_pos rfl, Function.update_self]
    rfl
  · rw [if_neg hq, Function.update_of_ne hq]
    rfl

/-- A record that is freed takes one handle out of use. -/
theorem flags_of_free {p : Addr} (h : w'.events = w.events.free p) :
    w'.flags = Function.update w.flags p none := by
  ext1 q
  show (w'.events.cell q).map _ = _
  rw [h, Heap.free_cell]
  by_cases hq : q = p
  · subst hq
    rw [if_pos rfl, Function.update_self]
    rfl
  · rw [if_neg hq, Function.update_of_ne hq]
    rfl

theorem flags_of_events (h : w'.events = w.events) : w'.flags = w.flags := by
  ext1 q
  show (w'.events.cell q).map _ = _
  rw [h]
  rfl

theorem flags_ne_none {p : Addr} {event : WSAEventStruct} (hp : w.events.cell p = some event) :
    w.flags p ≠ none := by
  show (w.events.cell p).map _ ≠ none
  rw [hp]
  exact Option.some_ne_none _

/-- A step that sets or resets an event finds it live and changes its flag. -/
theorem flags_of_signals (hi : Inv w) (h : next w l = some w') {p : Addr} {flag : Bool}
    (hsig : signals w l = some (p, flag)) (hl : ∀ a, l ≠ .createEvent a) :
    w.flags p ≠ none ∧ w'.flags = Function.update w.flags p (some flag) := by
  have hne : signals w l ≠ none := by rw [hsig]; exact Option.some_ne_none _
  cases effect_of_next hi h with
  | signalled q event flag' marks _ live _ _ events =>
    obtain ⟨rfl, rfl⟩ := Prod.mk.inj (Option.some.inj (hsig.symm.trans marks.signals))
    exact ⟨flags_ne_none live, flags_of_put events⟩
  | eventCreated q efd marks _ fresh =>
    exact absurd fresh (live_of_reset hi h marks.signals hl)
  | quiet marks => exact absurd marks.signals hne
  | eventClosed _ _ marks => exact absurd marks.signals hne
  | socketOpened _ _ marks => exact absurd marks.signals hne
  | socketClosed _ marks => exact absurd marks.signals hne
  | updated _ _ _ _ _ marks => exact absurd marks.signals hne
  | created _ _ _ _ _ marks => exact absurd marks.signals hne

/-- A step that signals nothing and closes no event leaves the flags alone. -/
theorem flags_of_quiet (hi : Inv w) (h : next w l = some w') (hsig : signals w l = none)
    (hl : ∀ p, l ≠ .closeEvent (some p)) : w'.flags = w.flags := by
  cases effect_of_next hi h with
  | signalled q event flag marks => cases hsig.symm.trans marks.signals
  | eventCreated q efd marks => cases hsig.symm.trans marks.signals
  | eventClosed q event _ _ label => exact absurd label (hl q)
  | quiet _ _ _ _ events => exact flags_of_events events
  | socketOpened _ _ _ _ _ _ events => exact flags_of_events events
  | socketClosed _ _ _ _ _ events => exact flags_of_events events
  | updated _ _ _ _ _ _ _ _ _ events => exact flags_of_events events
  | created _ _ _ _ _ _ _ created => exact flags_of_events created.events

/-! ### What a wait returns -/

section Array

variable {handles : List WSAEVENT} {cEvents dwTimeout : BitVec 32} {n : Nat}

/-- A set is only built from live events, as many as the call counts. -/
theorem live_of_buildSet {readfds : List Fd} {maxFd : Int} {r : List Fd × Int}
    (h : buildSet w.events n handles readfds maxFd = some (some r)) :
    n ≤ handles.length ∧ ∀ hd ∈ handles.take n, eventFd w hd ≠ none := by
  fun_induction buildSet w.events n handles readfds maxFd with
  | case1 => simp
  | case2 => cases h
  | case3 => cases Option.some.inj h
  | case4 => cases h
  | case5 n p rest readfds maxFd event hp ih =>
    obtain ⟨hlen, hlive⟩ := ih h
    refine ⟨Nat.succ_le_succ hlen, fun hd hhd => ?_⟩
    rw [List.take_succ_cons, List.mem_cons] at hhd
    rcases hhd with rfl | hhd
    · rw [eventFd_eq_some.mpr ⟨p, event, rfl, hp, rfl⟩]
      exact Option.some_ne_none _
    · exact hlive hd hhd

/-- The loops do not look behind the events that are counted. -/
theorem buildSet_take (events : Heap WSAEventStruct) (readfds : List Fd) (maxFd : Int) :
    buildSet events n (handles.take n) readfds maxFd = buildSet events n handles readfds maxFd := by
  fun_induction buildSet events n handles readfds maxFd with
  | case1 => rfl
  | case2 => rfl
  | case3 => rfl
  | case4 n p rest readfds maxFd hp => simp only [List.take_succ_cons, buildSet, hp]
  | case5 n p rest readfds maxFd event hp ih =>
    simp only [List.take_succ_cons, buildSet, hp]
    exact ih

theorem scanSet_take (events : Heap WSAEventStruct) (isset : Fd → Bool) (i : Nat) :
    scanSet events isset n i (handles.take n) = scanSet events isset n i handles := by
  fun_induction scanSet events isset n i handles with
  | case1 => rfl
  | case2 => rfl
  | case3 => rfl
  | case4 n i p rest hp => simp only [List.take_succ_cons, scanSet, hp]
  | case5 n i p rest event hp hset => simp only [List.take_succ_cons, scanSet, hp, if_pos hset]
  | case6 n i p rest event hp hset ih =>
    simp only [List.take_succ_cons, scanSet, hp, if_neg hset]
    exact ih

theorem waitCall_take :
    waitCall w cEvents (some (handles.take cEvents.toNat)) dwTimeout =
      waitCall w cEvents (some handles) dwTimeout := by
  simp only [waitCall, buildSet_take]

theorem waitReturn_take (answer : SelectAnswer) :
    waitReturn w cEvents (some (handles.take cEvents.toNat)) answer =
      waitReturn w cEvents (some handles) answer := by
  cases answer with
  | failed => rfl
  | timedOut => rfl
  | ready isset => simp only [waitReturn, waitScan, Option.getD_some, scanSet_take]

/-- `select` is called for the counted events, and they are live. -/
theorem live_of_waitCall {lphEvents : Option (List WSAEVENT)} {call : SelectCall}
    (h : waitCall w cEvents lphEvents dwTimeout = some (.ok call)) :
    ∃ handles, lphEvents = some handles ∧ cEvents.toNat ≤ handles.length ∧ cEvents ≠ 0 ∧
      cEvents.toNat ≤ WSA_MAXIMUM_WAIT_EVENTS ∧
      ∀ hd ∈ handles.take cEvents.toNat, eventFd w hd ≠ none := by
  cases lphEvents with
  | none => simp [waitCall] at h
  | some handles =>
    simp only [waitCall] at h
    split at h
    · simp at h
    · rename_i hcount
      rw [not_or, not_lt] at hcount
      split at h
      · cases h
      · simp at h
      · rename_i readfds maxFd hbuild
        obtain ⟨hlen, hlive⟩ := live_of_buildSet hbuild
        exact ⟨handles, rfl, hlen, hcount.1, hcount.2, hlive⟩

/-- A call that returns before `select` fails. -/
theorem ret_of_waitCall_error {lphEvents : Option (List WSAEVENT)} {r : BitVec 32 × Int}
    (h : waitCall w cEvents lphEvents dwTimeout = some (.error r)) (select : SelectCall → SelectAnswer) :
    wsaWaitForMultipleEvents select w cEvents lphEvents dwTimeout =
      some ⟨w, WSA_WAIT_FAILED, r.2⟩ := by
  cases lphEvents with
  | none =>
    obtain rfl := Except.error.inj (Option.some.inj h)
    rfl
  | some handles =>
    simp only [waitCall] at h
    split at h
    · rename_i hcount
      obtain rfl := Except.error.inj (Option.some.inj h)
      simp only [wsaWaitForMultipleEvents, if_pos hcount]
    · rename_i hcount
      split at h
      · cases h
      · rename_i hbuild
        obtain rfl := Except.error.inj (Option.some.inj h)
        simp only [wsaWaitForMultipleEvents, if_neg hcount, hbuild]
      · simp at h

theorem wait_eq_none_of_waitCall {lphEvents : Option (List WSAEVENT)}
    (h : waitCall w cEvents lphEvents dwTimeout = none) (select : SelectCall → SelectAnswer) :
    wsaWaitForMultipleEvents select w cEvents lphEvents dwTimeout = none := by
  cases lphEvents with
  | none => cases h
  | some handles =>
    simp only [waitCall] at h
    split at h
    · cases h
    · rename_i hcount
      split at h
      · rename_i hbuild
        simp only [wsaWaitForMultipleEvents, if_neg hcount, hbuild]
      · cases h
      · cases h

/-- The flag of a handle is what `eventSignaled` reads. -/
theorem flags_eq_eventSignaled (hd : WSAEVENT) :
    decide (hd.bind w.flags = some true) = eventSignaled w hd := by
  cases hd with
  | none => rfl
  | some p =>
    show decide ((w.events.cell p).map (·.signaled) = some true) = (w.events.cell p).any _
    cases w.events.cell p with
    | none => rfl
    | some event => simp

theorem flags_of_eventFd {hd : WSAEVENT} (h : eventFd w hd ≠ none) : hd.bind w.flags ≠ none := by
  obtain ⟨fd, hfd⟩ := Option.ne_none_iff_exists'.mp h
  obtain ⟨p, event, rfl, hp, -⟩ := eventFd_eq_some.mp hfd
  exact flags_ne_none hp

/-- The first signalled event is the first one whose descriptor is readable. -/
theorem first_eq_findIdx? (hi : Inv w) {fds : List Fd}
    (hlive : handles.map (eventFd w) = fds.map some) :
    w.flags.first handles = fds.findIdx? w.kernel.readable := by
  have hmap : fds.map w.kernel.readable = handles.map (eventSignaled w) :=
    map_fds hlive (fun hd fd hfd _ => readable_eq_eventSignaled hi hfd)
  rw [findIdx?_eq_of_map hmap, Signals.first]
  simp only [flags_eq_eventSignaled]

/-- **A wait** returns the first event that is signalled, times out if there is none, or fails. -/
theorem eventStep_wait (hi : Inv w) (hinside : WaitsInside w) {select : SelectCall → SelectAnswer}
    (hselect : HonestSelect w select) {lphEvents : Option (List WSAEVENT)}
    {o : Outcome (BitVec 32)}
    (h : wsaWaitForMultipleEvents select w cEvents lphEvents dwTimeout = some o) :
    EventStep w.flags (.wait cEvents lphEvents dwTimeout o.ret) w.flags := by
  cases hcall : waitCall w cEvents lphEvents dwTimeout with
  | none => rw [wait_eq_none_of_waitCall hcall] at h; cases h
  | some r =>
    cases r with
    | error r =>
      rw [ret_of_waitCall_error hcall] at h
      obtain rfl := Option.some.inj h
      exact .waitFailed
    | ok call =>
      obtain ⟨handles, rfl, hlen, hne, hmax, hlive⟩ := live_of_waitCall hcall
      rw [wsaWaitForMultipleEvents_of_waitCall hcall, ← waitReturn_take] at h
      obtain ⟨r, hr, rfl⟩ := Option.map_eq_some_iff.mp h
      -- the array that the loops see, and its descriptors
      have hcount : cEvents.toNat = (handles.take cEvents.toNat).length := by
        rw [List.length_take, min_eq_left hlen]
      have hpos : 0 < cEvents.toNat :=
        Nat.pos_of_ne_zero (fun hzero => hne (BitVec.eq_of_toNat_eq hzero))
      obtain ⟨fds, hfds⟩ := exists_fds hlive
      rw [← waitCall_take] at hcall
      obtain ⟨call', hcall', hwatch, htimeout, -⟩ :=
        waitCall_of_live hfds hcount (hcount ▸ hpos) (hcount ▸ hmax) dwTimeout
      obtain rfl := Except.ok.inj (Option.some.inj (hcall.symm.trans hcall'))
      have hflags : ∀ hd ∈ handles.take cEvents.toNat, hd.bind w.flags ≠ none :=
        fun hd hhd => flags_of_eventFd (hlive hd hhd)
      have hfirst := first_eq_findIdx? hi hfds
      cases hanswer : select call with
      | failed =>
        rw [hanswer] at hr
        obtain rfl := Option.some.inj hr
        exact .waitFailed
      | timedOut =>
        rw [hanswer] at hr
        obtain rfl := Option.some.inj hr
        refine .timedOut hflags ?_ ?_
        · rw [hfirst, List.findIdx?_eq_none_iff]
          intro fd hfd
          rw [hselect.quiet call hanswer fd ((hwatch fd).mpr hfd)]
        · intro hforever
          apply hselect.spec.timedOut call hanswer
          rw [htimeout]
          exact (selectTimeout_spec dwTimeout).1.mpr hforever
      | ready isset =>
        rw [hanswer] at hr
        have hrange : ∀ fd ∈ fds, 0 ≤ fd ∧ fd < FD_SETSIZE := by
          intro fd hfd
          have hmem : some fd ∈ (handles.take cEvents.toNat).map (eventFd w) := by
            rw [hfds]
            exact List.mem_map_of_mem hfd
          obtain ⟨hd, -, hhd⟩ := List.mem_map.mp hmem
          obtain ⟨p, event, -, hp, rfl⟩ := eventFd_eq_some.mp hhd
          exact waitsInside_iff.mp hinside p event hp
        obtain ⟨hsame, i, hi'⟩ := hselect.spec.found hrange hwatch hanswer
        have hscan := waitScan_of_live hfds hcount isset
        rw [hi'] at hscan
        obtain rfl := Option.some.inj (hscan.symm.trans hr)
        refine .woken hflags ?_
        rw [hfirst, ← hi']
        apply findIdx?_eq_of_map
        exact List.map_congr_left (fun fd hfd => (hsame fd hfd).symm)

end Array

/-! ### Refinement -/

/-- **A step that is seen** is a call on the abstract objects. -/
theorem eventStep_of_next (hi : Inv w) (hinside : WaitsInside w) (hok : SelectHonest tr w l)
    (h : next w l = some w') {c : EventCall} (hc : eventCall w l = some c) :
    EventStep w.flags c w'.flags := by
  -- a call that sets or resets an event, and returns `TRUE`
  have hsignals : ∀ p flag, signals w l = some (p, flag) → (∀ a, l ≠ .createEvent a) →
      w.flags p ≠ none ∧ w'.flags = Function.update w.flags p (some flag) :=
    fun p flag hsig hl => flags_of_signals hi h hsig hl
  cases l with
  | createEvent a =>
    obtain rfl := Option.some.inj hc
    simp only [next] at h
    split at h
    · rename_i hposs
      obtain rfl := Option.some.inj h
      obtain ⟨efd, mem⟩ := a
      cases efd with
      | none => exact .notCreated
      | some efd =>
        cases mem with
        | none => exact .notCreated
        | some p =>
          simp only [CreateAnswers.possible, Bool.and_eq_true, Option.all_some] at hposs
          have hunused : w.flags p = none :=
            Option.map_eq_none_iff.mpr (Option.isNone_iff_eq_none.mp hposs.2)
          have hput : (wsaCreateEvent ⟨some efd, some p⟩ w).world.events =
              w.events.put p ⟨efd, false⟩ := rfl
          rw [flags_of_put hput]
          exact .created hunused
    · cases h
  | closeEvent hEvent =>
    obtain ⟨o, ho, rfl⟩ := Option.map_eq_some_iff.mp hc
    obtain ⟨o', ho', rfl⟩ := Option.map_eq_some_iff.mp h
    obtain rfl := Option.some.inj (ho.symm.trans ho')
    cases hEvent with
    | none =>
      obtain rfl := Option.some.inj ho
      exact .closeNull
    | some p =>
      cases hp : w.events.cell p with
      | none => simp [wsaCloseEvent, hp] at ho
      | some event =>
        simp only [wsaCloseEvent, hp] at ho
        have hfree : o.world.events = w.events.free p := by
          rw [← Option.some.inj ho]
        have hret : o.ret = true := by
          rw [← Option.some.inj ho]
        rw [flags_of_free hfree, hret]
        exact .closed (flags_ne_none hp)
  | setEvent hEvent =>
    obtain ⟨o, ho, rfl⟩ := Option.map_eq_some_iff.mp hc
    obtain ⟨o', ho', rfl⟩ := Option.map_eq_some_iff.mp h
    obtain rfl := Option.some.inj (ho.symm.trans ho')
    cases hEvent with
    | none =>
      obtain rfl := Option.some.inj ho
      exact .setNull
    | some p =>
      obtain ⟨hlive, hflags⟩ := hsignals p true rfl (by simp)
      cases hp : w.events.cell p with
      | none => simp [wsaSetEvent, hp] at ho
      | some event =>
        obtain ⟨w₁, hset, -⟩ := wsaSetEvent_spec hp (hi.events.flag p event hp)
        obtain rfl := Option.some.inj (hset.symm.trans ho)
        rw [hflags]
        exact .set hlive
  | resetEvent hEvent =>
    obtain ⟨o, ho, rfl⟩ := Option.map_eq_some_iff.mp hc
    obtain ⟨o', ho', rfl⟩ := Option.map_eq_some_iff.mp h
    obtain rfl := Option.some.inj (ho.symm.trans ho')
    cases hEvent with
    | none =>
      obtain rfl := Option.some.inj ho
      exact .resetNull
    | some p =>
      obtain ⟨hlive, hflags⟩ := hsignals p false rfl (by simp)
      cases hp : w.events.cell p with
      | none => simp [wsaResetEvent, hp] at ho
      | some event =>
        obtain ⟨w₁, hreset, -⟩ := wsaResetEvent_spec hp (hi.events.flag p event hp)
        obtain rfl := Option.some.inj (hreset.symm.trans ho)
        rw [hflags]
        exact .reset hlive
  | waitForMultipleEvents select cEvents lphEvents dwTimeout =>
    obtain ⟨o, ho, rfl⟩ := Option.map_eq_some_iff.mp hc
    obtain ⟨o', ho', rfl⟩ := Option.map_eq_some_iff.mp h
    obtain rfl := Option.some.inj (ho.symm.trans ho')
    rw [wsaWaitForMultipleEvents_world ho]
    exact eventStep_wait hi hinside hok ho
  | enumNetworkEvents s hEvent hasOut =>
    cases hEvent with
    | none => cases hc
    | some p =>
      simp only [eventCall] at hc
      split at hc
      · rename_i hret
        obtain rfl := Option.some.inj hc
        obtain ⟨hlive, hflags⟩ := hsignals p false (if_pos hret) (by simp)
        rw [hflags]
        exact .reset hlive
      · cases hc
  | monitor q answer =>
    simp only [eventCall] at hc
    split at hc
    · rename_i event rev left hpc
      obtain ⟨o, ho, rfl⟩ := Option.map_eq_some_iff.mp hc
      cases event with
      | none =>
        -- the thread calls it only with the handle it has read a second time
        obtain rfl := Option.some.inj ho
        have hsig : signals w (.monitor q answer) = none := by simp only [signals, hpc]
        rw [flags_of_quiet hi h hsig (by simp)]
        exact .setNull
      | some p =>
        have hsig : signals w (.monitor q answer) = some (p, true) := by simp only [signals, hpc]
        obtain ⟨hlive, hflags⟩ := hsignals p true hsig (by simp)
        cases hp : w.events.cell p with
        | none => simp [wsaSetEvent, hp] at ho
        | some event =>
          obtain ⟨w₁, hset, -⟩ := wsaSetEvent_spec hp (hi.events.flag p event hp)
          obtain rfl := Option.some.inj (hset.symm.trans ho)
          rw [hflags]
          exact .set hlive
    · cases hc
  | _ => cases hc

/-- **A step that is not seen** leaves the flags alone. -/
theorem flags_of_unseen (hi : Inv w) (h : next w l = some w') (hc : eventCall w l = none) :
    w'.flags = w.flags := by
  have hquiet : signals w l = none → (∀ p, l ≠ .closeEvent (some p)) → w'.flags = w.flags :=
    fun hsig hl => flags_of_quiet hi h hsig hl
  cases l with
  | createEvent a => cases hc
  | closeEvent hEvent =>
    obtain ⟨o, ho, -⟩ := Option.map_eq_some_iff.mp h
    simp [eventCall, ho] at hc
  | setEvent hEvent =>
    obtain ⟨o, ho, -⟩ := Option.map_eq_some_iff.mp h
    simp [eventCall, ho] at hc
  | resetEvent hEvent =>
    obtain ⟨o, ho, -⟩ := Option.map_eq_some_iff.mp h
    simp [eventCall, ho] at hc
  | waitForMultipleEvents select cEvents lphEvents dwTimeout =>
    obtain ⟨o, ho, -⟩ := Option.map_eq_some_iff.mp h
    simp [eventCall, ho] at hc
  | enumNetworkEvents s hEvent hasOut =>
    cases hEvent with
    | none => exact hquiet rfl (by simp)
    | some p =>
      simp only [eventCall] at hc
      split at hc
      · cases hc
      · rename_i hret
        exact hquiet (if_neg hret) (by simp)
  | monitor q answer =>
    apply hquiet _ (by simp)
    obtain ⟨pc, m, hpc, -, hmove⟩ := monitorStep_cases h
    cases hmove with
    | signal hset => simp [eventCall, hpc, hset] at hc
    | _ => simp only [signals, hpc]
  | _ => exact hquiet rfl (by simp)

/-- The abstract objects simulate the code where `select` works as documented. -/
def eventSimulation : Simulation system eventObjects SelectHonest where
  rel _ w g := g = w.flags ∧ WaitsInside w
  view := eventCall
  init w hw := by
    obtain rfl : w = World.start := hw
    exact ⟨World.start.flags, rfl, rfl, waitsInside_iff.mpr nofun⟩
  matched tr w l w' g c hrun hrel hok hstep hc := by
    obtain ⟨rfl, hinside⟩ := hrel
    have hi := inv_of_run hrun
    refine ⟨w'.flags, eventStep_of_next hi hinside hok hstep hc, rfl, ?_⟩
    apply (waitsInside_step hi hstep hinside).mpr
    cases l with
    | waitForMultipleEvents => trivial
    | _ => exact hok
  hidden tr w l w' g hrun hrel hok hstep hc := by
    obtain ⟨rfl, hinside⟩ := hrel
    have hi := inv_of_run hrun
    refine ⟨(flags_of_unseen hi hstep hc).symm, ?_⟩
    apply (waitsInside_step hi hstep hinside).mpr
    cases l with
    | waitForMultipleEvents => trivial
    | _ => exact hok

/-- **Refinement.**  Where `select` works as documented, the calls on events of every run, those of
    the monitor threads among them, are a run of the abstract objects, which ends with the flags of
    the records. -/
theorem events_refine (h : system.Run tr w) (hok : AllSteps SelectHonest tr) :
    ∃ tr', eventObjects.Run tr' w.flags ∧ tr'.map Prod.snd = seen eventCall tr := by
  obtain ⟨tr', g, hrun, ⟨rfl, -⟩, hcalls⟩ := eventSimulation.run h hok
  exact ⟨tr', hrun, hcalls⟩

/-! ### Histories -/

/-- The event that a call changes, and what it leaves it with; a closed event has no flag. -/
def EventCall.leaves : EventCall → Option (Addr × Option Bool)
  | .create (some p) => some (p, some false)
  | .close (some p) true => some (p, none)
  | .set (some p) true => some (p, some true)
  | .reset (some p) true => some (p, some false)
  | _ => none

/-- The flags after the calls of a history, the latest call first. -/
def flagsAfter : List EventCall → Signals
  | [] => fun _ => none
  | c :: earlier =>
    match c.leaves with
    | some (p, flag) => Function.update (flagsAfter earlier) p flag
    | none => flagsAfter earlier

/-- The abstract objects keep no more than what their history says. -/
theorem eq_flagsAfter {tr' : List (Signals × EventCall)} {g : Signals}
    (h : eventObjects.Run tr' g) : g = flagsAfter (tr'.map Prod.snd) := by
  refine h.invariant (P := fun tr g => g = flagsAfter (tr.map Prod.snd)) (fun g hg => hg) ?_
  intro tr g c g' _ hg hstep
  rw [List.map_cons, flagsAfter, ← hg]
  cases hstep <;> rfl

/-- What a wait may return where the events have the flags `g`. -/
def WaitAnswer (g : Signals) (handles : List WSAEVENT) (dwTimeout ret : BitVec 32) : Prop :=
  (∃ i, g.first handles = some i ∧ ret = WSA_WAIT_EVENT_0 + BitVec.ofNat 32 i) ∨
  (g.first handles = none ∧ dwTimeout ≠ WSA_INFINITE ∧ ret = WSA_WAIT_TIMEOUT)

/-- **What waits return.**  Where `select` works as documented, a wait of any run fails, or returns
    the first event of its array that was set after its last reset, whoever set it, or times out
    and there was no such event.  In particular a wait resets nothing, and no set is lost. -/
theorem wait_follows_history (h : system.Run tr w) (hok : AllSteps SelectHonest tr)
    {later earlier : List EventCall} {cEvents dwTimeout ret : BitVec 32}
    {lphEvents : Option (List WSAEVENT)}
    (hcalls : seen eventCall tr = later ++ .wait cEvents lphEvents dwTimeout ret :: earlier) :
    ret = WSA_WAIT_FAILED ∨ ∃ handles, lphEvents = some handles ∧
      WaitAnswer (flagsAfter earlier) (handles.take cEvents.toNat) dwTimeout ret := by
  obtain ⟨tr', hrun, hseen⟩ := events_refine h hok
  obtain ⟨tr₀, g, g', hrun₀, hstep, rfl⟩ := hrun.split (hseen.trans hcalls)
  rw [← eq_flagsAfter hrun₀]
  cases hstep with
  | waitFailed => exact .inl rfl
  | @woken _ _ handles i _ first => exact .inr ⟨handles, rfl, .inl ⟨i, first, rfl⟩⟩
  | @timedOut _ _ handles _ first finite =>
    exact .inr ⟨handles, rfl, .inr ⟨first, finite, rfl⟩⟩

/-! ### A run -/

/-- A `select` that answers at once. -/
def selectNow (k : Kernel) (call : SelectCall) : SelectAnswer :=
  if call.readfds.any (leftInSet k call) then .ready (leftInSet k call)
  else if call.timeout.isSome then .timedOut
  else .failed

theorem selectNow_honest (w : World) : HonestSelect w (selectNow w.kernel) where
  spec := by
    refine ⟨fun call h hnone => ?_, fun call isset h => ?_⟩
    · simp [selectNow, hnone] at h
      split at h <;> cases h
    · unfold selectNow at h
      split at h
      · rename_i hany
        obtain rfl := SelectAnswer.ready.inj h
        obtain ⟨fd, -, hset⟩ := List.any_eq_true.mp hany
        refine ⟨fun fd _ _ => ?_, fd, ?_, hset⟩
        · simp only [leftInSet, Bool.and_eq_true, decide_eq_true_eq]
        · simp only [leftInSet, Bool.and_eq_true, decide_eq_true_eq] at hset
          exact hset.1
      · split at h <;> cases h
  quiet call h fd hfd := by
    unfold selectNow at h
    split at h
    · cases h
    · rename_i hany
      by_contra hread
      apply hany
      apply List.any_eq_true.mpr
      exact ⟨fd, hfd.1, by simp [leftInSet, hfd, eq_true_of_ne_false hread]⟩

/-- The state after `firstOfTwo`. -/
def afterFirst : World := ((exec next firstOfTwo [] World.start).getD ([], World.start)).2

/-- A wait for both events after the first one was set, the first one given last. -/
def waitForBoth : List Label :=
  firstOfTwo ++ [.waitForMultipleEvents (selectNow afterFirst.kernel) 2 (some [some 2, some 1]) 0]

theorem waitForBoth_run : ∃ tr w, system.Run tr w ∧ AllSteps SelectHonest tr ∧
    seen eventCall tr = [.wait 2 (some [some 2, some 1]) 0 (WSA_WAIT_EVENT_0 + 1),
      .set (some 1) true, .create (some 2), .create (some 1)] := by
  have hrun := run_of_exec_isSome World.start next waitForBoth rfl
  refine ⟨_, _, hrun, ⟨selectNow_honest afterFirst, trivial, ?_, ?_, trivial⟩, rfl⟩
  · exact (by decide : (4 : Int) < FD_SETSIZE)
  · exact (by decide : (3 : Int) < FD_SETSIZE)

/-- The abstract objects in that run. -/
theorem events_refine_both : ∃ tr w, system.Run tr w ∧ ∃ tr', eventObjects.Run tr' w.flags ∧
    tr'.map Prod.snd = [.wait 2 (some [some 2, some 1]) 0 (WSA_WAIT_EVENT_0 + 1),
      .set (some 1) true, .create (some 2), .create (some 1)] := by
  obtain ⟨tr, w, hrun, hok, hcalls⟩ := waitForBoth_run
  obtain ⟨tr', hrun', hseen⟩ := events_refine hrun hok
  exact ⟨tr, w, hrun, tr', hrun', hseen.trans hcalls⟩

/-- The wait in that run returns the second event of its array. -/
theorem wait_follows_history_both : ∃ tr w, system.Run tr w ∧ seen eventCall tr =
      [] ++ .wait 2 (some [some 2, some 1]) 0 (WSA_WAIT_EVENT_0 + 1) ::
        [.set (some 1) true, .create (some 2), .create (some 1)] ∧
    WaitAnswer (flagsAfter [.set (some 1) true, .create (some 2), .create (some 1)])
      [some 2, some 1] 0 (WSA_WAIT_EVENT_0 + 1) := by
  obtain ⟨tr, w, hrun, hok, hcalls⟩ := waitForBoth_run
  rw [← List.nil_append (_ :: _)] at hcalls
  refine ⟨tr, w, hrun, hcalls, ?_⟩
  rcases wait_follows_history hrun hok hcalls with hfailed | hanswer
  · exact absurd hfailed (by decide)
  · obtain ⟨handles, hhandles, hanswer⟩ := hanswer
    obtain rfl := Option.some.inj hhandles
    exact hanswer

end LinuxWinsock
