import LinuxWinsock.Events.Signal
import Mathlib.Data.List.GetD

namespace LinuxWinsock

open Kernel TransitionSystem

/-!
# Waiting for several events

`WSAWaitForMultipleEvents` builds a descriptor set, calls `select` once and returns the first
handle whose descriptor is in the set that `select` has left.

* `SelectSpec` — what is documented of `select`;
* `buildSet_of_live`, `scanSet_of_live` — what the two loops do on live events;
* `waitCall`, `waitReturn` — the parts of the call before and after `select`, and
  `wsaWaitForMultipleEvents_of_waitCall` puts them together;
* `wait_any` — the call returns the first event that `select` saw readable, or what `select`
  reported.
-/

/-! ### `select` -/

def FD_SETSIZE : Int := 1024

/-- `select` looks at the descriptors of the set that are below `nfds`. -/
def SelectCall.Watches (call : SelectCall) (fd : Fd) : Prop := fd ∈ call.readfds ∧ fd < call.nfds

instance (call : SelectCall) (fd : Fd) : Decidable (call.Watches fd) :=
  inferInstanceAs (Decidable (_ ∧ _))

/-- What is documented of `select`, where `snapshot` tells what is readable when it answers: it
    times out only if it was given a timeout, and the set that it leaves is not empty and holds
    what it was asked for and found readable. -/
structure SelectSpec (snapshot : Fd → Bool) (select : SelectCall → SelectAnswer) : Prop where
  timedOut : ∀ call, select call = .timedOut → call.timeout ≠ none
  ready : ∀ call isset, select call = .ready isset →
    (∀ fd, 0 ≤ fd → fd < FD_SETSIZE →
      (isset fd = true ↔ call.Watches fd ∧ snapshot fd = true)) ∧
    ∃ fd, call.Watches fd ∧ isset fd = true

/-! ### The two loops -/

/-- The descriptor of an event that is live. -/
def eventFd (w : World) (h : WSAEVENT) : Option Fd :=
  h.bind (fun p => (w.events.cell p).map (·.eventfd))

theorem eventFd_eq_some {w : World} {h : WSAEVENT} {fd : Fd} :
    eventFd w h = some fd ↔ ∃ p event, h = some p ∧ w.events.cell p = some event ∧
      event.eventfd = fd := by
  cases h with
  | none => simp [eventFd]
  | some p => simp [eventFd]

section Loops

variable {w : World} {handles : List WSAEVENT} {fds : List Fd}

theorem length_of_live (hlive : handles.map (eventFd w) = fds.map some) :
    fds.length = handles.length := by
  have h := congrArg List.length hlive
  rw [List.length_map, List.length_map] at h
  exact h.symm

/-- **The first loop.**  The set has the descriptors of the handles, and the largest one is
    found. -/
theorem buildSet_of_live (hlive : handles.map (eventFd w) = fds.map some) (readfds : List Fd)
    (maxFd : Int) :
    ∃ m, buildSet w.events handles.length handles readfds maxFd =
        some (some (fds.reverse ++ readfds, m)) ∧ maxFd ≤ m ∧ ∀ fd ∈ fds, fd ≤ m := by
  induction handles generalizing fds readfds maxFd with
  | nil =>
    obtain rfl : fds = [] := by simpa using hlive.symm
    exact ⟨maxFd, rfl, le_refl _, by simp⟩
  | cons h handles ih =>
    cases fds with
    | nil => simp at hlive
    | cons fd fds =>
      rw [List.map_cons, List.map_cons, List.cons_eq_cons] at hlive
      obtain ⟨p, event, rfl, hp, rfl⟩ := eventFd_eq_some.mp hlive.1
      obtain ⟨m, hloop, hle, hall⟩ := ih hlive.2 (event.eventfd :: readfds)
        (if event.eventfd > maxFd then event.eventfd else maxFd)
      -- the largest one is at least the first and at least that of the rest
      have hboth : maxFd ≤ m ∧ event.eventfd ≤ m := by
        by_cases hgt : event.eventfd > maxFd
        · rw [if_pos hgt] at hle
          exact ⟨le_trans (le_of_lt hgt) hle, hle⟩
        · rw [if_neg hgt] at hle
          exact ⟨hle, le_trans (not_lt.mp hgt) hle⟩
      refine ⟨m, ?_, hboth.1, ?_⟩
      · simp only [List.length_cons, buildSet, hp]
        rw [hloop]
        simp
      · intro fd hfd
        rcases List.mem_cons.mp hfd with rfl | hfd
        · exact hboth.2
        · exact hall fd hfd

/-- **The second loop** finds the first handle whose descriptor is in the set. -/
theorem scanSet_of_live (hlive : handles.map (eventFd w) = fds.map some) (isset : Fd → Bool)
    (i : Nat) :
    scanSet w.events isset handles.length i handles =
      some ((fds.findIdx? isset).map (i + ·)) := by
  induction handles generalizing fds i with
  | nil =>
    obtain rfl : fds = [] := by simpa using hlive.symm
    rfl
  | cons h handles ih =>
    cases fds with
    | nil => simp at hlive
    | cons fd fds =>
      rw [List.map_cons, List.map_cons, List.cons_eq_cons] at hlive
      obtain ⟨p, event, rfl, hp, rfl⟩ := eventFd_eq_some.mp hlive.1
      simp only [List.length_cons, scanSet, hp]
      rw [ih hlive.2, List.findIdx?_cons]
      cases isset event.eventfd with
      | true => simp
      | false => simp [Function.comp_def, Nat.add_comm, Nat.add_left_comm]

end Loops

/-! ### The timeout -/

/-- **The timeval** is normalised, and is the timeout. -/
theorem selectTimeout_spec (dwTimeout : BitVec 32) :
    (selectTimeout dwTimeout = none ↔ dwTimeout = WSA_INFINITE) ∧
    ∀ sec usec, selectTimeout dwTimeout = some (sec, usec) →
      usec.toNat < 1000000 ∧ sec.toNat * 1000000 + usec.toNat = dwTimeout.toNat * 1000 := by
  constructor
  · unfold selectTimeout
    split <;> simp [*]
  · intro sec usec h
    unfold selectTimeout at h
    split at h
    · cases h
    · obtain ⟨rfl, rfl⟩ := Prod.mk.inj (Option.some.inj h)
      have hlt := dwTimeout.isLt
      have hsec : (dwTimeout / 1000#32).toNat = dwTimeout.toNat / 1000 := by
        simp
      have husec : (dwTimeout % 1000#32 * 1000#32).toNat = dwTimeout.toNat % 1000 * 1000 := by
        have hthousand : (1000#32).toNat = 1000 := by decide
        rw [BitVec.toNat_mul, BitVec.toNat_umod, hthousand]
        apply Nat.mod_eq_of_lt
        omega
      omega

/-! ### The three parts of the call -/

/-- The part up to `select`: what it is called with, or a return value and an error. -/
def waitCall (w : World) (cEvents : BitVec 32) (lphEvents : Option (List WSAEVENT))
    (dwTimeout : BitVec 32) : Option (Except (BitVec 32 × Int) SelectCall) :=
  match lphEvents with
  | none => some (.error (WSA_WAIT_FAILED, WSA_INVALID_PARAMETER))
  | some handles =>
    if cEvents = 0 ∨ WSA_MAXIMUM_WAIT_EVENTS < cEvents.toNat then
      some (.error (WSA_WAIT_FAILED, WSA_INVALID_PARAMETER))
    else
      match buildSet w.events cEvents.toNat handles [] (-1) with
      | none => none
      | some none => some (.error (WSA_WAIT_FAILED, WSA_INVALID_HANDLE))
      | some (some (readfds, maxFd)) => some (.ok ⟨maxFd + 1, readfds, selectTimeout dwTimeout⟩)

/-- The part after `select`, which leaves the descriptors `isset` in the set. -/
def waitScan (w : World) (cEvents : BitVec 32) (lphEvents : Option (List WSAEVENT))
    (isset : Fd → Bool) : Option (BitVec 32 × Int) :=
  (scanSet w.events isset cEvents.toNat 0 (lphEvents.getD [])).map fun
    | some i => (WSA_WAIT_EVENT_0 + BitVec.ofNat 32 i, 0)
    | none => (WSA_WAIT_TIMEOUT, 0)

/-- What the call returns, from what `select` answers. -/
def waitReturn (w : World) (cEvents : BitVec 32) (lphEvents : Option (List WSAEVENT)) :
    SelectAnswer → Option (BitVec 32 × Int)
  | .failed => some (WSA_WAIT_FAILED, WSAENETDOWN)
  | .timedOut => some (WSA_WAIT_TIMEOUT, 0)
  | .ready isset => waitScan w cEvents lphEvents isset

/-- **`WSAWaitForMultipleEvents`** is the three parts in a row. -/
theorem wsaWaitForMultipleEvents_of_waitCall {w : World} {cEvents dwTimeout : BitVec 32}
    {lphEvents : Option (List WSAEVENT)} {call : SelectCall}
    (h : waitCall w cEvents lphEvents dwTimeout = some (.ok call))
    (select : SelectCall → SelectAnswer) :
    wsaWaitForMultipleEvents select w cEvents lphEvents dwTimeout =
      (waitReturn w cEvents lphEvents (select call)).map (fun r => ⟨w, r.1, r.2⟩) := by
  cases lphEvents with
  | none => simp [waitCall] at h
  | some handles =>
    simp only [waitCall] at h
    split at h
    · simp at h
    · rename_i hcount
      cases hbuild : buildSet w.events cEvents.toNat handles [] (-1) with
      | none =>
        rw [hbuild] at h
        cases h
      | some built =>
        rw [hbuild] at h
        cases built with
        | none => simp at h
        | some set =>
          obtain ⟨readfds, maxFd⟩ := set
          obtain rfl := Except.ok.inj (Option.some.inj h)
          simp only [wsaWaitForMultipleEvents, if_neg hcount, hbuild]
          cases select ⟨maxFd + 1, readfds, selectTimeout dwTimeout⟩ with
          | failed => rfl
          | timedOut => rfl
          | ready isset =>
            simp only [waitReturn, waitScan, Option.getD_some, Option.map_map]
            cases scanSet w.events isset cEvents.toNat 0 handles with
            | none => rfl
            | some found => cases found <;> rfl

section Live

variable {w : World} {handles : List WSAEVENT} {fds : List Fd} {cEvents : BitVec 32}

/-- On live events, `select` is called for their descriptors. -/
theorem waitCall_of_live (hlive : handles.map (eventFd w) = fds.map some)
    (hcount : cEvents.toNat = handles.length) (hpos : 0 < handles.length)
    (hmax : handles.length ≤ WSA_MAXIMUM_WAIT_EVENTS) (dwTimeout : BitVec 32) :
    ∃ call, waitCall w cEvents (some handles) dwTimeout = some (.ok call) ∧
      (∀ fd, call.Watches fd ↔ fd ∈ fds) ∧ call.timeout = selectTimeout dwTimeout ∧
      call.readfds.length = handles.length := by
  obtain ⟨m, hbuild, -, hall⟩ := buildSet_of_live hlive [] (-1)
  have hchecks : ¬ (cEvents = 0 ∨ WSA_MAXIMUM_WAIT_EVENTS < cEvents.toNat) := by
    rintro (rfl | hgt)
    · rw [← hcount] at hpos
      simp at hpos
    · omega
  refine ⟨⟨m + 1, fds.reverse ++ [], selectTimeout dwTimeout⟩, ?_, ?_, rfl, ?_⟩
  · rw [waitCall, if_neg hchecks, hcount, hbuild]
  · intro fd
    simp only [SelectCall.Watches, List.append_nil, List.mem_reverse, and_iff_left_iff_imp]
    intro hfd
    exact Int.lt_add_one_of_le (hall fd hfd)
  · rw [List.append_nil, List.length_reverse, length_of_live hlive]

/-- On live events, the second loop returns the first one in the set. -/
theorem waitScan_of_live (hlive : handles.map (eventFd w) = fds.map some)
    (hcount : cEvents.toNat = handles.length) (isset : Fd → Bool) :
    waitScan w cEvents (some handles) isset =
      some (match fds.findIdx? isset with
        | some i => (WSA_WAIT_EVENT_0 + BitVec.ofNat 32 i, 0)
        | none => (WSA_WAIT_TIMEOUT, 0)) := by
  simp only [waitScan, hcount, Option.getD_some, scanSet_of_live hlive, Option.map_some]
  cases fds.findIdx? isset with
  | none => rfl
  | some i => simp

end Live

/-- The index is read back from the return value. -/
theorem toNat_waitEvent {i : Nat} (hi : i < 2 ^ 32) :
    (WSA_WAIT_EVENT_0 + BitVec.ofNat 32 i).toNat = i := by
  have hzero : WSA_WAIT_EVENT_0.toNat = 0 := by decide
  rw [BitVec.toNat_add, hzero, Nat.zero_add, BitVec.toNat_ofNat, Nat.mod_mod, Nat.mod_eq_of_lt hi]

theorem waitEvent_inj {i j : Nat} (hi : i < 2 ^ 32) (hj : j < 2 ^ 32)
    (h : WSA_WAIT_EVENT_0 + BitVec.ofNat 32 i = WSA_WAIT_EVENT_0 + BitVec.ofNat 32 j) : i = j := by
  rw [← toNat_waitEvent hi, h, toNat_waitEvent hj]

/-- An index of at most 64 events is no timeout. -/
theorem waitEvent_ne_timeout {i : Nat} (hi : i < WSA_MAXIMUM_WAIT_EVENTS) :
    WSA_WAIT_EVENT_0 + BitVec.ofNat 32 i ≠ WSA_WAIT_TIMEOUT := by
  intro h
  have htimeout : WSA_WAIT_TIMEOUT.toNat = 258 := by decide
  unfold WSA_MAXIMUM_WAIT_EVENTS at hi
  have hlt : i < 2 ^ 32 := by omega
  rw [← h, toNat_waitEvent hlt] at htimeout
  omega

/-- The index of an array is no failure. -/
theorem waitEvent_ne_failed {cEvents : BitVec 32} {i : Nat} (hi : i < cEvents.toNat) :
    WSA_WAIT_EVENT_0 + BitVec.ofNat 32 i ≠ WSA_WAIT_FAILED := by
  intro h
  have hfailed : WSA_WAIT_FAILED.toNat = 2 ^ 32 - 1 := by decide
  have hlt := cEvents.isLt
  rw [← h, toNat_waitEvent (hi.trans hlt)] at hfailed
  omega

/-- An index is returned for the first event in the set. -/
theorem findIdx?_of_waitScan {w : World} {handles : List WSAEVENT} {fds : List Fd}
    {cEvents : BitVec 32} {isset : Fd → Bool} {r : BitVec 32 × Int} {i : Nat}
    (hlive : handles.map (eventFd w) = fds.map some) (hcount : cEvents.toNat = handles.length)
    (hmax : handles.length ≤ WSA_MAXIMUM_WAIT_EVENTS)
    (hscan : waitScan w cEvents (some handles) isset = some r) (hi : i < handles.length)
    (hret : r.1 = WSA_WAIT_EVENT_0 + BitVec.ofNat 32 i) : fds.findIdx? isset = some i := by
  have hsmall : ∀ j, j < handles.length → j < 2 ^ 32 := by
    intro j hj
    rw [← hcount] at hj
    exact hj.trans cEvents.isLt
  rw [waitScan_of_live hlive hcount] at hscan
  obtain rfl := Option.some.inj hscan
  cases hfound : fds.findIdx? isset with
  | none =>
    rw [hfound] at hret
    exact absurd hret.symm (waitEvent_ne_timeout (lt_of_lt_of_le hi hmax))
  | some k =>
    rw [hfound] at hret
    obtain ⟨hk, _⟩ := List.findIdx?_eq_some_iff_getElem.mp hfound
    rw [length_of_live hlive] at hk
    rw [waitEvent_inj (hsmall k hk) (hsmall i hi) hret]

/-! ### Waiting for any -/

section Any

variable {w : World} {handles : List WSAEVENT} {fds : List Fd} {snapshot : Fd → Bool}
  {select : SelectCall → SelectAnswer} {call : SelectCall} {isset : Fd → Bool}

/-- The set that `select` leaves is the snapshot of the events, and has one of them in it. -/
theorem SelectSpec.found (hselect : SelectSpec snapshot select)
    (hrange : ∀ fd ∈ fds, 0 ≤ fd ∧ fd < FD_SETSIZE) (hwatch : ∀ fd, call.Watches fd ↔ fd ∈ fds)
    (hready : select call = .ready isset) :
    (∀ fd ∈ fds, isset fd = snapshot fd) ∧ ∃ i, fds.findIdx? isset = some i := by
  obtain ⟨hiff, fd, hfd, hset⟩ := hselect.ready call isset hready
  constructor
  · intro g hg
    obtain ⟨h₀, h₁⟩ := hrange g hg
    rw [Bool.eq_iff_iff, hiff g h₀ h₁, and_iff_right ((hwatch g).mpr hg)]
  · apply Option.isSome_iff_exists.mp
    rw [List.findIdx?_isSome, List.any_eq_true]
    exact ⟨fd, (hwatch fd).mp hfd, hset⟩

/-- The value returned, for each answer of `select`. -/
theorem waitReturn_of_live (hlive : handles.map (eventFd w) = fds.map some) {cEvents : BitVec 32}
    (hcount : cEvents.toNat = handles.length) (hmax : handles.length ≤ WSA_MAXIMUM_WAIT_EVENTS)
    (hrange : ∀ fd ∈ fds, 0 ≤ fd ∧ fd < FD_SETSIZE) (hselect : SelectSpec snapshot select)
    (hwatch : ∀ fd, call.Watches fd ↔ fd ∈ fds) :
    ∃ r, waitReturn w cEvents (some handles) (select call) = some r ∧
      (∀ i, i < handles.length → r.1 = WSA_WAIT_EVENT_0 + BitVec.ofNat 32 i →
        fds[i]?.map snapshot = some true ∧ ∀ j < i, fds[j]?.map snapshot = some false) ∧
      (r.1 = WSA_WAIT_TIMEOUT → select call = .timedOut) := by
  cases hanswer : select call with
  | failed =>
    refine ⟨_, rfl, ?_, ?_⟩
    · intro i hi hret
      rw [← hcount] at hi
      exact absurd hret.symm (waitEvent_ne_failed hi)
    · intro hret
      have hne : WSA_WAIT_FAILED ≠ WSA_WAIT_TIMEOUT := by decide
      exact absurd hret hne
  | timedOut =>
    refine ⟨_, rfl, ?_, fun _ => rfl⟩
    intro i hi hret
    exact absurd hret.symm (waitEvent_ne_timeout (lt_of_lt_of_le hi hmax))
  | ready isset =>
    obtain ⟨hsame, k, hk⟩ := hselect.found hrange hwatch hanswer
    obtain ⟨hlt, -⟩ := List.findIdx?_eq_some_iff_getElem.mp hk
    rw [length_of_live hlive] at hlt
    have hscan := waitScan_of_live hlive hcount isset
    rw [hk] at hscan
    refine ⟨_, hscan, ?_, ?_⟩
    · intro i hi hret
      have hfirst := findIdx?_of_waitScan hlive hcount hmax hscan hi hret
      obtain ⟨hlt, hset, hbefore⟩ := List.findIdx?_eq_some_iff_getElem.mp hfirst
      constructor
      · rw [List.getElem?_eq_getElem hlt, Option.map_some, ← hsame _ (List.getElem_mem hlt), hset]
      · intro j hj
        have hj' : j < fds.length := hj.trans hlt
        rw [List.getElem?_eq_getElem hj', Option.map_some, ← hsame _ (List.getElem_mem hj')]
        simpa using hbefore j hj
    · intro hret
      exact absurd hret (waitEvent_ne_timeout (lt_of_lt_of_le hlt hmax))

/-- **Wait for any.**  For 1 to 64 live events: `select` is called once, for their descriptors with a
    normalised timeout of exactly `dwTimeout` milliseconds, and what it answers is all that the
    result depends on; an index is returned only for the first event that `select` found readable,
    a timeout only if `select` reported one; and the return after the second loop is never
    reached. -/
theorem wait_any (dwTimeout : BitVec 32)
    (hlive : handles.map (eventFd w) = fds.map some) (hpos : 0 < handles.length)
    (hmax : handles.length ≤ WSA_MAXIMUM_WAIT_EVENTS)
    (hrange : ∀ fd ∈ fds, 0 ≤ fd ∧ fd < FD_SETSIZE) (hselect : SelectSpec snapshot select) :
    ∃ call o,
      waitCall w (BitVec.ofNat 32 handles.length) (some handles) dwTimeout = some (.ok call) ∧
      wsaWaitForMultipleEvents select w (BitVec.ofNat 32 handles.length) (some handles) dwTimeout =
        some o ∧
      (∀ answers : SelectCall → SelectAnswer,
        wsaWaitForMultipleEvents answers w (BitVec.ofNat 32 handles.length) (some handles)
            dwTimeout =
          (waitReturn w (BitVec.ofNat 32 handles.length) (some handles) (answers call)).map
            (fun r => ⟨w, r.1, r.2⟩)) ∧
      (∀ fd, call.Watches fd ↔ fd ∈ fds) ∧
      (call.timeout = none ↔ dwTimeout = WSA_INFINITE) ∧
      (∀ sec usec, call.timeout = some (sec, usec) →
        usec.toNat < 1000000 ∧ sec.toNat * 1000000 + usec.toNat = dwTimeout.toNat * 1000) ∧
      (∀ i, i < handles.length → o.ret = WSA_WAIT_EVENT_0 + BitVec.ofNat 32 i →
        fds[i]?.map snapshot = some true ∧ ∀ j < i, fds[j]?.map snapshot = some false) ∧
      (o.ret = WSA_WAIT_TIMEOUT → select call = .timedOut ∧ dwTimeout ≠ WSA_INFINITE) ∧
      (∀ isset, select call = .ready isset →
        scanSet w.events isset handles.length 0 handles ≠ some none) := by
  have hcount : (BitVec.ofNat 32 handles.length).toNat = handles.length := by
    unfold WSA_MAXIMUM_WAIT_EVENTS at hmax
    rw [BitVec.toNat_ofNat]
    apply Nat.mod_eq_of_lt
    omega
  obtain ⟨call, hcall, hwatch, htimeout, -⟩ := waitCall_of_live hlive hcount hpos hmax dwTimeout
  obtain ⟨r, hr, hindex, htimedOut⟩ := waitReturn_of_live hlive hcount hmax hrange hselect hwatch
  have hreturn := wsaWaitForMultipleEvents_of_waitCall hcall select
  rw [hr] at hreturn
  have hspec := selectTimeout_spec dwTimeout
  rw [← htimeout] at hspec
  refine ⟨call, _, hcall, hreturn, wsaWaitForMultipleEvents_of_waitCall hcall, hwatch, hspec.1,
    hspec.2, hindex, ?_, ?_⟩
  · intro hret
    have hanswer := htimedOut hret
    refine ⟨hanswer, fun hinf => hselect.timedOut call hanswer ?_⟩
    rw [hspec.1]
    exact hinf
  · intro isset hanswer
    obtain ⟨-, i, hi⟩ := hselect.found hrange hwatch hanswer
    rw [scanSet_of_live hlive, hi]
    simp

end Any

/-- A `select` that finds the descriptor 4 readable, and fails where it is not asked for it. -/
def selectFour (call : SelectCall) : SelectAnswer :=
  if call.Watches 4 then .ready (fun fd => decide (call.Watches fd ∧ fd = 4)) else .failed

theorem selectFour_spec : SelectSpec (fun fd => decide (fd = 4)) selectFour where
  timedOut call h := by
    unfold selectFour at h
    split at h <;> cases h
  ready call isset h := by
    unfold selectFour at h
    split at h
    · rename_i hfour
      obtain rfl := SelectAnswer.ready.inj h
      exact ⟨fun fd _ _ => by simp, 4, hfour, by simpa using hfour⟩
    · cases h

/-- Two events, at the addresses 200 and 201, of which the second is set. -/
def twoEvents : World :=
  { World.start with events := (Heap.empty.put 200 ⟨3, false⟩).put 201 ⟨4, true⟩ }

/-- Of an array in which the set event stands twice, the first place is returned. -/
theorem wait_any_second : ∃ call o,
    waitCall twoEvents 3 (some [some 200, some 201, some 201]) 1500 = some (.ok call) ∧
    wsaWaitForMultipleEvents selectFour twoEvents 3 (some [some 200, some 201, some 201]) 1500 =
      some o ∧
    o.ret = WSA_WAIT_EVENT_0 + BitVec.ofNat 32 1 ∧ call.timeout = some (1, 500000) ∧
    (∀ fd, call.Watches fd ↔ fd ∈ [3, 4, 4]) ∧ o.ret ≠ WSA_WAIT_TIMEOUT := by
  have hlive : [some 200, some 201, some 201].map (eventFd twoEvents) = [3, 4, 4].map some := rfl
  obtain ⟨call, o, hcall, hret, -, hwatch, -, -, -, htimeout, -⟩ :=
    wait_any 1500 hlive (by decide) (by decide) (by decide) selectFour_spec
  have hone : wsaWaitForMultipleEvents selectFour twoEvents 3
      (some [some 200, some 201, some 201]) 1500 = some ⟨twoEvents, 1, 0⟩ := rfl
  have hargs : waitCall twoEvents 3 (some [some 200, some 201, some 201]) 1500 =
      some (.ok ⟨5, [4, 4, 3], some (1, 500000)⟩) := rfl
  obtain rfl := Option.some.inj (hret.symm.trans hone)
  obtain rfl := Except.ok.inj (Option.some.inj (hcall.symm.trans hargs))
  refine ⟨_, _, hcall, hret, by decide, rfl, hwatch, fun h => ?_⟩
  have hanswer := (htimeout h).1
  unfold selectFour at hanswer
  split at hanswer <;> cases hanswer

end LinuxWinsock
