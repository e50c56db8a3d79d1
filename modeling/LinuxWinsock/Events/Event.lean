import LinuxWinsock.Events.World

namespace LinuxWinsock

open Kernel

/-!
# Event objects: create, close, set, reset and wait

The functions of `wsa_events.c` on a single event record, and the wait for several of
them.  What the kernel and `malloc` answer during a call is an argument of the model, with
a check (`possible`) that the answer can be given in the state of the call.

* `drain_spec` — the read loop of `WSAResetEvent` ends after at most one successful read,
  whatever the counter;
* `wsaSetEvent_spec`, `wsaResetEvent_spec` — on an event whose counter is its flag, a set
  and a reset never fail and leave counter and flag equal.
-/

/-- What `eventfd` and `malloc` answer during `WSACreateEvent`; `none` is a failure. -/
structure CreateAnswers where
  eventfd : Option Fd
  malloc : Option Addr

/-- The descriptor handed out is free, and so is the memory. -/
def CreateAnswers.possible (a : CreateAnswers) (w : World) : Bool :=
  a.eventfd.all (fun fd => decide (0 ≤ fd) && (w.kernel.file fd).isNone) &&
    a.malloc.all (fun p => (w.events.cell p).isNone)

def wsaCreateEvent (a : CreateAnswers) (w : World) : Outcome WSAEVENT :=
  match a.eventfd with
  | none => ⟨w, none, WSA_NOT_ENOUGH_MEMORY⟩
  | some efd =>
    let k := w.kernel.openAt efd true (.eventfd 0)
    match a.malloc with
    | none =>
      -- without memory for the record the `eventfd` is closed again
      ⟨{ w with kernel := k.close efd }, none, WSA_NOT_ENOUGH_MEMORY⟩
    | some p =>
      ⟨{ w with kernel := k, events := w.events.put p { eventfd := efd, signaled := false } },
        some p, 0⟩

def wsaCloseEvent (w : World) (hEvent : WSAEVENT) : Option (Outcome Bool) :=
  match hEvent with
  | none => some ⟨w, false, WSA_INVALID_HANDLE⟩
  | some p =>
    match w.events.cell p with
    | none => none  -- the handle dangles: the code reads freed memory
    | some event =>
      some ⟨{ w with kernel := w.kernel.close event.eventfd, events := w.events.free p },
        true, 0⟩

def wsaSetEvent (w : World) (hEvent : WSAEVENT) : Option (Outcome Bool) :=
  match hEvent with
  | none => some ⟨w, false, WSA_INVALID_HANDLE⟩
  | some p =>
    match w.events.cell p with
    | none => none
    | some event =>
      -- an event that is set is not written to a second time
      if event.signaled then some ⟨w, true, 0⟩
      else
        match w.kernel.eventfdWrite event.eventfd 1 with
        | none => some ⟨w, false, WSAENETDOWN⟩
        | some k =>
          some ⟨{ w with kernel := k, events := w.events.put p { event with signaled := true } },
            true, 0⟩

/-- `while (read(eventfd, &val, sizeof(val)) == sizeof(val)) {}`, for at most `n` calls of
    `read`: the number of reads that succeeded and the kernel after the one that failed. -/
def drain (fd : Fd) : Nat → Kernel → Option (Nat × Kernel)
  | 0, _ => none
  | n + 1, k =>
    match k.eventfdRead fd with
    | none => some (0, k)
    | some (_, k') => (drain fd n k').map (fun r => (r.1 + 1, r.2))

/-- The calls of `read` that `drain` is given; `drain_spec` shows that no more are made. -/
def drainReads : Nat := 2

def wsaResetEvent (w : World) (hEvent : WSAEVENT) : Option (Outcome Bool) :=
  match hEvent with
  | none => some ⟨w, false, WSA_INVALID_HANDLE⟩
  | some p =>
    match w.events.cell p with
    | none => none
    | some event =>
      if event.signaled then
        match drain event.eventfd drainReads w.kernel with
        | none => none
        | some (_, k) =>
          some ⟨{ w with kernel := k, events := w.events.put p { event with signaled := false } },
            true, 0⟩
      else some ⟨w, true, 0⟩

/-! ### Waiting for several events -/

/-- The arguments `WSAWaitForMultipleEvents` passes to `select`; no timeout is `NULL`, and
    a timeout is its `tv_sec` and `tv_usec`. -/
structure SelectCall where
  nfds : Int
  readfds : List Fd
  timeout : Option (BitVec 32 × BitVec 32)

/-- What `select` answers: a negative result, 0, or the descriptors it left in the set. -/
inductive SelectAnswer where
  | failed
  | timedOut
  | ready (isset : Fd → Bool)

/-- The first loop of `WSAWaitForMultipleEvents` over the `n` handles left: the descriptors
    put into the set and the largest one.  `some none` is the exit on a `NULL` handle. -/
def buildSet (events : Heap WSAEventStruct) :
    Nat → List WSAEVENT → List Fd → Int → Option (Option (List Fd × Int))
  | 0, _, readfds, maxFd => some (some (readfds, maxFd))
  | _ + 1, [], _, _ => none  -- the array is shorter than `cEvents` says
  | _ + 1, none :: _, _, _ => some none
  | n + 1, some p :: rest, readfds, maxFd =>
    match events.cell p with
    | none => none
    | some event =>
      buildSet events n rest (event.eventfd :: readfds)
        (if event.eventfd > maxFd then event.eventfd else maxFd)

/-- The second loop, from index `i` on: the first handle whose descriptor is in the set. -/
def scanSet (events : Heap WSAEventStruct) (isset : Fd → Bool) :
    Nat → Nat → List WSAEVENT → Option (Option Nat)
  | 0, _, _ => some none
  | _ + 1, _, [] => none
  | _ + 1, _, none :: _ => none
  | n + 1, i, some p :: rest =>
    match events.cell p with
    | none => none
    | some event =>
      if isset event.eventfd then some (some i) else scanSet events isset n (i + 1) rest

/-- The timeout argument: `NULL` for `WSA_INFINITE`, else seconds and microseconds. -/
def selectTimeout (dwTimeout : BitVec 32) : Option (BitVec 32 × BitVec 32) :=
  if dwTimeout = WSA_INFINITE then none
  else some (dwTimeout / 1000#32, (dwTimeout % 1000#32) * 1000#32)

/-- `fWaitAll` and `fAlertable` are ignored by the code and left out; `lphEvents` is `none`
    for `NULL`. -/
def wsaWaitForMultipleEvents (select : SelectCall → SelectAnswer) (w : World)
    (cEvents : BitVec 32) (lphEvents : Option (List WSAEVENT)) (dwTimeout : BitVec 32) :
    Option (Outcome (BitVec 32)) :=
  match lphEvents with
  | none => some ⟨w, WSA_WAIT_FAILED, WSA_INVALID_PARAMETER⟩
  | some handles =>
    if cEvents = 0 ∨ WSA_MAXIMUM_WAIT_EVENTS < cEvents.toNat then
      some ⟨w, WSA_WAIT_FAILED, WSA_INVALID_PARAMETER⟩
    else
      match buildSet w.events cEvents.toNat handles [] (-1) with
      | none => none
      | some none => some ⟨w, WSA_WAIT_FAILED, WSA_INVALID_HANDLE⟩
      | some (some (readfds, maxFd)) =>
        match select ⟨maxFd + 1, readfds, selectTimeout dwTimeout⟩ with
        | .failed => some ⟨w, WSA_WAIT_FAILED, WSAENETDOWN⟩
        | .timedOut => some ⟨w, WSA_WAIT_TIMEOUT, 0⟩
        | .ready isset =>
          match scanSet w.events isset cEvents.toNat 0 handles with
          | none => none
          | some (some i) => some ⟨w, WSA_WAIT_EVENT_0 + BitVec.ofNat 32 i, 0⟩
          -- the return after the loop, which no answer of `select` leads to
          | some none => some ⟨w, WSA_WAIT_TIMEOUT, 0⟩

/-- A wait changes no event, whatever it returns. -/
theorem wsaWaitForMultipleEvents_world {select : SelectCall → SelectAnswer} {w : World}
    {cEvents dwTimeout : BitVec 32} {lphEvents : Option (List WSAEVENT)}
    {o : Outcome (BitVec 32)}
    (h : wsaWaitForMultipleEvents select w cEvents lphEvents dwTimeout = some o) :
    o.world = w := by
  unfold wsaWaitForMultipleEvents at h
  split at h
  · obtain rfl := Option.some.inj h; rfl
  · split at h
    · obtain rfl := Option.some.inj h; rfl
    · split at h
      · cases h
      · obtain rfl := Option.some.inj h; rfl
      · split at h
        · obtain rfl := Option.some.inj h; rfl
        · obtain rfl := Option.some.inj h; rfl
        · split at h
          · cases h
          · obtain rfl := Option.some.inj h; rfl
          · obtain rfl := Option.some.inj h; rfl

/-! ### Counter and flag -/

/-- The counter of the event's descriptor is its `signaled` flag, as a number. -/
def CounterIsFlag (k : Kernel) (event : WSAEventStruct) : Prop :=
  k.counter event.eventfd = some (if event.signaled then 1 else 0)

/-- **The drain loop ends.**  The first read that succeeds clears the counter, so the next
    one fails: at most one read succeeds, and no more calls than `drainReads` are made. -/
theorem drain_spec (fd : Fd) (k : Kernel) :
    ∃ reads k', reads ≤ 1 ∧ ∀ n, drain fd (n + drainReads) k = some (reads, k') := by
  cases h : k.eventfdRead fd with
  | none => exact ⟨0, k, by omega, fun n => by simp [drain, drainReads, h]⟩
  | some r =>
    obtain ⟨c, k'⟩ := r
    have hread : k'.eventfdRead fd = none := by
      unfold eventfdRead at h
      split at h
      · split at h
        · cases h
        · obtain ⟨_, rfl⟩ := Prod.mk.inj (Option.some.inj h)
          simp [eventfdRead]
      · cases h
    exact ⟨1, k', le_refl 1, fun n => by simp [drain, drainReads, h, hread]⟩

/-- On a counter that is 1, the loop makes one successful read and clears it. -/
theorem drain_of_counter_one {fd : Fd} {k : Kernel} (hc : k.counter fd = some 1) :
    ∃ k', drain fd drainReads k = some (1, k') ∧ SameWatch k k' ∧
      ∀ g, k'.counter g = if g = fd then some 0 else k.counter g := by
  obtain ⟨k', hread, hsame, hcount⟩ := eventfdRead_spec hc (by decide)
  refine ⟨k', ?_, hsame, hcount⟩
  have hzero : k'.eventfdRead fd = none := eventfdRead_zero (by rw [hcount, if_pos rfl])
  simp [drain, drainReads, hread, hzero]

/-- What a set or a reset of the event at `p` leaves behind: its flag and counter are
    `flag`, and everything else is as it was. -/
structure Signalled (w w' : World) (p : Addr) (event : WSAEventStruct) (flag : Bool) : Prop where
  watch : SameWatch w.kernel w'.kernel
  counter : ∀ g, w'.kernel.counter g =
    if g = event.eventfd then some (if flag then 1 else 0) else w.kernel.counter g
  events : w'.events = w.events.put p { event with signaled := flag }
  maps : w'.maps = w.maps
  head : w'.gSocketEventMap = w.gSocketEventMap
  monitor : w'.monitor = w.monitor

/-- An event that already has the flag is left alone. -/
theorem signalled_refl {w : World} {p : Addr} {event : WSAEventStruct}
    (hp : w.events.cell p = some event) (hc : CounterIsFlag w.kernel event) :
    Signalled w w p event event.signaled where
  watch := SameWatch.refl _
  counter g := by
    by_cases hg : g = event.eventfd
    · rw [if_pos hg, hg]; exact hc
    · rw [if_neg hg]
  events := by
    ext1 q
    rw [Heap.put_cell]
    by_cases hq : q = p
    · rw [if_pos hq, hq, hp]
    · rw [if_neg hq]
  maps := rfl
  head := rfl
  monitor := rfl

/-- **`WSASetEvent`** on an event whose counter is its flag takes no failure exit and
    leaves both set. -/
theorem wsaSetEvent_spec {w : World} {p : Addr} {event : WSAEventStruct}
    (hp : w.events.cell p = some event) (hc : CounterIsFlag w.kernel event) :
    ∃ w', wsaSetEvent w (some p) = some ⟨w', true, 0⟩ ∧ Signalled w w' p event true := by
  cases hs : event.signaled with
  | true =>
    have h := signalled_refl hp hc
    rw [hs] at h
    exact ⟨w, by simp [wsaSetEvent, hp, hs], h⟩
  | false =>
    have hc0 : w.kernel.counter event.eventfd = some 0 := by rw [hc, hs]; rfl
    obtain ⟨k, hk, hsame, hcount⟩ := eventfdWrite_spec 1 hc0 (by decide)
    refine ⟨{ w with kernel := k, events := w.events.put p { event with signaled := true } },
      by simp [wsaSetEvent, hp, hs, hk], ?_⟩
    exact ⟨hsame, hcount, rfl, rfl, rfl, rfl⟩

/-- **`WSAResetEvent`** on an event whose counter is its flag returns and leaves both
    clear. -/
theorem wsaResetEvent_spec {w : World} {p : Addr} {event : WSAEventStruct}
    (hp : w.events.cell p = some event) (hc : CounterIsFlag w.kernel event) :
    ∃ w', wsaResetEvent w (some p) = some ⟨w', true, 0⟩ ∧ Signalled w w' p event false := by
  cases hs : event.signaled with
  | false =>
    have h := signalled_refl hp hc
    rw [hs] at h
    exact ⟨w, by simp [wsaResetEvent, hp, hs], h⟩
  | true =>
    have hc1 : w.kernel.counter event.eventfd = some 1 := by rw [hc, hs]; rfl
    obtain ⟨k, hk, hsame, hcount⟩ := drain_of_counter_one hc1
    refine ⟨{ w with kernel := k, events := w.events.put p { event with signaled := false } },
      by simp [wsaResetEvent, hp, hs, hk], ?_⟩
    exact ⟨hsame, hcount, rfl, rfl, rfl, rfl⟩

end LinuxWinsock
