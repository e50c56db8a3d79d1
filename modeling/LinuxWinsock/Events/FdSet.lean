import LinuxWinsock.Events.Wait

namespace LinuxWinsock

open Kernel TransitionSystem

/-!
# The descriptor set of a wait

`WSAWaitForMultipleEvents` bounds the number of events it is given, but not their descriptors, with
which it indexes an `fd_set`.

* `waitTouches` — the descriptors that a call puts into its set and tests in it;
* `eventfd_of_next` — where the descriptors of the live events come from;
* `waitsInside_iff_allSteps` — throughout a run the set is not left exactly if each event was
  created with a descriptor that fits it.
-/

/-! ### What a call touches -/

/-- The descriptors that the first loop puts into the set. -/
def setTouches (events : Heap WSAEventStruct) : Nat → List WSAEVENT → List Fd
  | 0, _ => []
  | _ + 1, [] => []
  | _ + 1, none :: _ => []
  | n + 1, some p :: rest =>
    match events.cell p with
    | none => []
    | some event => event.eventfd :: setTouches events n rest

/-- The descriptors that the second loop tests, the last of them the one it finds. -/
def issetTouches (events : Heap WSAEventStruct) (isset : Fd → Bool) : Nat → List WSAEVENT → List Fd
  | 0, _ => []
  | _ + 1, [] => []
  | _ + 1, none :: _ => []
  | n + 1, some p :: rest =>
    match events.cell p with
    | none => []
    | some event =>
      event.eventfd :: if isset event.eventfd then [] else issetTouches events isset n rest

/-- The descriptors with which a call indexes its set, in their order. -/
def waitTouches (select : SelectCall → SelectAnswer) (w : World) (cEvents : BitVec 32)
    (lphEvents : Option (List WSAEVENT)) (dwTimeout : BitVec 32) : List Fd :=
  match lphEvents with
  | none => []
  | some handles =>
    if cEvents = 0 ∨ WSA_MAXIMUM_WAIT_EVENTS < cEvents.toNat then []
    else
      setTouches w.events cEvents.toNat handles ++
        match waitCall w cEvents (some handles) dwTimeout with
        | some (.ok call) =>
          match select call with
          | .ready isset => issetTouches w.events isset cEvents.toNat handles
          | _ => []
        | _ => []

section Loops

variable {events : Heap WSAEventStruct} {isset : Fd → Bool} {handles : List WSAEVENT} {n : Nat}
  {fd : Fd}

/-- The set that is built is that of the descriptors put into it. -/
theorem setTouches_of_buildSet {readfds fds : List Fd} {maxFd m : Int}
    (h : buildSet events n handles readfds maxFd = some (some (fds, m))) :
    fds = (setTouches events n handles).reverse ++ readfds := by
  fun_induction buildSet events n handles readfds maxFd with
  | case1 handles readfds maxFd =>
    obtain ⟨rfl, -⟩ := Prod.mk.inj (Option.some.inj (Option.some.inj h))
    rfl
  | case2 => cases h
  | case3 =>
    have hnone := Option.some.inj h
    cases hnone
  | case4 => cases h
  | case5 n p rest readfds maxFd event hp ih =>
    have hrest := ih h
    simp only [setTouches, hp, List.reverse_cons, List.append_assoc]
    exact hrest

/-- The second loop tests one descriptor for each handle up to the one it returns. -/
theorem length_issetTouches {i j : Nat} (h : scanSet events isset n i handles = some (some j)) :
    i + (issetTouches events isset n handles).length = j + 1 := by
  fun_induction scanSet events isset n i handles with
  | case1 => cases h
  | case2 => cases h
  | case3 => cases h
  | case4 => cases h
  | case5 n i p rest event hp hset =>
    obtain rfl := Option.some.inj (Option.some.inj h)
    simp only [issetTouches, hp, if_pos hset]
    rfl
  | case6 n i p rest event hp hset ih =>
    have hrest := ih h
    simp only [issetTouches, hp, if_neg hset, List.length_cons]
    omega

/-- Only what was put into the set is tested. -/
theorem mem_setTouches_of_mem_issetTouches (h : fd ∈ issetTouches events isset n handles) :
    fd ∈ setTouches events n handles := by
  fun_induction issetTouches events isset n handles with
  | case1 => cases h
  | case2 => cases h
  | case3 => cases h
  | case4 => cases h
  | case5 n p rest event hp ih =>
    simp only [setTouches, hp]
    by_cases hset : isset event.eventfd
    · rw [if_pos hset, List.mem_singleton] at h
      rw [h]
      exact List.mem_cons_self
    · rw [if_neg hset, List.mem_cons] at h
      exact List.mem_cons.mpr (h.imp_right ih)

/-- What is put into the set is the descriptor of a live event. -/
theorem live_of_mem_setTouches (h : fd ∈ setTouches events n handles) :
    ∃ p event, events.cell p = some event ∧ event.eventfd = fd := by
  fun_induction setTouches events n handles with
  | case1 => cases h
  | case2 => cases h
  | case3 => cases h
  | case4 => cases h
  | case5 n p rest event hp ih =>
    rcases List.mem_cons.mp h with rfl | h
    · exact ⟨p, event, hp, rfl⟩
    · exact ih h

end Loops

/-! ### Waits inside the set -/

/-- An array of live events, and no more than the call takes. -/
structure LiveArray (w : World) (cEvents : BitVec 32) (handles : List WSAEVENT) : Prop where
  length : handles.length = cEvents.toNat
  max : handles.length ≤ WSA_MAXIMUM_WAIT_EVENTS
  live : ∀ h ∈ handles, eventFd w h ≠ none

/-- No wait for live events leaves its descriptor set. -/
def WaitsInside (w : World) : Prop :=
  ∀ select cEvents handles dwTimeout, LiveArray w cEvents handles →
    ∀ fd ∈ waitTouches select w cEvents (some handles) dwTimeout, 0 ≤ fd ∧ fd < FD_SETSIZE

/-- A wait indexes its set with descriptors of live events only. -/
theorem live_of_mem_waitTouches {select : SelectCall → SelectAnswer} {w : World}
    {cEvents dwTimeout : BitVec 32} {lphEvents : Option (List WSAEVENT)} {fd : Fd}
    (h : fd ∈ waitTouches select w cEvents lphEvents dwTimeout) :
    ∃ p event, w.events.cell p = some event ∧ event.eventfd = fd := by
  unfold waitTouches at h
  split at h
  · cases h
  · split at h
    · cases h
    · rcases List.mem_append.mp h with h | h
      · exact live_of_mem_setTouches h
      · split at h
        · split at h
          · exact live_of_mem_setTouches (mem_setTouches_of_mem_issetTouches h)
          · cases h
        · cases h

/-- **The descriptors decide**, whatever `select` answers and however the events are arranged. -/
theorem waitsInside_iff {w : World} :
    WaitsInside w ↔ ∀ p event, w.events.cell p = some event →
      0 ≤ event.eventfd ∧ event.eventfd < FD_SETSIZE := by
  constructor
  · intro h p event hp
    -- the array of this event alone
    have harray : LiveArray w 1 [some p] := by
      refine ⟨rfl, Nat.le_add_left 1 63, fun hd hmem => ?_⟩
      rw [List.mem_singleton.mp hmem, eventFd_eq_some.mpr ⟨p, event, rfl, hp, rfl⟩]
      exact Option.some_ne_none _
    apply h (fun _ => .failed) 1 [some p] 0 harray
    have htouch : event.eventfd ∈ setTouches w.events (1 : BitVec 32).toNat [some p] := by
      show event.eventfd ∈ setTouches w.events 1 [some p]
      simp only [setTouches, hp]
      exact List.mem_cons_self
    exact List.mem_append_left _ htouch
  · intro h select cEvents handles dwTimeout _ fd hfd
    obtain ⟨p, event, hp, rfl⟩ := live_of_mem_waitTouches hfd
    exact h p event hp

/-! ### Every run -/

variable {w w' : World} {l : Label} {tr : Trace}

/-- A step that leaves an event reset, and is no call of `WSACreateEvent`, has found it live. -/
theorem live_of_reset (hi : Inv w) (h : next w l = some w') {p : Addr}
    (hreset : signals w l = some (p, false)) (hl : ∀ a, l ≠ .createEvent a) :
    w.events.cell p ≠ none := by
  intro hnone
  cases l with
  | createEvent a => exact hl a rfl
  | setEvent hEvent =>
    cases hEvent with
    | none => cases hreset
    | some q => cases hreset
  | resetEvent hEvent =>
    cases hEvent with
    | none => cases hreset
    | some q =>
      obtain ⟨rfl, -⟩ := Prod.mk.inj (Option.some.inj hreset)
      simp [next, wsaResetEvent, hnone] at h
  | enumNetworkEvents s hEvent hasOut =>
    cases hEvent with
    | none => cases hreset
    | some q =>
      obtain ⟨r, hr, -⟩ := Option.map_eq_some_iff.mp h
      simp only [signals, hr, Option.any_some, decide_eq_true_eq] at hreset
      obtain ⟨L, hL⟩ := hi.maps
      rcases wsaEnumNetworkEvents_cases hL.list hr with ⟨hret, -⟩ | ⟨hret, -, -, -, hrest⟩
      · rw [hret, if_neg (by decide)] at hreset
        cases hreset
      · rw [if_pos hret] at hreset
        obtain ⟨rfl, -⟩ := Prod.mk.inj (Option.some.inj hreset)
        rcases hrest with ⟨hnull, -⟩ | ⟨q', o, hsome, -, ho⟩
        · cases hnull
        · obtain rfl := Option.some.inj hsome
          simp [wsaResetEvent, hnone] at ho
  | monitor q answer =>
    simp only [signals] at hreset
    split at hreset <;> cases hreset
  | _ => cases hreset

/-- Only a call of `WSACreateEvent` gives an event a descriptor; every other step leaves the
    descriptors of the events that stay live. -/
theorem eventfd_of_next (hi : Inv w) (h : next w l = some w') {p : Addr} {event : WSAEventStruct}
    (hp : w'.events.cell p = some event) :
    (∃ e, w.events.cell p = some e ∧ e.eventfd = event.eventfd) ∨
      (0 ≤ event.eventfd ∧ l = .createEvent ⟨some event.eventfd, some p⟩) := by
  have hsame : w'.events = w.events → ∃ e, w.events.cell p = some e ∧ e.eventfd = event.eventfd :=
    fun hevents => ⟨event, hevents ▸ hp, rfl⟩
  by_cases hcreate : ∃ a, l = .createEvent a
  · obtain ⟨⟨efd, mem⟩, rfl⟩ := hcreate
    simp only [next] at h
    split at h
    · rename_i hposs
      obtain rfl := Option.some.inj h
      cases efd with
      | none => exact .inl (hsame rfl)
      | some efd =>
        cases mem with
        | none => exact .inl (hsame rfl)
        | some q =>
          rcases Heap.cell_of_put hp with ⟨rfl, rfl⟩ | ⟨-, hold⟩
          · refine .inr ⟨?_, rfl⟩
            simp only [CreateAnswers.possible, Option.all_some, Bool.and_eq_true,
              decide_eq_true_eq] at hposs
            exact hposs.1.1
          · exact .inl ⟨event, hold, rfl⟩
    · cases h
  · have hl : ∀ a, l ≠ .createEvent a := fun a heq => hcreate ⟨a, heq⟩
    refine .inl ?_
    cases effect_of_next hi h with
    | quiet _ _ _ _ events => exact hsame events
    | signalled q e flag _ _ live _ _ events =>
      rw [events] at hp
      rcases Heap.cell_of_put hp with ⟨rfl, rfl⟩ | ⟨-, hold⟩
      · exact ⟨e, live, rfl⟩
      · exact ⟨event, hold, rfl⟩
    | eventCreated q efd marks _ fresh =>
      exact absurd fresh (live_of_reset hi h marks.signals hl)
    | eventClosed q e _ _ _ _ _ events =>
      rw [events] at hp
      exact ⟨event, (Heap.cell_of_free hp).2, rfl⟩
    | socketOpened _ _ _ _ _ _ events => exact hsame events
    | socketClosed _ _ _ _ _ events => exact hsame events
    | updated _ _ _ _ _ _ _ _ _ events => exact hsame events
    | created _ _ _ _ _ _ _ created => exact hsame created.events

/-- A new event has the descriptor that the kernel has handed out. -/
theorem cell_of_createEvent {fd : Fd} {p : Addr}
    (h : next w (.createEvent ⟨some fd, some p⟩) = some w') :
    w'.events.cell p = some ⟨fd, false⟩ := by
  simp only [next] at h
  split at h
  · obtain rfl := Option.some.inj h
    exact Heap.put_cell_self _ _ _
  · cases h

/-- The step creates no event with a descriptor that does not fit the set. -/
def FitsFdSet : Label → Prop
  | .createEvent ⟨some fd, some _⟩ => fd < FD_SETSIZE
  | _ => True

/-- One step keeps the descriptors in the set exactly if it fits. -/
theorem waitsInside_step (hi : Inv w) (h : next w l = some w') (hw : WaitsInside w) :
    WaitsInside w' ↔ FitsFdSet l := by
  rw [waitsInside_iff] at hw ⊢
  constructor
  · intro hall
    unfold FitsFdSet
    split
    · exact (hall _ _ (cell_of_createEvent h)).2
    · trivial
  · intro hfits p event hp
    rcases eventfd_of_next hi h hp with ⟨e, he, hsame⟩ | ⟨hpos, rfl⟩
    · rw [← hsame]
      exact hw p e he
    · exact ⟨hpos, hfits⟩

/-- **Waits inside the set.**  Throughout a run, no wait for live events leaves its descriptor set,
    exactly if every event of the run was created with a descriptor below `FD_SETSIZE`. -/
theorem waitsInside_iff_allSteps (h : system.Run tr w) :
    Always (fun _ w => WaitsInside w) tr w ↔ AllSteps (fun _ _ l => FitsFdSet l) tr := by
  refine h.always_iff_allSteps ?_ ?_ (AllSteps.trivial tr)
  · rintro s rfl
    exact waitsInside_iff.mpr nofun
  · intro tr s l t hrun hs _ hstep
    exact waitsInside_step (inv_of_run hrun) hstep hs

/-- An event with the highest descriptor that fits, next to a socket with a higher one. -/
theorem waitsInside_below : ∃ tr w, system.Run tr w ∧ Always (fun _ w => WaitsInside w) tr w ∧
    w.kernel.file 1024 ≠ none ∧ eventFd w (some 200) = some 1023 := by
  have hrun := run_of_exec_isSome World.start next
    [.socket 1024 false, .createEvent ⟨some 1023, some 200⟩] rfl
  have hfits : FitsFdSet (.createEvent ⟨some 1023, some 200⟩) :=
    (by decide : (1023 : Int) < FD_SETSIZE)
  refine ⟨_, _, hrun, (waitsInside_iff_allSteps hrun).mpr ?_, nofun, rfl⟩
  exact ⟨hfits, trivial, trivial⟩

/-- The kernel hands out a descriptor that does not fit. -/
theorem not_waitsInside_above : ∃ tr w, system.Run tr w ∧ ¬ WaitsInside w := by
  have hrun := run_of_exec_isSome World.start next [.createEvent ⟨some 1024, some 200⟩] rfl
  refine ⟨_, _, hrun, fun hinside => ?_⟩
  have hfits := (waitsInside_iff.mp hinside 200 ⟨1024, false⟩ rfl).2
  exact absurd hfits (by decide)

end LinuxWinsock
