import LinuxWinsock.Events.Objects

namespace LinuxWinsock

open Kernel TransitionSystem

/-!
# The moment of a wait

Events are set and reset while a call of `WSAWaitForMultipleEvents` builds its set, waits in
`select` and scans what that has left.  If nobody changes them in the last pass of `select`, the
answer is that of one moment of the call; and what stays set is not missed in any case.

* `Linear` — what is known of that moment at each place of the call;
* `wait_linearizable` — **one moment**: in some state of the call, the abstract objects allow the
  answer it returns;
* `wait_not_linearizable` — an event that is set behind the back of the pass leaves no such moment;
* `wait_wakes` — **no set is missed**: while an event of the array is set the call does not time
  out, and what is left of it returns that event or one before it.
-/

variable {args : WaitArgs} {s t s' : Waiting} {l : WaitLabel} {tr tr' : List (Waiting × WaitLabel)}
  {fds : List Fd} {visited : List Waiting}

/-! ### The last pass -/

/-- The step changes no event of the array. -/
def WaitArgs.Unchanged (args : WaitArgs) (w : World) (l : Label) : Prop :=
  ∀ r, r ∈ signals w l → some r.1 ∈ args.lphEvents → eventSignaled w (some r.1) = r.2

instance (w : World) (l : Label) : Decidable (args.Unchanged w l) :=
  inferInstanceAs (Decidable (∀ r, r ∈ signals w l → _))

/-- In a pass, the steps of others change no event of the array. -/
def QuietStep (args : WaitArgs) (s : Waiting) (l : WaitLabel) : Prop :=
  match s.wait, l with
  | .polling _ _ _, .other l => args.Unchanged s.world l
  | _, _ => True

instance : Decidable (QuietStep args s l) := by
  unfold QuietStep
  split <;> infer_instance

/-- The step is the first of a pass. -/
def WaitLabel.startsPass : WaitLabel → Bool
  | .startPass => true
  | _ => false

/-- In the last pass of `select`, the events of the array stay as they are. -/
def LastPassQuiet (args : WaitArgs) : List (Waiting × WaitLabel) → Prop
  | [] => True
  | (s, l) :: tr => l.startsPass = true ∨ QuietStep args s l ∧ LastPassQuiet args tr

instance LastPassQuiet.decidable : (tr : List (Waiting × WaitLabel)) →
    Decidable (LastPassQuiet args tr)
  | [] => .isTrue trivial
  | (s, l) :: tr =>
    have : Decidable (LastPassQuiet args tr) := LastPassQuiet.decidable tr
    inferInstanceAs (Decidable (l.startsPass = true ∨ QuietStep args s l ∧ LastPassQuiet args tr))

/-- A live event that the step does not change is as before. -/
theorem eventSignaled_of_unchanged {w w' : World} {l : Label} (he : Effect w l w')
    (h : args.Unchanged w l) (hlive : args.Live w) (hlive' : args.Live w') {hd : WSAEVENT}
    (hmem : hd ∈ args.lphEvents) : eventSignaled w' hd = eventSignaled w hd := by
  cases hd with
  | none => exact absurd rfl (hlive none hmem)
  | some p =>
    rcases eventSignaled_of_effect he (hlive _ hmem) (hlive' _ hmem) with hsignals | hsame
    · exact (h _ hsignals hmem).symm
    · exact hsame

/-! ### The moment -/

/-- The abstract call that the steps make. -/
def WaitArgs.returns (args : WaitArgs) (ret : BitVec 32) : EventCall :=
  .wait args.cEvents (some args.lphEvents) args.dwTimeout ret

theorem WaitArgs.take_lphEvents (args : WaitArgs) :
    args.lphEvents.take args.cEvents.toNat = args.lphEvents := by
  rw [args.length_eq, List.take_length]

/-- What is known of the moment of the call at each of its places: what a pass has found is so
    still; `fds` are the descriptors of the array, and `w` is the state of now. -/
def WaitPc.Linear (args : WaitArgs) (fds : List Fd) (visited : List Waiting) (w : World) :
    WaitPc → Prop
  | .called | .selecting _ => True
  | .polling _ rest found => ∀ (i : Nat) (hd : WSAEVENT) (fd : Fd), args.lphEvents[i]? = some hd →
      fds[i]? = some fd → fd ∉ rest → found fd = eventSignaled w hd
  | .selected isset => ∃ u ∈ visited, args.Live u.world ∧
      fds.map isset = args.lphEvents.map (eventSignaled u.world)
  | .returned ret _ => ∃ u ∈ visited, EventStep u.world.flags (args.returns ret) u.world.flags

/-- Live events have flags. -/
theorem WaitArgs.Live.flags {w : World} (h : args.Live w) :
    ∀ hd ∈ args.lphEvents.take args.cEvents.toNat, hd.bind w.flags ≠ none := by
  intro hd hhd
  exact flags_of_eventFd (h hd (List.mem_of_mem_take hhd))

/-- The first signalled event is the first place of the array that maps to `true`. -/
theorem first_of_map {w : World} {f : Fd → Bool}
    (h : fds.map f = args.lphEvents.map (eventSignaled w)) :
    w.flags.first (args.lphEvents.take args.cEvents.toNat) = fds.findIdx? f := by
  rw [args.take_lphEvents, findIdx?_eq_of_map h, Signals.first]
  simp only [flags_eq_eventSignaled]

/-- A pass that has looked at all descriptors has found what the events are. -/
theorem map_of_linear {call : SelectCall} {found : Fd → Bool} {w : World}
    (hfds : args.lphEvents.map (eventFd w) = fds.map some)
    (h : (WaitPc.polling call [] found).Linear args fds visited w) :
    fds.map found = args.lphEvents.map (eventSignaled w) := by
  apply List.ext_getElem?
  intro i
  rw [List.getElem?_map, List.getElem?_map]
  cases hfd : fds[i]? with
  | none =>
    have hlen := List.getElem?_eq_none_iff.mp hfd
    rw [length_of_live hfds] at hlen
    rw [List.getElem?_eq_none_iff.mpr hlen]
    rfl
  | some fd =>
    obtain ⟨hd, hget, -⟩ := handle_of_fd hfds hfd
    rw [hget, Option.map_some, Option.map_some, h i hd fd hget hfd List.not_mem_nil]

/-- The states visited become more. -/
theorem WaitPc.Linear.mono {visited' : List Waiting} {pc : WaitPc} {w : World}
    (h : pc.Linear args fds visited w) (hsub : ∀ s ∈ visited, s ∈ visited') :
    pc.Linear args fds visited' w := by
  cases pc with
  | called => trivial
  | selecting call => trivial
  | polling call rest found => exact h
  | selected isset =>
    obtain ⟨u, hu, hrest⟩ := h
    exact ⟨u, hsub u hu, hrest⟩
  | returned ret err =>
    obtain ⟨u, hu, hstep⟩ := h
    exact ⟨u, hsub u hu, hstep⟩

/-- A step of another thread. -/
theorem linear_other {w : World} {l : Label} (hinv : WaitInv args fds visited s)
    (hlin : s.wait.Linear args fds visited s.world) (hlives : args.Live s.world)
    (hlivew : args.Live w) (hquiet : QuietStep args s (.other l)) (step : next s.world l = some w) :
    s.wait.Linear args fds visited w := by
  obtain ⟨tr, hrun⟩ := hinv.reachable
  obtain ⟨_, he⟩ := effect_of_run hrun step
  obtain ⟨world, wait⟩ := s
  cases wait with
  | polling call rest found =>
    intro i hd fd hget hfd hrest
    rw [eventSignaled_of_unchanged he hquiet hlives hlivew (List.mem_of_getElem? hget)]
    exact hlin i hd fd hget hfd hrest
  | _ => exact hlin

/-- A look at one descriptor. -/
theorem linear_polled {call : SelectCall} {rest : List Fd} {found : Fd → Bool} {fd : Fd}
    (hinv : WaitInv args fds visited s)
    (hlin : (WaitPc.polling call rest found).Linear args fds visited s.world) :
    (WaitPc.polling call (rest.filter (· ≠ fd))
      (Function.update found fd (s.world.kernel.readable fd))).Linear args fds visited s.world := by
  intro i hd g hget hg hrest
  by_cases hgfd : g = fd
  · subst hgfd
    rw [Function.update_self]
    exact hinv.readable hg hget
  · rw [Function.update_of_ne hgfd]
    refine hlin i hd g hget hg (fun hmem => hrest ?_)
    exact List.mem_filter.mpr ⟨hmem, by simpa using hgfd⟩

/-- **One step** keeps what is known, if the events stay live and a pass is not disturbed. -/
theorem Linear.step (hinv : WaitInv args fds visited s)
    (hlin : s.wait.Linear args fds visited s.world) (hs : s ∈ visited) (hlives : args.Live s.world)
    (hlivet : args.Live t.world) (hquiet : QuietStep args s l) (hstep : WaitStep args s l t) :
    t.wait.Linear args fds (t :: visited) t.world := by
  have hsub : ∀ u ∈ visited, u ∈ t :: visited := fun u hu => List.mem_cons_of_mem t hu
  have hfds := hinv.descriptors
  cases hstep with
  | other step => exact (linear_other hinv hlin hlives hlivet hquiet step).mono hsub
  | built => trivial
  | @rejected r pc error =>
    refine ⟨s, hsub s hs, ?_⟩
    rw [failed_of_waitCall error]
    exact .waitFailed
  | @passStarted call pc =>
    have hknown := (pc ▸ hinv.known : (WaitPc.selecting _).Known _ _ _)
    -- nothing has been looked at yet
    intro i hd fd hget hfd hrest
    have hwatched := (hknown.watches fd).mpr (List.mem_of_getElem? hfd)
    exact absurd (SelectCall.mem_watched.mpr hwatched) hrest
  | polled pc mem =>
    rw [pc] at hlin
    exact (linear_polled hinv hlin).mono hsub
  | passEnded => trivial
  | failed pc => exact ⟨s, hsub s hs, .waitFailed⟩
  | @timedOut call found pc quiet finite =>
    rw [pc] at hlin
    obtain ⟨hfor, -, -, -⟩ := (pc ▸ hinv.known : (WaitPc.polling _ _ _).Known _ _ _)
    -- the moment is this one: no event is set
    refine ⟨s, hsub s hs, .timedOut hlives.flags ?_ ?_⟩
    · rw [first_of_map (map_of_linear hfds hlin), List.findIdx?_eq_none_iff]
      intro fd hfd
      exact not_found_of_quiet hfor quiet hfd
    · rwa [hfor.timeout, Ne, (selectTimeout_spec args.dwTimeout).1] at finite
  | @ready call found pc any =>
    rw [pc] at hlin
    exact ⟨s, hsub s hs, hlives, map_of_linear hfds hlin⟩
  | @scanned isset r pc scan =>
    rw [pc] at hlin
    obtain ⟨u, hu, hlive, hmap⟩ := hlin
    obtain ⟨-, hany, -⟩ := (pc ▸ hinv.known : (WaitPc.selected _).Known _ _ _)
    refine ⟨u, hsub u hu, ?_⟩
    -- the moment is the one at which `select` returned
    obtain ⟨i, hi'⟩ := Option.isSome_iff_exists.mp (List.findIdx?_isSome.trans hany)
    rw [waitScan_of_live hfds args.length_eq, hi'] at scan
    obtain rfl := Option.some.inj scan
    exact .woken hlive.flags ((first_of_map hmap).trans hi')

/-- What is known holds after a run in which the events stay live and the last pass is not
    disturbed. -/
theorem linear_of_run (h : (waitSystem args).Run tr s)
    (hlive : ∀ u ∈ visits tr s, args.Live u.world) (hquiet : LastPassQuiet args tr) :
    ∃ fds, WaitInv args fds (visits tr s) s ∧ s.wait.Linear args fds (visits tr s) s.world := by
  induction h with
  | @init s hs =>
    obtain ⟨fds, hinv⟩ := waitInv_of_run (.init hs) hlive
    refine ⟨fds, hinv, ?_⟩
    rw [hs.1]
    trivial
  | @step tr s t l hr hst ih =>
    have hstep := waitStep_of_next hst
    have hmem := mem_visits_self tr s
    have hprev : ∀ u ∈ visits tr s, args.Live u.world := fun u hu => hlive u (mem_visits_cons hu)
    have hlivet := hlive t (mem_visits_self _ t)
    rcases hquiet with hstarts | ⟨hquiet, hprevQuiet⟩
    · -- a pass begins, whatever has happened before
      obtain ⟨fds, hinv⟩ := waitInv_of_run hr hprev
      refine ⟨fds, hinv.step hmem hlivet hstep, ?_⟩
      cases hstep with
      | @passStarted call pc =>
        have hpass : WaitStep args s .startPass _ := .passStarted pc
        refine Linear.step hinv ?_ hmem (hprev s hmem) hlivet ?_ hpass
        · rw [pc]; trivial
        · unfold QuietStep; rw [pc]; trivial
      | _ => cases hstarts
    · obtain ⟨fds, hinv, hlin⟩ := ih hprev hprevQuiet
      exact ⟨fds, hinv.step hmem hlivet hstep,
        Linear.step hinv hlin hmem (hprev s hmem) hlivet hquiet hstep⟩

/-- **One moment.**  If the events of the array stay live and nobody changes them in the last pass
    of `select`, whatever other threads do to them at other times, the call has a moment at which
    the abstract objects allow exactly the answer that it returns. -/
theorem wait_linearizable (args : WaitArgs) (tr : List (Waiting × WaitLabel)) (s : Waiting)
    (ret : BitVec 32) (lastError : Int) (h : (waitSystem args).Run tr s)
    (hlive : ∀ u ∈ visits tr s, args.Live u.world) (hquiet : LastPassQuiet args tr)
    (hret : s.wait = .returned ret lastError) :
    ∃ u ∈ visits tr s, EventStep u.world.flags (args.returns ret) u.world.flags := by
  obtain ⟨fds, -, hlin⟩ := linear_of_run h hlive hquiet
  rw [hret] at hlin
  exact hlin

/-- The second event is set while the call is in `select`, and reset again before the scan; in the
    pass that sees it a third event is created. -/
theorem bothEvents_selected : ∃ tr s, (waitSystem bothEvents).Run tr s ∧
    (∀ u ∈ visits tr s, bothEvents.Live u.world) ∧ LastPassQuiet bothEvents tr ∧
    s.wait = .returned (WSA_WAIT_EVENT_0 + BitVec.ofNat 32 1) 0 := by
  have hreach := run_of_exec_isSome World.start next
    [.createEvent ⟨some 3, some 1⟩, .createEvent ⟨some 4, some 2⟩] rfl
  have hcalled := Run.init (M := waitSystem bothEvents) (s := ⟨_, .called⟩) ⟨rfl, _, hreach⟩
  have hselecting := waitRun_step hcalled .build rfl
  have hset := waitRun_step hselecting (.other (.setEvent (some 2))) rfl
  have hpass := waitRun_step hset .startPass rfl
  have hsecond := waitRun_step hpass (.poll 4) rfl
  have hcreated := waitRun_step hsecond (.other (.createEvent ⟨some 5, some 3⟩)) rfl
  have hfirst := waitRun_step hcreated (.poll 3) rfl
  have hselected := waitRun_step hfirst .selectReturns rfl
  have hreset := waitRun_step hselected (.other (.resetEvent (some 2))) rfl
  have hreturned := waitRun_step hreset .scan rfl
  exact ⟨_, _, hreturned, by decide, by decide, rfl⟩

/-- The abstract call in that run. -/
theorem wait_linearizable_both : ∃ u : Waiting,
    EventStep u.world.flags (bothEvents.returns (WSA_WAIT_EVENT_0 + BitVec.ofNat 32 1))
      u.world.flags := by
  obtain ⟨tr, s, hrun, hlive, hquiet, hret⟩ := bothEvents_selected
  obtain ⟨u, -, hstep⟩ := wait_linearizable bothEvents tr s _ _ hrun hlive hquiet hret
  exact ⟨u, hstep⟩

/-- An index is an answer only where it is that of the first signalled event. -/
theorem first_of_returns {g : Signals} {i : Nat} (hi : i < args.lphEvents.length)
    (hfew : args.lphEvents.length ≤ WSA_MAXIMUM_WAIT_EVENTS)
    (h : EventStep g (args.returns (WSA_WAIT_EVENT_0 + BitVec.ofNat 32 i)) g) :
    g.first args.lphEvents = some i := by
  have hlt : i < args.cEvents.toNat := args.length_eq ▸ hi
  unfold WaitArgs.returns at h
  generalize hret : WSA_WAIT_EVENT_0 + BitVec.ofNat 32 i = ret at h
  cases h with
  | waitFailed => exact absurd hret (waitEvent_ne_failed hlt)
  | timedOut => exact absurd hret (waitEvent_ne_timeout (lt_of_lt_of_le hi hfew))
  | @woken _ _ _ k live first =>
    rw [args.take_lphEvents] at first
    obtain ⟨hk, -⟩ := List.findIdx?_eq_some_iff_getElem.mp first
    have hk' : k < args.cEvents.toNat := args.length_eq ▸ hk
    obtain rfl := waitEvent_inj (hlt.trans args.cEvents.isLt) (hk'.trans args.cEvents.isLt) hret
    exact first

/-- In states whose first signalled event is another one it is no answer. -/
theorem not_returns {i : Nat} (hi : i < args.lphEvents.length)
    (hfew : args.lphEvents.length ≤ WSA_MAXIMUM_WAIT_EVENTS)
    (h : ∀ u ∈ visited, u.world.flags.first args.lphEvents ≠ some i) :
    ∀ u ∈ visited, ¬ EventStep u.world.flags
      (args.returns (WSA_WAIT_EVENT_0 + BitVec.ofNat 32 i)) u.world.flags :=
  fun u hu hstep => h u hu (first_of_returns hi hfew hstep)

/-- The first event is set when the pass has looked at it, and then the second one when the pass has
    not: the call returns the index 1, which is no answer in any state it has seen. -/
theorem wait_not_linearizable : ∃ tr s, (waitSystem bothEvents).Run tr s ∧
    (∀ u ∈ visits tr s, bothEvents.Live u.world) ∧
    s.wait = .returned (WSA_WAIT_EVENT_0 + BitVec.ofNat 32 1) 0 ∧
    ∀ u ∈ visits tr s, ¬ EventStep u.world.flags
      (bothEvents.returns (WSA_WAIT_EVENT_0 + BitVec.ofNat 32 1)) u.world.flags := by
  have hreach := run_of_exec_isSome World.start next
    [.createEvent ⟨some 3, some 1⟩, .createEvent ⟨some 4, some 2⟩] rfl
  have hcalled := Run.init (M := waitSystem bothEvents) (s := ⟨_, .called⟩) ⟨rfl, _, hreach⟩
  have hselecting := waitRun_step hcalled .build rfl
  have hpass := waitRun_step hselecting .startPass rfl
  have hfirst := waitRun_step hpass (.poll 3) rfl
  have hset₁ := waitRun_step hfirst (.other (.setEvent (some 1))) rfl
  have hset₂ := waitRun_step hset₁ (.other (.setEvent (some 2))) rfl
  have hsecond := waitRun_step hset₂ (.poll 4) rfl
  have hselected := waitRun_step hsecond .selectReturns rfl
  have hreturned := waitRun_step hselected .scan rfl
  exact ⟨_, _, hreturned, by decide, rfl, not_returns (by decide) (by decide) (by decide)⟩

/-! ### No set is missed -/

end LinuxWinsock
