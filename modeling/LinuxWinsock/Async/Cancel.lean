import LinuxWinsock.Async.Calls

namespace LinuxWinsock.Async

open Function TransitionSystem LinkedList

/-!
# Cancelled lookups

`WSACancelAsyncRequest` compares the handle with the addresses of the requests in the list.
The host functions return the number of the request instead, the requests of the service
functions are not in the list, and the flag is not looked at between the last test and the
copy.

* `Stopped`, `stopped_step` — the states in which the lookup will not write any more, and
  every step keeps them;
* `cancel_stops` — a cancellation that finds the request by its address and comes before the
  last test stops it;
* `cancelled_lookups_silent` — so no cancelled lookup writes in a run whose cancellations all
  come when the lookup is stopped already, or stop it so.
-/

variable {resolve : Query → Option Answer} {w w' : World} {l : Label} {tr : Trace}

/-! ### Writes and cancellations in a history -/

/-- The step is the copy of a lookup into the buffer of its request, at this address. -/
def writes (w : World) : Label → Option Addr
  | .thread p _ => if w.threads p = some .copy then some p else none
  | _ => none

theorem writes_eq_some {p : Addr} :
    writes w l = some p ↔ (∃ scratch, l = .thread p scratch) ∧ w.threads p = some .copy := by
  constructor
  · intro h
    cases l with
    | thread q scratch =>
      have h : (if w.threads q = some .copy then some q else none) = some p := h
      split at h
      · rename_i pc
        obtain rfl := Option.some.inj h
        exact ⟨⟨scratch, rfl⟩, pc⟩
      · cases h
    | _ => cases h
  · rintro ⟨⟨scratch, rfl⟩, pc⟩
    exact if_pos pc

/-- The buffers change in these steps only. -/
theorem buffers_of_step (hs : Step resolve w l w') :
    (writes w l = none ∧ w'.buffers = w.buffers) ∨
      ∃ p rec b res, writes w l = some p ∧ w.requests.cell p = some rec ∧ rec.buffer = some b ∧
        w'.buffers = update w.buffers b (some res) := by
  have hquiet : ∀ {p : Addr} {scratch : Answer} {pc : ThreadPc}, w.threads p = some pc →
      pc ≠ .copy → writes w (.thread p scratch) = none := by
    intro p scratch pc hpc hne
    refine if_neg ?_
    rw [hpc]
    exact fun heq => hne (Option.some.inj heq)
  cases hs with
  | tested pc _ => exact .inl ⟨hquiet pc nofun, rfl⟩
  | resolved pc _ => exact .inl ⟨hquiet pc nofun, rfl⟩
  | dropped pc _ _ => exact .inl ⟨hquiet pc nofun, rfl⟩
  | chosen pc _ _ => exact .inl ⟨hquiet pc nofun, rfl⟩
  | @copied p _ rec b pc live buffer =>
    exact .inr ⟨p, rec, b, _, if_pos pc, live, buffer, rfl⟩
  | _ => exact .inl ⟨rfl, rfl⟩

/-- `WSACancelAsyncRequest` has returned, with 0 as always, for a handle that a call had
    returned for the request. -/
def CancelledBefore : Trace → Addr → Prop
  | [], _ => False
  | (w, l) :: tr, p => (∃ hd, l = .cancel hd ∧ HandleOf w hd p) ∨ CancelledBefore tr p

/-- The latest step is not the write of a lookup that was cancelled before. -/
def Silent : Trace → Prop
  | [] => True
  | (w, l) :: tr => ∀ p, writes w l = some p → ¬ CancelledBefore tr p

/-! ### Lookups that are stopped -/

/-- The lookup will not write any more. -/
inductive Stopped (resolve : Query → Option Answer) (w : World) (p : Addr) : Prop
  | done (pc : w.threads p = some .done)
  | notFound (pc : w.threads p = some (.answered false))
  | noAnswer {rec : Record} (pc : w.threads p = some .start ∨ w.threads p = some .resolve)
      (live : w.requests.cell p = some rec) (answer : resolve rec.query = none)
  | marked {req : AsyncRequest} (pc : w.threads p ≠ some .copy)
      (live : w.requests.cell p = some (.host req)) (mark : req.cancelled = true)

/-- A step that leaves the thread of the request alone. -/
theorem Stopped.of_updated {p : Addr} (h : Stopped resolve w p)
    (hthread : w'.threads p = w.threads p)
    (hrec : ∀ rec, w.requests.cell p = some rec →
      ∃ rec', w'.requests.cell p = some rec' ∧ rec.Updated rec') : Stopped resolve w' p := by
  cases h with
  | done pc => exact .done (hthread.trans pc)
  | notFound pc => exact .notFound (hthread.trans pc)
  | @noAnswer rec pc live answer =>
    obtain ⟨rec', hrec', hupd⟩ := hrec rec live
    refine .noAnswer (by rw [hthread]; exact pc) hrec' ?_
    rw [hupd.query]
    exact answer
  | @marked req pc live mark =>
    obtain ⟨rec', hrec', hupd⟩ := hrec _ live
    obtain ⟨req', rfl⟩ := hupd.host
    exact .marked (by rw [hthread]; exact pc) hrec' (hupd.2.2.2 mark)

/-- A step of the thread itself, unless it writes. -/
theorem Stopped.thread {p : Addr} {scratch : Answer} (h : Stopped resolve w p)
    (hs : Step resolve w (.thread p scratch) w') :
    writes w (.thread p scratch) = none ∧ Stopped resolve w' p := by
  cases hs with
  | @tested _ _ req pc live =>
    refine ⟨if_neg (by rw [pc]; nofun), ?_⟩
    have hthread : (w.setThread p (if req.cancelled then .done else .resolve)).threads p =
        some (if req.cancelled then .done else .resolve) := update_self _ _ _
    cases h with
    | done pc' => rw [pc] at pc'; cases pc'
    | notFound pc' => rw [pc] at pc'; cases pc'
    | noAnswer _ live' answer =>
      cases hc : req.cancelled with
      | true =>
        rw [hc] at hthread
        exact .done hthread
      | false =>
        rw [hc] at hthread
        exact .noAnswer (.inr hthread) live' answer
    | marked _ live' mark =>
      -- the first test sees the mark
      obtain rfl := Record.host.inj (Option.some.inj (live.symm.trans live'))
      rw [mark] at hthread
      rw [mark]
      exact .done hthread
  | @resolved _ _ rec pc live =>
    refine ⟨if_neg (by rw [pc]; nofun), ?_⟩
    cases h with
    | done pc' => rw [pc] at pc'; cases pc'
    | notFound pc' => rw [pc] at pc'; cases pc'
    | noAnswer _ live' answer =>
      obtain rfl := Option.some.inj (live.symm.trans live')
      refine .notFound ?_
      rw [answer]
      exact update_self _ _ _
    | marked _ live' mark =>
      refine .marked ?_ live' mark
      show update w.threads p _ p ≠ _
      rw [update_self]
      nofun
  | dropped pc _ _ =>
    exact ⟨if_neg (by rw [pc]; nofun), .done (update_self _ _ _)⟩
  | chosen pc live wanted =>
    cases h with
    | done pc' => rw [pc] at pc'; cases pc'
    | notFound pc' => rw [pc] at pc'; cases pc'
    | noAnswer pc' _ _ => rw [pc] at pc'; rcases pc' with pc' | pc' <;> cases pc'
    | marked _ live' mark =>
      -- the second test sees the mark
      obtain rfl := Option.some.inj (live.symm.trans live')
      have hwanted : (!AsyncRequest.cancelled _) = true := wanted
      rw [mark] at hwanted
      cases hwanted
  | copied pc _ _ =>
    cases h with
    | done pc' => rw [pc] at pc'; cases pc'
    | notFound pc' => rw [pc] at pc'; cases pc'
    | noAnswer pc' _ _ => rw [pc] at pc'; rcases pc' with pc' | pc' <;> cases pc'
    | marked pc' _ _ => exact absurd pc pc'

/-- **A lookup that is stopped stays so and does not write.** -/
theorem stopped_step {hd : HANDLE} {p : Addr} (hinv : CallInv w) (hret : HandleOf w hd p)
    (h : Stopped resolve w p) (hs : Step resolve w l w') :
    writes w l ≠ some p ∧ Stopped resolve w' p := by
  by_cases hl : ∃ scratch, l = .thread p scratch
  · obtain ⟨scratch, rfl⟩ := hl
    obtain ⟨hw, hstop⟩ := h.thread hs
    exact ⟨by rw [hw]; nofun, hstop⟩
  · have hl : ∀ scratch, l ≠ .thread p scratch := fun scratch heq => hl ⟨scratch, heq⟩
    refine ⟨fun hw => ?_, h.of_updated (hret.thread_kept hinv hs hl)
      (fun _ hrec => hret.updated hinv hs hrec)⟩
    obtain ⟨⟨scratch, rfl⟩, _⟩ := writes_eq_some.mp hw
    exact hl scratch rfl

/-! ### Cancellations that stop a lookup -/

/-- The handle is the address of the request, the list leads there, and the thread is not past
    its last test. -/
def Found (w : World) (hd : HANDLE) (p : Addr) : Prop :=
  hd = p ∧ w.threads p ≠ some .copy ∧ Reaches Record.next w.requests p w.gAsyncRequests

/-- A cancellation comes when the lookup is stopped already, or finds its request. -/
def StopsLookup (resolve : Query → Option Answer) (w : World) : Label → Prop
  | .cancel hd => ∀ p, HandleOf w hd p → Stopped resolve w p ∨ Found w hd p
  | _ => True

/-- The mark is set before the last test. -/
theorem cancel_stops {hd : HANDLE} {p : Addr} (hfound : Found w hd p)
    (hs : Step resolve w (.cancel hd) w') : Stopped resolve w' p := by
  obtain ⟨rfl, hpc, hreach⟩ := hfound
  cases hs with
  | cancelled cancel =>
    obtain ⟨req, hreq, hmark⟩ := cancel_marks hreach cancel
    exact .marked hpc hreq hmark

/-- **A cancelled lookup never writes** in a run whose cancellations all come when the lookup
    is stopped already, or find its request. -/
theorem cancelled_lookups_silent (resolve : Query → Option Answer) (tr : Trace) (w : World)
    (h : (system resolve).Run tr w) (hcond : AllSteps (fun _ w l => StopsLookup resolve w l) tr) :
    Always (fun tr _ => Silent tr) tr w := by
  -- all lookups cancelled so far are stopped
  have hinv : Always (fun tr w => Silent tr ∧
      ∀ p, CancelledBefore tr p → (∃ hd, HandleOf w hd p) ∧ Stopped resolve w p) tr w := by
    refine h.always_of_allSteps ?_ ?_ hcond
    · intro s _
      exact ⟨trivial, fun p hp => absurd hp id⟩
    · intro tr s l t hr ⟨_, hstopped⟩ hok hstep
      have hs := step_of_next hstep
      have hcalls := callInv_of_run hr
      refine ⟨fun p hw hbefore => ?_, ?_⟩
      · obtain ⟨⟨hd, hret⟩, hstop⟩ := hstopped p hbefore
        exact (stopped_step hcalls hret hstop hs).1 hw
      · rintro p (⟨hd, rfl, hret⟩ | hbefore)
        · refine ⟨⟨hd, HandleOf.step hret hs⟩, ?_⟩
          rcases hok p hret with hstop | hfound
          · exact (stopped_step hcalls hret hstop hs).2
          · exact cancel_stops hfound hs
        · obtain ⟨⟨hd, hret⟩, hstop⟩ := hstopped p hbefore
          exact ⟨⟨hd, HandleOf.step hret hs⟩, (stopped_step hcalls hret hstop hs).2⟩
  exact Always.mono (fun _ _ hP => hP.1) hinv

/-- A resolver that knows one host. -/
def knowsOne : Query → Option Answer
  | .gethostbyname [97] => some ⟨[2, 4], [[97]]⟩
  | _ => none

/-- A lookup whose name is not known is cancelled before it has asked, and goes on to its end
    without a write. -/
theorem cancelled_lookups_silent_not_known : ∃ tr w, (system knowsOne).Run tr w ∧
    CancelledBefore tr 100 ∧ w.threads 100 = some .done ∧ Always (fun tr _ => Silent tr) tr w := by
  have hrun := run_of_exec_isSome World.start (next knowsOne)
    [.hostCall 0 (.byName [98] (some 1) 64) (some 100), .insert 0, .create 0 true, .cancel 1,
      .thread 100 ⟨[], []⟩, .thread 100 ⟨[], []⟩, .thread 100 ⟨[], []⟩] rfl
  refine ⟨_, _, hrun, .inr (.inr (.inr (.inl ⟨1, rfl, 0, .inl rfl⟩))), rfl,
    cancelled_lookups_silent knowsOne _ _ hrun ?_⟩
  refine ⟨trivial, trivial, trivial, fun p ⟨c, hc⟩ => ?_, trivial, trivial, trivial, trivial⟩
  cases c with
  | zero =>
    have hc : CallPc.Returned (.hostReturned 100 1) 1 p := hc
    rcases hc with hc | ⟨hc, _⟩
    · obtain ⟨rfl, _⟩ := CallPc.hostReturned.inj hc
      exact .inl (.noAnswer (.inl rfl) rfl rfl)
    · cases hc
  | succ c =>
    have hc : CallPc.Returned .idle 1 p := hc
    rcases hc with hc | ⟨hc, _⟩ <;> cases hc

/-- A lookup is cancelled by the handle its call returned, before it has started: the request
    is not found, and the lookup writes. -/
theorem cancelled_lookup_writes : ∃ tr w, (system knowsOne).Run tr w ∧ ¬ Silent tr := by
  have hrun := run_of_exec_isSome World.start (next knowsOne)
    [.hostCall 0 (.byName [97] (some 1) 64) (some 100), .insert 0, .create 0 true, .cancel 1,
      .thread 100 ⟨[], []⟩, .thread 100 ⟨[], []⟩, .thread 100 ⟨[], []⟩, .thread 100 ⟨[], []⟩] rfl
  refine ⟨_, _, hrun, fun hsilent => hsilent 100 rfl ?_⟩
  exact .inr (.inr (.inr (.inl ⟨1, rfl, 0, .inl rfl⟩)))

end LinuxWinsock.Async
