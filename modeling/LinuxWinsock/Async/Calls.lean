import LinuxWinsock.Async.System

namespace LinuxWinsock.Async

open Function TransitionSystem LinkedList

/-!
# Calls, records and threads

Which record belongs to which call, in every reachable state.

* `CallInv`, `callInv_of_run` — each call that has a record has its own, of its own kind, and
  the threads are those of the calls that have returned a handle;
* `HandleOf.step`, `HandleOf.updated` — so a request for which a handle was returned stays what
  it is: its record is updated, but neither freed nor replaced;
* `HandleOf.thread_kept` — and its thread moves by its own steps only.
-/

variable {resolve : Query → Option Answer} {w w' : World} {l : Label} {tr : Trace}

/-! ### The records of the calls -/

/-- The record of a host call, from its allocation to its release. -/
def CallPc.hostRecord : CallPc → Option Addr
  | .allocated p => some p
  | .inserted p _ => some p
  | .createFailed p => some p
  | .unlinked p => some p
  | .hostReturned p _ => some p
  | _ => none

/-- The record of a service call that has returned its address. -/
def CallPc.serviceRecord : CallPc → Option Addr
  | .serviceReturned p => some p
  | _ => none

/-- The call has the record at `p`. -/
def CallPc.Has (pc : CallPc) (p : Addr) : Prop :=
  pc.hostRecord = some p ∨ pc.serviceRecord = some p

theorem CallPc.Returned.has {pc : CallPc} {h : HANDLE} {p : Addr} (hr : pc.Returned h p) :
    pc.Has p := by
  rcases hr with rfl | ⟨rfl, _⟩
  · exact .inl rfl
  · exact .inr rfl

/-- A call returns a handle for one request at most. -/
theorem CallPc.Returned.unique {pc : CallPc} {h h' : HANDLE} {p q : Addr} (hp : pc.Returned h p)
    (hq : pc.Returned h' q) : q = p := by
  rcases hp with rfl | ⟨rfl, _⟩
  · rcases hq with hq | ⟨hq, _⟩
    · exact (CallPc.hostReturned.inj hq).1.symm
    · cases hq
  · rcases hq with hq | ⟨hq, _⟩
    · cases hq
    · exact (CallPc.serviceReturned.inj hq).symm

/-- Each call has its own record, of its own kind, and the threads are those of the calls
    that have returned a handle. -/
structure CallInv (w : World) : Prop where
  host : ∀ c p, (w.calls c).hostRecord = some p → ∃ req, w.requests.cell p = some (.host req)
  service : ∀ c p, (w.calls c).serviceRecord = some p →
    ∃ req, w.requests.cell p = some (.service req)
  distinct : ∀ c d p, (w.calls c).Has p → (w.calls d).Has p → c = d
  threads : ∀ p, w.threads p ≠ none ↔ ∃ h, HandleOf w h p

/-- The record of a call is allocated. -/
theorem CallInv.allocated (h : CallInv w) {c : Nat} {p : Addr} (hp : (w.calls c).Has p) :
    w.requests.cell p ≠ none := by
  rcases hp with hp | hp
  · obtain ⟨req, hreq⟩ := h.host c p hp
    rw [hreq]
    exact Option.some_ne_none _
  · obtain ⟨req, hreq⟩ := h.service c p hp
    rw [hreq]
    exact Option.some_ne_none _

/-- The records of two calls are two records. -/
theorem CallInv.ne_of_has (h : CallInv w) {c d : Nat} {p q : Addr} (hd : d ≠ c)
    (hq : (w.calls d).Has q) (hp : (w.calls c).Has p) : q ≠ p := by
  rintro rfl
  exact hd (h.distinct d c q hq hp)

/-- A step that leaves the calls alone and updates the records keeps `CallInv`. -/
theorem CallInv.of_heapUpdated (h : CallInv w) (hcalls : w'.calls = w.calls)
    (hheap : HeapUpdated w.requests w'.requests)
    (hthreads : ∀ p, w'.threads p = none ↔ w.threads p = none) : CallInv w' where
  host c p hp := by
    rw [hcalls] at hp
    obtain ⟨req, hreq⟩ := h.host c p hp
    obtain ⟨b, hb, hupd⟩ := (hheap p).2 _ hreq
    obtain ⟨req', rfl⟩ := hupd.host
    exact ⟨req', hb⟩
  service c p hp := by
    rw [hcalls] at hp
    obtain ⟨req, hreq⟩ := h.service c p hp
    obtain ⟨b, hb, hupd⟩ := (hheap p).2 _ hreq
    obtain ⟨req', rfl⟩ := hupd.service
    exact ⟨req', hb⟩
  distinct c d p hc hd := by
    rw [hcalls] at hc hd
    exact h.distinct c d p hc hd
  threads p := by
    have hne : w'.threads p ≠ none ↔ w.threads p ≠ none := not_congr (hthreads p)
    rw [hne, h.threads p]
    unfold HandleOf
    rw [hcalls]

/-- A step of the call `c`, which had not returned and moves to `pc`, keeps `CallInv` if the
    records of the other calls stay, `c` keeps its own or takes a fresh one, and a thread is
    started exactly if a handle is returned. -/
theorem CallInv.of_call (h : CallInv w) {c : Nat} {pc : CallPc}
    (hcalls : w'.calls = update w.calls c pc)
    (hold : ∀ h' p, ¬ (w.calls c).Returned h' p)
    (hother : ∀ d p, d ≠ c → (w.calls d).Has p → w'.requests.cell p = w.requests.cell p)
    (hhas : ∀ p, pc.Has p → (w.calls c).Has p ∨ w.requests.cell p = none)
    (hhost : ∀ p, pc.hostRecord = some p → ∃ req, w'.requests.cell p = some (.host req))
    (hservice : ∀ p, pc.serviceRecord = some p → ∃ req, w'.requests.cell p = some (.service req))
    (hthreads : ∀ p, w'.threads p ≠ none ↔ w.threads p ≠ none ∨ ∃ h', pc.Returned h' p) :
    CallInv w' := by
  have hself : w'.calls c = pc := by rw [hcalls, update_self]
  have hne : ∀ d, d ≠ c → w'.calls d = w.calls d := by
    intro d hd
    rw [hcalls, update_of_ne hd]
  -- a record of `c` is no record of another call
  have hsep : ∀ d p, d ≠ c → pc.Has p → ¬ (w.calls d).Has p := by
    intro d p hd hp hdp
    rcases hhas p hp with hcp | hfresh
    · exact h.ne_of_has hd hdp hcp rfl
    · exact h.allocated hdp hfresh
  constructor
  case host =>
    intro d p hp
    by_cases hd : d = c
    · rw [hd, hself] at hp
      exact hhost p hp
    · rw [hne d hd] at hp
      rw [hother d p hd (.inl hp)]
      exact h.host d p hp
  case service =>
    intro d p hp
    by_cases hd : d = c
    · rw [hd, hself] at hp
      exact hservice p hp
    · rw [hne d hd] at hp
      rw [hother d p hd (.inr hp)]
      exact h.service d p hp
  case distinct =>
    intro d e p hdp hep
    by_cases hd : d = c
    · by_cases he : e = c
      · rw [hd, he]
      · rw [hd, hself] at hdp
        rw [hne e he] at hep
        exact absurd hep (hsep e p he hdp)
    · by_cases he : e = c
      · rw [he, hself] at hep
        rw [hne d hd] at hdp
        exact absurd hdp (hsep d p hd hep)
      · rw [hne d hd] at hdp
        rw [hne e he] at hep
        exact h.distinct d e p hdp hep
  case threads =>
    intro p
    rw [hthreads, h.threads]
    constructor
    · rintro (⟨h', d, hr⟩ | ⟨h', hr⟩)
      · have hd : d ≠ c := fun heq => hold h' p (heq ▸ hr)
        exact ⟨h', d, by rw [hne d hd]; exact hr⟩
      · exact ⟨h', c, by rw [hself]; exact hr⟩
    · rintro ⟨h', d, hr⟩
      by_cases hd : d = c
      · rw [hd, hself] at hr
        exact .inr ⟨h', hr⟩
      · rw [hne d hd] at hr
        exact .inl ⟨h', d, hr⟩

/-- A thread that goes on is still a thread. -/
theorem setThread_threads {p : Addr} {pc pc' : ThreadPc} (hpc : w.threads p = some pc) (q : Addr) :
    (update w.threads p (some pc')) q = none ↔ w.threads q = none := by
  by_cases hq : q = p
  · rw [hq, update_self, hpc]
    simp
  · rw [update_of_ne hq]

theorem Record.updated_finish (rec : Record) (error : Int) : rec.Updated (rec.finish error) := by
  cases rec with
  | host req => exact Record.Updated.refl (.host req)
  | service req => exact ⟨rfl, rfl, rfl⟩

/-- A call that returns nothing starts no thread. -/
theorem iff_or_returned (pc : CallPc) (h : ∀ h' p, ¬ pc.Returned h' p) {A : Prop} (p : Addr) :
    A ↔ A ∨ ∃ h', pc.Returned h' p := by
  constructor
  · exact .inl
  · rintro (ha | ⟨h', hr⟩)
    · exact ha
    · exact absurd hr (h h' p)

/-- A call that returns a handle starts the thread of its request, and no other. -/
theorem started_threads {pc : CallPc} {h : HANDLE} {p : Addr} (hret : pc.Returned h p)
    (first : ThreadPc) (q : Addr) : update w.threads p (some first) q ≠ none ↔
      w.threads q ≠ none ∨ ∃ h', pc.Returned h' q := by
  by_cases hq : q = p
  · rw [hq, update_self]
    exact ⟨fun _ => .inr ⟨h, hret⟩, fun _ => Option.some_ne_none _⟩
  · rw [update_of_ne hq]
    exact ⟨.inl, fun hor => hor.elim id (fun ⟨_, hr⟩ => absurd (hret.unique hr) hq)⟩

/-- A step of the call `c` that neither touches a record nor starts a thread. -/
theorem CallInv.of_setCall (h : CallInv w) {c : Nat} {pc : CallPc}
    (hcalls : w'.calls = update w.calls c pc) (hheap : w'.requests = w.requests)
    (hthreads : w'.threads = w.threads) (hold : ∀ h' p, ¬ (w.calls c).Returned h' p)
    (hret : ∀ h' p, ¬ pc.Returned h' p) (hserv : pc.serviceRecord = none)
    (hhost : ∀ p, pc.hostRecord = some p → (w.calls c).hostRecord = some p) : CallInv w' := by
  refine h.of_call hcalls hold (fun d p _ _ => by rw [hheap]) ?_ ?_ ?_ ?_
  · rintro p (hp | hp)
    · exact .inl (.inl (hhost p hp))
    · rw [hserv] at hp; cases hp
  · intro p hp
    rw [hheap]
    exact h.host c p (hhost p hp)
  · intro p hp
    rw [hserv] at hp; cases hp
  · intro p
    rw [hthreads]
    exact iff_or_returned pc hret p

/-- A step of the call `c` that stores its record `rec` at `p`, which is its own already or
    fresh. -/
theorem CallInv.of_put (h : CallInv w) {c : Nat} {pc : CallPc} {p : Addr} {rec : Record}
    (hcalls : w'.calls = update w.calls c pc) (hheap : w'.requests = w.requests.put p rec)
    (hown : (w.calls c).Has p ∨ w.requests.cell p = none)
    (hold : ∀ h' q, ¬ (w.calls c).Returned h' q)
    (hhost : ∀ q, pc.hostRecord = some q → q = p ∧ ∃ req, rec = .host req)
    (hservice : ∀ q, pc.serviceRecord = some q → q = p ∧ ∃ req, rec = .service req)
    (hthreads : ∀ q, w'.threads q ≠ none ↔ w.threads q ≠ none ∨ ∃ h', pc.Returned h' q) :
    CallInv w' := by
  refine h.of_call hcalls hold ?_ ?_ ?_ ?_ hthreads
  · intro d q hd hq
    have hqp : q ≠ p := by
      rcases hown with hp | hfresh
      · exact h.ne_of_has hd hq hp
      · exact fun heq => h.allocated hq (heq ▸ hfresh)
    rw [hheap, Heap.put_cell_of_ne _ _ hqp]
  · rintro q (hq | hq)
    · obtain ⟨rfl, _⟩ := hhost q hq
      exact hown
    · obtain ⟨rfl, _⟩ := hservice q hq
      exact hown
  · intro q hq
    obtain ⟨rfl, req, rfl⟩ := hhost q hq
    exact ⟨req, by rw [hheap, Heap.put_cell_self]⟩
  · intro q hq
    obtain ⟨rfl, req, rfl⟩ := hservice q hq
    exact ⟨req, by rw [hheap, Heap.put_cell_self]⟩

/-- Every step keeps `CallInv`. -/
theorem CallInv.step (h : CallInv w) (hs : Step resolve w l w') : CallInv w' := by
  cases hs with
  | hostFailed pc =>
    refine h.of_setCall rfl rfl rfl ?_ nofun rfl nofun
    rw [pc]; nofun
  | @hostAllocated c call p pc fresh =>
    refine h.of_put rfl rfl (.inr fresh) (by rw [pc]; nofun) (fun q hq => ?_) nofun ?_
    · exact ⟨(Option.some.inj hq).symm, _, rfl⟩
    · exact fun q => iff_or_returned (.allocated p) nofun q
  | @inserted c p req pc live =>
    have hown : (w.calls c).Has p := .inl (by rw [pc]; rfl)
    refine h.of_put rfl rfl (.inl hown) (by rw [pc]; nofun) (fun q hq => ?_) nofun ?_
    · exact ⟨(Option.some.inj hq).symm, _, rfl⟩
    · exact fun q => iff_or_returned (.inserted p w.gAsyncHandleCounter) nofun q
  | @started c p hd pc =>
    refine h.of_call rfl (by rw [pc]; nofun) (fun _ _ _ _ => rfl) ?_ ?_ nofun ?_
    · rintro q (hq | hq)
      · exact .inl (.inl (by rw [pc]; exact hq))
      · cases hq
    · intro q hq
      exact h.host c q (by rw [pc]; exact hq)
    · exact started_threads (.inl rfl) .start
  | @createFailed c p hd pc =>
    refine h.of_setCall rfl rfl rfl (by rw [pc]; nofun) nofun rfl (fun q hq => ?_)
    rw [pc]; exact hq
  | @unlinked c p rec pc live =>
    refine h.of_setCall rfl rfl rfl (by rw [pc]; nofun) nofun rfl (fun q hq => ?_)
    rw [pc]; exact hq
  | @released c p pc =>
    refine h.of_call rfl (by rw [pc]; nofun) ?_ ?_ nofun nofun ?_
    · intro d q hd hq
      have hne : q ≠ p := h.ne_of_has hd hq (.inl (by rw [pc]; rfl))
      exact Heap.free_cell_of_ne _ hne
    · rintro q (hq | hq) <;> cases hq
    · intro q
      exact iff_or_returned (.failed WSAENETDOWN) nofun q
  | serviceFailed err pc =>
    refine h.of_setCall rfl rfl rfl ?_ nofun rfl nofun
    rw [pc]; nofun
  | @serviceStarted c call req p pc request fresh =>
    refine h.of_put rfl rfl (.inr fresh) (by rw [pc]; nofun) nofun (fun q hq => ?_) ?_
    · exact ⟨(Option.some.inj hq).symm, _, rfl⟩
    · exact started_threads (.inr ⟨rfl, rfl⟩) .resolve
  -- the other steps leave the calls alone
  | cancelled cancel => exact h.of_heapUpdated rfl (cancel_updated cancel) (fun _ => Iff.rfl)
  | tested pc live => exact h.of_heapUpdated rfl (.refl _) (setThread_threads pc)
  | resolved pc live => exact h.of_heapUpdated rfl (.refl _) (setThread_threads pc)
  | dropped pc live _ =>
    exact h.of_heapUpdated rfl ((HeapUpdated.refl _).put live (Record.updated_finish _ _))
      (setThread_threads pc)
  | chosen pc live _ => exact h.of_heapUpdated rfl (.refl _) (setThread_threads pc)
  | copied pc live _ =>
    exact h.of_heapUpdated rfl ((HeapUpdated.refl _).put live (Record.updated_finish _ _))
      (setThread_threads pc)

/-- **Calls and records.**  `CallInv` holds in every reachable state. -/
theorem callInv_of_run (h : (system resolve).Run tr w) : CallInv w := by
  refine h.invariant (P := fun _ w => CallInv w) ?_ ?_
  · intro s hs
    obtain rfl : s = World.start := hs
    refine ⟨nofun, nofun, ?_, fun p => ⟨fun hp => absurd rfl hp, ?_⟩⟩
    · rintro c d p (hp | hp) <;> cases hp
    · rintro ⟨h, c, hr | ⟨hr, _⟩⟩ <;> cases hr
  · intro tr s l t _ hinv hstep
    exact hinv.step (step_of_next hstep)

/-! ### Requests for which a handle was returned -/

/-- A call that has returned makes no step. -/
theorem HandleOf.step {hd : HANDLE} {p : Addr} (hret : HandleOf w hd p)
    (hs : Step resolve w l w') : HandleOf w' hd p := by
  obtain ⟨c, hc⟩ := hret
  -- a step moves one call, and it is not this one
  have hmoved : ∀ (d : Nat) (pc : CallPc), (¬ ∃ hd q, (w.calls d).Returned hd q) →
      HandleOf (w.setCall d pc) hd p := by
    intro d pc hpc
    have hcd : c ≠ d := by
      rintro rfl
      exact hpc ⟨hd, p, hc⟩
    refine ⟨c, ?_⟩
    show (update w.calls d pc c).Returned hd p
    rw [update_of_ne hcd]
    exact hc
  cases hs with
  | hostFailed pc => exact hmoved _ _ (by rw [pc]; nofun)
  | hostAllocated pc _ => exact hmoved _ _ (by rw [pc]; nofun)
  | inserted pc _ => exact hmoved _ _ (by rw [pc]; nofun)
  | started pc => exact hmoved _ _ (by rw [pc]; nofun)
  | createFailed pc => exact hmoved _ _ (by rw [pc]; nofun)
  | unlinked pc _ => exact hmoved _ _ (by rw [pc]; nofun)
  | released pc => exact hmoved _ _ (by rw [pc]; nofun)
  | serviceFailed err pc => exact hmoved _ _ (by rw [pc]; nofun)
  | serviceStarted pc _ _ => exact hmoved _ _ (by rw [pc]; nofun)
  | _ => exact ⟨c, hc⟩

/-- No other call has the record of a request for which a handle was returned. -/
theorem HandleOf.ne_of_has {hd : HANDLE} {p q : Addr} {c : Nat} (hret : HandleOf w hd p)
    (hinv : CallInv w) (hc : (w.calls c).Has q) (hpc : ∀ hd q, ¬ (w.calls c).Returned hd q) :
    p ≠ q := by
  rintro rfl
  obtain ⟨d, hd'⟩ := hret
  obtain rfl := hinv.distinct d c p hd'.has hc
  exact hpc _ _ hd'

/-- Its record is allocated. -/
theorem HandleOf.allocated {hd : HANDLE} {p : Addr} (hret : HandleOf w hd p) (hinv : CallInv w) :
    w.requests.cell p ≠ none := by
  obtain ⟨c, hc⟩ := hret
  exact hinv.allocated hc.has

/-- Its record is updated, but neither freed nor replaced. -/
theorem HandleOf.updated {hd : HANDLE} {p : Addr} (hret : HandleOf w hd p) (hinv : CallInv w)
    (hs : Step resolve w l w') {rec : Record} (hrec : w.requests.cell p = some rec) :
    ∃ rec', w'.requests.cell p = some rec' ∧ rec.Updated rec' := by
  -- the record is not touched, is another one, or is finished
  have hsame : ∀ {heap : Heap Record}, heap.cell p = w.requests.cell p →
      ∃ rec', heap.cell p = some rec' ∧ rec.Updated rec' := by
    intro heap heq
    exact ⟨rec, heq.trans hrec, .refl rec⟩
  have hput : ∀ {q : Addr} (new : Record), w.requests.cell q = none →
      (w.requests.put q new).cell p = w.requests.cell p := by
    intro q new hfresh
    have hpq : p ≠ q := fun heq => hret.allocated hinv (heq ▸ hfresh)
    exact Heap.put_cell_of_ne _ _ hpq
  have hfinish : ∀ {q : Addr} {old : Record} (error : Int), w.requests.cell q = some old →
      ∃ rec', (w.requests.put q (old.finish error)).cell p = some rec' ∧ rec.Updated rec' := by
    intro q old error hold
    exact ((HeapUpdated.refl w.requests).put hold (Record.updated_finish old error) p).2 rec hrec
  cases hs with
  | hostAllocated _ fresh => exact hsame (hput _ fresh)
  | inserted pc _ =>
    have hpq := hret.ne_of_has hinv (.inl (by rw [pc]; rfl)) (by rw [pc]; nofun)
    exact hsame (Heap.put_cell_of_ne _ _ hpq)
  | released pc =>
    have hpq := hret.ne_of_has hinv (.inl (by rw [pc]; rfl)) (by rw [pc]; nofun)
    exact hsame (Heap.free_cell_of_ne _ hpq)
  | serviceStarted _ _ fresh => exact hsame (hput _ fresh)
  | cancelled cancel => exact (cancel_updated cancel p).2 rec hrec
  | dropped _ live _ => exact hfinish _ live
  | copied _ live _ => exact hfinish _ live
  | _ => exact hsame rfl

/-- Its thread moves by its own steps only. -/
theorem HandleOf.thread_kept {hd : HANDLE} {p : Addr} (hret : HandleOf w hd p) (hinv : CallInv w)
    (hs : Step resolve w l w') (hl : ∀ scratch, l ≠ .thread p scratch) :
    w'.threads p = w.threads p := by
  have hother : ∀ {q : Addr} (pc : ThreadPc), p ≠ q →
      update w.threads q (some pc) p = w.threads p := fun pc hpq => update_of_ne hpq _ _
  have hown : ∀ {q : Addr} {scratch : Answer}, l = .thread q scratch → p ≠ q := by
    rintro q scratch rfl rfl
    exact hl scratch rfl
  cases hs with
  | started pc => exact hother _ (hret.ne_of_has hinv (.inl (by rw [pc]; rfl)) (by rw [pc]; nofun))
  | serviceStarted _ _ fresh => exact hother _ (fun heq => hret.allocated hinv (heq ▸ fresh))
  | tested _ _ => exact hother _ (hown rfl)
  | resolved _ _ => exact hother _ (hown rfl)
  | dropped _ _ _ => exact hother _ (hown rfl)
  | chosen _ _ _ => exact hother _ (hown rfl)
  | copied _ _ _ => exact hother _ (hown rfl)
  | _ => rfl

end LinuxWinsock.Async
