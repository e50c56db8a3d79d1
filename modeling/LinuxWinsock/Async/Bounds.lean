import LinuxWinsock.Async.Cancel

namespace LinuxWinsock.Async

open Function TransitionSystem LinkedList

/-!
# What a host lookup writes

A host call takes a buffer and its length, both go into the request record, and the thread of the
request copies a `struct hostent` into the buffer without a look at the length.

* `nextCopy` — the `memcpy` that a lookup thread is about to make;
* `fromCall_of_run` — a host record has the buffer and the length of the call that made it;
* `copy_of_step` — a thread comes to its copy through its last test only;
* `inBounds_iff` — the copies stay within the buffers of the calls exactly in the runs in which
  only lookups with a buffer that is there and long enough pass this test.
-/

variable {resolve : Query → Option Answer} {w w' : World} {l : Label} {tr : Trace}

/-! ### The copy of a lookup -/

/-- `sizeof(struct hostent)` -/
def sizeofHostent : Nat := 32

/-- The size of the structure that the thread of the request copies. -/
def Record.size : Record → Nat
  | .host _ => sizeofHostent
  | .service req => req.params.size

/-- The `memcpy` that the thread of the request at `p` makes next: its destination and size. -/
def nextCopy (w : World) (p : Addr) : Option (Option Addr × Nat) :=
  match w.threads p, w.requests.cell p with
  | some .copy, some rec => some (rec.buffer, rec.size)
  | _, _ => none

theorem nextCopy_eq_some {p : Addr} {copy : Option Addr × Nat} :
    nextCopy w p = some copy ↔ w.threads p = some .copy ∧
      ∃ rec, w.requests.cell p = some rec ∧ copy = (rec.buffer, rec.size) := by
  unfold nextCopy
  constructor
  · intro h
    split at h
    · rename_i rec pc live
      exact ⟨pc, rec, live, (Option.some.inj h).symm⟩
    · cases h
  · rintro ⟨pc, rec, live, rfl⟩
    rw [pc, live]

/-- The buffers of the clients are changed by these copies only. -/
theorem buffers_of_nextCopy (hs : Step resolve w l w') :
    w'.buffers = w.buffers ∨ ∃ p scratch b n res, l = .thread p scratch ∧
      nextCopy w p = some (some b, n) ∧ w'.buffers = update w.buffers b (some res) := by
  rcases buffers_of_step hs with ⟨_, hsame⟩ | ⟨p, rec, b, res, hwrites, live, buffer, hbuffers⟩
  · exact .inl hsame
  · obtain ⟨⟨scratch, rfl⟩, pc⟩ := writes_eq_some.mp hwrites
    refine .inr ⟨p, scratch, b, rec.size, res, rfl, ?_, hbuffers⟩
    exact nextCopy_eq_some.mpr ⟨pc, rec, live, by rw [buffer]⟩

/-! ### Records and the calls that made them -/

def HostCall.buffer : HostCall → Option Addr
  | .byName _ buf _ => buf
  | .byAddr _ _ _ buf _ => buf

def HostCall.buflen : HostCall → BitVec 32
  | .byName _ _ buflen => buflen
  | .byAddr _ _ _ _ buflen => buflen

/-- The host call whose record the step allocates. -/
def hostCalls (_ : World) : Label → Option (Addr × HostCall)
  | .hostCall _ call (some p) => some (p, call)
  | _ => none

/-- The call that made the request at `p`. -/
def requestCall (p : Addr) (tr : Trace) : Option HostCall := latestAt hostCalls p tr

/-- The record has the buffer and the length of the call. -/
def HostCall.Made (call : HostCall) (req : AsyncRequest) : Prop :=
  req.buffer = call.buffer ∧ req.buflen = call.buflen

theorem HostCall.made_request (call : HostCall) : call.Made call.request := by
  cases call with
  | byName name buf buflen => exact ⟨rfl, rfl⟩
  | byAddr addr len type buf buflen => exact ⟨rfl, rfl⟩

/-- Every host record was made by the call that the history names. -/
def FromCall (tr : Trace) (w : World) : Prop :=
  ∀ p req, w.requests.cell p = some (.host req) →
    ∃ call, requestCall p tr = some call ∧ call.Made req

/-- A step that makes no record and at most updates those there are. -/
theorem FromCall.of_back (h : FromCall tr w) (hl : hostCalls w l = none)
    (hback : ∀ p req', w'.requests.cell p = some (.host req') →
      ∃ req, w.requests.cell p = some (.host req) ∧ req'.buffer = req.buffer ∧
        req'.buflen = req.buflen) : FromCall ((w, l) :: tr) w' := by
  intro p req' hp
  obtain ⟨req, hreq, hbuffer, hbuflen⟩ := hback p req' hp
  obtain ⟨call, hcall, hmade⟩ := h p req hreq
  refine ⟨call, ?_, hbuffer.trans hmade.1, hbuflen.trans hmade.2⟩
  rw [requestCall, latestAt_cons_none hl]
  exact hcall

/-- What is a host record after an update was one before. -/
theorem HeapUpdated.host_back {heap heap' : Heap Record} (h : HeapUpdated heap heap') {p : Addr}
    {req' : AsyncRequest} (hp : heap'.cell p = some (.host req')) :
    ∃ req, heap.cell p = some (.host req) ∧ req'.buffer = req.buffer ∧
      req'.buflen = req.buflen := by
  obtain ⟨hnone, hsome⟩ := h p
  cases hcell : heap.cell p with
  | none =>
    rw [hnone hcell] at hp
    cases hp
  | some a =>
    obtain ⟨b, hb, hupd⟩ := hsome a hcell
    obtain rfl := Option.some.inj (hp.symm.trans hb)
    cases a with
    | host req => exact ⟨req, rfl, hupd.1, hupd.2.1⟩
    | service req => cases hupd

/-- Every step keeps `FromCall`. -/
theorem fromCall_step (h : FromCall tr w) (hs : Step resolve w l w') :
    FromCall ((w, l) :: tr) w' := by
  have hsame : ∀ {p : Addr} {req : AsyncRequest}, w.requests.cell p = some (.host req) →
      ∃ req', w.requests.cell p = some (.host req') ∧ req.buffer = req'.buffer ∧
        req.buflen = req'.buflen := fun hp => ⟨_, hp, rfl, rfl⟩
  -- only an allocation makes a host record
  cases hs with
  | @hostAllocated c call p pc fresh =>
    intro q req hq
    have hlatest := latestAt_cons_some (f := hostCalls) (s := w)
      (l := .hostCall c call (some p)) rfl q tr
    rcases Heap.cell_of_put hq with ⟨rfl, hreq⟩ | ⟨hqp, hq⟩
    · obtain rfl := Record.host.inj hreq
      rw [if_pos rfl] at hlatest
      exact ⟨call, hlatest, call.made_request⟩
    · rw [if_neg (Ne.symm hqp)] at hlatest
      obtain ⟨call', hcall', hmade⟩ := h q req hq
      exact ⟨call', hlatest.trans hcall', hmade⟩
  | @inserted c p req pc live =>
    refine h.of_back rfl (fun q req' hq => ?_)
    rcases Heap.cell_of_put hq with ⟨rfl, hreq⟩ | ⟨_, hq⟩
    · obtain rfl := Record.host.inj hreq
      exact ⟨req, live, rfl, rfl⟩
    · exact hsame hq
  | released pc => exact h.of_back rfl (fun q req' hq => hsame (Heap.cell_of_free hq).2)
  | serviceStarted pc _ _ =>
    refine h.of_back rfl (fun q req' hq => ?_)
    rcases Heap.cell_of_put hq with ⟨_, hreq⟩ | ⟨_, hq⟩
    · cases hreq
    · exact hsame hq
  | cancelled cancel =>
    exact h.of_back rfl (fun q req' hq => (cancel_updated cancel).host_back hq)
  | dropped _ live _ =>
    have hupd := (HeapUpdated.refl w.requests).put live (Record.updated_finish _ WSAHOST_NOT_FOUND)
    exact h.of_back rfl (fun q req' hq => hupd.host_back hq)
  | copied _ live _ =>
    have hupd := (HeapUpdated.refl w.requests).put live (Record.updated_finish _ 0)
    exact h.of_back rfl (fun q req' hq => hupd.host_back hq)
  | _ => exact h.of_back rfl (fun q req' hq => hsame hq)

/-- **Records and calls.**  In every reachable state a host record has the buffer and the length
    of the call that made it. -/
theorem fromCall_of_run (h : (system resolve).Run tr w) : FromCall tr w := by
  refine h.invariant (P := FromCall) ?_ ?_
  · intro s hs p req hp
    obtain rfl : s = World.start := hs
    cases hp
  · intro tr s l t _ ih hstep
    exact fromCall_step ih (step_of_next hstep)

/-! ### The last test of a lookup -/

/-- **A thread comes to its copy** through its last test only: the resolver has answered, and the
    request is wanted. -/
theorem copy_of_step (hs : Step resolve w l w') {p : Addr} (hp : w'.threads p = some .copy) :
    w.threads p = some .copy ∨ ∃ scratch rec, l = .thread p scratch ∧
      w.threads p = some (.answered true) ∧ w.requests.cell p = some rec ∧ rec.wanted = true ∧
      w'.requests = w.requests := by
  -- a thread moves to another place
  have hother : ∀ {q : Addr} {pc : ThreadPc}, w'.threads = update w.threads q (some pc) →
      pc ≠ .copy → w.threads p = some .copy := by
    intro q pc hthreads hne
    rw [hthreads] at hp
    by_cases hpq : p = q
    · rw [hpq, update_self] at hp
      exact absurd (Option.some.inj hp) hne
    · rwa [update_of_ne hpq] at hp
  cases hs with
  | started _ => exact .inl (hother rfl nofun)
  | serviceStarted _ _ _ => exact .inl (hother rfl nofun)
  | @tested q _ req _ _ =>
    refine .inl (hother rfl ?_)
    split <;> nofun
  | resolved _ _ => exact .inl (hother rfl nofun)
  | dropped _ _ _ => exact .inl (hother rfl nofun)
  | copied _ _ _ => exact .inl (hother rfl nofun)
  | @chosen q scratch rec pc live wanted =>
    by_cases hpq : p = q
    · subst hpq
      exact .inr ⟨scratch, rec, rfl, pc, live, wanted, rfl⟩
    · have hp : update w.threads q (some .copy) p = some .copy := hp
      rw [update_of_ne hpq] at hp
      exact .inl hp
  | _ => exact .inl hp

/-- A thread that passes its last test comes to its copy. -/
theorem copy_of_answered {p : Addr} {scratch : Answer} {rec : Record}
    (hs : Step resolve w (.thread p scratch) w') (pc : w.threads p = some (.answered true))
    (live : w.requests.cell p = some rec) (wanted : rec.wanted = true) :
    w'.threads p = some .copy ∧ w'.requests = w.requests := by
  cases hs with
  | tested pc' _ => rw [pc] at pc'; cases pc'
  | resolved pc' _ => rw [pc] at pc'; cases pc'
  | dropped pc' live' unwanted =>
    rw [pc] at pc'
    obtain rfl := ThreadPc.answered.inj (Option.some.inj pc')
    obtain rfl := Option.some.inj (live.symm.trans live')
    rw [wanted] at unwanted
    cases unwanted
  | chosen _ _ _ => exact ⟨update_self _ _ _, rfl⟩
  | copied pc' _ _ => rw [pc] at pc'; cases pc'

/-! ### Copies within the buffer -/

/-- Every host thread that is about to copy writes only within the first `max(buflen, 0)` bytes of
    the buffer of the call, which is there, and does so only if a `hostent` fits. -/
def InBounds (tr : Trace) (w : World) : Prop :=
  ∀ p req call buffer n, w.requests.cell p = some (.host req) → requestCall p tr = some call →
    nextCopy w p = some (buffer, n) →
    buffer = call.buffer ∧ buffer ≠ none ∧ (n : Int) ≤ max call.buflen.toInt 0 ∧
      (sizeofHostent : Int) ≤ call.buflen.toInt

/-- The call gives a buffer for a `hostent`. -/
def HostCall.HasRoom (call : HostCall) : Prop :=
  call.buffer ≠ none ∧ (sizeofHostent : Int) ≤ call.buflen.toInt

/-- A host lookup that has an answer and is not cancelled at its last test was called with a
    buffer for a `hostent`. -/
def Fits (tr : Trace) (w : World) : Label → Prop
  | .thread p _ => w.threads p = some (.answered true) → ∀ req call,
      w.requests.cell p = some (.host req) → req.cancelled = false →
      requestCall p tr = some call → call.HasRoom
  | _ => True

/-- The copies are within the buffers if the calls of the lookups about to copy have room. -/
theorem inBounds_iff_room (h : FromCall tr w) :
    InBounds tr w ↔ ∀ p req call, w.requests.cell p = some (.host req) →
      requestCall p tr = some call → w.threads p = some .copy → call.HasRoom := by
  constructor
  · intro hin p req call hp hcall hpc
    have hnext : nextCopy w p = some (req.buffer, sizeofHostent) :=
      nextCopy_eq_some.mpr ⟨hpc, _, hp, rfl⟩
    obtain ⟨hbuffer, hsome, -, hfit⟩ := hin p req call _ _ hp hcall hnext
    exact ⟨hbuffer ▸ hsome, hfit⟩
  · intro hroom p req call buffer n hp hcall hnext
    obtain ⟨hpc, rec, hrec, heq⟩ := nextCopy_eq_some.mp hnext
    obtain rfl := Option.some.inj (hp.symm.trans hrec)
    obtain ⟨rfl, rfl⟩ := Prod.mk.inj heq
    -- the record is that of the call
    obtain ⟨call', hcall', hbuffer, _⟩ := h p req hp
    obtain rfl := Option.some.inj (hcall.symm.trans hcall')
    obtain ⟨hsome, hfit⟩ := hroom p req call hp hcall hpc
    have hreq : req.buffer ≠ none := hbuffer ▸ hsome
    exact ⟨hbuffer, hreq, le_max_of_le_left hfit, hfit⟩

/-- A thread that is there keeps the call that made its request. -/
theorem requestCall_kept (hinv : CallInv w) (hs : Step resolve w l w') {p : Addr}
    (hp : w.threads p ≠ none) : requestCall p ((w, l) :: tr) = requestCall p tr := by
  obtain ⟨hd, hret⟩ := (hinv.threads p).mp hp
  cases hs with
  | @hostAllocated c call q _ fresh =>
    have hqp : q ≠ p := fun heq => hret.allocated hinv (heq ▸ fresh)
    have hlatest := latestAt_cons_some (f := hostCalls) (s := w)
      (l := .hostCall c call (some q)) rfl p tr
    rw [if_neg hqp] at hlatest
    exact hlatest
  | _ => exact latestAt_cons_none rfl p tr

/-- One step keeps the copies within the buffers exactly if the lookup that passes its last test
    in it, if one does, has a buffer that is there and long enough. -/
theorem inBounds_step (h : (system resolve).Run tr w) (hin : InBounds tr w)
    (hstep : (system resolve).step w l w') : InBounds ((w, l) :: tr) w' ↔ Fits tr w l := by
  have hs := step_of_next hstep
  have hinv := callInv_of_run h
  rw [inBounds_iff_room (fromCall_of_run (h.step hstep))]
  rw [inBounds_iff_room (fromCall_of_run h)] at hin
  constructor
  · intro hroom
    cases l with
    | thread p scratch =>
      intro pc req call live hclear hcall
      have hwanted : (Record.host req).wanted = true := by
        show (!req.cancelled) = true
        rw [hclear]
        rfl
      obtain ⟨hpc, hrequests⟩ := copy_of_answered hs pc live hwanted
      refine hroom p req call (by rw [hrequests, live]) ?_ hpc
      rw [requestCall_kept hinv hs (by rw [pc]; nofun), hcall]
    | _ => trivial
  · intro hfits p req' call hp hcall hpc
    rcases copy_of_step hs hpc with hold | ⟨scratch, rec, rfl, pc, live, wanted, hrequests⟩
    · -- the thread was about to copy before
      have hne : w.threads p ≠ none := by rw [hold]; nofun
      rw [requestCall_kept hinv hs hne] at hcall
      obtain ⟨hd, hret⟩ := (hinv.threads p).mp hne
      obtain ⟨rec, hrec⟩ := Option.ne_none_iff_exists'.mp (hret.allocated hinv)
      obtain ⟨rec', hrec', hupd⟩ := hret.updated hinv hs hrec
      obtain rfl := Option.some.inj (hp.symm.trans hrec')
      cases rec with
      | host req => exact hin p req call hrec hcall hold
      | service req => cases hupd
    · -- it has just passed its last test
      rw [hrequests, live] at hp
      obtain rfl := Option.some.inj hp
      rw [requestCall_kept hinv hs (by rw [pc]; nofun)] at hcall
      have hclear : req'.cancelled = false := by
        have hwanted : (!req'.cancelled) = true := wanted
        simpa using hwanted
      exact hfits pc req' call live hclear hcall

/-- **Host lookups and their buffers.**  In a run every copy of a host lookup stays within the
    buffer of its call, and is made only if a `hostent` fits, exactly if each lookup that passes
    its last test was called with a buffer and a length of at least `sizeof(struct hostent)`. -/
theorem inBounds_iff (resolve : Query → Option Answer) (tr : Trace) (w : World)
    (h : (system resolve).Run tr w) :
    Always InBounds tr w ↔ AllSteps Fits tr := by
  refine h.always_iff_allSteps ?_ ?_ (AllSteps.trivial tr)
  · intro s hs p req call buffer n hp
    obtain rfl : s = World.start := hs
    cases hp
  · intro tr s l t hr hin _ hstep
    exact inBounds_step hr hin hstep

/-- The steps of one lookup for the host that the resolver knows, up to its copy. -/
def lookupSteps (buflen : BitVec 32) : List Label :=
  [.hostCall 0 (.byName [97] (some 1) buflen) (some 100), .insert 0, .create 0 true,
    .thread 100 ⟨[], []⟩, .thread 100 ⟨[], []⟩, .thread 100 ⟨[], []⟩]

/-- A lookup with a buffer of 32 bytes. -/
theorem inBounds_hostent : ∃ tr w, (system knowsOne).Run tr w ∧
    nextCopy w 100 = some (some 1, 32) ∧ Always InBounds tr w := by
  have hrun := run_of_exec_isSome World.start (next knowsOne) (lookupSteps 32) rfl
  refine ⟨_, _, hrun, rfl, (inBounds_iff knowsOne _ _ hrun).mpr ?_⟩
  refine ⟨?_, ?_, ?_, trivial, trivial, trivial, trivial⟩
  · intro _ req call _ _ hcall
    obtain rfl := Option.some.inj hcall
    exact ⟨by decide, by decide⟩
  · intro hpc
    cases hpc
  · intro hpc
    cases hpc

/-- A buffer that is one byte short is written beyond its end. -/
theorem lookup_overruns : ∃ tr w, (system knowsOne).Run tr w ∧
    nextCopy w 100 = some (some 1, 32) ∧
    (requestCall 100 tr).map HostCall.buflen = some 31 ∧ ¬ InBounds tr w := by
  have hrun := run_of_exec_isSome World.start (next knowsOne) (lookupSteps 31) rfl
  refine ⟨_, _, hrun, rfl, rfl, fun hin => ?_⟩
  obtain ⟨-, -, -, hfit⟩ := hin 100 _ _ _ _ rfl rfl rfl
  exact absurd hfit (by decide)

end LinuxWinsock.Async
