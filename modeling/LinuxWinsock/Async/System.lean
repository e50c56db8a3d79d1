import LinuxWinsock.Async.Request
import LinuxWinsock.Lib.Transition

namespace LinuxWinsock.Async

open Function

/-!
# The system of asynchronous lookups

Any number of calls and lookup threads, interleaved.  A host call takes its critical
sections under `g_async_mutex` one at a time: it is inserted, `pthread_create` is called
with the mutex released, and if that fails the request is unlinked and then freed.  A
lookup thread takes one step for each test of its flag, for the call of the resolver and
for the copy into the buffer.

The resolver is a parameter: the answer each question has, if any.  As POSIX allows, a
call leaves its answer in storage shared by all calls of the same function, and a call
without an answer may leave anything there.

* `next`, `system` — the transition system;
* `Step`, `step_of_next` — the steps as a relation.
-/

/-! ### States -/

/-- Where a call stands. -/
inductive CallPc where
  /-- Not made yet. -/
  | idle
  /-- A host call that has filled in its record. -/
  | allocated (p : Addr)
  /-- The request is in the list and has its handle. -/
  | inserted (p : Addr) (handle : HANDLE)
  /-- `pthread_create` failed. -/
  | createFailed (p : Addr)
  /-- The rollback has changed the head of the list. -/
  | unlinked (p : Addr)
  /-- A host call has returned its handle. -/
  | hostReturned (p : Addr) (handle : HANDLE)
  /-- A service call has returned the address of its record. -/
  | serviceReturned (p : Addr)
  /-- The call has returned `NULL` with this error. -/
  | failed (lastError : Int)
  deriving DecidableEq

/-- Where a lookup thread stands. -/
inductive ThreadPc where
  /-- A host thread before its first test. -/
  | start
  /-- About to call the resolver. -/
  | resolve
  /-- The resolver has returned a structure, or `NULL`. -/
  | answered (found : Bool)
  /-- About to copy. -/
  | copy
  | done
  deriving DecidableEq

/-- The state the calls and the threads share, and where each of them stands.  A thread
    is named by the address of its request. -/
structure World where
  requests : Heap Record
  gAsyncRequests : Option Addr
  gAsyncHandleCounter : Nat
  calls : Nat → CallPc
  threads : Addr → Option ThreadPc
  /-- What the static storage of each function holds. -/
  static : ResolverFn → Answer
  /-- What each buffer of a client holds; different buffers do not overlap. -/
  buffers : Addr → Option ResultStruct

namespace World

/-- The state before the first call. -/
def start : World where
  requests := Heap.empty
  gAsyncRequests := none
  gAsyncHandleCounter := 1
  calls := fun _ => .idle
  threads := fun _ => none
  static := fun _ => ⟨[], []⟩
  buffers := fun _ => none

/-- The requests and the head of their list, as the cancellation sees them. -/
def toRequests (w : World) : Requests := ⟨w.requests, w.gAsyncRequests⟩

/-- The state with the call `c` moved to `pc`. -/
def setCall (w : World) (c : Nat) (pc : CallPc) : World :=
  { w with calls := update w.calls c pc }

/-- The state with the thread of the request at `p` moved to `pc`. -/
def setThread (w : World) (p : Addr) (pc : ThreadPc) : World :=
  { w with threads := update w.threads p (some pc) }

end World

/-- The largest `int`: the handle counter is not incremented beyond it. -/
def intMax : Nat := 2 ^ 31 - 1

/-- Memory that `malloc` can hand out. -/
def freshAt (w : World) (p : Addr) : Bool := decide (0 < p) && (w.requests.cell p).isNone

/-! ### The steps of a call -/

/-- A host call up to its critical section. -/
def hostCallStep (w : World) (c : Nat) (call : HostCall) (malloc : Option Addr) : Option World :=
  match w.calls c, malloc with
  | .idle, none => some (w.setCall c (.failed WSA_NOT_ENOUGH_MEMORY))
  | .idle, some p =>
    if freshAt w p then
      some ({ w with requests := w.requests.put p (.host call.request) }.setCall c (.allocated p))
    else none
  | _, _ => none

/-- The critical section of a host call: its handle, and its place at the head. -/
def insertStep (w : World) (c : Nat) : Option World :=
  match w.calls c with
  | .allocated p =>
    match w.requests.cell p with
    | some (.host req) =>
      if w.gAsyncHandleCounter < intMax then
        -- the handle is not stored in the record
        some ({ w with
          gAsyncHandleCounter := w.gAsyncHandleCounter + 1
          requests := w.requests.put p (.host { req with next := w.gAsyncRequests })
          gAsyncRequests := some p }.setCall c (.inserted p w.gAsyncHandleCounter))
      else none
    | _ => none
  | _ => none

/-- `pthread_create` in a host call. -/
def createStep (w : World) (c : Nat) (ok : Bool) : Option World :=
  match w.calls c with
  | .inserted p h =>
    if ok then some ((w.setThread p .start).setCall c (.hostReturned p h))
    else some (w.setCall c (.createFailed p))
  | _ => none

/-- The critical section of the rollback: `g_async_requests = req->next`. -/
def unlinkStep (w : World) (c : Nat) : Option World :=
  match w.calls c with
  | .createFailed p =>
    match w.requests.cell p with
    -- the head is overwritten even if another request is there by now
    | some rec => some ({ w with gAsyncRequests := rec.next }.setCall c (.unlinked p))
    | none => none
  | _ => none

/-- The end of the rollback: the record is freed. -/
def releaseStep (w : World) (c : Nat) : Option World :=
  match w.calls c with
  | .unlinked p =>
    some ({ w with requests := w.requests.free p }.setCall c (.failed WSAENETDOWN))
  | _ => none

/-- A service call.  Its record is not in the list, so the call is one step. -/
def serviceCallStep (w : World) (c : Nat) (call : ServiceCall) (malloc : Option Addr)
    (created : Bool) : Option World :=
  match w.calls c, call.request, malloc with
  | .idle, none, _ => some (w.setCall c (.failed WSAEINVAL))
  | .idle, some _, none => some (w.setCall c (.failed WSAENOBUFS))
  | .idle, some req, some p =>
    if freshAt w p then
      if created then
        some (({ w with requests := w.requests.put p (.service req) }.setThread p .resolve).setCall
          c (.serviceReturned p))
      else
        -- a record that was never in a list is freed, with nothing to unlink
        some ({ w with requests := (w.requests.put p (.service req)).free p }.setCall
          c (.failed WSAENOBUFS))
    else none
  | _, _, _ => none

/-- A cancellation. -/
def cancelStep (w : World) (h : HANDLE) : Option World :=
  (wsaCancelAsyncRequest w.toRequests h).map
    (fun r => { w with requests := r.heap, gAsyncRequests := r.head })

/-! ### The steps of a lookup thread -/

/-- The record of a request that has its result, or has none. -/
def Record.finish (error : Int) : Record → Record
  | .host req => .host req
  | .service req => .service { req with error := error, completed := true }

/-- The record after the copy. -/
def Record.succeed : Record → Record := Record.finish 0

/-- Does the thread copy, once the resolver has returned? -/
def Record.wanted : Record → Bool
  | .host req => !req.cancelled
  | .service req => req.fits

/-- One step of the thread of the request at `p`; `scratch` is what a resolver call without
    an answer leaves in the static storage. -/
def threadStep (resolve : Query → Option Answer) (w : World) (p : Addr) (scratch : Answer) :
    Option World :=
  match w.threads p, w.requests.cell p with
  | some .start, some (.host req) =>
    some (w.setThread p (if req.cancelled then .done else .resolve))
  -- the answer goes through static storage, which the next call of the function overwrites
  | some .resolve, some rec =>
    some ({ w with
      static := update w.static rec.query.function ((resolve rec.query).getD scratch)
      }.setThread p (.answered (resolve rec.query).isSome))
  | some (.answered found), some rec =>
    if found && rec.wanted then some (w.setThread p .copy)
    else
      some ({ w with requests := w.requests.put p (rec.finish WSAHOST_NOT_FOUND) }.setThread p .done)
  | some .copy, some rec =>
    match rec.buffer with
    | none => none  -- a host thread does not check for a `NULL` buffer
    | some b =>
      some ({ w with
        buffers := update w.buffers b
          (some ⟨(w.static rec.query.function).fixed, rec.query.function⟩)
        requests := w.requests.put p rec.succeed
        }.setThread p .done)
  | _, _ => none

/-! ### The system -/

/-- The steps, with the answers of `malloc` and `pthread_create`. -/
inductive Label where
  | hostCall (c : Nat) (call : HostCall) (malloc : Option Addr)
  | insert (c : Nat)
  | create (c : Nat) (ok : Bool)
  | unlink (c : Nat)
  | release (c : Nat)
  | serviceCall (c : Nat) (call : ServiceCall) (malloc : Option Addr) (created : Bool)
  | cancel (h : HANDLE)
  | thread (p : Addr) (scratch : Answer)

/-- The step is no cancellation. -/
def NoCancel : Label → Prop
  | .cancel _ => False
  | _ => True

/-- The step labelled `l`; `none` where the label does not fit the state, or where the code
    would touch memory that is not allocated. -/
def next (resolve : Query → Option Answer) (w : World) : Label → Option World
  | .hostCall c call malloc => hostCallStep w c call malloc
  | .insert c => insertStep w c
  | .create c ok => createStep w c ok
  | .unlink c => unlinkStep w c
  | .release c => releaseStep w c
  | .serviceCall c call malloc created => serviceCallStep w c call malloc created
  | .cancel h => cancelStep w h
  | .thread p scratch => threadStep resolve w p scratch

/-- The transition system, for a resolver that answers as `resolve` says. -/
def system (resolve : Query → Option Answer) : TransitionSystem World Label :=
  .ofFun World.start (next resolve)

/-- A history of the system, the latest step first. -/
abbrev Trace := List (World × Label)

/-- The call has returned the handle `h` for the request at `p`. -/
def CallPc.Returned (pc : CallPc) (h : HANDLE) (p : Addr) : Prop :=
  pc = .hostReturned p h ∨ (pc = .serviceReturned p ∧ h = p)

/-- The request at `p` was made by a call that has returned the handle `h`. -/
def HandleOf (w : World) (h : HANDLE) (p : Addr) : Prop := ∃ c, (w.calls c).Returned h p

/-! ### The steps as a relation -/

/-- What a step labelled so can do. -/
inductive Step (resolve : Query → Option Answer) (w : World) : Label → World → Prop
  | hostFailed {c : Nat} {call : HostCall} (pc : w.calls c = .idle) :
      Step resolve w (.hostCall c call none) (w.setCall c (.failed WSA_NOT_ENOUGH_MEMORY))
  | hostAllocated {c : Nat} {call : HostCall} {p : Addr} (pc : w.calls c = .idle)
      (fresh : w.requests.cell p = none) :
      Step resolve w (.hostCall c call (some p))
        ({ w with requests := w.requests.put p (.host call.request) }.setCall c (.allocated p))
  | inserted {c : Nat} {p : Addr} {req : AsyncRequest} (pc : w.calls c = .allocated p)
      (live : w.requests.cell p = some (.host req)) :
      Step resolve w (.insert c)
        ({ w with
          gAsyncHandleCounter := w.gAsyncHandleCounter + 1
          requests := w.requests.put p (.host { req with next := w.gAsyncRequests })
          gAsyncRequests := some p }.setCall c (.inserted p w.gAsyncHandleCounter))
  | started {c : Nat} {p : Addr} {h : HANDLE} (pc : w.calls c = .inserted p h) :
      Step resolve w (.create c true) ((w.setThread p .start).setCall c (.hostReturned p h))
  | createFailed {c : Nat} {p : Addr} {h : HANDLE} (pc : w.calls c = .inserted p h) :
      Step resolve w (.create c false) (w.setCall c (.createFailed p))
  | unlinked {c : Nat} {p : Addr} {rec : Record} (pc : w.calls c = .createFailed p)
      (live : w.requests.cell p = some rec) :
      Step resolve w (.unlink c) ({ w with gAsyncRequests := rec.next }.setCall c (.unlinked p))
  | released {c : Nat} {p : Addr} (pc : w.calls c = .unlinked p) :
      Step resolve w (.release c)
        ({ w with requests := w.requests.free p }.setCall c (.failed WSAENETDOWN))
  | serviceFailed {c : Nat} {call : ServiceCall} {malloc : Option Addr} {created : Bool}
      (err : Int) (pc : w.calls c = .idle) :
      Step resolve w (.serviceCall c call malloc created) (w.setCall c (.failed err))
  | serviceStarted {c : Nat} {call : ServiceCall} {req : AsyncServiceRequest} {p : Addr}
      (pc : w.calls c = .idle) (request : call.request = some req)
      (fresh : w.requests.cell p = none) :
      Step resolve w (.serviceCall c call (some p) true)
        (({ w with requests := w.requests.put p (.service req) }.setThread p .resolve).setCall
          c (.serviceReturned p))
  | cancelled {h : HANDLE} {r : Requests} (cancel : wsaCancelAsyncRequest w.toRequests h = some r) :
      Step resolve w (.cancel h) { w with requests := r.heap, gAsyncRequests := r.head }
  | tested {p : Addr} {scratch : Answer} {req : AsyncRequest} (pc : w.threads p = some .start)
      (live : w.requests.cell p = some (.host req)) :
      Step resolve w (.thread p scratch)
        (w.setThread p (if req.cancelled then .done else .resolve))
  | resolved {p : Addr} {scratch : Answer} {rec : Record} (pc : w.threads p = some .resolve)
      (live : w.requests.cell p = some rec) :
      Step resolve w (.thread p scratch)
        ({ w with
          static := update w.static rec.query.function ((resolve rec.query).getD scratch)
          }.setThread p (.answered (resolve rec.query).isSome))
  | dropped {p : Addr} {scratch : Answer} {found : Bool} {rec : Record}
      (pc : w.threads p = some (.answered found)) (live : w.requests.cell p = some rec)
      (unwanted : (found && rec.wanted) = false) :
      Step resolve w (.thread p scratch)
        ({ w with requests := w.requests.put p (rec.finish WSAHOST_NOT_FOUND) }.setThread p .done)
  | chosen {p : Addr} {scratch : Answer} {rec : Record}
      (pc : w.threads p = some (.answered true)) (live : w.requests.cell p = some rec)
      (wanted : rec.wanted = true) :
      Step resolve w (.thread p scratch) (w.setThread p .copy)
  | copied {p : Addr} {scratch : Answer} {rec : Record} {b : Addr}
      (pc : w.threads p = some .copy) (live : w.requests.cell p = some rec)
      (buffer : rec.buffer = some b) :
      Step resolve w (.thread p scratch)
        ({ w with
          buffers := update w.buffers b
            (some ⟨(w.static rec.query.function).fixed, rec.query.function⟩)
          requests := w.requests.put p rec.succeed
          }.setThread p .done)

theorem cell_of_freshAt {w : World} {p : Addr} (h : freshAt w p = true) :
    w.requests.cell p = none := by
  simp only [freshAt, Bool.and_eq_true, Option.isNone_iff_eq_none] at h
  exact h.2

/-! Each function does one of these steps. -/

section Functions

variable {resolve : Query → Option Answer} {w w' : World} {c : Nat}

theorem step_of_hostCallStep {call : HostCall} {malloc : Option Addr}
    (h : hostCallStep w c call malloc = some w') :
    Step resolve w (.hostCall c call malloc) w' := by
  unfold hostCallStep at h
  split at h
  · rename_i pc
    obtain rfl := Option.some.inj h
    exact .hostFailed pc
  · rename_i pc
    split at h
    · rename_i hfresh
      obtain rfl := Option.some.inj h
      exact .hostAllocated pc (cell_of_freshAt hfresh)
    · cases h
  · cases h

theorem step_of_insertStep (h : insertStep w c = some w') : Step resolve w (.insert c) w' := by
  unfold insertStep at h
  split at h
  · rename_i p pc
    split at h
    · rename_i req live
      split at h
      · obtain rfl := Option.some.inj h
        exact .inserted pc live
      · cases h
    · cases h
  · cases h

theorem step_of_createStep {ok : Bool} (h : createStep w c ok = some w') :
    Step resolve w (.create c ok) w' := by
  unfold createStep at h
  split at h
  · rename_i p hd pc
    cases ok with
    | true =>
      obtain rfl := Option.some.inj h
      exact .started pc
    | false =>
      obtain rfl := Option.some.inj h
      exact .createFailed pc
  · cases h

theorem step_of_unlinkStep (h : unlinkStep w c = some w') : Step resolve w (.unlink c) w' := by
  unfold unlinkStep at h
  split at h
  · rename_i p pc
    split at h
    · rename_i rec live
      obtain rfl := Option.some.inj h
      exact .unlinked pc live
    · cases h
  · cases h

theorem step_of_releaseStep (h : releaseStep w c = some w') : Step resolve w (.release c) w' := by
  unfold releaseStep at h
  split at h
  · rename_i p pc
    obtain rfl := Option.some.inj h
    exact .released pc
  · cases h

theorem step_of_serviceCallStep {call : ServiceCall} {malloc : Option Addr} {created : Bool}
    (h : serviceCallStep w c call malloc created = some w') :
    Step resolve w (.serviceCall c call malloc created) w' := by
  unfold serviceCallStep at h
  split at h
  · rename_i pc _
    obtain rfl := Option.some.inj h
    exact .serviceFailed _ pc
  · rename_i pc _
    obtain rfl := Option.some.inj h
    exact .serviceFailed _ pc
  · rename_i req p pc hreq
    split at h
    · rename_i hfresh
      have hcell := cell_of_freshAt hfresh
      split at h
      · rename_i hcreated
        obtain rfl := Option.some.inj h
        subst hcreated
        exact .serviceStarted pc hreq hcell
      · -- the record is freed again
        rw [Heap.free_put_of_fresh _ _ hcell] at h
        obtain rfl := Option.some.inj h
        exact .serviceFailed _ pc
    · cases h
  · cases h

theorem step_of_threadStep {p : Addr} {scratch : Answer}
    (h : threadStep resolve w p scratch = some w') : Step resolve w (.thread p scratch) w' := by
  unfold threadStep at h
  split at h
  · rename_i req pc live
    obtain rfl := Option.some.inj h
    exact .tested pc live
  · rename_i rec pc live
    obtain rfl := Option.some.inj h
    exact .resolved pc live
  · rename_i found rec pc live
    split at h
    · rename_i hboth
      simp only [Bool.and_eq_true] at hboth
      obtain ⟨rfl, hwanted⟩ := hboth
      obtain rfl := Option.some.inj h
      exact .chosen pc live hwanted
    · rename_i hnot
      obtain rfl := Option.some.inj h
      exact .dropped pc live (Bool.eq_false_of_not_eq_true hnot)
  · rename_i rec pc live
    split at h
    · cases h
    · rename_i b hb
      obtain rfl := Option.some.inj h
      exact .copied pc live hb
  · cases h

/-- **All that a step can do.** -/
theorem step_of_next {l : Label} (h : next resolve w l = some w') : Step resolve w l w' := by
  cases l with
  | hostCall => exact step_of_hostCallStep h
  | insert => exact step_of_insertStep h
  | create => exact step_of_createStep h
  | unlink => exact step_of_unlinkStep h
  | release => exact step_of_releaseStep h
  | serviceCall => exact step_of_serviceCallStep h
  | cancel =>
    obtain ⟨r, hr, rfl⟩ := Option.map_eq_some_iff.mp h
    exact .cancelled hr
  | thread => exact step_of_threadStep h

end Functions

end LinuxWinsock.Async
