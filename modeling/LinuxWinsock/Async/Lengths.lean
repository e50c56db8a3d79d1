import LinuxWinsock.Async.Bounds
import LinuxWinsock.Async.Resolver

namespace LinuxWinsock.Async

open Function TransitionSystem LinkedList

/-!
# The lengths that the service lookups accept

The four service calls refuse a buffer that is too short, and their threads test its length once
more before they copy.  Both tests compare an `int` with a `size_t`.

* `shorterThan_iff` — the comparison finds every negative length long enough;
* `servedBy_of_run` — a service record stays what its call has filled in;
* `acceptsLongEnough_iff`, `copiesWithin_iff` — what the two tests are for, and for which calls it
  is achieved;
* `lengthRespected_iff` — the two together.
-/

variable {resolve : Query → Option Answer} {w w' : World} {l : Label} {tr : Trace}

/-! ### The comparison -/

/-- **The comparison** of an `int` with a `size_t`: it is that of the numbers only for lengths that
    are not negative. -/
theorem shorterThan_iff {buflen : BitVec 32} {size : Nat} (hsize : size ≤ 2 ^ 31) :
    shorterThan buflen size = true ↔ 0 ≤ buflen.toInt ∧ buflen.toInt < size := by
  have hlt := buflen.isLt
  have hmsb : buflen.msb = decide (2 ^ 31 ≤ buflen.toNat) := BitVec.msb_eq_decide buflen
  rw [shorterThan, decide_eq_true_eq, BitVec.toNat_signExtend, BitVec.toInt_eq_toNat_cond]
  rw [BitVec.toNat_setWidth, Nat.mod_eq_of_lt (by omega), hmsb]
  by_cases hneg : 2 ^ 31 ≤ buflen.toNat
  · have hhigh : ¬ 2 * buflen.toNat < 2 ^ 32 := by omega
    rw [if_neg hhigh, decide_eq_true hneg, if_pos rfl]
    omega
  · have hlow : 2 * buflen.toNat < 2 ^ 32 := by omega
    rw [if_pos hlow, decide_eq_false hneg, if_neg Bool.false_ne_true]
    omega

/-! ### The arguments of a call -/

namespace ServiceCall

def buffer : ServiceCall → Option Addr
  | .servByName _ _ buf _ => buf
  | .servByPort _ _ buf _ => buf
  | .protoByName _ buf _ => buf
  | .protoByNumber _ buf _ => buf

def buflen : ServiceCall → BitVec 32
  | .servByName _ _ _ buflen => buflen
  | .servByPort _ _ _ buflen => buflen
  | .protoByName _ _ buflen => buflen
  | .protoByNumber _ _ buflen => buflen

/-- The size of the structure that is asked for. -/
def size : ServiceCall → Nat
  | .servByName _ _ _ _ => sizeofServent
  | .servByPort _ _ _ _ => sizeofServent
  | .protoByName _ _ _ => sizeofProtoent
  | .protoByNumber _ _ _ => sizeofProtoent

/-- The buffer, or a name that is looked up, is `NULL`. -/
def HasNull : ServiceCall → Prop
  | .servByName name _ buf _ => name = none ∨ buf = none
  | .servByPort _ _ buf _ => buf = none
  | .protoByName name buf _ => name = none ∨ buf = none
  | .protoByNumber _ buf _ => buf = none

instance (call : ServiceCall) : Decidable call.HasNull := by
  cases call with
  | servByName name _ buf _ => exact inferInstanceAs (Decidable (name = none ∨ buf = none))
  | servByPort _ _ buf _ => exact inferInstanceAs (Decidable (buf = none))
  | protoByName name buf _ => exact inferInstanceAs (Decidable (name = none ∨ buf = none))
  | protoByNumber _ buf _ => exact inferInstanceAs (Decidable (buf = none))

/-- What the call copies into `params`, if no name is `NULL`. -/
def params : ServiceCall → Option ServiceParams
  | .servByName name proto _ _ =>
    name.map (fun n => .servbyname (strncpy255 n) (copyProto proto))
  | .servByPort port proto _ _ => some (.servbyport port (copyProto proto))
  | .protoByName name _ _ => name.map (fun n => .protobyname (strncpy255 n))
  | .protoByNumber number _ _ => some (.protobynumber number)

theorem size_le (call : ServiceCall) : call.size ≤ 2 ^ 31 := by
  cases call <;> simp [size, sizeofServent, sizeofProtoent]

theorem size_pos (call : ServiceCall) : 0 < call.size := by
  cases call <;> simp [size, sizeofServent, sizeofProtoent]

variable {call : ServiceCall} {req : AsyncServiceRequest}

theorem request_eq (call : ServiceCall) :
    call.request = serviceRequest call.size call.params call.buffer call.buflen := by
  cases call <;> rfl

theorem hasNull_iff : call.HasNull ↔ call.params = none ∨ call.buffer = none := by
  cases call <;> simp [HasNull, params, buffer]

/-- The copied parameters are for a structure of the call's size. -/
theorem size_params {ps : ServiceParams} (h : call.params = some ps) : ps.size = call.size := by
  cases call with
  | servByName name proto buf buflen =>
    obtain ⟨n, _, rfl⟩ := Option.map_eq_some_iff.mp h
    rfl
  | servByPort port proto buf buflen =>
    obtain rfl := Option.some.inj h
    rfl
  | protoByName name buf buflen =>
    obtain ⟨n, _, rfl⟩ := Option.map_eq_some_iff.mp h
    rfl
  | protoByNumber number buf buflen =>
    obtain rfl := Option.some.inj h
    rfl

/-- **The record** that a call fills in, if it is not refused. -/
theorem request_eq_some : call.request = some req ↔ ∃ ps b, call.params = some ps ∧
    call.buffer = some b ∧ shorterThan call.buflen call.size = false ∧
    req = ⟨some b, call.buflen, false, 0, ps⟩ := by
  rw [request_eq]
  cases hparams : call.params with
  | none => simp [serviceRequest]
  | some ps =>
    cases hbuffer : call.buffer with
    | none => simp [serviceRequest]
    | some b =>
      cases hshort : shorterThan call.buflen call.size with
      | true => simp [serviceRequest, hshort]
      | false => simp [serviceRequest, hshort, eq_comm]

/-- A call is refused if an argument is `NULL`, or its buffer is too short and its length not
    negative. -/
theorem request_eq_none : call.request = none ↔
    call.HasNull ∨ (0 ≤ call.buflen.toInt ∧ call.buflen.toInt < call.size) := by
  rw [← shorterThan_iff call.size_le, hasNull_iff, request_eq]
  cases call.params with
  | none => simp [serviceRequest]
  | some ps =>
    cases call.buffer with
    | none => simp [serviceRequest]
    | some b => simp [serviceRequest]

end ServiceCall

/-! ### Records and the calls that made them -/

/-- The service call whose lookup the step starts. -/
def serviceCalls (_ : World) : Label → Option (Addr × ServiceCall)
  | .serviceCall _ call (some p) true => if call.request.isSome then some (p, call) else none
  | _ => none

/-- The service call that returned `p`. -/
def servedCall (p : Addr) (tr : Trace) : Option ServiceCall := latestAt serviceCalls p tr

theorem serviceCalls_eq_some {p : Addr} {call : ServiceCall}
    (h : serviceCalls w l = some (p, call)) :
    ∃ c req, l = .serviceCall c call (some p) true ∧ call.request = some req := by
  unfold serviceCalls at h
  split at h
  · split at h
    · rename_i hsome
      obtain ⟨rfl, rfl⟩ := Prod.mk.inj (Option.some.inj h)
      obtain ⟨req, hreq⟩ := Option.isSome_iff_exists.mp hsome
      exact ⟨_, req, rfl, hreq⟩
    · cases h
  · cases h

/-- The step that starts a lookup: the record is stored, and its thread is about to call the
    resolver. -/
theorem serviceCallStep_started {c : Nat} {call : ServiceCall} {p : Addr}
    {req : AsyncServiceRequest} (hreq : call.request = some req)
    (h : serviceCallStep w c call (some p) true = some w') :
    w' = ({ w with requests := w.requests.put p (.service req) }.setThread p .resolve).setCall
      c (.serviceReturned p) := by
  cases hpc : w.calls c with
  | idle =>
    simp only [serviceCallStep, hpc, hreq, if_true] at h
    split at h
    · exact (Option.some.inj h).symm
    · cases h
  | _ => simp [serviceCallStep, hpc] at h

/-- The record at `p` is the one that the call has filled in, up to its outcome, and the call has
    returned its address. -/
def ServedBy (w : World) (p : Addr) (call : ServiceCall) : Prop :=
  HandleOf w p p ∧ ∃ req rec, call.request = some req ∧ w.requests.cell p = some rec ∧
    Record.Updated (.service req) rec

/-- The record stays that of the call. -/
theorem ServedBy.step {p : Addr} {call : ServiceCall} (h : ServedBy w p call) (hinv : CallInv w)
    (hs : Step resolve w l w') : ServedBy w' p call := by
  obtain ⟨hret, req, rec, hreq, hrec, hupd⟩ := h
  obtain ⟨rec', hrec', hupd'⟩ := hret.updated hinv hs hrec
  exact ⟨hret.step hs, req, rec', hreq, hrec', hupd.trans hupd'⟩

/-- **Service records.**  In every reachable state the record of a service call is the one that
    the call has filled in. -/
theorem servedBy_of_run (h : (system resolve).Run tr w) {p : Addr} {call : ServiceCall}
    (hcall : servedCall p tr = some call) : ServedBy w p call := by
  refine h.invariant
    (P := fun tr w => ∀ p call, servedCall p tr = some call → ServedBy w p call) ?_ ?_ p call hcall
  · intro s _ p call hcall
    cases hcall
  · intro tr s l t hr ih hstep p call hcall
    have hs := step_of_next hstep
    cases hmade : serviceCalls s l with
    | none =>
      rw [servedCall, latestAt_cons_none hmade] at hcall
      exact (ih p call hcall).step (callInv_of_run hr) hs
    | some made =>
      obtain ⟨q, call'⟩ := made
      rw [servedCall, latestAt_cons_some hmade] at hcall
      by_cases hqp : q = p
      · -- the step has started this lookup
        subst hqp
        rw [if_pos rfl] at hcall
        obtain rfl := Option.some.inj hcall
        obtain ⟨c, req, rfl, hreq⟩ := serviceCalls_eq_some hmade
        obtain rfl := serviceCallStep_started hreq hstep
        refine ⟨⟨c, .inr ⟨update_self _ _ _, rfl⟩⟩, req, _, hreq, Heap.put_cell_self _ _ _, .refl _⟩
      · rw [if_neg hqp] at hcall
        exact (ih p call hcall).step (callInv_of_run hr) hs

/-! ### Runs that start a lookup and come to its copy -/

section Runs

variable {call : ServiceCall} {req : AsyncServiceRequest}

theorem threads_setThread (w : World) (p : Addr) (pc : ThreadPc) :
    (w.setThread p pc).threads p = some pc := by
  show update w.threads p (some pc) p = some pc
  rw [update_self]

/-- The thread of the lookup at `p` is about to call the resolver. -/
structure Started (tr : Trace) (w : World) (p : Addr) (call : ServiceCall)
    (req : AsyncServiceRequest) : Prop where
  served : servedCall p tr = some call
  pc : w.threads p = some .resolve
  live : w.requests.cell p = some (.service req)

/-- A call that is not refused starts its lookup, if there is memory and a thread. -/
theorem exists_started (resolve : Query → Option Answer) (hreq : call.request = some req) :
    ∃ tr w, (system resolve).Run tr w ∧ Started tr w 100 call req := by
  have hstart : (system resolve).Run [] World.start := .init rfl
  have hstep : next resolve World.start (.serviceCall 0 call (some 100) true) = some
      (({ World.start with requests := World.start.requests.put 100 (.service req) }.setThread
        100 .resolve).setCall 0 (.serviceReturned 100)) := by
    have hidle : World.start.calls 0 = .idle := rfl
    have hfresh : freshAt World.start 100 = true := rfl
    simp only [next, serviceCallStep, hidle, hreq, hfresh, if_true]
  have hpc := threads_setThread
    { World.start with requests := World.start.requests.put 100 (.service req) } 100 .resolve
  refine ⟨_, _, hstart.step hstep, ?_, hpc, Heap.put_cell_self _ _ _⟩
  have hmade : serviceCalls World.start (.serviceCall 0 call (some 100) true) =
      some (100, call) := by
    simp [serviceCalls, hreq]
  rw [servedCall, latestAt_cons_some hmade, if_pos rfl]

/-- The resolver answers. -/
theorem exists_answered (resolve : Query → Option Answer) {p : Addr} {rec : Record} (a : Answer)
    (hpc : w.threads p = some .resolve) (hlive : w.requests.cell p = some rec)
    (hr : resolve rec.query = some a) :
    ∃ w', (system resolve).step w (.thread p a) w' ∧ w'.threads p = some (.answered true) ∧
      w'.requests = w.requests := by
  refine ⟨({ w with static := update w.static rec.query.function a }).setThread p
    (.answered true), ?_, threads_setThread _ _ _, rfl⟩
  show threadStep resolve w p a = some _
  simp only [threadStep, hpc, hlive, hr, Option.getD_some, Option.isSome_some]

/-- The thread passes its test. -/
theorem exists_chosen (resolve : Query → Option Answer) {p : Addr} {rec : Record} (a : Answer)
    (hpc : w.threads p = some (.answered true)) (hlive : w.requests.cell p = some rec)
    (hwanted : rec.wanted = true) :
    ∃ w', (system resolve).step w (.thread p a) w' ∧ w'.threads p = some .copy ∧
      w'.requests = w.requests := by
  refine ⟨w.setThread p .copy, ?_, threads_setThread _ _ _, rfl⟩
  show threadStep resolve w p a = some _
  simp only [threadStep, hpc, hlive, hwanted, Bool.and_self, if_true]

/-- With an answer from the resolver, the lookup comes to its copy. -/
theorem exists_copying (hreq : call.request = some req) :
    ∃ tr w, (system (fun _ => some ⟨[], []⟩)).Run tr w ∧ servedCall 100 tr = some call ∧
      nextCopy w 100 = some (req.buffer, req.params.size) := by
  obtain ⟨tr, w, hrun, hserved, hpc, hlive⟩ :=
    exists_started (fun _ => some ⟨[], []⟩) hreq
  obtain ⟨w₁, hstep₁, hpc₁, hlive₁⟩ :=
    exists_answered (fun _ => some ⟨[], []⟩) ⟨[], []⟩ hpc hlive rfl
  rw [← hlive₁] at hlive
  obtain ⟨w₂, hstep₂, hpc₂, hlive₂⟩ :=
    exists_chosen (fun _ => some ⟨[], []⟩) ⟨[], []⟩ hpc₁ hlive (fits_of_request hreq)
  rw [← hlive₂] at hlive
  refine ⟨_, w₂, (hrun.step hstep₁).step hstep₂, hserved, ?_⟩
  exact nextCopy_eq_some.mpr ⟨hpc₂, _, hlive, rfl⟩

end Runs

/-! ### What the tests are for -/

/-- The call is accepted only if its buffer is long enough. -/
def AcceptsLongEnough (call : ServiceCall) : Prop :=
  call.request ≠ none → (call.size : Int) ≤ call.buflen.toInt

/-- In every run the thread of the call copies into the buffer of the call, and only within its
    length. -/
def CopiesWithin (call : ServiceCall) : Prop :=
  ∀ (resolve : Query → Option Answer) (tr : Trace) (w : World) (p : Addr) (buffer : Option Addr)
    (n : Nat), (system resolve).Run tr w → servedCall p tr = some call →
    nextCopy w p = some (buffer, n) → buffer = call.buffer ∧ (n : Int) ≤ max call.buflen.toInt 0

variable {call : ServiceCall}

/-- A call that is accepted has a negative length, or one that is long enough. -/
theorem long_of_request {req : AsyncServiceRequest} (h : call.request = some req) :
    ¬ call.HasNull ∧ (0 ≤ call.buflen.toInt → (call.size : Int) ≤ call.buflen.toInt) := by
  have hne : call.request ≠ none := by
    rw [h]
    exact Option.some_ne_none req
  rw [Ne, ServiceCall.request_eq_none, not_or, not_and] at hne
  exact ⟨hne.1, fun hpos => not_lt.mp (hne.2 hpos)⟩

/-- The test of the call fails for negative lengths only. -/
theorem acceptsLongEnough_iff (call : ServiceCall) :
    AcceptsLongEnough call ↔ call.HasNull ∨ 0 ≤ call.buflen.toInt := by
  have hsize := call.size_pos
  unfold AcceptsLongEnough
  rw [Ne, ServiceCall.request_eq_none]
  by_cases hnull : call.HasNull
  · simp [hnull]
  · simp only [hnull, false_or]
    omega

/-- The copy of a service thread is the one that its call has asked for. -/
theorem copy_of_servedBy {p : Addr} {buffer : Option Addr} {n : Nat} (h : ServedBy w p call)
    (hnext : nextCopy w p = some (buffer, n)) :
    buffer = call.buffer ∧ n = call.size ∧ call.request ≠ none := by
  obtain ⟨-, req, rec, hreq, hrec, hupd⟩ := h
  obtain ⟨-, rec', hrec', heq⟩ := nextCopy_eq_some.mp hnext
  obtain rfl := Option.some.inj (hrec.symm.trans hrec')
  obtain ⟨rfl, rfl⟩ := Prod.mk.inj heq
  obtain ⟨req', rfl⟩ := hupd.service
  obtain ⟨hbuffer, -, hparams⟩ := hupd
  have hne : call.request ≠ none := by
    rw [hreq]
    exact Option.some_ne_none req
  obtain ⟨ps, b, hps, hb, -, rfl⟩ := ServiceCall.request_eq_some.mp hreq
  refine ⟨hbuffer.trans hb.symm, ?_, hne⟩
  show req'.params.size = call.size
  rw [hparams]
  exact ServiceCall.size_params hps

/-- So does the test of the thread. -/
theorem copiesWithin_iff (call : ServiceCall) :
    CopiesWithin call ↔ call.HasNull ∨ 0 ≤ call.buflen.toInt := by
  have hsize := call.size_pos
  constructor
  · intro hwithin
    by_contra hnot
    rw [not_or, not_le] at hnot
    -- the call is accepted, and comes to its copy
    cases hreq : call.request with
    | none =>
      rcases ServiceCall.request_eq_none.mp hreq with hnull | ⟨hpos, -⟩
      · exact hnot.1 hnull
      · omega
    | some req =>
      obtain ⟨tr, w, hrun, hserved, hnext⟩ := exists_copying hreq
      have hcopy := copy_of_servedBy (servedBy_of_run hrun hserved) hnext
      have hlen := (hwithin _ tr w 100 _ _ hrun hserved hnext).2
      rw [hcopy.2.1] at hlen
      omega
  · intro hcond resolve tr w p buffer n hrun hserved hnext
    obtain ⟨hbuffer, rfl, hne⟩ := copy_of_servedBy (servedBy_of_run hrun hserved) hnext
    obtain ⟨req, hreq⟩ := Option.ne_none_iff_exists'.mp hne
    obtain ⟨hnull, hlong⟩ := long_of_request hreq
    exact ⟨hbuffer, le_max_of_le_left (hlong (hcond.resolve_left hnull))⟩

/-- **Lengths.**  A service call is accepted only if its buffer is long enough, and its thread
    copies only within the buffer, exactly if the call has a `NULL` argument or its length is not
    negative. -/
theorem lengthRespected_iff (call : ServiceCall) :
    AcceptsLongEnough call ∧ CopiesWithin call ↔ call.HasNull ∨ 0 ≤ call.buflen.toInt := by
  rw [acceptsLongEnough_iff, copiesWithin_iff, and_self]

/-- A lookup with the length -1: the thread is about to copy 32 bytes. -/
theorem negative_length_copied : ∃ tr w, (system knowsThree).Run tr w ∧
    servedCall 100 tr = some (.servByName (some [97]) none (some 1) (-1)) ∧
    nextCopy w 100 = some (some 1, 32) ∧
    ¬ (AcceptsLongEnough (.servByName (some [97]) none (some 1) (-1)) ∧
      CopiesWithin (.servByName (some [97]) none (some 1) (-1))) := by
  have hrun := run_of_exec_isSome World.start (next knowsThree)
    [.serviceCall 0 (.servByName (some [97]) none (some 1) (-1)) (some 100) true,
      .thread 100 ⟨[], []⟩, .thread 100 ⟨[], []⟩] rfl
  refine ⟨_, _, hrun, rfl, rfl, fun h => ?_⟩
  have hlen := h.1 (by decide)
  exact absurd hlen (by decide)

end LinuxWinsock.Async
