import LinuxWinsock.Msg.Message

namespace LinuxWinsock.Msg

/-!
# Scatter-gather calls are atomic on failure

* `scatterGather_failed`, `scatterGather_succeeded`, `scatterGather_heap` — what each exit leaves
  behind;
* `Call.perform_eq` — every call is an instance of `scatterGather`, and writes the byte count
  after a success;
* `call_atomic` — a call that fails leaves its outputs as they were and reports an error, one
  that succeeds reports none, and the array is released once if it was allocated.
-/

variable {σ : Type} {kernel : Kernel σ} {state : σ} {mallocOk : Bool} {before : Outputs}
  {plan : Option Plan}

/-! ### The exits -/

/-- What is assumed of the kernel: a call that fails sets a positive error number, and less than
    2³² bytes are transferred. -/
structure Kernel.Documented (kernel : Kernel σ) : Prop where
  errno_pos : ∀ state request, (kernel.call state request).1.result < 0 →
    0 < (kernel.call state request).1.errno
  result_lt : ∀ state request, (kernel.call state request).1.result < 2 ^ 32

/-- The three ways out of a function. -/
inductive Exit (kernel : Kernel σ) (state : σ) (before : Outputs) (plan : Option Plan) :
    Outcome σ → Prop
  /-- No call is made. -/
  | refused {code : Int} (hcode : code ≠ 0) :
      Exit kernel state before plan ⟨SOCKET_ERROR, code, before, state, [], []⟩
  | failed {p : Plan} {heap : List HeapEvent} (hplan : plan = some p)
      (hresult : (kernel.call state p.request).1.result < 0)
      (hheap : heap = if p.iov.isSome then [.malloc, .free] else []) :
      Exit kernel state before plan
        ⟨SOCKET_ERROR, errnoToWsaError (kernel.call state p.request).1.errno, before,
          (kernel.call state p.request).2, [p.request], heap⟩
  | succeeded {p : Plan} {heap : List HeapEvent} (hplan : plan = some p)
      (hresult : ¬ (kernel.call state p.request).1.result < 0)
      (hheap : heap = if p.iov.isSome then [.malloc, .free] else []) :
      Exit kernel state before plan
        ⟨0, 0, p.after (kernel.call state p.request).1, (kernel.call state p.request).2,
          [p.request], heap⟩

/-- **All exits**: arguments are refused or there is no memory, the kernel's call fails, or it
    succeeds. -/
theorem exit_of_scatterGather (kernel : Kernel σ) (state : σ) (mallocOk : Bool) (before : Outputs)
    (plan : Option Plan) :
    Exit kernel state before plan (scatterGather kernel state mallocOk before plan) := by
  cases plan with
  | none => exact .refused (by decide)
  | some p =>
    simp only [scatterGather]
    by_cases hmemory : (p.iov.isSome && !mallocOk) = true
    · rw [if_pos hmemory]
      exact .refused (by decide)
    · rw [if_neg hmemory]
      by_cases hresult : (kernel.call state p.request).1.result < 0
      · rw [if_pos hresult]
        exact .failed rfl hresult rfl
      · rw [if_neg hresult]
        exact .succeeded rfl hresult rfl

/-! ### What a call promises -/

/-- What holds after a call with the outputs `before`. -/
structure Atomic (kernel : Kernel σ) (state : σ) (before : Outputs) (o : Outcome σ) : Prop where
  /-- There are two results. -/
  ret : o.ret = SOCKET_ERROR ∨ o.ret = 0
  unchanged : o.ret = SOCKET_ERROR → o.outputs = before
  error : o.ret = SOCKET_ERROR → o.lastError ≠ 0
  /-- The error of a call that the kernel has refused is the translation of its error number. -/
  errno : o.ret = SOCKET_ERROR → ∀ request ∈ o.requests,
    (kernel.call state request).1.result < 0 ∧
      o.lastError = errnoToWsaError (kernel.call state request).1.errno
  noError : o.ret = 0 → o.lastError = 0
  /-- The byte count is the kernel's result. -/
  bytes : o.ret = 0 → ∃ request, o.requests = [request] ∧
    (before.numberOfBytes = none → o.outputs.numberOfBytes = none) ∧
    ∀ n, before.numberOfBytes = some n → ∃ n', o.outputs.numberOfBytes = some n' ∧
      (n'.toNat : Int) = (kernel.call state request).1.result
  /-- The array is released after it was allocated, and is allocated at most once. -/
  released : o.heap = [] ∨ o.heap = [.malloc, .free]

/-- The outputs of a plan have the byte count of the answer if one is asked for. -/
def Plan.Counts (plan : Plan) (before : Outputs) : Prop :=
  ∀ answer, (plan.after answer).numberOfBytes = before.numberOfBytes.map (fun _ => answer.bytes)

/-- A byte count below 2³² is the kernel's result. -/
theorem toNat_bytes {answer : Answer} (hpos : ¬ answer.result < 0) (hlt : answer.result < 2 ^ 32) :
    (answer.bytes.toNat : Int) = answer.result := by
  unfold Answer.bytes
  rw [BitVec.toNat_ofInt]
  omega

theorem socketError_ne_zero : SOCKET_ERROR ≠ 0 := by decide

/-- The array is released exactly if it was allocated. -/
theorem released_of_heap {p : Plan} {heap : List HeapEvent}
    (h : heap = if p.iov.isSome then [.malloc, .free] else []) :
    heap = [] ∨ heap = [.malloc, .free] := by
  rw [h]
  cases p.iov <;> simp

/-- **One function**: its exits keep the promise if its plan counts the bytes. -/
theorem atomic_of_counts (hkernel : kernel.Documented)
    (hcounts : ∀ p, plan = some p → p.Counts before) :
    Atomic kernel state before (scatterGather kernel state mallocOk before plan) := by
  have hexit := exit_of_scatterGather kernel state mallocOk before plan
  generalize scatterGather kernel state mallocOk before plan = o at hexit
  cases hexit with
  | refused hcode =>
    constructor
    case ret => exact .inl rfl
    case unchanged => exact fun _ => rfl
    case error => exact fun _ => hcode
    case errno => exact fun _ request hmem => absurd hmem List.not_mem_nil
    case noError => exact fun hret => (socketError_ne_zero hret).elim
    case bytes => exact fun hret => (socketError_ne_zero hret).elim
    case released => exact .inl rfl
  | @failed p heap hplan hresult hheap =>
    have herrno := hkernel.errno_pos state p.request hresult
    constructor
    case ret => exact .inl rfl
    case unchanged => exact fun _ => rfl
    case error => exact fun _ => errnoToWsaError_ne_zero herrno
    case errno =>
      intro _ request hmem
      obtain rfl := List.mem_singleton.mp hmem
      exact ⟨hresult, rfl⟩
    case noError => exact fun hret => (socketError_ne_zero hret).elim
    case bytes => exact fun hret => (socketError_ne_zero hret).elim
    case released => exact released_of_heap hheap
  | @succeeded p heap hplan hresult hheap =>
    have hlt := hkernel.result_lt state p.request
    constructor
    case ret => exact .inr rfl
    case unchanged => exact fun hret => (socketError_ne_zero hret.symm).elim
    case error => exact fun hret => (socketError_ne_zero hret.symm).elim
    case errno => exact fun hret => (socketError_ne_zero hret.symm).elim
    case noError => exact fun _ => rfl
    case bytes =>
      intro _
      have hcount := hcounts p hplan (kernel.call state p.request).1
      refine ⟨p.request, rfl, fun hnone => ?_, fun n hn => ?_⟩
      · rw [hcount, hnone, Option.map_none]
      · rw [hn, Option.map_some] at hcount
        exact ⟨_, hcount, toNat_bytes hresult hlt⟩
    case released => exact released_of_heap hheap

/-! ### The six functions -/

theorem counts_planBuffers {lpBuffers : Option (Nat → WSABUF)} {dwBufferCount : BitVec 32}
    {request : List Iovec → Request} {after : Answer → Outputs}
    (h : ∀ answer, (after answer).numberOfBytes = before.numberOfBytes.map (fun _ => answer.bytes)) :
    ∀ p, planBuffers lpBuffers dwBufferCount request after = some p → p.Counts before := by
  intro p hp
  unfold planBuffers at hp
  split at hp
  · cases hp
  · split at hp
    · cases hp
    · obtain rfl := Option.some.inj hp
      exact h

theorem counts_planMsg {lpMsg : Option WSAMSG} {request : WSAMSG → Msghdr → Request}
    {after : WSAMSG → Answer → Outputs}
    (h : ∀ m answer,
      (after m answer).numberOfBytes = before.numberOfBytes.map (fun _ => answer.bytes)) :
    ∀ p, planMsg lpMsg request after = some p → p.Counts before := by
  intro p hp
  obtain ⟨m, -, rfl⟩ := Option.map_eq_some_iff.mp hp
  exact h m

/-- Every call has the exits of `scatterGather`, and counts the bytes. -/
theorem Call.perform_eq (kernel : Kernel σ) (state : σ) (mallocOk : Bool) (call : Call) :
    ∃ plan, call.perform kernel state mallocOk =
        scatterGather kernel state mallocOk call.before plan ∧
      ∀ p, plan = some p → p.Counts call.before := by
  cases call with
  | send => exact ⟨_, rfl, counts_planBuffers (fun _ => rfl)⟩
  | sendTo => exact ⟨_, rfl, counts_planBuffers (fun _ => rfl)⟩
  | recv => exact ⟨_, rfl, counts_planBuffers (fun _ => rfl)⟩
  | recvFrom => exact ⟨_, rfl, counts_planBuffers (fun _ => rfl)⟩
  | recvMsg => exact ⟨_, rfl, counts_planMsg (fun _ _ => rfl)⟩
  | sendMsg => exact ⟨_, rfl, counts_planMsg (fun _ _ => rfl)⟩

/-- **Atomic on failure.**  A call of any of the six functions, with any arguments, that fails
    leaves its outputs as they were and reports an error, the translation of the kernel's if the
    kernel has refused it; one that succeeds reports none and stores the kernel's byte count; and
    the array is released once if it was allocated. -/
theorem call_atomic (hkernel : kernel.Documented) (state : σ) (mallocOk : Bool) (call : Call) :
    Atomic kernel state call.before (call.perform kernel state mallocOk) := by
  obtain ⟨plan, hperform, hcounts⟩ := call.perform_eq kernel state mallocOk
  rw [hperform]
  exact atomic_of_counts hkernel hcounts

/-- A kernel that has no connection. -/
def notConnected : Kernel Unit := ⟨fun state _ => (⟨-1, ENOTCONN, 0, 0, 0⟩, state)⟩

/-- A receive call on it leaves the count and the flags alone, and reports `WSAENOTCONN`. -/
theorem call_atomic_notConnected :
    ((Call.recv 3 (some (fun _ => ⟨4, 4096⟩)) 1 (some 7) (some 2)).perform notConnected ()
      true).outputs = { numberOfBytes := some 7, flags := some 2 } ∧
    ((Call.recv 3 (some (fun _ => ⟨4, 4096⟩)) 1 (some 7) (some 2)).perform notConnected ()
      true).lastError = WSAENOTCONN := by
  have hkernel : notConnected.Documented :=
    ⟨fun _ _ _ => (by decide : 0 < ENOTCONN), fun _ _ => (by decide : (-1 : Int) < 2 ^ 32)⟩
  have hatomic := call_atomic hkernel () true
    (.recv 3 (some (fun _ => ⟨4, 4096⟩)) 1 (some 7) (some 2))
  exact ⟨hatomic.unchanged rfl, (hatomic.errno rfl _ List.mem_cons_self).2⟩

end LinuxWinsock.Msg
