import LinuxWinsock.Async.System

namespace LinuxWinsock.Async

open Function

/-!
# How the lookups leave

What an asynchronous lookup leaves in the last error of its caller.  A host lookup that succeeds
clears it; a service lookup that succeeds does not write it.

* `CallPc.exit` — the exits;
* `hasError_of_run` — no lookup fails without an error.
-/

variable {resolve : Query → Option Answer} {w w' : World} {l : Label} {tr : Trace}

/-- Whether a lookup has failed, and the last error after it, where `e` is the one before; `none`
    while it is under way. -/
def CallPc.exit (e : Int) : CallPc → Option (Bool × Int)
  | .hostReturned _ _ => some (false, 0)
  | .serviceReturned _ => some (false, e)
  | .failed err => some (true, err)
  | _ => none

/-- A lookup that has failed has left an error. -/
def CallPc.HasError : CallPc → Prop
  | .failed err => err ≠ 0
  | _ => True

theorem hasError_failed (err : Int) (h : err ≠ 0) : (CallPc.failed err).HasError := h

theorem hasError_setCall {c : Nat} {pc : CallPc} (h : ∀ d, (w.calls d).HasError)
    (hcalls : w'.calls = update w.calls c pc) (hpc : pc.HasError) (d : Nat) :
    (w'.calls d).HasError := by
  rw [hcalls]
  by_cases hd : d = c
  · subst hd
    rw [update_self]
    exact hpc
  · rw [update_of_ne hd]
    exact h d

/-- The four exits of a service lookup. -/
theorem hasError_serviceCallStep {c : Nat} {call : ServiceCall} {malloc : Option Addr}
    {created : Bool} (h : ∀ d, (w.calls d).HasError)
    (hstep : serviceCallStep w c call malloc created = some w') (d : Nat) :
    (w'.calls d).HasError := by
  unfold serviceCallStep at hstep
  split at hstep
  · obtain rfl := Option.some.inj hstep
    exact hasError_setCall h rfl (hasError_failed WSAEINVAL (by decide)) d
  · obtain rfl := Option.some.inj hstep
    exact hasError_setCall h rfl (hasError_failed WSAENOBUFS (by decide)) d
  · split at hstep
    · split at hstep
      · obtain rfl := Option.some.inj hstep
        exact hasError_setCall h rfl (by trivial) d
      · obtain rfl := Option.some.inj hstep
        exact hasError_setCall h rfl (hasError_failed WSAENOBUFS (by decide)) d
    · cases hstep
  · cases hstep

/-- **One step** of the calls, the threads and the cancellations. -/
theorem hasError_step (h : ∀ d, (w.calls d).HasError) (hstep : next resolve w l = some w')
    (d : Nat) : (w'.calls d).HasError := by
  cases step_of_next hstep with
  | hostFailed => exact hasError_setCall h rfl (hasError_failed WSA_NOT_ENOUGH_MEMORY (by decide)) d
  | hostAllocated => exact hasError_setCall h rfl (by trivial) d
  | inserted => exact hasError_setCall h rfl (by trivial) d
  | started => exact hasError_setCall h rfl (by trivial) d
  | createFailed => exact hasError_setCall h rfl (by trivial) d
  | unlinked => exact hasError_setCall h rfl (by trivial) d
  | released => exact hasError_setCall h rfl (hasError_failed WSAENETDOWN (by decide)) d
  -- the relation does not say which error it is
  | serviceFailed => exact hasError_serviceCallStep h hstep d
  | serviceStarted => exact hasError_setCall h rfl (by trivial) d
  | cancelled => exact h d
  | tested => exact h d
  | resolved => exact h d
  | dropped => exact h d
  | chosen => exact h d
  | copied => exact h d

theorem hasError_of_run (h : (system resolve).Run tr w) (c : Nat) : (w.calls c).HasError := by
  refine h.invariant (P := fun _ w => ∀ c, (w.calls c).HasError) ?_ ?_ c
  · intro s hs c
    obtain rfl : s = World.start := hs
    exact trivial
  · intro tr s l t _ ih hstep c
    exact hasError_step ih hstep c

end LinuxWinsock.Async
