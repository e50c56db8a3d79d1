import LinuxWinsock.Blocking.Hooks
import LinuxWinsock.Lib.Transition
import Mathlib.Logic.Function.Basic

namespace LinuxWinsock.Blocking

open Function TransitionSystem

/-!
# The blocking hooks of threads

Any number of threads call the functions of `wsock32.c` for blocking hooks, in any order, nested or
not.  The variables are those of the calling thread.

* `next`, `system` — the calls;
* `chosenHook` — the hook that a thread has chosen last, from the calls made so far;
* `hooks_follow_history` — every call returns what its thread's own calls say, and no call is ever
  found blocking.
-/

/-! ### The threads -/

inductive Label where
  | wsaSetBlockingHook (tid : Nat) (lpBlockFunc : LPWSABLOCKINGHOOK)
  | wsaUnhookBlockingHook (tid : Nat)
  | wsaCancelBlockingCall (tid : Nat)
  | wsaIsBlocking (tid : Nat)
  /-- The hook that `WSASetBlockingHook` has returned is called. -/
  | defaultBlockingHook (tid : Nat)

/-- The variables of a thread at its start. -/
def ThreadState.start : ThreadState := ⟨false, false, none, 0⟩

/-- The variables of all threads after a call. -/
def next (w : Nat → ThreadState) : Label → Nat → ThreadState
  | .wsaSetBlockingHook tid f => update w tid (wsaSetBlockingHook f (w tid)).2
  | .wsaUnhookBlockingHook tid => update w tid (wsaUnhookBlockingHook (w tid)).2
  | .wsaCancelBlockingCall tid => update w tid (wsaCancelBlockingCall (w tid)).2
  | .wsaIsBlocking _ => w
  | .defaultBlockingHook _ => w

/-- No hook is set at the start. -/
def noHooks : Nat → ThreadState := fun _ => .start

/-- Every call returns. -/
def step (w : Nat → ThreadState) (l : Label) : Option (Nat → ThreadState) := some (next w l)

def system : TransitionSystem (Nat → ThreadState) Label := .ofFun noHooks step

/-! ### What the history says -/

/-- The hook that a call puts in force; without a hook the call is refused. -/
def chooses (_ : Nat → ThreadState) : Label → Option (Nat × Hook)
  | .wsaSetBlockingHook tid (some f) => some (tid, f)
  | .wsaUnhookBlockingHook tid => some (tid, .defaultBlockingHook)
  | _ => none

/-- The hook that a thread has chosen last. -/
def chosenHook (tr : List ((Nat → ThreadState) × Label)) (tid : Nat) : Hook :=
  (latestAt chooses tid tr).getD .defaultBlockingHook

/-- What the calls return. -/
def Returns (tr : List ((Nat → ThreadState) × Label)) (w : Nat → ThreadState) : Label → Prop
  | .wsaSetBlockingHook tid (some f) =>
    (wsaSetBlockingHook (some f) (w tid)).1 = some (chosenHook tr tid)
  | .wsaSetBlockingHook tid none =>
    (wsaSetBlockingHook none (w tid)).1 = none
  | .wsaUnhookBlockingHook tid => (wsaUnhookBlockingHook (w tid)).1 = 0
  | .wsaCancelBlockingCall tid => (wsaCancelBlockingCall (w tid)).1 = SOCKET_ERROR
  | .wsaIsBlocking tid => wsaIsBlocking (w tid) = false
  | .defaultBlockingHook tid => defaultBlockingHook (w tid) = false

/-- What is known of a thread after a run. -/
structure Follows (tr : List ((Nat → ThreadState) × Label)) (w : Nat → ThreadState)
    (tid : Nat) : Prop where
  hook : effectiveHook (w tid) = chosenHook tr tid
  /-- No call sets the flag. -/
  idle : (w tid).gBlockingInProgress = false
  cancelled : (w tid).gBlockingCancelled = false

variable {tr : List ((Nat → ThreadState) × Label)} {w : Nat → ThreadState} {l : Label} {tid : Nat}

/-- A hook is chosen. -/
theorem chosenHook_of_chooses {thread : Nat} {f : Hook} (h : chooses w l = some (thread, f))
    (tid : Nat) :
    chosenHook ((w, l) :: tr) tid = if thread = tid then f else chosenHook tr tid := by
  unfold chosenHook
  rw [latestAt_cons_some h]
  split <;> rfl

theorem chosenHook_of_not_chooses (h : chooses w l = none) (tid : Nat) :
    chosenHook ((w, l) :: tr) tid = chosenHook tr tid := by
  unfold chosenHook
  rw [latestAt_cons_none h]

/-- A call that puts the hook `f` in force. -/
theorem Follows.of_chooses {thread : Nat} {f : Hook} {t : ThreadState}
    (h : ∀ tid, Follows tr w tid) (hchooses : chooses w l = some (thread, f))
    (hnext : next w l = update w thread t) (hhook : effectiveHook t = f)
    (hidle : t.gBlockingInProgress = (w thread).gBlockingInProgress)
    (hcancelled : t.gBlockingCancelled = (w thread).gBlockingCancelled) (tid : Nat) :
    Follows ((w, l) :: tr) (next w l) tid := by
  rw [hnext]
  by_cases htid : thread = tid
  · subst htid
    constructor
    case hook => rw [update_self, chosenHook_of_chooses hchooses, if_pos rfl, hhook]
    case idle => rw [update_self, hidle, (h thread).idle]
    case cancelled => rw [update_self, hcancelled, (h thread).cancelled]
  · have hother : update w thread t tid = w tid := update_of_ne (Ne.symm htid) _ _
    constructor
    case hook =>
      rw [hother, chosenHook_of_chooses hchooses, if_neg htid]
      exact (h tid).hook
    case idle => rw [hother, (h tid).idle]
    case cancelled => rw [hother, (h tid).cancelled]

/-- A call that changes no more than a last error. -/
theorem Follows.of_not_chooses (h : ∀ tid, Follows tr w tid) (hchooses : chooses w l = none)
    (hsame : ∀ tid, effectiveHook (next w l tid) = effectiveHook (w tid) ∧
      (next w l tid).gBlockingInProgress = (w tid).gBlockingInProgress ∧
      (next w l tid).gBlockingCancelled = (w tid).gBlockingCancelled) (tid : Nat) :
    Follows ((w, l) :: tr) (next w l) tid := by
  obtain ⟨hhook, hidle, hcancelled⟩ := hsame tid
  constructor
  case hook =>
    rw [hhook, chosenHook_of_not_chooses hchooses]
    exact (h tid).hook
  case idle => rw [hidle, (h tid).idle]
  case cancelled => rw [hcancelled, (h tid).cancelled]

/-- A thread that keeps its variables but the last error. -/
theorem same_of_update {thread : Nat} {t : ThreadState} (hhook : t.gBlockingHook =
    (w thread).gBlockingHook) (hidle : t.gBlockingInProgress = (w thread).gBlockingInProgress)
    (hcancelled : t.gBlockingCancelled = (w thread).gBlockingCancelled) (tid : Nat) :
    effectiveHook (update w thread t tid) = effectiveHook (w tid) ∧
      (update w thread t tid).gBlockingInProgress = (w tid).gBlockingInProgress ∧
      (update w thread t tid).gBlockingCancelled = (w tid).gBlockingCancelled := by
  by_cases htid : tid = thread
  · subst htid
    rw [update_self, effectiveHook, hhook]
    exact ⟨rfl, hidle, hcancelled⟩
  · rw [update_of_ne htid]
    exact ⟨rfl, rfl, rfl⟩

/-- **One call.**  It returns what the history says, and leaves the threads as it says. -/
theorem follows_of_next (h : ∀ tid, Follows tr w tid) (l : Label) :
    Returns tr w l ∧ ∀ tid, Follows ((w, l) :: tr) (next w l) tid := by
  cases l with
  | wsaSetBlockingHook thread f =>
    cases f with
    | none => exact ⟨rfl, Follows.of_not_chooses h rfl (same_of_update rfl rfl rfl)⟩
    | some f =>
      refine ⟨?_, Follows.of_chooses h rfl rfl rfl rfl rfl⟩
      show some (effectiveHook (w thread)) = some (chosenHook tr thread)
      rw [(h thread).hook]
  | wsaUnhookBlockingHook thread => exact ⟨rfl, Follows.of_chooses h rfl rfl rfl rfl rfl⟩
  | wsaCancelBlockingCall thread =>
    -- there is never a call to cancel
    have hcall : wsaCancelBlockingCall (w thread) =
        (SOCKET_ERROR, { w thread with lastError := WSAEINVAL }) := by
      simp only [wsaCancelBlockingCall, (h thread).idle, Bool.not_false, if_true]
    refine ⟨congrArg Prod.fst hcall, Follows.of_not_chooses h rfl ?_⟩
    simp only [next, hcall]
    exact same_of_update rfl rfl rfl
  | wsaIsBlocking thread =>
    exact ⟨(h thread).idle, Follows.of_not_chooses h rfl (fun _ => ⟨rfl, rfl, rfl⟩)⟩
  | defaultBlockingHook thread =>
    exact ⟨(h thread).cancelled, Follows.of_not_chooses h rfl (fun _ => ⟨rfl, rfl, rfl⟩)⟩

/-- **The hooks of threads.**  In every run, whatever other threads call in between,
    `WSASetBlockingHook` returns the hook that its thread has chosen last, or the default one if it
    has chosen none since it was unhooked; `WSAIsBlocking` returns FALSE, `WSACancelBlockingCall`
    fails, and the default hook never asks for an end. -/
theorem hooks_follow_history (tr : List ((Nat → ThreadState) × Label)) (w : Nat → ThreadState)
    (hrun : system.Run tr w) :
    AllSteps Returns tr ∧ ∀ tid, effectiveHook (w tid) = chosenHook tr tid := by
  suffices h : AllSteps Returns tr ∧ ∀ tid, Follows tr w tid from ⟨h.1, fun tid => (h.2 tid).hook⟩
  induction hrun with
  | init hinit =>
    obtain rfl : _ = noHooks := hinit
    exact ⟨trivial, fun _ => ⟨rfl, rfl, rfl⟩⟩
  | step hrun hstep ih =>
    rename_i l
    obtain rfl := Option.some.inj hstep
    have hone := follows_of_next ih.2 l
    exact ⟨⟨hone.1, ih.1⟩, hone.2⟩

/-- Two threads set their hooks in turn and the first one is unhooked: the second one still has its
    own. -/
example : ((exec step [.wsaSetBlockingHook 1 (some (.client 10)),
      .wsaSetBlockingHook 2 (some (.client 20)), .wsaUnhookBlockingHook 1,
      .wsaSetBlockingHook 2 none] [] noHooks).get rfl).2 2 =
    ⟨false, false, some (.client 20), WSAEINVAL⟩ := by decide

end LinuxWinsock.Blocking
