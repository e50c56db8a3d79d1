import LinuxWinsock.LastError.Calls
import LinuxWinsock.Lib.Transition

namespace LinuxWinsock.LastError

open Function TransitionSystem

/-!
# The last error of each thread

Any number of threads call the functions of the API, in any order.  Each thread has its own
`g_wsa_last_error`, which `WSAGetLastError` returns.

* `next`, `system` — the calls;
* `left`, `failedAt` — what a call leaves, and whether it failed, unless it is silent;
* `last_error_reports` — `WSAGetLastError` returns what the latest call of the thread has left that
  was not silent, and this is an error exactly if that call failed.
-/

/-! ### The threads -/

/-- `g_wsa_last_error` of each thread. -/
abbrev LastErrors := Nat → Int

inductive Label where
  | call (tid : Nat) (c : Call)
  | wsaSetLastError (tid : Nat) (iError : Int)
  | wsaGetLastError (tid : Nat)

/-- What `WSAGetLastError` returns to the thread `tid`. -/
def wsaGetLastError (w : LastErrors) (tid : Nat) : Int := w tid

/-- The step labelled `l`; `none` where the behaviour is undefined. -/
def next (w : LastErrors) : Label → Option LastErrors
  | .call tid c => (c.after (w tid)).map (fun r => update w tid r.2)
  | .wsaSetLastError tid iError => some (update w tid iError)
  | .wsaGetLastError _ => some w

/-- The system of the threads; the last error is 0 at the start of each. -/
def system : TransitionSystem LastErrors Label := .ofFun (fun _ => 0) next

/-! ### What the calls leave -/

/-- The last error that a step leaves to its thread, unless it leaves it alone. -/
def left (w : LastErrors) : Label → Option (Nat × Int)
  | .call tid c => if c.silent then none else (c.after (w tid)).map (fun r => (tid, r.2))
  | .wsaSetLastError tid iError => some (tid, iError)
  | .wsaGetLastError _ => none

/-- Whether a step that leaves an error has failed; `WSASetLastError` fails with the error that it
    is given. -/
def failedAt (w : LastErrors) : Label → Option (Nat × Bool)
  | .call tid c => if c.silent then none else (c.after (w tid)).map (fun r => (tid, r.1))
  | .wsaSetLastError tid iError => some (tid, decide (iError ≠ 0))
  | .wsaGetLastError _ => none

/-- The answers of the kernel are as documented. -/
def Documented (_ : List (LastErrors × Label)) (_ : LastErrors) : Label → Prop
  | .call _ c => c.Documented
  | _ => True

/-- What is known of a thread after a run. -/
structure Reports (tr : List (LastErrors × Label)) (w : LastErrors) (tid : Nat) : Prop where
  value : w tid = (latestAt left tid tr).getD 0
  failed : w tid ≠ 0 ↔ latestAt failedAt tid tr = some true

variable {tr : List (LastErrors × Label)} {w w' : LastErrors} {tid : Nat} {l : Label}

/-- A step that leaves an error of its own. -/
theorem Reports.of_left {err : Int} {failed : Bool} {thread : Nat} (h : Reports tr w tid)
    (hleft : left w l = some (thread, err)) (hfailed : failedAt w l = some (thread, failed))
    (htells : Tells (failed, err)) (hw : w' = update w thread err) :
    Reports ((w, l) :: tr) w' tid := by
  subst hw
  constructor
  case value =>
    rw [latestAt_cons_some hleft]
    by_cases htid : thread = tid
    · subst htid
      rw [if_pos rfl, update_self, Option.getD_some]
    · rw [if_neg htid, update_of_ne (Ne.symm htid)]
      exact h.value
  case failed =>
    rw [latestAt_cons_some hfailed]
    by_cases htid : thread = tid
    · subst htid
      rw [if_pos rfl, update_self, Option.some.injEq]
      exact htells
    · rw [if_neg htid, update_of_ne (Ne.symm htid)]
      exact h.failed

/-- A step that leaves the errors alone. -/
theorem Reports.of_silent (h : Reports tr w tid) (hleft : left w l = none)
    (hfailed : failedAt w l = none) : Reports ((w, l) :: tr) w tid := by
  constructor
  case value =>
    rw [latestAt_cons_none hleft]
    exact h.value
  case failed =>
    rw [latestAt_cons_none hfailed]
    exact h.failed

/-- **One step.** -/
theorem Reports.step (h : Reports tr w tid) (hdoc : Documented tr w l)
    (hnext : next w l = some w') : Reports ((w, l) :: tr) w' tid := by
  cases l with
  | call thread c =>
    obtain ⟨r, hafter, rfl⟩ := Option.map_eq_some_iff.mp hnext
    have heffect := effect_of_call hdoc hafter
    cases hsilent : c.silent with
    | false =>
      rw [hsilent] at heffect
      have hleft : left w (.call thread c) = some (thread, r.2) := by
        simp [left, hsilent, hafter]
      have hfailed : failedAt w (.call thread c) = some (thread, r.1) := by
        simp [failedAt, hsilent, hafter]
      exact h.of_left hleft hfailed heffect rfl
    | true =>
      rw [hsilent] at heffect
      have hsame : update w thread r.2 = w := by
        rw [show r.2 = w thread from heffect, update_eq_self]
      rw [hsame]
      apply h.of_silent
      · simp [left, hsilent]
      · simp [failedAt, hsilent]
  | wsaSetLastError thread iError =>
    obtain rfl := Option.some.inj hnext
    refine h.of_left rfl rfl ?_ rfl
    simp [Tells]
  | wsaGetLastError thread =>
    obtain rfl := Option.some.inj hnext
    exact h.of_silent rfl rfl

/-- **The last error.**  In every run, `WSAGetLastError` returns to a thread what the latest of its
    calls has left that was not silent, and 0 if there was none, whatever other threads have called
    since; and this is an error exactly if that call failed. -/
theorem last_error_reports (tr : List (LastErrors × Label)) (w : LastErrors)
    (hrun : system.Run tr w) (hdoc : AllSteps Documented tr) (tid : Nat) :
    wsaGetLastError w tid = (latestAt left tid tr).getD 0 ∧
      (wsaGetLastError w tid ≠ 0 ↔ latestAt failedAt tid tr = some true) := by
  suffices h : Reports tr w tid from ⟨h.value, h.failed⟩
  induction hrun with
  | init hinit =>
    obtain rfl : _ = fun _ => 0 := hinit
    exact ⟨rfl, by simp [latestAt, latest]⟩
  | step hrun hstep ih =>
    exact (ih hdoc.2).step hdoc.1 hstep

/-- The first thread fails to convert a word, the second one succeeds, and the first one sets its
    hook. -/
def twoThreads : List Label :=
  [.call 1 (.wsaHtons 3 80 none), .call 2 (.wsaHtons 3 80 (some 0)),
    .call 1 (.wsaSetBlockingHook (some (.client 1)) ⟨false, false, none, 0⟩)]

/-- The error of the first thread is still there, and the second thread has none. -/
theorem last_error_twoThreads :
    let ran := (exec next twoThreads [] (fun _ => 0)).get rfl
    wsaGetLastError ran.2 1 = WSAEFAULT ∧ latestAt failedAt 2 ran.1 = some false ∧
      ¬ wsaGetLastError ran.2 2 ≠ 0 := by
  intro ran
  have hrun : system.Run ran.1 ran.2 := run_of_exec_isSome (fun _ => 0) next twoThreads rfl
  have hdoc : AllSteps Documented ran.1 := ⟨trivial, trivial, trivial, trivial⟩
  have hsecond := (last_error_reports ran.1 ran.2 hrun hdoc 2).2
  refine ⟨by decide, by decide, fun hne => ?_⟩
  exact absurd (hsecond.mp hne) (by decide)

end LinuxWinsock.LastError
