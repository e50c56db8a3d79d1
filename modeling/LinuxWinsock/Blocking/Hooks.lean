import LinuxWinsock.Api
import LinuxWinsock.Lib.SaveRestore

namespace LinuxWinsock.Blocking

/-!
# Blocking hooks

The blocking state of a thread in `wsock32.c` and the calls on it.  `NULL` and the default hook are
two forms of one state: the hook in force is the default one in both.

* `wsaSetBlockingHook_congr`, `calls_congr` — the calls do not tell the two apart;
* `hookSetting` — the hook in force as a setting that is saved and put back;
* `hooks_restored` — what well-nested programs find and leave.
-/

/-- A pointer to a hook, other than `NULL`: to the library's own or to one of a client. -/
inductive Hook where
  | defaultBlockingHook
  | client (address : BitVec 64)
  deriving DecidableEq

/-- `LPWSABLOCKINGHOOK` -/
abbrev LPWSABLOCKINGHOOK := Option Hook

/-- The variables of a thread that the calls of `wsock32.c` use, and its last error. -/
structure ThreadState where
  gBlockingInProgress : Bool
  gBlockingCancelled : Bool
  gBlockingHook : LPWSABLOCKINGHOOK
  lastError : Int
  deriving DecidableEq

variable {t t' : ThreadState} {f : Hook}

/-! ### The calls -/

def defaultBlockingHook (t : ThreadState) : Bool := t.gBlockingCancelled

def wsaSetBlockingHook (lpBlockFunc : LPWSABLOCKINGHOOK) (t : ThreadState) :
    LPWSABLOCKINGHOOK × ThreadState :=
  match lpBlockFunc with
  | none => (none, { t with lastError := WSAEINVAL })
  | some f =>
    -- `prev_hook ? prev_hook : default_blocking_hook`
    (some (t.gBlockingHook.getD .defaultBlockingHook), { t with gBlockingHook := some f })

def wsaUnhookBlockingHook (t : ThreadState) : Int × ThreadState :=
  (0, { t with gBlockingHook := none })

def wsaCancelBlockingCall (t : ThreadState) : Int × ThreadState :=
  if !t.gBlockingInProgress then (SOCKET_ERROR, { t with lastError := WSAEINVAL })
  else (0, { t with gBlockingCancelled := true })

def wsaIsBlocking (t : ThreadState) : Bool := t.gBlockingInProgress

/-! ### The hook in force -/

/-- `g_blocking_hook`, or the default hook for `NULL`. -/
def effectiveHook (t : ThreadState) : Hook := t.gBlockingHook.getD .defaultBlockingHook

/-- The same state, as far as the calls and the hook in force show it. -/
structure Observed (t t' : ThreadState) : Prop where
  inProgress : t.gBlockingInProgress = t'.gBlockingInProgress
  cancelled : t.gBlockingCancelled = t'.gBlockingCancelled
  hook : effectiveHook t = effectiveHook t'
  lastError : t.lastError = t'.lastError

/-- A call with a hook returns the one in force, and puts its own in force. -/
theorem wsaSetBlockingHook_some (f : Hook) (t : ThreadState) :
    (wsaSetBlockingHook (some f) t).1 = some (effectiveHook t) ∧
      effectiveHook (wsaSetBlockingHook (some f) t).2 = f := ⟨rfl, rfl⟩

/-- **Two forms of one state.**  A call on states that look the same returns the same and leaves
    states that look the same. -/
theorem wsaSetBlockingHook_congr (h : Observed t t') (lpBlockFunc : LPWSABLOCKINGHOOK) :
    (wsaSetBlockingHook lpBlockFunc t).1 = (wsaSetBlockingHook lpBlockFunc t').1 ∧
      Observed (wsaSetBlockingHook lpBlockFunc t).2 (wsaSetBlockingHook lpBlockFunc t').2 := by
  cases lpBlockFunc with
  | none => exact ⟨rfl, h.inProgress, h.cancelled, h.hook, rfl⟩
  | some f => exact ⟨congrArg some h.hook, h.inProgress, h.cancelled, rfl, h.lastError⟩

/-- The other calls do not tell them apart either. -/
theorem calls_congr (h : Observed t t') :
    ((wsaUnhookBlockingHook t).1 = (wsaUnhookBlockingHook t').1 ∧
      Observed (wsaUnhookBlockingHook t).2 (wsaUnhookBlockingHook t').2) ∧
    ((wsaCancelBlockingCall t).1 = (wsaCancelBlockingCall t').1 ∧
      Observed (wsaCancelBlockingCall t).2 (wsaCancelBlockingCall t').2) ∧
    wsaIsBlocking t = wsaIsBlocking t' ∧ defaultBlockingHook t = defaultBlockingHook t' := by
  refine ⟨⟨rfl, h.inProgress, h.cancelled, rfl, h.lastError⟩, ?_, h.inProgress, h.cancelled⟩
  unfold wsaCancelBlockingCall
  rw [h.inProgress]
  split
  · exact ⟨rfl, rfl, h.cancelled, h.hook, rfl⟩
  · exact ⟨rfl, rfl, rfl, h.hook, h.lastError⟩

/-- To save and put back at once is not observed, whichever form the state had. -/
theorem observed_set_set (f : Hook) (t : ThreadState) :
    Observed (wsaSetBlockingHook (wsaSetBlockingHook (some f) t).1
      (wsaSetBlockingHook (some f) t).2).2 t := ⟨rfl, rfl, rfl, rfl⟩

/-! ### Well-nested programs -/

/-- The hook in force, changed by `WSASetBlockingHook`. -/
def hookSetting : Setting ThreadState Hook where
  inForce := effectiveHook
  set := wsaSetBlockingHook
  set_fst a s := (wsaSetBlockingHook_some a s).1
  inForce_set a s := (wsaSetBlockingHook_some a s).2

/-- **Save and restore.**  Whatever a program nests, and from any state: every call returns the hook
    that was in force just before it, a block leaves the hook in force that it found, and inside a
    block, outside its inner blocks, it is the block's. -/
theorem hooks_restored (p : Nested Hook) (t : ThreadState) :
    (∀ c ∈ (hookSetting.run p t).calls, c.returned = some (effectiveHook c.before)) ∧
    ∀ b ∈ (hookSetting.run p t).blocks, effectiveHook b.behind = effectiveHook b.before ∧
      ∀ s ∈ b.inside, effectiveHook s = b.value := by
  have h := hookSetting.run_restores p t
  exact ⟨h.calls, h.blocks⟩

/-- **A program is not observed** once it has ended. -/
theorem observed_run (p : Nested Hook) (t : ThreadState) :
    Observed (hookSetting.run p t).final t where
  inProgress := hookSetting.run_frame ThreadState.gBlockingInProgress (fun _ _ => rfl) p t
  cancelled := hookSetting.run_frame ThreadState.gBlockingCancelled (fun _ _ => rfl) p t
  hook := (hookSetting.run_restores p t).passed _ (hookSetting.ends_mem_passed p t).2
  lastError := hookSetting.run_frame ThreadState.lastError (fun _ _ => rfl) p t

/-- Two blocks of clients, one in the other, from the initial state: the stored pointer is `NULL`
    before and the default hook behind. -/
example : (hookSetting.run (.block (.client 1) (.block (.client 2) .skip))
    ⟨false, false, none, 0⟩).final = ⟨false, false, some .defaultBlockingHook, 0⟩ := by decide

end LinuxWinsock.Blocking
