import LinuxWinsock.Errno
import LinuxWinsock.Lib.Transition
import Mathlib.Data.Set.Basic

namespace LinuxWinsock.Sockets

open Function TransitionSystem

/-!
# The sockets that an `exec` inherits

`WSASocketA`, `WSASocketW` and `closesocket` over the descriptor table of the process.  The
descriptor and the error number are the kernel's choice.

* `next`, `system` — the transition system;
* `flagsOf` — the flags a socket was created with, from the calls made so far;
* `inherits_iff_allSteps` — the sockets that survive an `exec` are those that were asked to,
  throughout a run, exactly if every socket is created with `WSA_FLAG_NO_HANDLE_INHERIT` and with
  `SOCK_CLOEXEC` in its type.
-/

/-! ### The functions -/

def INVALID_SOCKET : SOCKET := -1

def WSA_FLAG_OVERLAPPED : BitVec 32 := 0x01
def WSA_FLAG_NO_HANDLE_INHERIT : BitVec 32 := 0x80

def AF_INET : BitVec 32 := 2
def SOCK_STREAM : BitVec 32 := 1
def SOCK_NONBLOCK : BitVec 32 := 0x800
def SOCK_CLOEXEC : BitVec 32 := 0x80000

/-- An open descriptor, by the flags that `socket` gives it. -/
structure Descriptor where
  nonblock : Bool
  /-- Closed by an `exec`. -/
  cloexec : Bool

/-- The descriptor table. -/
abbrev Table := Fd → Option Descriptor

/-- What a call leaves behind: its result, the last error and the table. -/
structure Outcome (α : Type) where
  ret : α
  lastError : Int
  table : Table

/-- `socket` for the kernel's answer: a descriptor that is free, or an error number. -/
def socket (_af type _protocol : BitVec 32) (answer : Except Int Fd) (table : Table) :
    Except Int (Fd × Table) :=
  match answer with
  | .ok fd =>
    .ok (fd, update table fd
      (some ⟨decide (type &&& SOCK_NONBLOCK ≠ 0), decide (type &&& SOCK_CLOEXEC ≠ 0)⟩))
  | .error errno => .error errno

/-- The flags that are added to the type. -/
def sockFlags (dwFlags : BitVec 32) : BitVec 32 :=
  (if dwFlags &&& WSA_FLAG_OVERLAPPED ≠ 0 then SOCK_NONBLOCK else 0) |||
    (if dwFlags &&& WSA_FLAG_NO_HANDLE_INHERIT = 0 then SOCK_CLOEXEC else 0)

/-- `lpProtocolInfo` and `g` are not used. -/
def wsaSocketA (af type protocol dwFlags : BitVec 32) (answer : Except Int Fd) (table : Table) :
    Outcome SOCKET :=
  match socket af (type ||| sockFlags dwFlags) protocol answer table with
  | .error errno => ⟨INVALID_SOCKET, errnoToWsaError errno, table⟩
  | .ok (s, table) => ⟨s, 0, table⟩

def wsaSocketW (af type protocol dwFlags : BitVec 32) (answer : Except Int Fd) (table : Table) :
    Outcome SOCKET :=
  wsaSocketA af type protocol dwFlags answer table

def closesocket (s : SOCKET) (table : Table) : Outcome Int :=
  match table s with
  | none => ⟨SOCKET_ERROR, errnoToWsaError EBADF, table⟩
  | some _ => ⟨0, 0, update table s none⟩

/-! ### The system -/

/-- The state of the process. -/
structure World where
  table : Table
  lastError : Int

/-- A call, with the kernel's answer. -/
inductive Label where
  | wsaSocketA (af type protocol dwFlags : BitVec 32) (answer : Except Int Fd)
  | wsaSocketW (af type protocol dwFlags : BitVec 32) (answer : Except Int Fd)
  | closesocket (s : SOCKET)

/-- What the kernel may answer: a free descriptor, or a positive error number. -/
def admissible (table : Table) : Except Int Fd → Bool
  | .ok fd => decide (0 ≤ fd) && (table fd).isNone
  | .error errno => decide (0 < errno)

/-- The state that a call leaves behind. -/
def Outcome.world {α : Type} (o : Outcome α) : World := ⟨o.table, o.lastError⟩

/-- The call labelled `l`; `none` where the kernel cannot answer so. -/
def next (w : World) : Label → Option World
  | .wsaSocketA af type protocol dwFlags answer =>
    if admissible w.table answer then
      some (wsaSocketA af type protocol dwFlags answer w.table).world
    else none
  | .wsaSocketW af type protocol dwFlags answer =>
    if admissible w.table answer then
      some (wsaSocketW af type protocol dwFlags answer w.table).world
    else none
  | .closesocket s => some (closesocket s w.table).world

/-- The transition system, for the descriptors that are open at the start. -/
def system (table : Table) : TransitionSystem World Label := .ofFun ⟨table, 0⟩ next

/-- A history of the system, the latest call first. -/
abbrev Trace := List (World × Label)

/-! ### What is asked for -/

/-- The socket that a call creates, with the type and the flags it is asked for. -/
def creates : Label → Option (Fd × BitVec 32 × BitVec 32)
  | .wsaSocketA _ type _ dwFlags (.ok fd) => some (fd, type, dwFlags)
  | .wsaSocketW _ type _ dwFlags (.ok fd) => some (fd, type, dwFlags)
  | _ => none

/-- What a call says about a descriptor: the flags it is created with, or that it is closed. -/
def requests (_ : World) : Label → Option (Fd × Option (BitVec 32))
  | .closesocket s => some (s, none)
  | l => (creates l).map (fun c => (c.1, some c.2.2))

/-- The flags that the socket was created with, if it was created and is not closed. -/
def flagsOf (fd : Fd) (tr : Trace) : Option (BitVec 32) := (latestAt requests fd tr).join

/-- The open sockets that survive an `exec`. -/
def survivors (tr : Trace) (w : World) : Set Fd :=
  {fd | flagsOf fd tr ≠ none ∧ ∃ d, w.table fd = some d ∧ d.cloexec = false}

/-- The open sockets that were created without `WSA_FLAG_NO_HANDLE_INHERIT`. -/
def inheritable (tr : Trace) (w : World) : Set Fd :=
  {fd | w.table fd ≠ none ∧ ∃ flags, flagsOf fd tr = some flags ∧
    flags &&& WSA_FLAG_NO_HANDLE_INHERIT = 0}

/-- Handle inheritance follows the request. -/
def Inherits (tr : Trace) (w : World) : Prop := survivors tr w = inheritable tr w

/-- A call that creates a socket has the flag, and `SOCK_CLOEXEC` in its type. -/
def AsksTwice (_ : Trace) (_ : World) (l : Label) : Prop :=
  ∀ fd type dwFlags, creates l = some (fd, type, dwFlags) →
    dwFlags &&& WSA_FLAG_NO_HANDLE_INHERIT ≠ 0 ∧ type &&& SOCK_CLOEXEC ≠ 0

/-! ### What a step does -/

variable {w w' : World} {tr : Trace} {l : Label} {table : Table}

/-- **The polarity**: a socket is closed by an `exec` if its type says so, or if the flag is not
    there. -/
theorem cloexec_iff (type dwFlags : BitVec 32) :
    (type ||| sockFlags dwFlags) &&& SOCK_CLOEXEC ≠ 0 ↔
      type &&& SOCK_CLOEXEC ≠ 0 ∨ dwFlags &&& WSA_FLAG_NO_HANDLE_INHERIT = 0 := by
  have hadded : sockFlags dwFlags &&& SOCK_CLOEXEC =
      if dwFlags &&& WSA_FLAG_NO_HANDLE_INHERIT = 0 then SOCK_CLOEXEC else 0 := by
    unfold sockFlags
    split <;> split <;> decide
  have hsplit : (type ||| sockFlags dwFlags) &&& SOCK_CLOEXEC = 0 ↔
      type &&& SOCK_CLOEXEC = 0 ∧ sockFlags dwFlags &&& SOCK_CLOEXEC = 0 := by
    rw [BitVec.and_or_distrib_right]
    exact BitVec.or_eq_zero_iff
  rw [Ne, hsplit, hadded, not_and_or]
  by_cases hflag : dwFlags &&& WSA_FLAG_NO_HANDLE_INHERIT = 0
  · rw [if_pos hflag]
    exact iff_of_true (.inr (by decide)) (.inr hflag)
  · rw [if_neg hflag]
    exact or_congr_right (iff_of_false (not_not_intro rfl) hflag)

/-- The descriptor that a call creates. -/
def created (type dwFlags : BitVec 32) : Descriptor where
  nonblock := decide ((type ||| sockFlags dwFlags) &&& SOCK_NONBLOCK ≠ 0)
  cloexec := decide ((type ||| sockFlags dwFlags) &&& SOCK_CLOEXEC ≠ 0)

/-- What a step can do. -/
inductive Step (w : World) : Label → World → Prop
  | created {l : Label} {fd : Fd} {type dwFlags : BitVec 32}
      (creates : creates l = some (fd, type, dwFlags))
      (requests : requests w l = some (fd, some dwFlags)) :
      Step w l ⟨update w.table fd (some (created type dwFlags)), 0⟩
  | refused {l : Label} {errno : Int} (creates : creates l = none)
      (requests : requests w l = none) : Step w l ⟨w.table, errnoToWsaError errno⟩
  | closed {s : SOCKET} {lastError : Int} :
      Step w (.closesocket s) ⟨update w.table s none, lastError⟩

/-- **All that a step can do.** -/
theorem step_of_next (h : next w l = some w') : Step w l w' := by
  cases l with
  | wsaSocketA af type protocol dwFlags answer =>
    simp only [next] at h
    split at h
    · obtain rfl := Option.some.inj h
      cases answer with
      | ok fd => exact .created rfl rfl
      | error errno => exact .refused rfl rfl
    · cases h
  | wsaSocketW af type protocol dwFlags answer =>
    simp only [next] at h
    split at h
    · obtain rfl := Option.some.inj h
      cases answer with
      | ok fd => exact .created rfl rfl
      | error errno => exact .refused rfl rfl
    · cases h
  | closesocket s =>
    obtain rfl := Option.some.inj h
    unfold closesocket
    split
    · rename_i hnone
      have hsame : w.table = update w.table s none := by
        rw [← hnone, update_eq_self]
      have hstep : Step w (.closesocket s) ⟨update w.table s none, errnoToWsaError EBADF⟩ := .closed
      rw [← hsame] at hstep
      exact hstep
    · exact .closed

/-! ### The steps of a run -/

/-- Whether the request is followed for one descriptor. -/
def InheritsAt (fd : Fd) (tr : Trace) (w : World) : Prop :=
  fd ∈ survivors tr w ↔ fd ∈ inheritable tr w

theorem inherits_iff : Inherits tr w ↔ ∀ fd, InheritsAt fd tr w := Set.ext_iff

/-- A call for another descriptor changes nothing for this one. -/
theorem inheritsAt_of_same {fd : Fd} (hflags : flagsOf fd ((w, l) :: tr) = flagsOf fd tr)
    (htable : w'.table fd = w.table fd) :
    InheritsAt fd ((w, l) :: tr) w' ↔ InheritsAt fd tr w := by
  simp only [InheritsAt, survivors, inheritable, Set.mem_ofPred_eq, hflags, htable]

/-- For a new socket the request is followed exactly if it is made twice. -/
theorem inheritsAt_created {fd : Fd} {type dwFlags : BitVec 32}
    (hflags : flagsOf fd tr = some dwFlags) (htable : w.table fd = some (created type dwFlags)) :
    InheritsAt fd tr w ↔
      dwFlags &&& WSA_FLAG_NO_HANDLE_INHERIT ≠ 0 ∧ type &&& SOCK_CLOEXEC ≠ 0 := by
  have hcloexec : (created type dwFlags).cloexec = false ↔
      ¬ (type &&& SOCK_CLOEXEC ≠ 0 ∨ dwFlags &&& WSA_FLAG_NO_HANDLE_INHERIT = 0) := by
    rw [← cloexec_iff]
    exact decide_eq_false_iff_not
  have hsurvives : fd ∈ survivors tr w ↔
      ¬ (type &&& SOCK_CLOEXEC ≠ 0 ∨ dwFlags &&& WSA_FLAG_NO_HANDLE_INHERIT = 0) := by
    rw [← hcloexec]
    simp [survivors, hflags, htable]
  have hinherits : fd ∈ inheritable tr w ↔ dwFlags &&& WSA_FLAG_NO_HANDLE_INHERIT = 0 := by
    simp [inheritable, hflags, htable]
  rw [InheritsAt, hsurvives, hinherits]
  tauto

/-- Of a closed socket nothing is left. -/
theorem inheritsAt_closed {fd : Fd} (hflags : flagsOf fd tr = none) : InheritsAt fd tr w := by
  simp [InheritsAt, survivors, inheritable, hflags]

/-- The request of a step is the latest for its descriptor. -/
theorem flagsOf_cons {fd : Fd} {flags : Option (BitVec 32)} (h : requests w l = some (fd, flags))
    (tr : Trace) (u : Fd) :
    flagsOf u ((w, l) :: tr) = if fd = u then flags else flagsOf u tr := by
  unfold flagsOf
  rw [latestAt_cons_some h u tr]
  split <;> rfl

theorem flagsOf_cons_none (h : requests w l = none) (tr : Trace) (u : Fd) :
    flagsOf u ((w, l) :: tr) = flagsOf u tr := by
  unfold flagsOf
  rw [latestAt_cons_none h]

theorem asksTwice_iff {fd : Fd} {type dwFlags : BitVec 32}
    (h : creates l = some (fd, type, dwFlags)) : AsksTwice tr w l ↔
      dwFlags &&& WSA_FLAG_NO_HANDLE_INHERIT ≠ 0 ∧ type &&& SOCK_CLOEXEC ≠ 0 := by
  constructor
  · intro hasks
    exact hasks fd type dwFlags h
  · rintro hasks fd' type' dwFlags' h'
    rw [h] at h'
    cases h'
    exact hasks

theorem asksTwice_of_none (h : creates l = none) : AsksTwice tr w l := by
  intro fd type dwFlags h'
  rw [h] at h'
  cases h'

/-- **One step** keeps the property exactly if it asks twice. -/
theorem inherits_step (h : Inherits tr w) (hs : Step w l w') :
    Inherits ((w, l) :: tr) w' ↔ AsksTwice tr w l := by
  rw [inherits_iff] at h ⊢
  cases hs with
  | @created _ fd type dwFlags hcreates hrequests =>
    have hflags := flagsOf_cons hrequests tr
    have hnew : InheritsAt fd ((w, l) :: tr) ⟨update w.table fd (some (created type dwFlags)), 0⟩ ↔
        dwFlags &&& WSA_FLAG_NO_HANDLE_INHERIT ≠ 0 ∧ type &&& SOCK_CLOEXEC ≠ 0 :=
      inheritsAt_created ((hflags fd).trans (if_pos rfl)) (update_self ..)
    rw [asksTwice_iff hcreates, ← hnew]
    constructor
    · intro hinherits
      exact hinherits fd
    · intro hfd u
      by_cases hu : u = fd
      · rw [hu]
        exact hfd
      · refine (inheritsAt_of_same ?_ (update_of_ne hu ..)).mpr (h u)
        rw [hflags, if_neg (Ne.symm hu)]
  | refused hcreates hrequests =>
    refine iff_of_true (fun u => ?_) (asksTwice_of_none hcreates)
    exact (inheritsAt_of_same (flagsOf_cons_none hrequests tr u) rfl).mpr (h u)
  | @closed s lastError =>
    refine iff_of_true (fun u => ?_) (asksTwice_of_none rfl)
    have hflags := flagsOf_cons (w := w) (l := .closesocket s) rfl tr
    by_cases hu : u = s
    · exact inheritsAt_closed ((hflags u).trans (if_pos hu.symm))
    · refine (inheritsAt_of_same ?_ (update_of_ne hu ..)).mpr (h u)
      rw [hflags, if_neg (Ne.symm hu)]

/-- **Handle inheritance** follows the request throughout a run exactly if every call that
    creates a socket has `WSA_FLAG_NO_HANDLE_INHERIT` in its flags and `SOCK_CLOEXEC` in its
    type. -/
theorem inherits_iff_allSteps (h : (system table).Run tr w) :
    Always Inherits tr w ↔ AllSteps AsksTwice tr := by
  refine Run.always_iff_allSteps ?_ ?_ h (AllSteps.trivial tr)
  · rintro s rfl
    rw [inherits_iff]
    exact fun fd => inheritsAt_closed rfl
  · intro tr w l w' _ hinherits _ hstep
    exact inherits_step hinherits (step_of_next hstep)

/-- A socket that is asked for twice is not inherited, and one that is closed is gone. -/
theorem inherits_asked_twice : ∃ tr w, (system (fun _ => none)).Run tr w ∧
    Always Inherits tr w ∧ flagsOf 3 tr = some WSA_FLAG_NO_HANDLE_INHERIT := by
  have hrun := run_of_exec_isSome ⟨fun _ => none, 0⟩ next
    [.wsaSocketA AF_INET (SOCK_STREAM ||| SOCK_CLOEXEC) 0 WSA_FLAG_NO_HANDLE_INHERIT (.ok 3),
      .wsaSocketW AF_INET (SOCK_STREAM ||| SOCK_CLOEXEC) 0 WSA_FLAG_NO_HANDLE_INHERIT (.ok 4),
      .closesocket 4] rfl
  refine ⟨_, _, hrun, (inherits_iff_allSteps hrun).mpr ⟨?_, ?_, ?_, trivial⟩, rfl⟩
  · rintro fd type dwFlags ⟨⟩
  · rintro fd type dwFlags ⟨⟩
    exact ⟨by decide, by decide⟩
  · rintro fd type dwFlags ⟨⟩
    exact ⟨by decide, by decide⟩

/-- A socket that was asked not to be inherited survives an `exec`. -/
theorem not_inherits : ∃ tr w, (system (fun _ => none)).Run tr w ∧
    flagsOf 3 tr = some WSA_FLAG_NO_HANDLE_INHERIT ∧ 3 ∈ survivors tr w ∧ ¬ Inherits tr w := by
  have hrun := run_of_exec_isSome ⟨fun _ => none, 0⟩ next
    [.wsaSocketA AF_INET SOCK_STREAM 0 WSA_FLAG_NO_HANDLE_INHERIT (.ok 3)] rfl
  refine ⟨_, _, hrun, rfl, ⟨by decide, _, rfl, by decide⟩, ?_⟩
  intro hinherits
  have hat := inherits_iff.mp hinherits 3
  obtain ⟨-, flags, hflags, hzero⟩ := hat.mp ⟨by decide, _, rfl, by decide⟩
  obtain rfl : WSA_FLAG_NO_HANDLE_INHERIT = flags := Option.some.inj hflags
  exact absurd hzero (by decide)

end LinuxWinsock.Sockets
