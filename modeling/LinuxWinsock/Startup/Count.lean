import LinuxWinsock.Startup.Startup
import LinuxWinsock.Lib.Transition
import Mathlib.Data.Finset.Card

namespace LinuxWinsock.Startup

open Function TransitionSystem Memory

/-!
# The start-up count

Any number of threads that call `WSAStartup` and `WSACleanup`.  A call takes
`g_wsa_init_mutex`, runs its body, and leaves through one of the exits of the body.

* `next`, `system` — the transition system;
* `CountInv`, `countInv_of_run` — the count is the number of start-ups that succeeded less
  that of the clean-ups, up to the call that holds the mutex, and a start-up that is still to
  be counted leaves room for it;
* `startup_count` — what the two functions promise their callers, in every run.
-/

/-! ### The system -/

/-- A call of one of the functions. -/
inductive Call where
  | startup (wVersionRequested : BitVec 16) (lpWSAData : Option Nat)
  | cleanup

def Call.isStartup : Call → Bool
  | .startup _ _ => true
  | .cleanup => false

/-- Where a thread stands. -/
inductive Pc where
  /-- In none of the two functions. -/
  | idle
  /-- At the lock. -/
  | entered (call : Call)
  /-- Behind the lock. -/
  | locked (call : Call)
  /-- At an exit, which is about to be taken. -/
  | leaving (call : Call) (exit : Exit)

/-- The state the calls share, and where each thread stands. -/
structure World where
  gWsaInitCount : BitVec 32
  /-- The thread that holds the mutex. -/
  gWsaInitMutex : Option Nat
  mem : Memory
  threads : Nat → Pc

namespace World

/-- The state before the first call. -/
def start (mem : Memory) : World := ⟨0, none, mem, fun _ => .idle⟩

/-- The state with the thread `t` moved to `pc`. -/
def setThread (w : World) (t : Nat) (pc : Pc) : World :=
  { w with threads := update w.threads t pc }

end World

/-- The steps of a thread: it makes a call, takes the mutex, runs the body, and leaves. -/
inductive Label where
  | call (t : Nat) (call : Call)
  | lock (t : Nat)
  | body (t : Nat)
  | leave (t : Nat)

/-- The body of a call, and the exit it comes to. -/
def runBody (w : World) (t : Nat) : Call → World
  | .startup version lp =>
    let (exit, count, mem) := startupBody version lp w.gWsaInitCount w.mem
    { w with gWsaInitCount := count, mem := mem }.setThread t (.leaving (.startup version lp) exit)
  | .cleanup =>
    let (exit, count) := cleanupBody w.gWsaInitCount
    { w with gWsaInitCount := count }.setThread t (.leaving .cleanup exit)

/-- The step labelled `l`; `none` where the label does not fit the state. -/
def next (w : World) : Label → Option World
  | .call t call =>
    match w.threads t with
    | .idle => some (w.setThread t (.entered call))
    | _ => none
  | .lock t =>
    match w.threads t, w.gWsaInitMutex with
    | .entered call, none => some ({ w with gWsaInitMutex := some t }.setThread t (.locked call))
    | _, _ => none
  | .body t =>
    match w.threads t with
    | .locked call => some (runBody w t call)
    | _ => none
  | .leave t =>
    match w.threads t with
    | .leaving _ exit =>
      some ({ w with gWsaInitMutex := if exit.unlocks then none else w.gWsaInitMutex }.setThread
        t .idle)
    | _ => none

/-- The transition system, for what the memory holds at the start. -/
def system (mem : Memory) : TransitionSystem World Label := .ofFun (World.start mem) next

/-- A history of the system, the latest step first. -/
abbrev Trace := List (World × Label)

/-! ### What a history says -/

/-- The call that the step returns from, with its result. -/
def returns (w : World) : Label → Option (Call × Int)
  | .leave t =>
    match w.threads t with
    | .leaving call exit => some (call, exit.ret)
    | _ => none
  | _ => none

/-- The step returns 0 from a start-up (`true`) or a clean-up (`false`). -/
def succeeds (startup : Bool) (w : World) (l : Label) : Bool :=
  (returns w l).any (fun r => r.1.isStartup == startup && decide (r.2 = 0))

/-- The number of calls of `WSAStartup` (`true`) or `WSACleanup` (`false`) that have returned
    0. -/
def successes (startup : Bool) (tr : Trace) : Nat :=
  tr.countP (fun e => succeeds startup e.1 e.2)

/-- The step makes a call of `WSAStartup`. -/
def startsUp : Label → Bool
  | .call _ call => call.isStartup
  | _ => false

/-- The number of calls of `WSAStartup` made. -/
def startupCalls (tr : Trace) : Nat := tr.countP (fun e => startsUp e.2)

/-- The step of a thread that takes the mutex, with the count it finds. -/
def locks (w : World) : Label → Option (Nat × BitVec 32)
  | .lock t => some (t, w.gWsaInitCount)
  | _ => none

/-- The count that the thread found when it last took the mutex. -/
def countAtLock (t : Nat) (tr : Trace) : Option (BitVec 32) := latestAt locks t tr

/-! ### What a step can do -/

/-- What a body can do to the count, and the exit it comes to. -/
inductive BodyEffect (count : BitVec 32) : Call → Exit → BitVec 32 → Prop
  /-- It fails; a clean-up does so only if the count is 0. -/
  | failed {call : Call} {ret : Int} (hret : ret ≠ 0)
      (hcleanup : call = .cleanup → ret = WSANOTINITIALISED ∧ count = 0) :
      BodyEffect count call ⟨ret, true⟩ count
  | counted {version : BitVec 16} {lp : Option Nat} :
      BodyEffect count (.startup version lp) ⟨0, true⟩ (count + 1)
  | uncounted (hcount : count ≠ 0) : BodyEffect count .cleanup ⟨0, true⟩ (count - 1)

theorem startupBody_effect (version : BitVec 16) (lp : Option Nat) (count : BitVec 32)
    (mem : Memory) : BodyEffect count (.startup version lp) (startupBody version lp count mem).1
      (startupBody version lp count mem).2.1 := by
  unfold startupBody
  split
  · exact .failed (by decide) nofun
  · dsimp only
    split
    · exact .failed (by decide) nofun
    · exact .counted

theorem cleanupBody_effect (count : BitVec 32) :
    BodyEffect count .cleanup (cleanupBody count).1 (cleanupBody count).2 := by
  unfold cleanupBody
  split
  · rename_i hzero
    exact .failed (by decide) (fun _ => ⟨rfl, hzero⟩)
  · rename_i hcount
    exact .uncounted hcount

/-- The steps as a relation. -/
inductive Step (w : World) : Label → World → Prop
  | called {t : Nat} {call : Call} (idle : w.threads t = .idle) :
      Step w (.call t call) (w.setThread t (.entered call))
  | locked {t : Nat} {call : Call} (entered : w.threads t = .entered call)
      (free : w.gWsaInitMutex = none) :
      Step w (.lock t) ({ w with gWsaInitMutex := some t }.setThread t (.locked call))
  | body {t : Nat} {call : Call} {exit : Exit} {count : BitVec 32} {mem : Memory}
      (locked : w.threads t = .locked call) (effect : BodyEffect w.gWsaInitCount call exit count) :
      Step w (.body t)
        ({ w with gWsaInitCount := count, mem := mem }.setThread t (.leaving call exit))
  | left {t : Nat} {call : Call} {exit : Exit} (leaving : w.threads t = .leaving call exit) :
      Step w (.leave t)
        ({ w with gWsaInitMutex := if exit.unlocks then none else w.gWsaInitMutex }.setThread t
          .idle)

/-- **All that a step can do.** -/
theorem step_of_next {w w' : World} {l : Label} (h : next w l = some w') : Step w l w' := by
  cases l with
  | call t call =>
    simp only [next] at h
    split at h
    · rename_i hidle
      obtain rfl := Option.some.inj h
      exact .called hidle
    · cases h
  | lock t =>
    simp only [next] at h
    split at h
    · rename_i call hentered hfree
      obtain rfl := Option.some.inj h
      exact .locked hentered hfree
    · cases h
  | body t =>
    simp only [next] at h
    split at h
    · rename_i call hlocked
      obtain rfl := Option.some.inj h
      cases call with
      | startup version lp => exact .body hlocked (startupBody_effect version lp _ w.mem)
      | cleanup =>
        have heffect := cleanupBody_effect w.gWsaInitCount
        exact (Step.body hlocked heffect : Step w _ (World.setThread { w with
          gWsaInitCount := _, mem := w.mem } t _))
    · cases h
  | leave t =>
    simp only [next] at h
    split at h
    · rename_i call exit hleaving
      obtain rfl := Option.some.inj h
      exact .left hleaving
    · cases h

/-! ### The invariant -/

/-- The thread is between the lock and its exit. -/
def Pc.inside : Pc → Bool
  | .locked _ => true
  | .leaving _ _ => true
  | _ => false

/-- The thread is in a call of `WSAStartup` whose body has not run. -/
def Pc.toCount : Pc → Bool
  | .entered call => call.isStartup
  | .locked call => call.isStartup
  | _ => false

/-- What the call of the thread has done to the count, but not yet returned. -/
def Pc.pending : Pc → Int
  | .leaving call exit => if exit.ret = 0 then (if call.isStartup then 1 else -1) else 0
  | _ => 0

/-- What the call that holds the mutex has done to the count, but not yet returned. -/
def World.pending (w : World) : Int :=
  match w.gWsaInitMutex with
  | some t => (w.threads t).pending
  | none => 0

/-- What holds of a call that is about to leave. -/
structure AtExit (tr : Trace) (w : World) (t : Nat) (call : Call) (exit : Exit) : Prop where
  unlocks : exit.unlocks = true
  /-- A call that fails leaves the count as it found it. -/
  failed : exit.ret ≠ 0 → countAtLock t tr = some w.gWsaInitCount
  /-- A clean-up fails in one way only, and only if there is nothing to clean up. -/
  cleanup : call = .cleanup → exit.ret ≠ 0 →
    exit.ret = WSANOTINITIALISED ∧ w.gWsaInitCount = 0

/-- The invariant of the start-up count. -/
structure CountInv (tr : Trace) (w : World) : Prop where
  /-- The mutex is held by the thread that is between the lock and its exit. -/
  holder : ∀ t, w.gWsaInitMutex = some t ↔ (w.threads t).inside = true
  atLock : ∀ t call, w.threads t = .locked call → countAtLock t tr = some w.gWsaInitCount
  atExit : ∀ t call exit, w.threads t = .leaving call exit → AtExit tr w t call exit
  count : w.gWsaInitCount.toInt = successes true tr - successes false tr + w.pending
  nonneg : 0 ≤ w.gWsaInitCount.toInt
  /-- The start-ups that were counted and those still to be counted were all called. -/
  room : ∃ A : Finset Nat, (∀ t, t ∈ A ↔ (w.threads t).toCount = true) ∧
    successes true tr + max 0 w.pending + A.card ≤ startupCalls tr

/-! ### Each step keeps the invariant -/

variable {mem : Memory} {w w' : World} {tr : Trace} {l : Label} {t : Nat} {pc : Pc}

/-- Where a thread stands after one has moved. -/
theorem threads_setThread {u : Nat} {pc' : Pc} (h : (w.setThread t pc).threads u = pc') :
    (u = t ∧ pc = pc') ∨ (u ≠ t ∧ w.threads u = pc') := by
  by_cases hu : u = t
  · subst hu
    exact .inl ⟨rfl, (update_self ..).symm.trans h⟩
  · exact .inr ⟨hu, (update_of_ne hu ..).symm.trans h⟩

/-- One thread moves: the number of threads that satisfy `p` changes by that thread's share. -/
theorem exists_finset_setThread (p : Pc → Bool) {A : Finset Nat}
    (hA : ∀ u, u ∈ A ↔ p (w.threads u) = true) (t : Nat) (pc : Pc) :
    ∃ A' : Finset Nat, (∀ u, u ∈ A' ↔ p (update w.threads t pc u) = true) ∧
      A'.card + (p (w.threads t)).toNat = A.card + (p pc).toNat := by
  -- `A` without the thread, which is put back if it satisfies `p` where it went
  have hB : ∀ u, u ∈ A.erase t ↔ u ≠ t ∧ p (w.threads u) = true := fun u => by
    rw [Finset.mem_erase, hA]
  have hcard : (A.erase t).card + (p (w.threads t)).toNat = A.card := by
    cases ht : p (w.threads t) with
    | true => exact Finset.card_erase_add_one ((hA t).mpr ht)
    | false =>
      have hnotin : t ∉ A := fun h => by
        rw [hA, ht] at h
        cases h
      rw [Finset.erase_eq_of_notMem hnotin]
      rfl
  cases hpc : p pc with
  | true =>
    refine ⟨insert t (A.erase t), fun u => ?_, ?_⟩
    · rw [Finset.mem_insert, hB, update_apply]
      by_cases hu : u = t
      · simp [hu, hpc]
      · simp [hu]
    · rw [Finset.card_insert_of_notMem (Finset.notMem_erase t A), ← hcard]
      simp only [Bool.toNat_true]
      omega
  | false =>
    refine ⟨A.erase t, fun u => ?_, ?_⟩
    · rw [hB, update_apply]
      by_cases hu : u = t
      · simp [hu, hpc]
      · simp [hu]
    · rw [hcard]
      rfl

/-- The successful returns do not change with a step that returns from nothing. -/
theorem successes_cons_of_returns_none (h : returns w l = none) (b : Bool) (tr : Trace) :
    successes b ((w, l) :: tr) = successes b tr := by
  simp [successes, succeeds, h]

theorem successes_cons_of_returns {call : Call} {ret : Int}
    (h : returns w l = some (call, ret)) (b : Bool) (tr : Trace) :
    successes b ((w, l) :: tr) =
      successes b tr + (call.isStartup == b && decide (ret = 0)).toNat := by
  simp only [successes, List.countP_cons, succeeds, h, Option.any_some]
  cases (call.isStartup == b && decide (ret = 0)) <;> rfl

theorem startupCalls_cons (w : World) (l : Label) (tr : Trace) :
    startupCalls ((w, l) :: tr) = startupCalls tr + (startsUp l).toNat := by
  simp only [startupCalls, List.countP_cons]
  cases startsUp l <;> rfl

/-- A thread that is about to leave holds the mutex. -/
theorem CountInv.holds (hi : CountInv tr w) (h : (w.threads t).inside = true) :
    w.gWsaInitMutex = some t := (hi.holder t).mpr h

/-- A step that neither changes the count nor takes the mutex keeps what holds at an exit. -/
theorem AtExit.of_countAtLock {tr' : Trace} {call : Call} {exit : Exit}
    (h : AtExit tr w t call exit) (hlock : countAtLock t tr' = countAtLock t tr)
    (hcount : w'.gWsaInitCount = w.gWsaInitCount) : AtExit tr' w' t call exit where
  unlocks := h.unlocks
  failed hret := by rw [hlock, hcount]; exact h.failed hret
  cleanup hcall hret := by rw [hcount]; exact h.cleanup hcall hret

/-- What the calls have done is read off the thread that holds the mutex. -/
theorem CountInv.pending_eq (hi : CountInv tr w) (h : (w.threads t).inside = true) :
    w.pending = (w.threads t).pending := by
  simp only [World.pending, hi.holds h]

/-- Two threads are not between the lock and the exit at once. -/
theorem CountInv.unique (hi : CountInv tr w) {u : Nat} (ht : (w.threads t).inside = true)
    (hu : (w.threads u).inside = true) : u = t := by
  have heq := (hi.holds hu).symm.trans (hi.holds ht)
  exact Option.some.inj heq

/-- If the mutex is free, or the thread is between the lock and the exit, no other thread is. -/
theorem CountInv.others (hi : CountInv tr w)
    (h : w.gWsaInitMutex = none ∨ (w.threads t).inside = true) {u : Nat} (hne : u ≠ t)
    (hu : w.threads u = pc) : pc.inside = false := by
  rw [← hu]
  cases hin : (w.threads u).inside with
  | false => rfl
  | true =>
    rcases h with hfree | ht
    · have hheld := hi.holds hin
      rw [hfree] at hheld
      cases hheld
    · exact absurd (hi.unique ht hin) hne

/-- In the same two states: the only thread that is found at the mutex, after one has moved, is that
    thread. -/
theorem CountInv.only_moved (hi : CountInv tr w)
    (h : w.gWsaInitMutex = none ∨ (w.threads t).inside = true) {u : Nat} {pc' : Pc}
    (hu : update w.threads t pc u = pc') (hpc : pc'.inside = true) : u = t ∧ pc = pc' := by
  rcases threads_setThread hu with hmoved | ⟨hne, hu⟩
  · exact hmoved
  · rw [hi.others h hne hu] at hpc
    cases hpc

/-- A thread moves and stays outside, or inside. -/
theorem CountInv.holder_setThread (hi : CountInv tr w) (h : (w.threads t).inside = pc.inside)
    (u : Nat) : w.gWsaInitMutex = some u ↔ (update w.threads t pc u).inside = true := by
  rw [hi.holder u, update_apply]
  by_cases hu : u = t
  · rw [if_pos hu, hu, h]
  · rw [if_neg hu]

/-- A thread that does not hold the mutex moves, and stays outside. -/
theorem CountInv.pending_setThread (hi : CountInv tr w) (h : (w.threads t).inside = false)
    (pc : Pc) : (w.setThread t pc).pending = w.pending := by
  show (match w.gWsaInitMutex with
    | some u => (update w.threads t pc u).pending
    | none => 0) = w.pending
  unfold World.pending
  cases hm : w.gWsaInitMutex with
  | none => rfl
  | some u =>
    have hne : u ≠ t := fun heq => by
      have hin := (hi.holder u).mp hm
      rw [heq, h] at hin
      cases hin
    simp only [update_of_ne hne]

/-- A thread moves: there is room if what has been counted, and what is still to be counted, grows
    with the start-ups called. -/
theorem CountInv.room_step (hi : CountInv tr w) (hw : w'.threads = update w.threads t pc)
    (h : successes true ((w, l) :: tr) + max 0 w'.pending + pc.toCount.toNat ≤
      successes true tr + max 0 w.pending + (w.threads t).toCount.toNat + (startsUp l).toNat) :
    ∃ A : Finset Nat, (∀ u, u ∈ A ↔ (w'.threads u).toCount = true) ∧
      successes true ((w, l) :: tr) + max 0 w'.pending + A.card ≤
        startupCalls ((w, l) :: tr) := by
  obtain ⟨A, hA, hroom⟩ := hi.room
  obtain ⟨A', hA', hcard⟩ := exists_finset_setThread Pc.toCount hA t pc
  refine ⟨A', fun u => ?_, ?_⟩
  · rw [hw]
    exact hA' u
  · rw [startupCalls_cons]
    omega

/-- A start-up that is still to be counted is one more than those that were. -/
theorem CountInv.count_lt (hi : CountInv tr w) (h : (w.threads t).toCount = true) :
    w.gWsaInitCount.toInt < startupCalls tr := by
  obtain ⟨A, hA, hroom⟩ := hi.room
  have hpos : 0 < A.card := Finset.card_pos.mpr ⟨t, (hA t).mpr h⟩
  have hcount := hi.count
  omega

/-- A call is made. -/
theorem CountInv.called {call : Call} (hi : CountInv tr w) (hidle : w.threads t = .idle) :
    CountInv ((w, .call t call) :: tr) (w.setThread t (.entered call)) := by
  have hout : (w.threads t).inside = false := by rw [hidle]; rfl
  have hlock : ∀ u, countAtLock u ((w, .call t call) :: tr) = countAtLock u tr :=
    fun u => latestAt_cons_none rfl u tr
  have hpend := hi.pending_setThread hout (.entered call)
  constructor
  case holder => exact hi.holder_setThread hout
  case atLock =>
    intro u c hu
    rw [hlock]
    rcases threads_setThread hu with ⟨_, heq⟩ | ⟨_, hu⟩
    · cases heq
    · exact hi.atLock u c hu
  case atExit =>
    intro u c e hu
    rcases threads_setThread hu with ⟨_, heq⟩ | ⟨_, hu⟩
    · cases heq
    · exact (hi.atExit u c e hu).of_countAtLock (hlock u) rfl
  case count =>
    rw [hpend, successes_cons_of_returns_none rfl, successes_cons_of_returns_none rfl]
    exact hi.count
  case nonneg => exact hi.nonneg
  case room =>
    apply hi.room_step rfl
    rw [hpend, successes_cons_of_returns_none rfl]
    simp only [hidle, Pc.toCount, startsUp, Bool.toNat_false]
    omega

/-- The mutex is taken: the count found is the count. -/
theorem CountInv.locked {call : Call} (hi : CountInv tr w) (hentered : w.threads t = .entered call)
    (hfree : w.gWsaInitMutex = none) :
    CountInv ((w, .lock t) :: tr)
      ({ w with gWsaInitMutex := some t }.setThread t (.locked call)) := by
  have hpend : ({ w with gWsaInitMutex := some t }.setThread t (.locked call)).pending = 0 := by
    show (update w.threads t (.locked call) t).pending = 0
    rw [update_self]
    rfl
  -- nobody is inside, so nothing is pending before the lock or after it
  have hpend₀ : w.pending = 0 := by simp only [World.pending, hfree]
  constructor
  case holder =>
    intro u
    show some t = some u ↔ (update w.threads t (.locked call) u).inside = true
    rw [update_apply]
    by_cases hu : u = t
    · simp [hu, Pc.inside]
    · rw [if_neg hu, hi.others (.inl hfree) hu rfl]
      simp [Ne.symm hu]
  case atLock =>
    intro u c hu
    obtain ⟨rfl, -⟩ := hi.only_moved (.inl hfree) hu rfl
    exact (latestAt_cons_some rfl u tr).trans (if_pos rfl)
  case atExit =>
    intro u c e hu
    cases (hi.only_moved (.inl hfree) hu rfl).2
  case count =>
    rw [hpend, successes_cons_of_returns_none rfl, successes_cons_of_returns_none rfl, ← hpend₀]
    exact hi.count
  case nonneg => exact hi.nonneg
  case room =>
    apply hi.room_step rfl
    rw [hpend, hpend₀, successes_cons_of_returns_none rfl]
    simp only [hentered, Pc.toCount, startsUp, Bool.toNat_false]
    omega

/-- The count goes up by one as long as there is room. -/
theorem toInt_add_one {count : BitVec 32} (h : count.toInt + 1 < 2 ^ 31) :
    (count + 1).toInt = count.toInt + 1 := by
  have hlow := BitVec.le_toInt count
  rw [BitVec.toInt_add]
  show (count.toInt + 1).bmod (2 ^ 32) = _
  rw [Int.bmod_eq_of_le] <;> omega

/-- The count goes down by one from a count that is positive. -/
theorem toInt_sub_one {count : BitVec 32} (h : 0 < count.toInt) :
    (count - 1).toInt = count.toInt - 1 := by
  have hhigh := BitVec.toInt_lt (x := count)
  rw [BitVec.toInt_sub]
  show (count.toInt - 1).bmod (2 ^ 32) = _
  rw [Int.bmod_eq_of_le] <;> omega

/-- What a body does to the count is what the call has done and not returned yet. -/
theorem BodyEffect.toInt {count count' : BitVec 32} {call : Call} {exit : Exit}
    (h : BodyEffect count call exit count') (hnonneg : 0 ≤ count.toInt)
    (hroom : call.isStartup = true → count.toInt + 1 < 2 ^ 31) :
    count'.toInt = count.toInt + (Pc.leaving call exit).pending ∧ 0 ≤ count'.toInt := by
  cases h with
  | failed hret hcleanup =>
    have hpend : (Pc.leaving call ⟨_, true⟩).pending = 0 := if_neg hret
    exact ⟨by rw [hpend, add_zero], hnonneg⟩
  | counted =>
    have hone := toInt_add_one (hroom rfl)
    have hpend : ∀ version lp, (Pc.leaving (.startup version lp) ⟨0, true⟩).pending = 1 :=
      fun _ _ => rfl
    rw [hpend, hone]
    exact ⟨rfl, by omega⟩
  | uncounted hcount =>
    have hne : count.toInt ≠ 0 := fun h => hcount (BitVec.eq_of_toInt_eq h)
    have hone := toInt_sub_one (by omega : 0 < count.toInt)
    have hpend : (Pc.leaving .cleanup ⟨0, true⟩).pending = -1 := rfl
    rw [hpend, hone]
    exact ⟨rfl, by omega⟩

/-- The body runs: it changes the count as its exit says. -/
theorem CountInv.body {call : Call} {exit : Exit} {count : BitVec 32} (hi : CountInv tr w)
    (hlocked : w.threads t = .locked call) (heffect : BodyEffect w.gWsaInitCount call exit count)
    (hcalls : startupCalls tr < 2 ^ 31) :
    CountInv ((w, .body t) :: tr)
      ({ w with gWsaInitCount := count, mem := mem }.setThread t (.leaving call exit)) := by
  have hin : (w.threads t).inside = true := by rw [hlocked]; rfl
  have hlock : ∀ u, countAtLock u ((w, .body t) :: tr) = countAtLock u tr :=
    fun u => latestAt_cons_none rfl u tr
  have hpend₀ : w.pending = 0 := by
    rw [hi.pending_eq hin, hlocked]
    rfl
  have hpend : ({ w with gWsaInitCount := count, mem := mem }.setThread t
      (.leaving call exit)).pending = (Pc.leaving call exit).pending := by
    show (match w.gWsaInitMutex with
      | some u => (update w.threads t (.leaving call exit) u).pending
      | none => 0) = _
    rw [hi.holds hin]
    simp only [update_self]
  have hcount := hi.count
  rw [hpend₀] at hcount
  -- a start-up that is to be counted is one of those that were called
  have hbody := heffect.toInt hi.nonneg (fun hstart => by
    have hlt := hi.count_lt (show (w.threads t).toCount = true by rw [hlocked]; exact hstart)
    omega)
  constructor
  case holder => exact hi.holder_setThread hin
  case atLock =>
    intro u c hu
    cases (hi.only_moved (.inr hin) hu rfl).2
  case atExit =>
    intro u c e hu
    obtain ⟨rfl, heq⟩ := hi.only_moved (.inr hin) hu rfl
    obtain ⟨rfl, rfl⟩ := Pc.leaving.inj heq
    have hfound := (hlock u).trans (hi.atLock u call hlocked)
    cases heffect with
    | failed hret hcleanup => exact ⟨rfl, fun _ => hfound, fun hcall _ => hcleanup hcall⟩
    | counted => exact ⟨rfl, fun hret => absurd rfl hret, fun _ hret => absurd rfl hret⟩
    | uncounted => exact ⟨rfl, fun hret => absurd rfl hret, fun _ hret => absurd rfl hret⟩
  case count =>
    rw [hpend, successes_cons_of_returns_none rfl, successes_cons_of_returns_none rfl]
    show count.toInt = _
    rw [hbody.1, hcount]
    omega
  case nonneg => exact hbody.2
  case room =>
    apply hi.room_step rfl
    rw [hpend, hpend₀, successes_cons_of_returns_none rfl]
    have hpending : max 0 (Pc.leaving call exit).pending ≤ call.isStartup.toNat := by
      simp only [Pc.pending]
      split
      · cases call <;> simp [Call.isStartup]
      · simp
    simp only [hlocked, Pc.toCount, startsUp, Bool.toNat_false]
    omega

/-- The thread leaves: what its call did to the count is now returned. -/
theorem CountInv.left {call : Call} {exit : Exit} (hi : CountInv tr w)
    (hleaving : w.threads t = .leaving call exit) :
    CountInv ((w, .leave t) :: tr)
      ({ w with gWsaInitMutex := if exit.unlocks then none else w.gWsaInitMutex }.setThread t
        .idle) := by
  have hin : (w.threads t).inside = true := by rw [hleaving]; rfl
  have hret : returns w (.leave t) = some (call, exit.ret) := by simp only [returns, hleaving]
  have hpend₀ : w.pending = (Pc.leaving call exit).pending := by
    rw [hi.pending_eq hin, hleaving]
  rw [(hi.atExit t call exit hleaving).unlocks, if_pos rfl]
  constructor
  case holder =>
    intro u
    show none = some u ↔ (update w.threads t .idle u).inside = true
    rw [update_apply]
    by_cases hu : u = t
    · simp [hu, Pc.inside]
    · rw [if_neg hu, hi.others (.inr hin) hu rfl]
      simp
  case atLock =>
    intro u c hu
    cases (hi.only_moved (.inr hin) hu rfl).2
  case atExit =>
    intro u c e hu
    cases (hi.only_moved (.inr hin) hu rfl).2
  case count =>
    -- what was pending has been returned now
    have hcount := hi.count
    rw [hpend₀] at hcount
    rw [successes_cons_of_returns hret, successes_cons_of_returns hret]
    show w.gWsaInitCount.toInt = _ + 0
    rw [hcount]
    cases call <;> by_cases hzero : exit.ret = 0 <;>
      simp [Pc.pending, Call.isStartup, hzero] <;> omega
  case nonneg => exact hi.nonneg
  case room =>
    apply hi.room_step rfl
    rw [hpend₀, successes_cons_of_returns hret]
    simp only [hleaving, Pc.toCount, startsUp, Bool.toNat_false]
    show _ + max 0 (0 : Int) + _ ≤ _
    cases call <;> by_cases hzero : exit.ret = 0 <;>
      simp [Pc.pending, Call.isStartup, hzero]

/-- **One step** keeps the invariant, as long as there is room for the start-ups. -/
theorem CountInv.step (hi : CountInv tr w) (hcalls : startupCalls tr < 2 ^ 31)
    (hs : Step w l w') : CountInv ((w, l) :: tr) w' := by
  cases hs with
  | called hidle => exact hi.called hidle
  | locked hentered hfree => exact hi.locked hentered hfree
  | body hlocked heffect => exact hi.body hlocked heffect hcalls
  | left hleaving => exact hi.left hleaving

theorem countInv_start (mem : Memory) : CountInv [] (World.start mem) where
  holder t := by simp [World.start, Pc.inside]
  atLock t call h := by cases h
  atExit t call exit h := by cases h
  count := rfl
  nonneg := le_refl (0 : Int)
  room := ⟨∅, fun t => by simp [World.start, Pc.toCount], le_refl 0⟩

/-- **Every run** with fewer than 2³¹ start-ups has the invariant. -/
theorem countInv_of_run (h : (system mem).Run tr w) (hcalls : startupCalls tr < 2 ^ 31) :
    CountInv tr w := by
  induction h with
  | init hs =>
    obtain rfl := hs
    exact countInv_start mem
  | step hr hst ih =>
    have hbefore := hcalls
    rw [startupCalls_cons] at hbefore
    exact (ih (by omega)).step (by omega) (step_of_next hst)

/-! ### What the functions promise -/

/-- No call is about to return 0. -/
def NoSuccessPending (w : World) : Prop :=
  ∀ t call exit, w.threads t = .leaving call exit → exit.ret ≠ 0

theorem NoSuccessPending.pending_eq_zero (h : NoSuccessPending w) : w.pending = 0 := by
  unfold World.pending
  cases w.gWsaInitMutex with
  | none => rfl
  | some t =>
    show (w.threads t).pending = 0
    cases hpc : w.threads t with
    | leaving call exit => exact if_neg (h t call exit hpc)
    | idle => rfl
    | entered call => rfl
    | locked call => rfl

/-- What a step that returns from a call does. -/
theorem returned_of_returns {call : Call} {ret : Int} (h : returns w l = some (call, ret))
    (hn : next w l = some w') :
    ∃ t exit, l = .leave t ∧ w.threads t = .leaving call exit ∧ exit.ret = ret ∧
      w' = { w with gWsaInitMutex := if exit.unlocks then none else w.gWsaInitMutex }.setThread t
        .idle := by
  cases step_of_next hn with
  | left hleaving =>
    simp only [returns, hleaving, Option.some.injEq, Prod.mk.injEq] at h
    obtain ⟨rfl, hret⟩ := h
    exact ⟨_, _, rfl, hleaving, hret, rfl⟩
  | called => cases h
  | locked => cases h
  | body => cases h

/-- A clean-up that returns has failed exactly if nothing was left to clean up. -/
theorem CountInv.cleanup_fails_iff (hi : CountInv tr w) {exit : Exit}
    (hleaving : w.threads t = .leaving .cleanup exit) :
    exit.ret = WSANOTINITIALISED ↔ successes true tr = successes false tr := by
  have hin : (w.threads t).inside = true := by rw [hleaving]; rfl
  have hcount := hi.count
  rw [hi.pending_eq hin, hleaving] at hcount
  have hnonneg := hi.nonneg
  by_cases hret : exit.ret = 0
  · -- it took one away, so there was one
    simp only [Pc.pending, Call.isStartup, if_pos hret, Bool.false_eq_true, if_false] at hcount
    rw [hret]
    constructor
    · intro hne
      exact absurd hne (by decide)
    · intro heq
      omega
  · obtain ⟨hfail, hzero⟩ := (hi.atExit t _ _ hleaving).cleanup rfl hret
    have htoInt : w.gWsaInitCount.toInt = 0 := by rw [hzero]; rfl
    simp only [Pc.pending, if_neg hret] at hcount
    constructor
    · intro _
      omega
    · intro _
      exact hfail

/-- **The start-up count.**  In every run with fewer than 2³¹ start-ups the count is the number
    of start-ups less that of the clean-ups that returned 0, up to the call that holds the mutex
    and is about to return 0, and is never negative; a clean-up fails exactly if there is nothing
    to clean up; and a call that fails leaves the count as it found it and the mutex free. -/
theorem startup_count (h : (system mem).Run tr w) (hcalls : startupCalls tr < 2 ^ 31) :
    w.gWsaInitCount.toInt = successes true tr - successes false tr + w.pending ∧
    (w.gWsaInitMutex = none ∨ NoSuccessPending w → w.pending = 0) ∧
    0 ≤ w.gWsaInitCount.toInt ∧
    ∀ l w', (system mem).step w l w' → ∀ call ret, returns w l = some (call, ret) →
      w'.gWsaInitMutex = none ∧
      (call = .cleanup → (ret = WSANOTINITIALISED ↔ successes true tr = successes false tr)) ∧
      (ret ≠ 0 → ∃ t, l = .leave t ∧ countAtLock t tr = some w'.gWsaInitCount) := by
  have hi := countInv_of_run h hcalls
  refine ⟨hi.count, ?_, hi.nonneg, ?_⟩
  · rintro (hfree | hnone)
    · simp only [World.pending, hfree]
    · exact hnone.pending_eq_zero
  · intro l w' hstep call ret hreturns
    obtain ⟨t, exit, rfl, hleaving, rfl, rfl⟩ := returned_of_returns hreturns hstep
    have hexit := hi.atExit t call exit hleaving
    refine ⟨?_, ?_, ?_⟩
    · exact if_pos hexit.unlocks
    · rintro rfl
      exact hi.cleanup_fails_iff hleaving
    · intro hret
      exact ⟨t, rfl, hexit.failed hret⟩

/-- A start-up, one that is refused, and two clean-ups, the second of which finds nothing to
    clean up. -/
theorem startup_count_second_cleanup : ∃ tr w, (system (fun _ => 0)).Run tr w ∧
    w.threads 1 = .leaving .cleanup ⟨WSANOTINITIALISED, true⟩ ∧
    0 ≤ w.gWsaInitCount.toInt ∧ successes true tr = successes false tr := by
  have hrun := run_of_exec_isSome (World.start (fun _ => 0)) next
    [.call 1 (.startup (MAKEWORD 2 2) (some 4096)), .call 2 (.startup (MAKEWORD 2 2) none),
      .lock 2, .body 2, .leave 2, .lock 1, .body 1, .leave 1, .call 2 .cleanup, .lock 2,
      .call 1 .cleanup, .body 2, .leave 2, .lock 1, .body 1] rfl
  have hcount := startup_count hrun (by decide)
  have hreturn := (hcount.2.2.2 (.leave 1) _ rfl .cleanup WSANOTINITIALISED rfl).2.1 rfl
  exact ⟨_, _, hrun, rfl, hcount.2.2.1, hreturn.mp rfl⟩

end LinuxWinsock.Startup
