import LinuxWinsock.Startup.Steps
import LinuxWinsock.Lib.Progress

namespace LinuxWinsock.Startup

open Function TransitionSystem

/-!
# No deadlock between `WSAStartup` and `WSACleanup`

Each exit of the two functions unlocks the mutex, so a thread behind its lock comes to an exit by
steps of its own, and a thread in front of the lock only has to wait for that.

* `exists_path_inside` — the thread that holds the mutex leaves;
* `call_can_return` — every call can still return, and how many steps that takes.
-/

variable {w w' : Steps} {c : World} {t : Nat} {call : Call} {place : Place} {mem : Memory}

/-- The thread that takes the step. -/
def Label.thread : Label → Nat
  | .call t _ => t
  | .lock t => t
  | .body t => t
  | .leave t => t

/-- The steps behind the lock that a thread has left at most. -/
def Place.left : Place → Nat
  | .idle => 0
  | .leaving _ _ => 1
  | .loaded _ _ => 2
  | .counting _ => 3
  | .filling _ _ stores => stores.length + 4
  | .locked _ => 13
  | .entered _ => 14

/-- The states that the steps keep to. -/
def Represented (w : Steps) : Prop := ∃ c, Represents w c

theorem Represented.step (h : Represented w) {l : Label} (hnext : stepNext w l = some w') :
    Represented w' := by
  obtain ⟨c, hrep⟩ := h
  rcases hrep.step hnext with ⟨-, c', -, -, -, hrep'⟩ | ⟨-, hrep'⟩
  · exact ⟨c', hrep'⟩
  · exact ⟨c, hrep'⟩

theorem represented_of_run {tr : List (Steps × Label)} (h : (stepSystem mem).Run tr w) :
    Represented w := by
  refine h.invariant (P := fun _ w => Represented w) ?_ (fun _ _ _ _ _ hs hstep => hs.step hstep)
  rintro w rfl
  exact ⟨_, represents_start mem⟩

/-- A body always has a next step, which brings it nearer to its end. -/
theorem exists_bodyStep (count : BitVec 32) (mem : Memory) (h : place.pc = .locked call) :
    ∃ place' count' mem', bodyStep count mem place = some (place', count', mem') ∧
      place'.left < place.left ∧ place'.pc.inside = true := by
  cases place with
  | idle => cases h
  | entered call => cases h
  | leaving call exit => cases h
  | locked call =>
    cases call with
    | startup version lp =>
      cases lp with
      | none => exact ⟨_, _, _, rfl, (by decide : 1 < 13), rfl⟩
      | some p => exact ⟨_, _, _, rfl, Nat.lt_succ_self 12, rfl⟩
    | cleanup =>
      by_cases hzero : count = 0
      · exact ⟨_, _, _, if_pos hzero, (by decide : 1 < 13), rfl⟩
      · exact ⟨_, _, _, if_neg hzero, (by decide : 3 < 13), rfl⟩
  | filling version p stores =>
    cases stores with
    | nil =>
      by_cases hrefused : versionRefused version = true
      · exact ⟨_, _, _, if_pos hrefused, (by decide : 1 < 4), rfl⟩
      · exact ⟨_, _, _, if_neg hrefused, (by decide : 3 < 4), rfl⟩
    | cons s stores => exact ⟨_, _, _, rfl, Nat.lt_succ_self _, rfl⟩
  | counting call => exact ⟨_, _, _, rfl, (by decide : 2 < 3), rfl⟩
  | loaded call found => exact ⟨_, _, _, rfl, (by decide : 1 < 2), rfl⟩

/-- The thread is behind its lock, or has left and the mutex is free. -/
def Steps.Leaves (w : Steps) (t : Nat) : Prop :=
  (w.threads t).pc.inside = true ∨ w.threads t = .idle ∧ w.gWsaInitMutex = none

/-- A thread behind its lock can take a step of its own, nearer to its exit. -/
theorem exists_step_inside (hs : Represented w) (hin : (w.threads t).pc.inside = true) :
    ∃ l w', l.thread = t ∧ stepNext w l = some w' ∧ w'.Leaves t ∧
      (w'.threads t).left < (w.threads t).left := by
  cases hpc : (w.threads t).pc with
  | idle => rw [hpc] at hin; cases hin
  | entered call => rw [hpc] at hin; cases hin
  | locked call =>
    obtain ⟨place, count, mem, hbody, hlt, hinside⟩ :=
      exists_bodyStep w.gWsaInitCount w.mem hpc
    refine ⟨.body t, _, rfl, congrArg (Option.map _) hbody, .inl ?_, ?_⟩
    · show (update w.threads t place t).pc.inside = true
      rw [update_self, hinside]
    · show (update w.threads t place t).left < _
      rw [update_self]
      exact hlt
  | leaving call exit =>
    have hleaving : w.threads t = .leaving call exit := by
      cases hplace : w.threads t with
      | leaving call' exit' =>
        rw [hplace] at hpc
        obtain ⟨rfl, rfl⟩ := Pc.leaving.inj hpc
        rfl
      | _ => rw [hplace] at hpc; cases hpc
    obtain ⟨c, hrep⟩ := hs
    have hnext : stepNext w (.leave t) = some ({ w with
        gWsaInitMutex := if exit.unlocks then none else w.gWsaInitMutex }.setThread t .idle) := by
      simp only [stepNext, hleaving]
    refine ⟨.leave t, _, rfl, hnext, .inr ⟨?_, ?_⟩, ?_⟩
    · exact update_self ..
    · exact if_pos (hrep.unlocks t call exit hleaving)
    · show (update w.threads t .idle t).left < _
      rw [update_self, hleaving]
      exact Nat.lt_succ_self 0

/-- A thread behind its lock leaves by steps of its own. -/
theorem exists_path_inside (mem : Memory) (hs : Represented w)
    (hin : (w.threads t).pc.inside = true) :
    ∃ ls w', (stepSystem mem).Path w ls w' ∧ (∀ l ∈ ls, l.thread = t) ∧
      ls.length ≤ (w.threads t).left ∧ w'.threads t = .idle ∧ w'.gWsaInitMutex = none ∧
      Represented w' := by
  have hpath := exists_path (M := stepSystem mem) (fun l => l.thread = t)
    (fun w => Represented w ∧ w.Leaves t) (fun w => w.threads t = .idle ∧ w.gWsaInitMutex = none)
    (fun w => (w.threads t).left) ?_ (s := w) ⟨hs, .inl hin⟩
  · obtain ⟨ls, w', hpath, hown, hlen, hgoal, hs', -⟩ := hpath
    exact ⟨ls, w', hpath, hown, hlen, hgoal.1, hgoal.2, hs'⟩
  · rintro w ⟨hs, hin | hgoal⟩ hnot
    · obtain ⟨l, w', hl, hstep, hleaves, hlt⟩ := exists_step_inside hs hin
      exact ⟨l, w', hl, hstep, ⟨hs.step hstep, hleaves⟩, hlt⟩
    · exact absurd hgoal hnot

/-- A thread that finds the mutex free gets through its call by steps of its own. -/
theorem exists_path_entered (mem : Memory) (hs : Represented w)
    (hentered : w.threads t = .entered call) (hfree : w.gWsaInitMutex = none) :
    ∃ ls w', (stepSystem mem).Path w ls w' ∧ (∀ l ∈ ls, l.thread = t) ∧
      ls.length ≤ (w.threads t).left ∧ w'.threads t = .idle := by
  have hlock : stepNext w (.lock t) =
      some ({ w with gWsaInitMutex := some t }.setThread t (.locked call)) := by
    simp only [stepNext, hentered, hfree]
  have hplace : ({ w with gWsaInitMutex := some t }.setThread t (.locked call)).threads t =
      .locked call := update_self ..
  obtain ⟨ls, w', hpath, hown, hlen, hidle, -⟩ :=
    exists_path_inside mem (t := t) (hs.step hlock) (by rw [hplace]; rfl)
  rw [hplace] at hlen
  refine ⟨.lock t :: ls, w', .cons hlock hpath, ?_, ?_, hidle⟩
  · intro l hl
    rcases List.mem_cons.mp hl with rfl | hl
    · rfl
    · exact hown l hl
  · rw [hentered, List.length_cons]
    exact Nat.succ_le_succ hlen

/-- A step of one thread does not move another. -/
theorem threads_of_next {l : Label} (h : stepNext w l = some w') (hne : l.thread ≠ t) :
    w'.threads t = w.threads t := by
  have hmoved : ∀ u place, u ≠ t → update w.threads u place t = w.threads t :=
    fun u place hu => update_of_ne (Ne.symm hu) ..
  cases l with
  | call u call =>
    simp only [stepNext] at h
    split at h
    · obtain rfl := Option.some.inj h
      exact hmoved u _ hne
    · cases h
  | lock u =>
    simp only [stepNext] at h
    split at h
    · obtain rfl := Option.some.inj h
      exact hmoved u _ hne
    · cases h
  | body u =>
    obtain ⟨r, -, rfl⟩ := Option.map_eq_some_iff.mp h
    exact hmoved u _ hne
  | leave u =>
    simp only [stepNext] at h
    split at h
    · obtain rfl := Option.some.inj h
      exact hmoved u _ hne
    · cases h

/-- **No deadlock.**  In every reachable state each call can still return: by steps of its own
    thread, after the thread that holds the mutex, if another does, has taken what is left of its
    body, and not more of them than the two have left. -/
theorem call_can_return {tr : List (Steps × Label)} (h : (stepSystem mem).Run tr w) (t : Nat) :
    ∃ ls w', (stepSystem mem).Path w ls w' ∧ w'.threads t = .idle ∧
      (∀ l ∈ ls, l.thread = t ∨ w.gWsaInitMutex = some l.thread) ∧
      ls.length ≤ (w.threads t).left +
        w.gWsaInitMutex.elim 0 (fun u => (w.threads u).left) := by
  have hs := represented_of_run h
  by_cases hin : (w.threads t).pc.inside = true
  · obtain ⟨ls, w', hpath, hown, hlen, hidle, -⟩ := exists_path_inside mem hs hin
    exact ⟨ls, w', hpath, hidle, fun l hl => .inl (hown l hl), by omega⟩
  · cases hplace : w.threads t with
    | idle => exact ⟨[], w, .nil, hplace, nofun, Nat.zero_le _⟩
    | entered call =>
      cases hmutex : w.gWsaInitMutex with
      | none =>
        obtain ⟨ls, w', hpath, hown, hlen, hidle⟩ :=
          exists_path_entered mem hs hplace hmutex
        rw [hplace] at hlen
        exact ⟨ls, w', hpath, hidle, fun l hl => .inl (hown l hl), hlen⟩
      | some u =>
        -- the holder first, and the thread waits meanwhile
        obtain ⟨c, hrep⟩ := hs
        have hholder := (hrep.holder u).mp hmutex
        have hne : u ≠ t := fun heq => hin (heq ▸ hholder)
        obtain ⟨ls, w₁, hpath, hown, hlen, -, hfree, hs₁⟩ :=
          exists_path_inside mem ⟨c, hrep⟩ hholder
        have hwaits : w₁.threads t = .entered call := by
          refine hpath.always (I := fun w => w.threads t = .entered call) hown ?_ hplace
          intro w l w' hl hstep hw
          rw [threads_of_next hstep (hl ▸ hne), hw]
        obtain ⟨ls', w', hpath', hown', hlen', hidle⟩ :=
          exists_path_entered mem hs₁ hwaits hfree
        refine ⟨ls ++ ls', w', hpath.append hpath', hidle, ?_, ?_⟩
        · intro l hl
          rcases List.mem_append.mp hl with hl | hl
          · exact .inr (congrArg some (hown l hl).symm)
          · exact .inl (hown' l hl)
        · rw [hwaits] at hlen'
          rw [List.length_append, Option.elim_some]
          omega
    | _ => rw [hplace] at hin; exact absurd rfl hin

/-- The clean-up that waits returns after the start-up. -/
theorem call_can_return_second : ∃ w ls w', (stepSystem fun _ => 0).Path w ls w' ∧
    w.threads 2 = .entered .cleanup ∧ w'.threads 2 = .idle ∧ ls.length ≤ 16 := by
  obtain ⟨tr, w, hrun, hloaded, hentered, hmutex⟩ := loadedFirst_run
  obtain ⟨ls, w', hpath, hidle, -, hlen⟩ := call_can_return hrun 2
  rw [hmutex, Option.elim_some, hloaded, hentered] at hlen
  exact ⟨w, ls, w', hpath, hentered, hidle, hlen⟩

end LinuxWinsock.Startup
