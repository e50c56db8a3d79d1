import Mathlib.Logic.Basic

/-!
# Labelled transition systems — runs, invariants and exact conditions

A transition system is given by its initial states and a labelled step relation.  A
run is recorded as the list of its steps, the latest one first, each with the state it
was taken in, so a property of a run can speak about its history by recursion on that
list.

* `Run.invariant` — what holds initially and is kept by every step holds in every state
  reached;
* `Run.always_of_allSteps` — the same for the runs whose steps all meet a condition;
* `Run.always_iff_allSteps` — when each step keeps a property exactly if it meets the
  condition, a run has the property throughout exactly if all of its steps meet it;
* `visits` — the states of a run, for "at some moment";
* `latest`, `latestAt` — what the latest step of a kind did, for properties of the form
  "the last call for `s`";
* `ofFun` / `run_of_exec` — the system of a partial step function, whose runs are
  computed by executing a list of labels.
-/

universe u v

/-- A labelled transition system over states `σ` and labels `ℓ`. -/
structure TransitionSystem (σ : Type u) (ℓ : Type v) where
  /-- The states a run may start in. -/
  init : σ → Prop
  /-- `step s l t`: the system can go from `s` to `t` by a step labelled `l`. -/
  step : σ → ℓ → σ → Prop

namespace TransitionSystem

variable {σ : Type u} {ℓ : Type v}

/-- `M.Run tr t`: `M` reaches `t` by the steps `tr`, the latest first, each listed with
    the state it was taken in. -/
inductive Run (M : TransitionSystem σ ℓ) : List (σ × ℓ) → σ → Prop
  | init {s : σ} : M.init s → Run M [] s
  | step {tr : List (σ × ℓ)} {s t : σ} {l : ℓ} :
      Run M tr s → M.step s l t → Run M ((s, l) :: tr) t

/-- Every step of the run meets `ok`, a condition on the history before the step, the
    state it is taken in and its label. -/
def AllSteps (ok : List (σ × ℓ) → σ → ℓ → Prop) : List (σ × ℓ) → Prop
  | [] => True
  | (s, l) :: tr => ok tr s l ∧ AllSteps ok tr

/-- `P` holds of every state the run visits, the last one included. -/
def Always (P : List (σ × ℓ) → σ → Prop) : List (σ × ℓ) → σ → Prop
  | [], t => P [] t
  | (s, l) :: tr, t => P ((s, l) :: tr) t ∧ Always P tr s

/-- The states that the run visits, the last one included. -/
def visits (tr : List (σ × ℓ)) (t : σ) : List σ := t :: tr.map Prod.fst

theorem mem_visits_self (tr : List (σ × ℓ)) (t : σ) : t ∈ visits tr t := List.mem_cons_self

/-- A longer run visits more. -/
theorem mem_visits_cons {tr : List (σ × ℓ)} {s t u : σ} {l : ℓ} (h : u ∈ visits tr s) :
    u ∈ visits ((s, l) :: tr) t := List.mem_cons_of_mem t h

theorem Always.last {P : List (σ × ℓ) → σ → Prop} {tr : List (σ × ℓ)} {t : σ}
    (h : Always P tr t) : P tr t := by
  cases tr with
  | nil => exact h
  | cons e tr => exact h.1

instance AllSteps.decidable {ok : List (σ × ℓ) → σ → ℓ → Prop} [∀ tr s l, Decidable (ok tr s l)] :
    (tr : List (σ × ℓ)) → Decidable (AllSteps ok tr)
  | [] => .isTrue trivial
  | (s, l) :: tr =>
    have : Decidable (AllSteps ok tr) := AllSteps.decidable tr
    inferInstanceAs (Decidable (ok tr s l ∧ AllSteps ok tr))

theorem AllSteps.trivial (tr : List (σ × ℓ)) : AllSteps (fun _ _ _ => True) tr := by
  induction tr with
  | nil => exact True.intro
  | cons e tr ih => exact ⟨True.intro, ih⟩

theorem AllSteps.and {ok ok' : List (σ × ℓ) → σ → ℓ → Prop} {tr : List (σ × ℓ)}
    (h : AllSteps ok tr) (h' : AllSteps ok' tr) :
    AllSteps (fun tr s l => ok tr s l ∧ ok' tr s l) tr := by
  induction tr with
  | nil => exact True.intro
  | cons e tr ih => exact ⟨⟨h.1, h'.1⟩, ih h.2 h'.2⟩

theorem Always.mono {P Q : List (σ × ℓ) → σ → Prop} (himp : ∀ tr t, P tr t → Q tr t)
    {tr : List (σ × ℓ)} {t : σ} (h : Always P tr t) : Always Q tr t := by
  induction tr generalizing t with
  | nil => exact himp _ _ h
  | cons e tr ih => exact ⟨himp _ _ h.1, ih h.2⟩

/-! ### The latest step of a kind -/

/-- What `f` gives for the latest step of the run it gives anything for. -/
def latest {β : Type*} (f : σ → ℓ → Option β) : List (σ × ℓ) → Option β
  | [] => none
  | (s, l) :: tr => (f s l).or (latest f tr)

theorem latest_cons_some {β : Type*} {f : σ → ℓ → Option β} {s : σ} {l : ℓ} {b : β}
    (h : f s l = some b) (tr : List (σ × ℓ)) : latest f ((s, l) :: tr) = some b := by
  show (f s l).or _ = some b
  rw [h]; rfl

theorem latest_cons_none {β : Type*} {f : σ → ℓ → Option β} {s : σ} {l : ℓ}
    (h : f s l = none) (tr : List (σ × ℓ)) : latest f ((s, l) :: tr) = latest f tr := by
  show (f s l).or _ = _
  rw [h]; rfl

/-- What `f` gives for the key `k` in the latest step it gives anything for `k` in. -/
def latestAt {κ β : Type*} [DecidableEq κ] (f : σ → ℓ → Option (κ × β)) (k : κ) :
    List (σ × ℓ) → Option β :=
  latest (fun s l => (f s l).bind (fun r => if r.1 = k then some r.2 else none))

section LatestAt

variable {κ β : Type*} [DecidableEq κ] {f : σ → ℓ → Option (κ × β)} {s : σ} {l : ℓ}

theorem latestAt_cons_none (h : f s l = none) (k : κ) (tr : List (σ × ℓ)) :
    latestAt f k ((s, l) :: tr) = latestAt f k tr :=
  latest_cons_none (by rw [h]; rfl) tr

theorem latestAt_cons_some {k' : κ} {b : β} (h : f s l = some (k', b)) (k : κ)
    (tr : List (σ × ℓ)) :
    latestAt f k ((s, l) :: tr) = if k' = k then some b else latestAt f k tr := by
  by_cases hk : k' = k
  · rw [if_pos hk]
    exact latest_cons_some (by rw [h]; exact if_pos hk) tr
  · rw [if_neg hk]
    exact latest_cons_none (by rw [h]; exact if_neg hk) tr

/-- There is a latest step for `k` exactly if there is a step for `k`. -/
theorem latestAt_ne_none {k : κ} {tr : List (σ × ℓ)} :
    latestAt f k tr ≠ none ↔ ∃ e ∈ tr, ∃ b, f e.1 e.2 = some (k, b) := by
  induction tr with
  | nil => simp [latestAt, latest]
  | cons e tr ih =>
    obtain ⟨s, l⟩ := e
    simp only [List.mem_cons, exists_eq_or_imp]
    cases hf : f s l with
    | none =>
      rw [latestAt_cons_none hf, ih]
      simp
    | some r =>
      obtain ⟨k', b⟩ := r
      rw [latestAt_cons_some hf]
      by_cases hk : k' = k
      · simp [hk]
      · rw [if_neg hk, ih]
        simp [hk]

end LatestAt

namespace Run

variable {M : TransitionSystem σ ℓ} {P : List (σ × ℓ) → σ → Prop}

/-- **Invariant rule.**  What holds initially and is kept by every step of a run holds in
    every state the system reaches. -/
theorem invariant (hinit : ∀ s, M.init s → P [] s)
    (hstep : ∀ tr s l t, M.Run tr s → P tr s → M.step s l t → P ((s, l) :: tr) t)
    {tr : List (σ × ℓ)} {t : σ} (h : M.Run tr t) : P tr t := by
  induction h with
  | init hs => exact hinit _ hs
  | step hr hst ih => exact hstep _ _ _ _ hr ih hst

/-- **Conditional invariant rule.**  What holds initially and is kept by every step that meets
    `ok` holds throughout the runs whose steps all meet it. -/
theorem always_of_allSteps {ok : List (σ × ℓ) → σ → ℓ → Prop}
    (hinit : ∀ s, M.init s → P [] s)
    (hstep : ∀ tr s l t, M.Run tr s → P tr s → ok tr s l → M.step s l t → P ((s, l) :: tr) t)
    {tr : List (σ × ℓ)} {t : σ} (h : M.Run tr t) (hok : AllSteps ok tr) : Always P tr t := by
  induction h with
  | init hs => exact hinit _ hs
  | step hr hst ih =>
    have hprev := ih hok.2
    exact ⟨hstep _ _ _ _ hr hprev.last hok.1 hst, hprev⟩

/-- **Exact condition rule.**  If a step taken where `P` holds keeps `P` exactly when it
    meets `ok`, then `P` holds throughout a run exactly when all of its steps meet `ok`.
    The runs may be restricted to those whose steps all meet `pre`. -/
theorem always_iff_allSteps {pre ok : List (σ × ℓ) → σ → ℓ → Prop}
    (hinit : ∀ s, M.init s → P [] s)
    (hstep : ∀ tr s l t, M.Run tr s → P tr s → pre tr s l → M.step s l t →
      (P ((s, l) :: tr) t ↔ ok tr s l))
    {tr : List (σ × ℓ)} {t : σ} (h : M.Run tr t) (hpre : AllSteps pre tr) :
    Always P tr t ↔ AllSteps ok tr := by
  induction h with
  | init hs => exact ⟨fun _ => trivial, fun _ => hinit _ hs⟩
  | @step tr s t l hr hst ih =>
    obtain ⟨hpre, hpres⟩ := hpre
    constructor
    · rintro ⟨ht, hprev⟩
      have hok := (hstep tr s l t hr hprev.last hpre hst).mp ht
      exact ⟨hok, (ih hpres).mp hprev⟩
    · rintro ⟨hok, hprev⟩
      have hall := (ih hpres).mpr hprev
      exact ⟨(hstep tr s l t hr hall.last hpre hst).mpr hok, hall⟩

end Run

/-! ### Systems given by a partial step function -/

/-- The transition system of a partial step function with one initial state. -/
def ofFun (start : σ) (next : σ → ℓ → Option σ) : TransitionSystem σ ℓ where
  init s := s = start
  step s l t := next s l = some t

/-- One more step. -/
theorem run_of_next {start : σ} {next : σ → ℓ → Option σ} {tr : List (σ × ℓ)} {s t : σ}
    (h : (ofFun start next).Run tr s) (l : ℓ) (hn : next s l = some t) :
    (ofFun start next).Run ((s, l) :: tr) t := .step h hn

/-- Execute a list of labels, collecting the steps taken; `none` where the step function
    is undefined. -/
def exec (next : σ → ℓ → Option σ) : List ℓ → List (σ × ℓ) → σ → Option (List (σ × ℓ) × σ)
  | [], tr, s => some (tr, s)
  | l :: ls, tr, s =>
    match next s l with
    | some t => exec next ls ((s, l) :: tr) t
    | none => none

/-- What `exec` computes from the end of a run is a run. -/
theorem run_of_exec {start : σ} {next : σ → ℓ → Option σ} {ls : List ℓ}
    {tr tr' : List (σ × ℓ)} {s t : σ} (h : (ofFun start next).Run tr s)
    (he : exec next ls tr s = some (tr', t)) : (ofFun start next).Run tr' t := by
  induction ls generalizing tr s with
  | nil =>
    simp only [exec, Option.some.injEq, Prod.mk.injEq] at he
    obtain ⟨rfl, rfl⟩ := he
    exact h
  | cons l ls ih =>
    simp only [exec] at he
    split at he
    · rename_i u hu
      exact ih (.step h hu) he
    · cases he

/-- A list of labels that can be executed gives a run. -/
theorem run_of_exec_isSome (start : σ) (next : σ → ℓ → Option σ) (ls : List ℓ)
    (h : (exec next ls [] start).isSome) :
    (ofFun start next).Run ((exec next ls [] start).get h).1 ((exec next ls [] start).get h).2 :=
  run_of_exec (.init rfl) (Option.some_get h).symm

end TransitionSystem
