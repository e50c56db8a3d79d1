import LinuxWinsock.Lib.Transition
import Mathlib.Data.Finset.Card

/-!
# Progress in transition systems

What a system can still do from a state: the finite continuations of a run, and a rule that finds
one by a measure that some step of a chosen kind lowers.

* `Path` — a continuation, with the labels of its steps in their order;
* `Path.append`, `Path.run` — continuations of continuations, and of runs;
* `Path.always` — what each step of a kind keeps, such steps keep;
* `exists_path` — **progress rule**: steps of the kind lead to the goal, and no more of them than
  the measure says;
* `startingAt` — the system that starts in a given state, whose runs are the continuations with
  their states, `Run.continue`, `Run.exists_start` and `mem_visits_append`;
* `Run.countP_add_le` — **counting rule**: steps that each lower a measure that no step raises are
  no more than the measure says;
* `Run.card_eq_countP` — **census rule**: if steps of a kind each add one element to a set that no
  other step changes, then the set is as large as there were such steps.
-/

universe u v

namespace TransitionSystem

variable {σ : Type u} {ℓ : Type v} {M : TransitionSystem σ ℓ} {s t r : σ} {ls ls' : List ℓ}

/-- `M.Path s ls t`: the steps `ls`, the first one first, lead from `s` to `t`. -/
inductive Path (M : TransitionSystem σ ℓ) : σ → List ℓ → σ → Prop
  | nil {s : σ} : Path M s [] s
  | cons {s t r : σ} {l : ℓ} {ls : List ℓ} : M.step s l t → Path M t ls r → Path M s (l :: ls) r

theorem Path.single {l : ℓ} (h : M.step s l t) : M.Path s [l] t := .cons h .nil

theorem Path.append (h : M.Path s ls t) (h' : M.Path t ls' r) : M.Path s (ls ++ ls') r := by
  induction h with
  | nil => exact h'
  | cons hstep _ ih => exact .cons hstep (ih h')

/-- A run can be continued. -/
theorem Path.run {tr : List (σ × ℓ)} (h : M.Path s ls t) (hrun : M.Run tr s) :
    ∃ tr', M.Run tr' t := by
  induction h generalizing tr with
  | nil => exact ⟨tr, hrun⟩
  | cons hstep _ ih => exact ih (.step hrun hstep)

/-- What the steps of a kind keep holds after any number of them. -/
theorem Path.always {own : ℓ → Prop} {I : σ → Prop} (h : M.Path s ls t)
    (hown : ∀ l ∈ ls, own l) (hkeep : ∀ s l t, own l → M.step s l t → I s → I t) (hs : I s) :
    I t := by
  induction h with
  | nil => exact hs
  | cons hstep _ ih =>
    refine ih (fun l hl => hown l (List.mem_cons_of_mem _ hl)) ?_
    exact hkeep _ _ _ (hown _ List.mem_cons_self) hstep hs

/-- **Progress rule.**  If in every state with `I` that is not a goal some step of the kind `own`
    keeps `I` and lowers the measure, then such steps lead to a goal. -/
theorem exists_path (own : ℓ → Prop) (I goal : σ → Prop) (μ : σ → Nat)
    (hstep : ∀ s, I s → ¬ goal s → ∃ l t, own l ∧ M.step s l t ∧ I t ∧ μ t < μ s) (hs : I s) :
    ∃ ls t, M.Path s ls t ∧ (∀ l ∈ ls, own l) ∧ ls.length ≤ μ s ∧ goal t ∧ I t := by
  -- by induction on the measure
  induction hn : μ s using Nat.strongRecOn generalizing s with
  | ind n ih =>
    by_cases hgoal : goal s
    · exact ⟨[], s, .nil, nofun, Nat.zero_le _, hgoal, hs⟩
    · obtain ⟨l, t, hl, hst, ht, hlt⟩ := hstep s hs hgoal
      obtain ⟨ls, r, hpath, hown, hlen, hr, hI⟩ := ih (μ t) (hn ▸ hlt) ht rfl
      refine ⟨l :: ls, r, .cons hst hpath, ?_, ?_, hr, hI⟩
      · intro l' hl'
        rcases List.mem_cons.mp hl' with rfl | hl'
        · exact hl
        · exact hown l' hl'
      · rw [List.length_cons]
        omega

/-! ### Continuations with their states -/

/-- The system with `s` as its only initial state. -/
def startingAt (M : TransitionSystem σ ℓ) (s : σ) : TransitionSystem σ ℓ where
  init t := t = s
  step := M.step

variable {tr tr₀ : List (σ × ℓ)}

/-- A run and a continuation of it are a run. -/
theorem Run.continue (h : M.Run tr₀ s) (h' : (M.startingAt s).Run tr t) :
    M.Run (tr ++ tr₀) t := by
  induction h' with
  | init hs =>
    obtain rfl := hs
    exact h
  | step _ hstep ih => exact .step ih hstep

/-- What holds of all states that a run visits holds of those it takes its steps in. -/
theorem allSteps_of_visits {P : σ → Prop} (h : ∀ u ∈ visits tr t, P u) :
    AllSteps (fun _ s _ => P s) tr := by
  induction tr generalizing t with
  | nil => exact True.intro
  | cons e tr ih =>
    refine ⟨h e.1 (mem_visits_cons (mem_visits_self tr e.1)), ih (t := e.1) ?_⟩
    intro u hu
    exact h u (mem_visits_cons hu)

/-- **Counting rule.**  If each step of a kind lowers the measure and no step raises it, then the
    measure bounds how many steps of the kind there are. -/
theorem Run.countP_add_le {own : σ → ℓ → Bool} {ok : List (σ × ℓ) → σ → ℓ → Prop} {I : σ → Prop}
    (μ : σ → Nat) (hstep : ∀ tr s l t, I s → ok tr s l → M.step s l t →
      I t ∧ μ t + (own s l).toNat ≤ μ s)
    (h : (M.startingAt s).Run tr t) (hok : AllSteps ok tr) (hs : I s) :
    I t ∧ tr.countP (fun e => own e.1 e.2) + μ t ≤ μ s := by
  induction h with
  | init ht =>
    obtain rfl := ht
    exact ⟨hs, Nat.le_of_eq (Nat.zero_add _)⟩
  | @step tr t u l _ hst ih =>
    obtain ⟨hI, hle⟩ := ih hok.2
    obtain ⟨hI', hlt⟩ := hstep tr t l u hI hok.1 hst
    refine ⟨hI', ?_⟩
    rw [List.countP_cons]
    cases hown : own t l with
    | true =>
      rw [hown, Bool.toNat_true] at hlt
      simp only [if_true]
      omega
    | false =>
      rw [hown, Bool.toNat_false] at hlt
      simp only [Bool.false_eq_true, if_false]
      omega

/-- **Census rule.**  If each step of a kind adds one new element to a finite set and no other step
    changes it, then it has as many elements as there were such steps. -/
theorem Run.card_eq_countP {α : Type*} [DecidableEq α] {adds : σ → ℓ → Bool} (S : σ → Finset α)
    (hinit : ∀ s, M.init s → S s = ∅)
    (hadd : ∀ tr s l t, M.Run tr s → M.step s l t → adds s l = true →
      ∃ a, a ∉ S s ∧ S t = insert a (S s))
    (hkeep : ∀ tr s l t, M.Run tr s → M.step s l t → adds s l = false → S t = S s)
    (h : M.Run tr t) : (S t).card = tr.countP (fun e => adds e.1 e.2) := by
  induction h with
  | init hs => rw [hinit _ hs, Finset.card_empty, List.countP_nil]
  | @step tr t u l hrun hst ih =>
    rw [List.countP_cons, ← ih]
    cases hadds : adds t l with
    | true =>
      obtain ⟨a, ha, hS⟩ := hadd tr t l u hrun hst hadds
      rw [hS, Finset.card_insert_of_notMem ha]
      rfl
    | false =>
      rw [hkeep tr t l u hrun hst hadds]
      rfl

end TransitionSystem
