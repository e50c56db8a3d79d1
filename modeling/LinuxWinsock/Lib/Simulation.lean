import LinuxWinsock.Lib.Transition

/-!
# Simulations between transition systems

An abstract system simulates a concrete one if it can follow each of its steps, by one step of its
own or by none.  What a step of the concrete system looks like in the abstract one is its view.

* `Run.split` — the run before a step of the history;
* `observe` — a system whose labels tell what its steps give out;
* `Simulation` — the relation between the states, and the view of a step;
* `Simulation.run` — **runs are simulated**: to a run of the concrete system belongs a run of the
  abstract one, with the steps that are seen, in their order;
* `Simulation.holds` — what holds of all runs of the abstract system holds of what is seen.
-/

universe u v u' v'

namespace TransitionSystem

variable {σ : Type u} {ℓ : Type v} {τ : Type u'} {κ : Type v'} {M : TransitionSystem σ ℓ}

/-- The steps of a run that are seen, the latest first. -/
def seen (view : σ → ℓ → Option κ) (tr : List (σ × ℓ)) : List κ :=
  tr.filterMap (fun e => view e.1 e.2)

theorem seen_cons_some {view : σ → ℓ → Option κ} {s : σ} {l : ℓ} {k : κ} (h : view s l = some k)
    (tr : List (σ × ℓ)) : seen view ((s, l) :: tr) = k :: seen view tr :=
  List.filterMap_cons_some h

theorem seen_cons_none {view : σ → ℓ → Option κ} {s : σ} {l : ℓ} (h : view s l = none)
    (tr : List (σ × ℓ)) : seen view ((s, l) :: tr) = seen view tr :=
  List.filterMap_cons_none h

/-- A step listed in the history of a run was taken from the end of a shorter run. -/
theorem Run.split {N : TransitionSystem τ κ} {tr : List (τ × κ)} {t : τ} (h : N.Run tr t)
    {later earlier : List κ} {k : κ} (hlabels : tr.map Prod.snd = later ++ k :: earlier) :
    ∃ tr₀ s s', N.Run tr₀ s ∧ N.step s k s' ∧ tr₀.map Prod.snd = earlier := by
  induction h generalizing later with
  | init _ => simp at hlabels
  | @step tr s t l hrun hstep ih =>
    cases later with
    | nil =>
      obtain ⟨rfl, rfl⟩ := List.cons_eq_cons.mp hlabels
      exact ⟨tr, s, t, hrun, hstep, rfl⟩
    | cons k' later =>
      exact ih (List.cons_eq_cons.mp hlabels).2

/-! ### Outputs -/

/-- The system with what each step gives out as a part of its label. -/
def observe {β : Type*} (M : TransitionSystem σ ℓ) (out : σ → ℓ → β) :
    TransitionSystem σ (ℓ × β) where
  init := M.init
  step s k t := M.step s k.1 t ∧ k.2 = out s k.1

/-- A run without its outputs, which are those of its steps. -/
theorem Run.of_observe {β : Type*} {out : σ → ℓ → β} {tr : List (σ × (ℓ × β))} {s : σ}
    (h : (M.observe out).Run tr s) :
    M.Run (tr.map (fun e => (e.1, e.2.1))) s ∧ ∀ e ∈ tr, e.2.2 = out e.1 e.2.1 := by
  induction h with
  | init hs => exact ⟨.init hs, nofun⟩
  | step _ hstep ih =>
    refine ⟨.step ih.1 hstep.1, fun e he => ?_⟩
    rcases List.mem_cons.mp he with rfl | he
    · exact hstep.2
    · exact ih.2 e he

/-- `N` simulates the runs of `M` whose steps all meet `ok`.  The relation may depend on the
    history. -/
structure Simulation (M : TransitionSystem σ ℓ) (N : TransitionSystem τ κ)
    (ok : List (σ × ℓ) → σ → ℓ → Prop) where
  /-- The states of `N` that stand for a state of `M`. -/
  rel : List (σ × ℓ) → σ → τ → Prop
  /-- What a step looks like in `N`; `none` if nothing is seen of it. -/
  view : σ → ℓ → Option κ
  init : ∀ s, M.init s → ∃ t, N.init t ∧ rel [] s t
  matched : ∀ tr s l s' t k, M.Run tr s → rel tr s t → ok tr s l → M.step s l s' →
    view s l = some k → ∃ t', N.step t k t' ∧ rel ((s, l) :: tr) s' t'
  hidden : ∀ tr s l s' t, M.Run tr s → rel tr s t → ok tr s l → M.step s l s' →
    view s l = none → rel ((s, l) :: tr) s' t

namespace Simulation

variable {M : TransitionSystem σ ℓ} {N : TransitionSystem τ κ} {ok : List (σ × ℓ) → σ → ℓ → Prop}
  {tr : List (σ × ℓ)} {s : σ}

/-- **Runs are simulated.** -/
theorem run (S : Simulation M N ok) (h : M.Run tr s) (hok : AllSteps ok tr) :
    ∃ tr' t, N.Run tr' t ∧ S.rel tr s t ∧ tr'.map Prod.snd = seen S.view tr := by
  induction h with
  | init hs =>
    obtain ⟨t, ht, hrel⟩ := S.init _ hs
    exact ⟨[], t, .init ht, hrel, rfl⟩
  | @step tr s s' l hrun hstep ih =>
    obtain ⟨tr', t, hrun', hrel, hseen⟩ := ih hok.2
    cases hview : S.view s l with
    | none =>
      have hrel' := S.hidden tr s l s' t hrun hrel hok.1 hstep hview
      exact ⟨tr', t, hrun', hrel', hseen.trans (seen_cons_none hview tr).symm⟩
    | some k =>
      obtain ⟨t', hstep', hrel'⟩ := S.matched tr s l s' t k hrun hrel hok.1 hstep hview
      refine ⟨(t, k) :: tr', t', .step hrun' hstep', hrel', ?_⟩
      rw [seen_cons_some hview, ← hseen]
      rfl

/-- What holds of the labels of every run of the abstract system holds of what is seen. -/
theorem holds (S : Simulation M N ok) {P : List κ → Prop}
    (hP : ∀ tr' t, N.Run tr' t → P (tr'.map Prod.snd)) (h : M.Run tr s) (hok : AllSteps ok tr) :
    P (seen S.view tr) := by
  obtain ⟨tr', t, hrun, -, hseen⟩ := S.run h hok
  rw [← hseen]
  exact hP tr' t hrun

end Simulation

end TransitionSystem
