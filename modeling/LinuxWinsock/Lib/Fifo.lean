import LinuxWinsock.Lib.Transition

/-!
# First in, first out

What the steps of a run put into a queue, and what they take from it, as lists over the whole
run.  The queue may be cut off, from when on nothing that is put into it arrives.

* `given` — what the steps of a run give, the earliest first;
* `Carries` — a step takes from the front of a queue and puts behind its end, until the queue is
  cut;
* `Run.given_prefix` — **queue rule**: then what the run has taken is a prefix of what it has put,
  and all but what the queue holds unless the queue has been cut;
* `Run.given_eq_nil` — nothing is given from where steps give nothing.
-/

universe u v w

namespace TransitionSystem

variable {σ : Type u} {ℓ : Type v} {β : Type w}

/-- What the steps of a run give, the earliest first. -/
def given (f : σ → ℓ → List β) : List (σ × ℓ) → List β
  | [] => []
  | (s, l) :: tr => given f tr ++ f s l

@[simp] theorem given_nil (f : σ → ℓ → List β) : given f [] = [] := rfl

@[simp] theorem given_cons (f : σ → ℓ → List β) (s : σ) (l : ℓ) (tr : List (σ × ℓ)) :
    given f ((s, l) :: tr) = given f tr ++ f s l := rfl

/-- A continuation gives its part after that of the run. -/
theorem given_append (f : σ → ℓ → List β) (tr' tr : List (σ × ℓ)) :
    given f (tr' ++ tr) = given f tr ++ given f tr' := by
  induction tr' with
  | nil => exact (List.append_nil _).symm
  | cons e tr' ih =>
    show given f (tr' ++ tr) ++ f e.1 e.2 = given f tr ++ (given f tr' ++ f e.1 e.2)
    rw [ih, List.append_assoc]

variable {M : TransitionSystem σ ℓ} {tr : List (σ × ℓ)} {t : σ}

/-- A step puts `put` behind the end of a queue and takes `took` from its front.  A step that cuts
    the queue may drop bytes at its end, and what is put into a queue that is cut is lost. -/
structure Carries (cut cut' : Prop) (queue put took queue' : List β) : Prop where
  still : cut → cut'
  whole : ¬ cut' → queue ++ put = took ++ queue'
  front : took ++ queue' <+: queue ++ put
  lost : cut → took ++ queue' <+: queue

/-- Nothing happens to the queue. -/
theorem Carries.refl (cut : Prop) (queue : List β) : Carries cut cut queue [] [] queue where
  still := id
  whole _ := List.append_nil _
  front := (List.append_nil queue).symm ▸ List.prefix_refl queue
  lost _ := List.prefix_refl queue

/-- A step takes from the front of a queue, which may be cut. -/
theorem Carries.take (cut : Prop) {queue took queue' : List β} (h : queue = took ++ queue') :
    Carries cut cut queue [] took queue' where
  still := id
  whole _ := (List.append_nil queue).trans h
  front := (List.append_nil queue).symm ▸ h ▸ List.prefix_refl _
  lost _ := h ▸ List.prefix_refl _

/-- A step on a queue that is not cut. -/
theorem Carries.of_eq {cut : Prop} {queue put took queue' : List β} (hcut : ¬ cut)
    (h : queue ++ put = took ++ queue') : Carries cut cut queue put took queue' where
  still := id
  whole _ := h
  front := h ▸ List.prefix_refl _
  lost hc := absurd hc hcut

/-- **Queue rule.**  What a run has taken is the first part of what it has put; and unless the
    queue has been cut, the rest of it is what the queue holds. -/
theorem Run.given_prefix {ok : List (σ × ℓ) → σ → ℓ → Prop} (queue : σ → List β) (cut : σ → Prop)
    {put took : σ → ℓ → List β} (hinit : ∀ s, M.init s → queue s = [])
    (hstep : ∀ tr s l t, M.Run tr s → ok tr s l → M.step s l t →
      Carries (cut s) (cut t) (queue s) (put s l) (took s l) (queue t))
    (h : M.Run tr t) (hok : AllSteps ok tr) :
    given took tr ++ queue t <+: given put tr ∧
      (¬ cut t → given put tr = given took tr ++ queue t) := by
  induction h with
  | init hs => simp [hinit _ hs]
  | @step tr s t l hrun hst ih =>
    obtain ⟨hfirst, hwhole⟩ := ih hok.2
    have hcarries := hstep tr s l t hrun hok.1 hst
    rw [given_cons, given_cons]
    constructor
    · by_cases hcut : cut s
      · -- what is put is lost
        have htook : given took tr ++ (took s l ++ queue t) <+: given took tr ++ queue s :=
          (List.prefix_append_right_inj _).mpr (hcarries.lost hcut)
        rw [List.append_assoc]
        exact (htook.trans hfirst).trans (List.prefix_append _ _)
      · calc given took tr ++ took s l ++ queue t
            = given took tr ++ (took s l ++ queue t) := List.append_assoc _ _ _
          _ <+: given took tr ++ (queue s ++ put s l) :=
            (List.prefix_append_right_inj _).mpr hcarries.front
          _ = given put tr ++ put s l := by rw [hwhole hcut, List.append_assoc]
    · intro hcut'
      calc given put tr ++ put s l
          = given took tr ++ (queue s ++ put s l) := by
            rw [hwhole (fun hcut => hcut' (hcarries.still hcut)), List.append_assoc]
        _ = given took tr ++ took s l ++ queue t := by
            rw [hcarries.whole hcut', List.append_assoc]

/-- Where an invariant holds, steps that keep it and give nothing there never give anything. -/
theorem Run.given_eq_nil {I : σ → Prop} {f : σ → ℓ → List β} (hinit : ∀ s, M.init s → I s)
    (hstep : ∀ s l t, I s → M.step s l t → f s l = [] ∧ I t) (h : M.Run tr t) :
    given f tr = [] ∧ I t := by
  induction h with
  | init hs => exact ⟨rfl, hinit _ hs⟩
  | @step tr s t l _ hst ih =>
    obtain ⟨hnil, hI⟩ := ih
    obtain ⟨hgives, hI'⟩ := hstep s l t hI hst
    refine ⟨?_, hI'⟩
    rw [given_cons, hnil, hgives, List.append_nil]

end TransitionSystem
