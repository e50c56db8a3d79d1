import Mathlib.Data.List.Nodup

/-!
# A switch with a default

A function that is given by a list of cases, and by another function for everything that has
no case of its own.

* `apply_eq_iff` — which arguments have a given value;
* `apply_eq_apply_iff` — two arguments are confused exactly if one has no case, and its
  default is the value of the other's case.
-/

universe u v

namespace Switch

variable {α : Type u} {β : Type v} {cases : List (α × β)} {default : α → β} {x y : α} {b : β}

/-- `x` has a case. -/
def Listed (cases : List (α × β)) (x : α) : Prop := ∃ b, (x, b) ∈ cases

/-- `x` has no case, and its default is the value of the case for `y`. -/
def Clash (cases : List (α × β)) (default : α → β) (x y : α) : Prop :=
  ¬ Listed cases x ∧ (y, default x) ∈ cases

theorem listed_iff_mem_map : Listed cases x ↔ x ∈ cases.map Prod.fst := by
  simp [Listed]

/-- Two cases with the same value are the same case. -/
theorem eq_of_mem_of_mem (hvalues : (cases.map Prod.snd).Nodup) (hx : (x, b) ∈ cases)
    (hy : (y, b) ∈ cases) : x = y := by
  have heq := List.inj_on_of_nodup_map hvalues hx hy rfl
  exact (Prod.mk.inj heq).1

variable [DecidableEq α]

/-- The value of the first case for `x`, or its default. -/
def apply (cases : List (α × β)) (default : α → β) (x : α) : β :=
  (cases.lookup x).getD (default x)

theorem apply_of_mem (hkeys : (cases.map Prod.fst).Nodup) (h : (x, b) ∈ cases) :
    apply cases default x = b := by
  induction cases with
  | nil => cases h
  | cons c cases ih =>
    obtain ⟨k, v⟩ := c
    rw [List.map_cons, List.nodup_cons] at hkeys
    rcases List.mem_cons.mp h with heq | h
    · obtain ⟨rfl, rfl⟩ := Prod.mk.inj heq
      simp [apply]
    · -- the first case is for another argument
      have hne : x ≠ k := fun heq => hkeys.1 (heq ▸ listed_iff_mem_map.mp ⟨b, h⟩)
      have ih := ih hkeys.2 h
      unfold apply at ih ⊢
      rw [List.lookup_cons, beq_eq_false_iff_ne.mpr hne]
      exact ih

theorem apply_of_not_listed (h : ¬ Listed cases x) : apply cases default x = default x := by
  have hnone : cases.lookup x = none := by
    rw [List.lookup_eq_none_iff]
    intro c hc
    rw [bne_iff_ne]
    rintro rfl
    exact h ⟨c.2, hc⟩
  rw [apply, hnone, Option.getD_none]

/-- **Values.**  An argument has the value `b` by its case, or by default. -/
theorem apply_eq_iff (hkeys : (cases.map Prod.fst).Nodup) :
    apply cases default x = b ↔ (x, b) ∈ cases ∨ (¬ Listed cases x ∧ default x = b) := by
  by_cases hx : Listed cases x
  · obtain ⟨c, hc⟩ := hx
    rw [apply_of_mem hkeys hc]
    constructor
    · rintro rfl
      exact .inl hc
    · rintro (hb | ⟨hnot, -⟩)
      · have happly : apply cases default x = c := apply_of_mem hkeys hc
        exact happly.symm.trans (apply_of_mem hkeys hb)
      · exact absurd ⟨c, hc⟩ hnot
  · rw [apply_of_not_listed hx]
    constructor
    · intro hb
      exact .inr ⟨hx, hb⟩
    · rintro (hb | ⟨-, hb⟩)
      · exact absurd ⟨b, hb⟩ hx
      · exact hb

/-- **Confusions.**  If no two cases have the same argument or the same value, and no two
    defaults are the same, two arguments have the same value exactly if they clash. -/
theorem apply_eq_apply_iff (hkeys : (cases.map Prod.fst).Nodup)
    (hvalues : (cases.map Prod.snd).Nodup) (hdefault : Function.Injective default) (hxy : x ≠ y) :
    apply cases default x = apply cases default y ↔
      Clash cases default x y ∨ Clash cases default y x := by
  rw [apply_eq_iff hkeys]
  by_cases hy : Listed cases y
  · obtain ⟨c, hc⟩ := hy
    rw [apply_of_mem hkeys hc]
    constructor
    · rintro (hx | ⟨hx, rfl⟩)
      · exact absurd (eq_of_mem_of_mem hvalues hx hc) hxy
      · exact .inl ⟨hx, hc⟩
    · rintro (⟨hx, hmem⟩ | ⟨hnot, -⟩)
      · have happly : apply cases default y = default x := apply_of_mem hkeys hmem
        exact .inr ⟨hx, happly.symm.trans (apply_of_mem hkeys hc)⟩
      · exact absurd ⟨c, hc⟩ hnot
  · rw [apply_of_not_listed hy]
    constructor
    · rintro (hx | ⟨-, hx⟩)
      · exact .inr ⟨hy, hx⟩
      · exact absurd (hdefault hx) hxy
    · rintro (⟨-, hmem⟩ | ⟨-, hmem⟩)
      · exact absurd ⟨_, hmem⟩ hy
      · exact .inl hmem

end Switch
