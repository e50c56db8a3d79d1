import LinuxWinsock.Lib.LinkedList
import Mathlib.Data.List.Count

/-!
# A heap with a ledger

`malloc` and `free` over a heap, with an account of the blocks they hand out and take back.  A
store to a block that is not live, or its release, has no result.

* `Ledger` — the account is balanced: that is a field, which every operation keeps;
* `Ledger.perm_of_live_eq` — so where nothing more is live than at the start, every block that
  was handed out was released, and exactly once;
* `Extends` — a heap with more blocks, and `releaseAll_of_extends_append`: their release leads
  back to it (`Extends.eq_of_nil`).
-/

universe u

/-- How `malloc` answers: whether the call with a number succeeds, and where there is room. -/
structure Allocator (α : Type u) where
  succeeds : Nat → Bool
  place : Heap α → Addr
  fresh : ∀ h, place h ∉ h.live

/-- A heap, the blocks that were live at the start, those handed out and those released since
    then, the latest first, and the number of calls of `malloc`. -/
structure Ledger (α : Type u) where
  opened : Finset Addr
  heap : Heap α
  allocated : List Addr
  released : List Addr
  calls : Nat
  balanced : ∀ p, (if p ∈ opened then 1 else 0) + allocated.count p =
    released.count p + (if p ∈ heap.live then 1 else 0)

namespace Heap

variable {α : Type u} {h h' h'' : Heap α} {p : Addr} {bs cs : List Addr}

theorem cell_eq_none : h.cell p = none ↔ p ∉ h.live := by
  rw [h.mem_live]
  cases h.cell p <;> simp

/-- The heap `h'` has the blocks `bs` in addition to those of `h`. -/
structure Extends (h h' : Heap α) (bs : List Addr) : Prop where
  nodup : bs.Nodup
  fresh : ∀ b ∈ bs, h.cell b = none
  allocated : ∀ b ∈ bs, h'.cell b ≠ none
  frame : ∀ q, q ∉ bs → h'.cell q = h.cell q

theorem Extends.refl (h : Heap α) : Extends h h [] := by
  constructor <;> simp

/-- A heap with no more blocks is the same. -/
theorem Extends.eq_of_nil (h₁ : Extends h h' []) : h' = h := by
  ext1 q
  exact h₁.frame q (by simp)

theorem extends_put (x : α) (hp : h.cell p = none) : Extends h (h.put p x) [p] where
  nodup := List.nodup_singleton p
  fresh b hb := by rwa [List.mem_singleton.mp hb]
  allocated b hb := by simp [List.mem_singleton.mp hb]
  frame q hq := put_cell_of_ne _ _ (by simpa using hq)

/-- A block of `h` is no new one. -/
theorem Extends.not_mem (h₁ : Extends h h' bs) (hp : h.cell p ≠ none) : p ∉ bs :=
  fun hmem => hp (h₁.fresh p hmem)

theorem Extends.cell_of_ne_none (h₁ : Extends h h' bs) (hp : h.cell p ≠ none) :
    h'.cell p = h.cell p := h₁.frame p (h₁.not_mem hp)

theorem Extends.trans (h₁ : Extends h h' bs) (h₂ : Extends h' h'' cs) :
    Extends h h'' (bs ++ cs) := by
  have hsep : ∀ b ∈ bs, b ∉ cs := fun b hb => h₂.not_mem (h₁.allocated b hb)
  constructor
  case nodup =>
    apply List.Nodup.append h₁.nodup h₂.nodup
    exact fun b hb hc => hsep b hb hc
  case fresh =>
    intro b hb
    rcases List.mem_append.mp hb with hb | hb
    · exact h₁.fresh b hb
    · have hnew : b ∉ bs := fun hmem => hsep b hmem hb
      rw [← h₁.frame b hnew]
      exact h₂.fresh b hb
  case allocated =>
    intro b hb
    rcases List.mem_append.mp hb with hb | hb
    · rw [h₂.cell_of_ne_none (h₁.allocated b hb)]
      exact h₁.allocated b hb
    · exact h₂.allocated b hb
  case frame =>
    intro q hq
    simp only [List.mem_append, not_or] at hq
    rw [h₂.frame q hq.2, h₁.frame q hq.1]

/-- The order of the new blocks does not matter. -/
theorem Extends.perm (h₁ : Extends h h' bs) (hperm : bs.Perm cs) : Extends h h' cs where
  nodup := hperm.nodup_iff.mp h₁.nodup
  fresh b hb := h₁.fresh b (hperm.mem_iff.mpr hb)
  allocated b hb := h₁.allocated b (hperm.mem_iff.mpr hb)
  frame q hq := h₁.frame q (fun hmem => hq (hperm.mem_iff.mp hmem))

/-- A store to one of the new blocks. -/
theorem Extends.put (h₁ : Extends h h' bs) (x : α) (hp : p ∈ bs) : Extends h (h'.put p x) bs where
  nodup := h₁.nodup
  fresh := h₁.fresh
  allocated b hb := by
    rw [put_cell]
    split
    · simp
    · exact h₁.allocated b hb
  frame q hq := by
    have hne : q ≠ p := fun heq => hq (heq ▸ hp)
    rw [put_cell_of_ne _ _ hne, h₁.frame q hq]

/-- The release of the first new block. -/
theorem Extends.free (h₁ : Extends h h' (p :: bs)) : Extends h (h'.free p) bs where
  nodup := h₁.nodup.of_cons
  fresh b hb := h₁.fresh b (List.mem_cons_of_mem p hb)
  allocated b hb := by
    have hne : b ≠ p := fun heq => (List.nodup_cons.mp h₁.nodup).1 (heq ▸ hb)
    rw [free_cell_of_ne _ hne]
    exact h₁.allocated b (List.mem_cons_of_mem p hb)
  frame q hq := by
    by_cases hqp : q = p
    · rw [hqp, free_cell_self, h₁.fresh p List.mem_cons_self]
    · rw [free_cell_of_ne _ hqp]
      exact h₁.frame q (by simp [hqp, hq])

end Heap

namespace Ledger

open Heap

variable {α : Type u} {A : Allocator α} {L : Ledger α} {p : Addr}

/-- The account of a heap in which nothing has been handed out yet. -/
def start (h : Heap α) : Ledger α where
  opened := h.live
  heap := h
  allocated := []
  released := []
  calls := 0
  balanced := by simp

/-- `malloc` of a block whose first content is `x`. -/
def malloc (A : Allocator α) (L : Ledger α) (x : α) : Option Addr × Ledger α :=
  if A.succeeds L.calls then
    (some (A.place L.heap),
      { L with
        heap := L.heap.put (A.place L.heap) x
        allocated := A.place L.heap :: L.allocated
        calls := L.calls + 1
        balanced := by
          intro p
          have hold := L.balanced p
          have hfresh := A.fresh L.heap
          by_cases hp : p = A.place L.heap
          · subst hp
            simp [hfresh, Heap.put] at hold ⊢
            omega
          · have hne : ¬ A.place L.heap = p := fun heq => hp heq.symm
            simpa [Heap.put, hp, hne] using hold })
  else (none, { L with calls := L.calls + 1 })

/-- A store to a live block. -/
def store (L : Ledger α) (p : Addr) (x : α) : Option (Ledger α) :=
  if hp : p ∈ L.heap.live then
    some { L with
      heap := L.heap.put p x
      balanced := by simpa [Heap.put, Finset.insert_eq_of_mem hp] using L.balanced }
  else none

/-- `free` of a live block. -/
def free (L : Ledger α) (p : Addr) : Option (Ledger α) :=
  if hp : p ∈ L.heap.live then
    some { L with
      heap := L.heap.free p
      released := p :: L.released
      balanced := by
        intro q
        have hold := L.balanced q
        by_cases hq : q = p
        · subst hq
          simp [hp, Heap.free] at hold ⊢
          omega
        · have hne : ¬ p = q := fun heq => hq heq.symm
          simpa [Heap.free, hq, hne] using hold }
  else none

/-- The releases of several blocks. -/
def releaseAll : List Addr → Ledger α → Option (Ledger α)
  | [], L => some L
  | p :: ps, L => (L.free p).bind (releaseAll ps)

theorem releaseAll_append (ps qs : List Addr) (L : Ledger α) :
    releaseAll (ps ++ qs) L = (releaseAll ps L).bind (releaseAll qs) := by
  induction ps generalizing L with
  | nil => simp [releaseAll]
  | cons p ps ih =>
    cases hfree : L.free p with
    | none => simp [releaseAll, hfree]
    | some L' => simp [releaseAll, hfree, ih]

/-! ### What the operations do -/

theorem malloc_of_succeeds (x : α) (h : A.succeeds L.calls = true) :
    ∃ p L', L.malloc A x = (some p, L') ∧ L.heap.cell p = none ∧ L'.heap = L.heap.put p x ∧
      L'.calls = L.calls + 1 ∧ L'.opened = L.opened ∧ L'.released = L.released := by
  have hfresh := cell_eq_none.mpr (A.fresh L.heap)
  rw [malloc, if_pos h]
  exact ⟨_, _, rfl, hfresh, rfl, rfl, rfl, rfl⟩

theorem malloc_of_fails (x : α) (h : A.succeeds L.calls = false) :
    L.malloc A x = (none, { L with calls := L.calls + 1 }) := by
  simp [malloc, h]

theorem store_of_cell (x : α) (h : L.heap.cell p ≠ none) :
    ∃ L', L.store p x = some L' ∧ L'.heap = L.heap.put p x ∧ L'.calls = L.calls ∧
      L'.opened = L.opened ∧ L'.released = L.released := by
  have hlive : p ∈ L.heap.live := by
    rw [Ne, cell_eq_none, not_not] at h
    exact h
  rw [store, dif_pos hlive]
  exact ⟨_, rfl, rfl, rfl, rfl, rfl⟩

theorem free_of_cell (h : L.heap.cell p ≠ none) :
    ∃ L', L.free p = some L' ∧ L'.heap = L.heap.free p ∧ L'.opened = L.opened ∧
      L'.allocated = L.allocated := by
  have hlive : p ∈ L.heap.live := by
    rw [Ne, cell_eq_none, not_not] at h
    exact h
  rw [free, dif_pos hlive]
  exact ⟨_, rfl, rfl, rfl, rfl⟩

/-- The release of the first of the new blocks leaves the heap with the other ones. -/
theorem releaseAll_of_extends_append {h : Heap α} {bs cs : List Addr}
    (hext : Extends h L.heap (bs ++ cs)) :
    ∃ L', releaseAll bs L = some L' ∧ Extends h L'.heap cs ∧
      (∀ q, q ∉ bs → L'.heap.cell q = L.heap.cell q) ∧ L'.opened = L.opened ∧
      L'.allocated = L.allocated := by
  induction bs generalizing L with
  | nil => exact ⟨L, rfl, hext, fun _ _ => rfl, rfl, rfl⟩
  | cons b bs ih =>
    obtain ⟨L₁, hfree, hheap, hopened, halloc⟩ :=
      free_of_cell (hext.allocated b List.mem_cons_self)
    obtain ⟨L₂, hall, hrest, hframe, hopened', halloc'⟩ :=
      ih (L := L₁) (by rw [hheap]; exact hext.free)
    refine ⟨L₂, ?_, hrest, fun q hq => ?_, hopened'.trans hopened, halloc'.trans halloc⟩
    · rw [releaseAll, hfree, Option.bind_some, hall]
    · simp only [List.mem_cons, not_or] at hq
      rw [hframe q hq.2, hheap, free_cell_of_ne _ hq.1]

/-! ### What a balanced account says -/

/-- **No leak, and no block released twice.**  If what is live is what was live at the start,
    the blocks released are those handed out. -/
theorem perm_of_live_eq (h : L.heap.live = L.opened) : L.allocated.Perm L.released := by
  rw [List.perm_iff_count]
  intro p
  have hbal := L.balanced p
  rw [h] at hbal
  omega

/-- Before the first release, no block is handed out twice. -/
theorem nodup_of_released_nil (h : L.released = []) : L.allocated.Nodup := by
  rw [List.nodup_iff_count_le_one]
  intro p
  have hbal := L.balanced p
  rw [h, List.count_nil] at hbal
  split at hbal <;> split at hbal <;> omega

end Ledger
