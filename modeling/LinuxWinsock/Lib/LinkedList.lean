import Mathlib.Data.Finset.Card

/-!
# Singly linked lists in a heap

A heap is a partial map from addresses to cells together with the finite set of its
allocated addresses.  Over it, for any projection `next` of a cell to its link:

* `Heap.KeyedBy key h` — cells with the same key are at one address;
* `Chain next h p l` — following `next` from the pointer `p` visits the allocated cells
  `l` and then ends at the null pointer;
* `Reaches next h a p` — following `next` from `p` leads to the cell at `a`;
* `Chain.nodup` / `Chain.length_le` — such a list is acyclic, so no longer than the heap;
* `Chain.congr`, `Chain.push`, `Chain.unlink` — what a store, a push at the head and the
  removal of a cell do to it;
* `search` / `search_eq_find?` — the list walk of a C loop, bounded by the size of the
  heap, ends and finds the first cell that matches;
* `Holds` — a list together with what its cells hold, and `Holds.snoc`: a cell is appended
  through the last one.
-/

universe u

/-- An address of the heap.  A pointer is an `Option Addr`, `none` being null. -/
abbrev Addr := Nat

/-- A heap of cells of type `α`, with the finite set of its allocated addresses. -/
structure Heap (α : Type u) where
  cell : Addr → Option α
  live : Finset Addr
  mem_live : ∀ p, p ∈ live ↔ (cell p).isSome

namespace Heap

variable {α : Type u}

/-- Heaps with the same cells are equal: `live` is determined by `cell`. -/
@[ext] theorem ext {h h' : Heap α} (hcell : ∀ p, h.cell p = h'.cell p) : h = h' := by
  obtain ⟨c, L, hL⟩ := h
  obtain ⟨c', L', hL'⟩ := h'
  obtain rfl : c = c' := funext hcell
  obtain rfl : L = L' := Finset.ext (fun p => (hL p).trans (hL' p).symm)
  rfl

/-- The heap with nothing allocated. -/
def empty : Heap α where
  cell := fun _ => none
  live := ∅
  mem_live := by simp

/-- Store `x` at `p`, allocating `p` if it is free. -/
def put (h : Heap α) (p : Addr) (x : α) : Heap α where
  cell := fun q => if q = p then some x else h.cell q
  live := insert p h.live
  mem_live := by
    intro q
    rw [Finset.mem_insert, h.mem_live]
    by_cases hq : q = p <;> simp [hq]

/-- Release the cell at `p`. -/
def free (h : Heap α) (p : Addr) : Heap α where
  cell := fun q => if q = p then none else h.cell q
  live := h.live.erase p
  mem_live := by
    intro q
    rw [Finset.mem_erase, h.mem_live]
    by_cases hq : q = p <;> simp [hq]

@[simp] theorem put_cell_self (h : Heap α) (p : Addr) (x : α) : (h.put p x).cell p = some x :=
  if_pos rfl

theorem put_cell (h : Heap α) (p q : Addr) (x : α) :
    (h.put p x).cell q = if q = p then some x else h.cell q := rfl

theorem put_cell_of_ne (h : Heap α) {p q : Addr} (x : α) (hq : q ≠ p) :
    (h.put p x).cell q = h.cell q := if_neg hq

@[simp] theorem free_cell_self (h : Heap α) (p : Addr) : (h.free p).cell p = none := if_pos rfl

theorem free_cell (h : Heap α) (p q : Addr) :
    (h.free p).cell q = if q = p then none else h.cell q := rfl

theorem free_cell_of_ne (h : Heap α) {p q : Addr} (hq : q ≠ p) :
    (h.free p).cell q = h.cell q := if_neg hq

/-- A cell after a store is the stored one or one of before. -/
theorem cell_of_put {h : Heap α} {p q : Addr} {x y : α} (hq : (h.put p x).cell q = some y) :
    (q = p ∧ y = x) ∨ (q ≠ p ∧ h.cell q = some y) := by
  by_cases hqp : q = p
  · rw [hqp, put_cell_self] at hq
    exact .inl ⟨hqp, (Option.some.inj hq).symm⟩
  · rw [put_cell_of_ne _ _ hqp] at hq
    exact .inr ⟨hqp, hq⟩

/-- A cell after a release is another one of before. -/
theorem cell_of_free {h : Heap α} {p q : Addr} {y : α} (hq : (h.free p).cell q = some y) :
    q ≠ p ∧ h.cell q = some y := by
  by_cases hqp : q = p
  · rw [hqp, free_cell_self] at hq
    cases hq
  · rw [free_cell_of_ne _ hqp] at hq
    exact ⟨hqp, hq⟩

/-- Releasing a cell that was just allocated restores the heap. -/
theorem free_put_of_fresh (h : Heap α) {p : Addr} (x : α) (hp : h.cell p = none) :
    (h.put p x).free p = h := by
  ext1 q
  by_cases hq : q = p
  · subst hq; rw [free_cell_self, hp]
  · rw [free_cell_of_ne _ hq, put_cell_of_ne _ _ hq]

/-- Cells with the same key are at one address. -/
def KeyedBy {κ : Type*} (key : α → κ) (h : Heap α) : Prop :=
  ∀ p q x y, h.cell p = some x → h.cell q = some y → key x = key y → p = q

/-- A store keeps the keys apart if no other cell has the key of the new one. -/
theorem KeyedBy.put {κ : Type*} {key : α → κ} {h : Heap α} (hk : KeyedBy key h) {p : Addr} {x : α}
    (hnew : ∀ q y, q ≠ p → h.cell q = some y → key y ≠ key x) : KeyedBy key (h.put p x) := by
  intro q r y z hq hr heq
  rcases cell_of_put hq with ⟨rfl, rfl⟩ | ⟨hqp, hold⟩
  · rcases cell_of_put hr with ⟨rfl, _⟩ | ⟨hrp, hold⟩
    · rfl
    · exact absurd heq.symm (hnew r z hrp hold)
  · rcases cell_of_put hr with ⟨rfl, rfl⟩ | ⟨_, hold'⟩
    · exact absurd heq (hnew q y hqp hold)
    · exact hk q r y z hold hold' heq

/-- An update that keeps the key of its cell keeps the keys apart. -/
theorem KeyedBy.update {κ : Type*} {key : α → κ} {h : Heap α} (hk : KeyedBy key h) {p : Addr}
    {x x' : α} (hp : h.cell p = some x) (hkey : key x' = key x) : KeyedBy key (h.put p x') := by
  apply hk.put
  intro q y hqp hq heq
  exact hqp (hk q p y x hq hp (heq.trans hkey))

end Heap

namespace LinkedList

variable {α : Type u} (next : α → Option Addr)

/-- `Chain next h p l`: following `next` from `p` visits exactly the cells `l`, all of them
    allocated, and ends at the null pointer. -/
inductive Chain (h : Heap α) : Option Addr → List Addr → Prop
  | nil : Chain h none []
  | cons {p : Addr} {x : α} {l : List Addr} :
      h.cell p = some x → Chain h (next x) l → Chain h (some p) (p :: l)

/-- `Reaches next h a p`: following `next` from `p` leads to the cell at `a`, whether or not
    the list ends. -/
inductive Reaches (h : Heap α) (a : Addr) : Option Addr → Prop
  | here {x : α} : h.cell a = some x → Reaches h a (some a)
  | later {p : Addr} {x : α} : h.cell p = some x → Reaches h a (next x) → Reaches h a (some p)

namespace Chain

variable {next} {h h' : Heap α} {p : Option Addr} {l l' : List Addr}

/-- The list a pointer leads to is determined by the heap. -/
theorem unique (hl : Chain next h p l) (hl' : Chain next h p l') : l = l' := by
  induction hl generalizing l' with
  | nil => cases hl'; rfl
  | cons hx _ ih =>
    cases hl' with
    | cons hy hrest =>
      obtain rfl := Option.some.inj (hx.symm.trans hy)
      rw [ih hrest]

/-- Every cell of the list is allocated. -/
theorem allocated (hl : Chain next h p l) : ∀ a ∈ l, ∃ x, h.cell a = some x := by
  induction hl with
  | nil => simp
  | cons hx _ ih =>
    intro a ha
    rcases List.mem_cons.mp ha with rfl | ha
    · exact ⟨_, hx⟩
    · exact ih a ha

/-- A later cell of the list starts its own list. -/
theorem drop (hl : Chain next h p l) {a : Addr} {l₁ l₂ : List Addr} (he : l = l₁ ++ a :: l₂) :
    Chain next h (some a) (a :: l₂) := by
  induction hl generalizing l₁ with
  | nil => simp at he
  | cons hx hrest ih =>
    cases l₁ with
    | nil =>
      obtain ⟨rfl, rfl⟩ := List.cons.inj he
      exact .cons hx hrest
    | cons b l₁ => exact ih (List.cons.inj he).2

/-- **Acyclicity.**  A list that ends visits no cell twice: a second visit would start
    the same list again, at another length. -/
theorem nodup (hl : Chain next h p l) : l.Nodup := by
  induction hl with
  | nil => exact List.nodup_nil
  | @cons q x l hx hrest ih =>
    refine List.nodup_cons.mpr ⟨fun hmem => ?_, ih⟩
    obtain ⟨l₁, l₂, he⟩ := List.append_of_mem hmem
    have hq : Chain next h (some q) (q :: l₂) := hrest.drop he
    have hlen := congrArg List.length (unique (.cons hx hrest) hq)
    rw [he] at hlen
    simp only [List.length_cons, List.length_append] at hlen
    omega

/-- A cell is the head exactly if nothing is in front of it. -/
theorem head_eq_iff (hl : Chain next h p l) {a : Addr} {l₁ l₂ : List Addr}
    (he : l = l₁ ++ a :: l₂) : p = some a ↔ l₁ = [] := by
  have hnodup := hl.nodup
  subst he
  cases l₁ with
  | nil =>
    cases hl with
    | cons _ _ => exact iff_of_true rfl rfl
  | cons b l₁ =>
    cases hl with
    | cons _ _ =>
      refine iff_of_false (fun heq => ?_) (List.cons_ne_nil b l₁)
      obtain rfl := Option.some.inj heq
      exact (List.nodup_cons.mp hnodup).1 (List.mem_append_right l₁ List.mem_cons_self)

/-- A list is no longer than the heap has cells. -/
theorem length_le (hl : Chain next h p l) : l.length ≤ h.live.card := by
  rw [← List.toFinset_card_of_nodup hl.nodup]
  refine Finset.card_le_card (fun a ha => ?_)
  obtain ⟨x, hx⟩ := hl.allocated a (List.mem_toFinset.mp ha)
  rw [h.mem_live, hx]; rfl

/-- **Frame rule.**  A heap that keeps every link of the list keeps the list. -/
theorem congr (hl : Chain next h p l)
    (hlink : ∀ a ∈ l, ∀ x, h.cell a = some x → ∃ y, h'.cell a = some y ∧ next y = next x) :
    Chain next h' p l := by
  induction hl with
  | nil => exact .nil
  | cons hx _ ih =>
    obtain ⟨y, hy, hnext⟩ := hlink _ List.mem_cons_self _ hx
    refine .cons hy ?_
    rw [hnext]
    exact ih (fun a ha => hlink a (List.mem_cons_of_mem _ ha))

/-- A store to a cell outside the list keeps the list. -/
theorem put_of_not_mem (hl : Chain next h p l) {a : Addr} (ha : a ∉ l) (x : α) :
    Chain next (h.put a x) p l :=
  hl.congr fun b hb y hy => by
    have hba : b ≠ a := fun he => ha (he ▸ hb)
    exact ⟨y, by rw [Heap.put_cell_of_ne _ _ hba]; exact hy, rfl⟩

/-- A store that keeps the cell's link keeps the list. -/
theorem put_of_next_eq (hl : Chain next h p l) {a : Addr} {x y : α} (hx : h.cell a = some x)
    (hnext : next y = next x) : Chain next (h.put a y) p l := by
  refine hl.congr fun b _ z hz => ?_
  by_cases hba : b = a
  · subst hba
    obtain rfl := Option.some.inj (hx.symm.trans hz)
    exact ⟨y, h.put_cell_self _ _, hnext⟩
  · exact ⟨z, by rw [Heap.put_cell_of_ne _ _ hba]; exact hz, rfl⟩

/-- **Push.**  A fresh cell whose link is the head becomes the new head. -/
theorem push (hl : Chain next h p l) {a : Addr} (ha : h.cell a = none) {x : α}
    (hnext : next x = p) : Chain next (h.put a x) (some a) (a :: l) := by
  have hal : a ∉ l := fun hmem => by
    obtain ⟨y, hy⟩ := hl.allocated a hmem
    rw [ha] at hy; cases hy
  refine .cons (h.put_cell_self a x) ?_
  rw [hnext]
  exact hl.put_of_not_mem hal x

/-- A pointer to a list that is not empty leads to its first cell. -/
theorem eq_some {a : Addr} (hl : Chain next h p (a :: l)) : p = some a := by
  generalize ha : a :: l = l' at hl
  cases hl with
  | nil => cases ha
  | cons _ _ => rw [(List.cons.inj ha).1]

/-- What follows a cell is the list from its link on. -/
theorem rest {a : Addr} {l₁ l₂ : List Addr} (hl : Chain next h p (l₁ ++ a :: l₂)) {x : α}
    (hx : h.cell a = some x) : Chain next h (next x) l₂ := by
  cases hl.drop rfl with
  | cons hy hrest =>
    obtain rfl := Option.some.inj (hx.symm.trans hy)
    exact hrest

/-- **Unlink.**  The cell in front of `a` takes the link of `a`, and all others keep theirs. -/
theorem unlink {a b : Addr} {l₁ l₂ : List Addr} (hl : Chain next h p (l₁ ++ b :: a :: l₂))
    {x y : α} (ha : h.cell a = some x) (hb : h'.cell b = some y) (hlink : next y = next x)
    (hkeep : ∀ c ∈ l₁ ++ l₂, ∀ z, h.cell c = some z →
      ∃ z', h'.cell c = some z' ∧ next z' = next z) :
    Chain next h' p (l₁ ++ b :: l₂) := by
  induction l₁ generalizing p with
  | nil =>
    cases hl with
    | cons _ hrest =>
      refine .cons hb ?_
      rw [hlink]
      have hfrom : Chain next h _ ([] ++ a :: l₂) := hrest
      exact (hfrom.rest ha).congr hkeep
  | cons c l₁ ih =>
    cases hl with
    | cons hc hrest =>
      obtain ⟨z', hz', hnext⟩ := hkeep c List.mem_cons_self _ hc
      refine .cons hz' ?_
      rw [hnext]
      exact ih hrest (fun d hd => hkeep d (List.mem_cons_of_mem c hd))

/-- A list that ends leads to the cells in it. -/
theorem reaches_iff (hl : Chain next h p l) {a : Addr} : Reaches next h a p ↔ a ∈ l := by
  constructor
  · intro hr
    induction hr generalizing l with
    | here _ =>
      cases hl with
      | cons _ _ => exact List.mem_cons_self
    | later hx _ ih =>
      cases hl with
      | cons hy hrest =>
        obtain rfl := Option.some.inj (hx.symm.trans hy)
        exact List.mem_cons_of_mem _ (ih hrest)
  · intro ha
    induction hl with
    | nil => cases ha
    | cons hx _ ih =>
      rcases List.mem_cons.mp ha with rfl | ha
      · exact .here hx
      · exact .later hx (ih ha)

end Chain

/-! ### Walking a list -/

/-- The walk of a C search loop from `p`: the first cell that satisfies `P`, or null at the
    end of the list.  `none` where the loop dereferences a cell that is not allocated or
    makes more than `n` iterations. -/
def walk (h : Heap α) (P : α → Bool) : Nat → Option Addr → Option (Option Addr)
  | _, none => some none
  | 0, some _ => none
  | n + 1, some a =>
    match h.cell a with
    | none => none
    | some x => if P x then some (some a) else walk h P n (next x)

/-- The search loop, given as many iterations as the heap has cells: a longer walk would
    have met a cell twice and would never end. -/
def search (h : Heap α) (P : α → Bool) (p : Option Addr) : Option (Option Addr) :=
  walk next h P h.live.card p

variable {next} {h : Heap α} {p : Option Addr} {l : List Addr}

theorem walk_eq_find? (hl : Chain next h p l) (P : α → Bool) {n : Nat} (hn : l.length ≤ n) :
    walk next h P n p = some (l.find? (fun a => (h.cell a).any P)) := by
  induction hl generalizing n with
  | nil => cases n <;> rfl
  | @cons a x l hx _ ih =>
    cases n with
    | zero => simp at hn
    | succ n =>
      have hn' : l.length ≤ n := by simpa using hn
      cases hP : P x with
      | true => simp [walk, hx, hP]
      | false => simp [walk, hx, hP, ih hn']

/-- **Search.**  On a list that ends, the loop ends and returns the first match. -/
theorem search_eq_find? (hl : Chain next h p l) (P : α → Bool) :
    search next h P p = some (l.find? (fun a => (h.cell a).any P)) :=
  walk_eq_find? hl P hl.length_le

/-- What the search returns, if anything, is a matching cell of the list. -/
theorem mem_of_search_eq_some (hl : Chain next h p l) {P : α → Bool} {a : Addr}
    (hs : search next h P p = some (some a)) : a ∈ l ∧ ∃ x, h.cell a = some x ∧ P x = true := by
  rw [search_eq_find? hl, Option.some.injEq] at hs
  refine ⟨List.mem_of_find?_eq_some hs, ?_⟩
  have hm := List.find?_some hs
  rwa [Option.any_eq_true] at hm

/-- If the search returns null, no cell of the list matches. -/
theorem not_of_search_eq_none (hl : Chain next h p l) {P : α → Bool}
    (hs : search next h P p = some none) {a : Addr} (ha : a ∈ l) {x : α}
    (hx : h.cell a = some x) : P x = false := by
  rw [search_eq_find? hl, Option.some.injEq, List.find?_eq_none] at hs
  simpa [hx] using hs a ha

/-! ### Lists with what their cells hold -/

section Contents

variable {β : Type u} (of : β → α) (next : β → Option Addr)

/-- From `p` on, the list has these addresses, and its cells hold these contents. -/
def Holds (h : Heap α) : Option Addr → List (Addr × β) → Prop
  | p, [] => p = none
  | p, (a, x) :: l => p = some a ∧ h.cell a = some (of x) ∧ Holds h (next x) l

namespace Holds

variable {of next} {h h' : Heap α} {p : Option Addr} {l : List (Addr × β)}

theorem eq_none_iff (hl : Holds of next h p l) : p = none ↔ l = [] := by
  cases l with
  | nil => exact iff_of_true hl rfl
  | cons i l =>
    rw [hl.1]
    simp

/-- The heap determines the list, if it determines the contents. -/
theorem unique (hof : Function.Injective of) {l' : List (Addr × β)} (hl : Holds of next h p l)
    (hl' : Holds of next h p l') : l = l' := by
  induction l generalizing p l' with
  | nil => exact (hl'.eq_none_iff.mp hl).symm
  | cons i l ih =>
    cases l' with
    | nil =>
      have hp := hl.eq_none_iff.mp hl'
      simp at hp
    | cons j l' =>
      obtain ⟨a, x⟩ := i
      obtain ⟨b, y⟩ := j
      obtain ⟨hp, hx, hrest⟩ := hl
      obtain ⟨hq, hy, hrest'⟩ := hl'
      obtain rfl := Option.some.inj (hp.symm.trans hq)
      obtain rfl := hof (Option.some.inj (hx.symm.trans hy))
      rw [ih hrest hrest']

/-- Each cell holds what is listed. -/
theorem cell (hl : Holds of next h p l) : ∀ i ∈ l, h.cell i.1 = some (of i.2) := by
  induction l generalizing p with
  | nil => simp
  | cons j l ih =>
    intro i hi
    rcases List.mem_cons.mp hi with rfl | hi
    · exact hl.2.1
    · exact ih hl.2.2 i hi

/-- The addresses form a list, for any projection of a cell that reads its link. -/
theorem chain (hl : Holds of next h p l) {link : α → Option Addr}
    (hlink : ∀ x, link (of x) = next x) : Chain link h p (l.map Prod.fst) := by
  induction l generalizing p with
  | nil =>
    rw [hl]
    exact .nil
  | cons i l ih =>
    rw [hl.1]
    apply Chain.cons hl.2.1
    rw [hlink]
    exact ih hl.2.2

/-- **Frame rule.**  A heap that keeps the cells of the list keeps the list. -/
theorem congr (hl : Holds of next h p l) (hsame : ∀ i ∈ l, h'.cell i.1 = h.cell i.1) :
    Holds of next h' p l := by
  induction l generalizing p with
  | nil => exact hl
  | cons i l ih =>
    refine ⟨hl.1, ?_, ih hl.2.2 (fun j hj => hsame j (List.mem_cons_of_mem i hj))⟩
    rw [hsame i List.mem_cons_self]
    exact hl.2.1

/-- **Append.**  The last cell gets a link to one more cell, which has none. -/
theorem snoc {a b : Addr} {x x' y : β} (hl : Holds of next h p (l ++ [(a, x)]))
    (hsame : ∀ i ∈ l, h'.cell i.1 = h.cell i.1) (ha : h'.cell a = some (of x'))
    (hx : next x' = some b) (hb : h'.cell b = some (of y)) (hy : next y = none) :
    Holds of next h' p (l ++ [(a, x'), (b, y)]) := by
  induction l generalizing p with
  | nil => exact ⟨hl.1, ha, hx, hb, hy⟩
  | cons i l ih =>
    refine ⟨hl.1, ?_, ih hl.2.2 (fun j hj => hsame j (List.mem_cons_of_mem i hj))⟩
    rw [hsame i List.mem_cons_self]
    exact hl.2.1

end Holds

end Contents

end LinkedList
