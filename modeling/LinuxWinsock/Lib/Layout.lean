import LinuxWinsock.Lib.Memory

/-!
# C structs in memory

The members of a struct are placed in their order, each at the first offset from the end of
the one before that its alignment allows, and the size of the struct is rounded up to the
largest alignment.

* `place_pairwise` — members do not overlap;
* `load_store` — what is stored through a struct is read back through it;
* `store_of_outside` — and the bytes between and behind its members are left alone.
-/

universe u

namespace Layout

variable {ι : Type u}

/-- A member of a struct, with its size and its alignment in bytes. -/
structure Member (ι : Type u) where
  name : ι
  size : Nat
  align : Nat
  align_pos : 0 < align

/-- A member at its offset. -/
structure Slot (ι : Type u) where
  name : ι
  offset : Nat
  size : Nat

/-- The first multiple of `a` from `n` on. -/
def alignUp (a n : Nat) : Nat := (n + (a - 1)) / a * a

/-- The slots of the members, from the offset `o` on. -/
def placeFrom : Nat → List (Member ι) → List (Slot ι)
  | _, [] => []
  | o, m :: ms =>
    ⟨m.name, alignUp m.align o, m.size⟩ :: placeFrom (alignUp m.align o + m.size) ms

/-- The slots of a struct. -/
def place (members : List (Member ι)) : List (Slot ι) := placeFrom 0 members

/-- The end of the last slot. -/
def endOf (slots : List (Slot ι)) : Nat :=
  slots.foldl (fun o s => max o (s.offset + s.size)) 0

/-- `sizeof` -/
def sizeof (members : List (Member ι)) : Nat :=
  alignUp (members.foldl (fun a m => max a m.align) 1) (endOf (place members))

/-- `sizeof` of a union -/
def unionSize (members : List (Member ι)) : Nat :=
  alignUp (members.foldl (fun a m => max a m.align) 1) (members.foldl (fun n m => max n m.size) 0)

/-- `offsetof`; 0 for what is not a member. -/
def offsetof [DecidableEq ι] (members : List (Member ι)) (f : ι) : Nat :=
  (((place members).find? (fun s => decide (s.name = f))).map Slot.offset).getD 0

/-- The memory with the values `v` stored in the slots of a struct at `base`. -/
def store (v : ι → List Byte) (base : Nat) : List (Slot ι) → Memory → Memory
  | [], m => m
  | s :: slots, m => store v base slots (m.storeBytes (base + s.offset) (v s.name))

/-- The bytes of the member `f` of a struct at `base`, if it has one. -/
def load [DecidableEq ι] (members : List (Member ι)) (base : Nat) (m : Memory) (f : ι) :
    Option (List Byte) :=
  ((place members).find? (fun s => decide (s.name = f))).map
    (fun s => m.loadBytes (base + s.offset) s.size)

/-- The values have the sizes of the slots. -/
def Fits (v : ι → List Byte) (slots : List (Slot ι)) : Prop :=
  ∀ s ∈ slots, (v s.name).length = s.size

theorem le_alignUp {a : Nat} (ha : 0 < a) (n : Nat) : n ≤ alignUp a n := by
  have hdiv := Nat.div_add_mod (n + (a - 1)) a
  have hmod := Nat.mod_lt (n + (a - 1)) ha
  rw [Nat.mul_comm] at hdiv
  unfold alignUp
  omega

theorem le_offset {o : Nat} {members : List (Member ι)} :
    ∀ s ∈ placeFrom o members, o ≤ s.offset := by
  induction members generalizing o with
  | nil => simp [placeFrom]
  | cons m ms ih =>
    have hle := le_alignUp m.align_pos o
    intro s hs
    rcases List.mem_cons.mp hs with rfl | hs
    · exact hle
    · have hrest := ih s hs
      omega

/-- **No overlap.**  Each slot ends before the later ones begin. -/
theorem place_pairwise (o : Nat) (members : List (Member ι)) :
    (placeFrom o members).Pairwise (fun s t => s.offset + s.size ≤ t.offset) := by
  induction members generalizing o with
  | nil => exact .nil
  | cons m ms ih => exact .cons (fun t ht => le_offset t ht) (ih _)

variable {v : ι → List Byte} {base : Nat} {slots : List (Slot ι)} {m : Memory}

theorem Fits.tail {s : Slot ι} (h : Fits v (s :: slots)) : Fits v slots :=
  fun t ht => h t (List.mem_cons_of_mem s ht)

/-- A byte of no slot is left alone. -/
theorem store_of_outside (hfits : Fits v slots) {i : Nat}
    (h : ∀ s ∈ slots, i < base + s.offset ∨ base + s.offset + s.size ≤ i) :
    store v base slots m i = m i := by
  induction slots generalizing m with
  | nil => rfl
  | cons s slots ih =>
    have hsize := hfits s List.mem_cons_self
    show store v base slots (m.storeBytes (base + s.offset) (v s.name)) i = m i
    rw [ih hfits.tail (fun t ht => h t (List.mem_cons_of_mem s ht))]
    rcases h s List.mem_cons_self with hlt | hge
    · exact Memory.storeBytes_of_lt hlt
    · exact Memory.storeBytes_of_le (by omega)

/-- A run of bytes in front of all slots is left alone. -/
theorem loadBytes_store_of_before (hfits : Fits v slots) {o n : Nat}
    (h : ∀ s ∈ slots, o + n ≤ base + s.offset) :
    (store v base slots m).loadBytes o n = m.loadBytes o n := by
  rw [Memory.loadBytes_eq_iff]
  intro i hi
  exact store_of_outside hfits (fun s hs => .inl (by have hlt := h s hs; omega))

/-- What was stored in a slot is read back. -/
theorem loadBytes_store (hfits : Fits v slots)
    (hpair : slots.Pairwise (fun s t => s.offset + s.size ≤ t.offset)) {s : Slot ι}
    (hs : s ∈ slots) :
    (store v base slots m).loadBytes (base + s.offset) s.size = v s.name := by
  induction slots generalizing m with
  | nil => cases hs
  | cons t slots ih =>
    obtain ⟨hfirst, hrest⟩ := List.pairwise_cons.mp hpair
    rcases List.mem_cons.mp hs with rfl | hs
    · -- the later slots are behind it
      have hsize := hfits s List.mem_cons_self
      show (store v base slots _).loadBytes _ _ = _
      rw [loadBytes_store_of_before hfits.tail
        (fun t ht => by have hle := hfirst t ht; omega), ← hsize, Memory.loadBytes_storeBytes]
    · exact ih hfits.tail hrest hs

/-- **Round trip.**  Through the same struct, each member is read as it was stored. -/
theorem load_store [DecidableEq ι] {members : List (Member ι)} (hfits : Fits v (place members))
    {f : ι} (hf : ∃ s ∈ place members, s.name = f) (base : Nat) (m : Memory) :
    load members base (store v base (place members) m) f = some (v f) := by
  unfold load
  cases hfind : (place members).find? (fun s => decide (s.name = f)) with
  | none =>
    obtain ⟨s, hs, hname⟩ := hf
    have hne := List.find?_eq_none.mp hfind s hs
    simp [hname] at hne
  | some s =>
    have hfound := List.find?_some hfind
    have hname : s.name = f := of_decide_eq_true hfound
    have hmem := List.mem_of_find?_eq_some hfind
    rw [Option.map_some, loadBytes_store hfits (place_pairwise 0 members) hmem, hname]

end Layout
