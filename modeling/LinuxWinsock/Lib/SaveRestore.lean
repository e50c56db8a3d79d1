import Mathlib.Data.List.Basic

/-!
# Settings that are saved and put back

A setting of a state that one call changes, returning what was in force before it.  A block makes
the call, runs its body, and makes the call again with what the first one has returned.

* `Setting` — the setting and its call.  Several states may have the same value in force;
* `run` — the run of a well-nested program, with its calls, the states it passes and its blocks;
* `run_restores` — **save and restore**: every call returns what was in force, a block leaves in
  force what it found, and inside it its own value is;
* `run_frame` — what the call leaves alone, a program does.
-/

universe u v w

/-- A setting of states `σ` with values `α`.  The call takes and returns a value or none: what it
    does without one is left open. -/
structure Setting (σ : Type u) (α : Type v) where
  /-- The value that is in force. -/
  inForce : σ → α
  /-- The call, with what it returns. -/
  set : Option α → σ → Option α × σ
  set_fst : ∀ a s, (set (some a) s).1 = some (inForce s)
  inForce_set : ∀ a s, inForce (set (some a) s).2 = a

/-- Well-nested programs; `skip` is code without a call. -/
inductive Nested (α : Type v) where
  | skip
  | seq (p q : Nested α)
  /-- `p = set(a); body; set(p)` -/
  | block (a : α) (body : Nested α)

namespace Setting

variable {σ : Type u} {α : Type v}

/-- A call, with the state it is made in. -/
structure Call (σ : Type u) (α : Type v) where
  before : σ
  arg : Option α
  returned : Option α

/-- A block, with the states before and behind it, and those inside it and outside its inner
    blocks. -/
structure Block (σ : Type u) (α : Type v) where
  value : α
  before : σ
  inside : List σ
  behind : σ

/-- The run of a program: the state it ends in, its calls, the states it passes outside its blocks,
    and its blocks. -/
structure Trace (σ : Type u) (α : Type v) where
  final : σ
  calls : List (Call σ α)
  passed : List σ
  blocks : List (Block σ α)

/-- The run of a program from a state. -/
def run (S : Setting σ α) : Nested α → σ → Trace σ α
  | .skip, s => ⟨s, [], [s], []⟩
  | .seq p q, s =>
    let t := run S p s
    let t' := run S q t.final
    ⟨t'.final, t.calls ++ t'.calls, t.passed ++ t'.passed, t.blocks ++ t'.blocks⟩
  | .block a body, s =>
    let entered := S.set (some a) s
    let t := run S body entered.2
    let left := S.set entered.1 t.final
    ⟨left.2, ⟨s, some a, entered.1⟩ :: (t.calls ++ [⟨t.final, entered.1, left.1⟩]), [s, left.2],
      ⟨a, s, t.passed, left.2⟩ :: t.blocks⟩

/-- What a run from a state with the value `a` in force has to keep. -/
structure Restores (S : Setting σ α) (a : α) (t : Trace σ α) : Prop where
  passed : ∀ s ∈ t.passed, S.inForce s = a
  calls : ∀ c ∈ t.calls, c.returned = some (S.inForce c.before)
  blocks : ∀ b ∈ t.blocks, S.inForce b.behind = S.inForce b.before ∧
    ∀ s ∈ b.inside, S.inForce s = b.value

variable {S : Setting σ α} {a : α} {s : σ} {t t' : Trace σ α}

/-- One run behind the other. -/
theorem Restores.seq (h : S.Restores a t) (h' : S.Restores a t') :
    S.Restores a ⟨t'.final, t.calls ++ t'.calls, t.passed ++ t'.passed, t.blocks ++ t'.blocks⟩ where
  passed := List.forall_mem_append.mpr ⟨h.passed, h'.passed⟩
  calls := List.forall_mem_append.mpr ⟨h.calls, h'.calls⟩
  blocks := List.forall_mem_append.mpr ⟨h.blocks, h'.blocks⟩

/-- A run inside a block: what its two calls return was in force before them. -/
theorem Restores.block (s : σ) (h : S.Restores a t) :
    S.Restores (S.inForce s)
      ⟨(S.set (some (S.inForce s)) t.final).2,
        ⟨s, some a, some (S.inForce s)⟩ :: (t.calls ++
          [⟨t.final, some (S.inForce s), (S.set (some (S.inForce s)) t.final).1⟩]),
        [s, (S.set (some (S.inForce s)) t.final).2],
        ⟨a, s, t.passed, (S.set (some (S.inForce s)) t.final).2⟩ :: t.blocks⟩ := by
  have hleft := S.inForce_set (S.inForce s) t.final
  constructor
  case passed => exact List.forall_mem_cons.mpr ⟨rfl, List.forall_mem_singleton.mpr hleft⟩
  case calls =>
    refine List.forall_mem_cons.mpr ⟨rfl, List.forall_mem_append.mpr ⟨h.calls, ?_⟩⟩
    exact List.forall_mem_singleton.mpr (S.set_fst _ _)
  case blocks => exact List.forall_mem_cons.mpr ⟨⟨hleft, h.passed⟩, h.blocks⟩

/-- The states at both ends are among those that a run passes. -/
theorem ends_mem_passed (S : Setting σ α) (p : Nested α) (s : σ) :
    s ∈ (S.run p s).passed ∧ (S.run p s).final ∈ (S.run p s).passed := by
  induction p generalizing s with
  | skip => exact ⟨List.mem_singleton_self s, List.mem_singleton_self s⟩
  | seq p q ihp ihq =>
    exact ⟨List.mem_append_left _ (ihp s).1, List.mem_append_right _ (ihq _).2⟩
  | block a body => exact ⟨List.mem_cons_self, List.mem_cons_of_mem s (List.mem_singleton_self _)⟩

/-- **Save and restore.**  From any state, whatever a program nests. -/
theorem run_restores (S : Setting σ α) (p : Nested α) (s : σ) :
    S.Restores (S.inForce s) (S.run p s) := by
  induction p generalizing s with
  | skip => exact ⟨List.forall_mem_singleton.mpr rfl, nofun, nofun⟩
  | seq p q ihp ihq =>
    have hp := ihp s
    have hq := ihq (S.run p s).final
    rw [hp.passed _ (ends_mem_passed S p s).2] at hq
    exact hp.seq hq
  | block a body ih =>
    have hbody := ih (S.set (some a) s).2
    rw [S.inForce_set] at hbody
    have hblock := hbody.block s
    rw [← S.set_fst a s] at hblock
    exact hblock

/-- **Frame.**  What no call changes is the same in the end. -/
theorem run_frame {β : Type w} (view : σ → β) (hview : ∀ a s, view (S.set (some a) s).2 = view s)
    (p : Nested α) (s : σ) : view (S.run p s).final = view s := by
  induction p generalizing s with
  | skip => rfl
  | seq p q ihp ihq => exact (ihq _).trans (ihp s)
  | block a body ih =>
    show view (S.set (S.set (some a) s).1 (S.run body (S.set (some a) s).2).final).2 = view s
    rw [S.set_fst, hview, ih, hview]

end Setting
