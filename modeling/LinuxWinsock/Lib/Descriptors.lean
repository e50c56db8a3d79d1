import Mathlib.Logic.Function.Basic
import Mathlib.Data.Set.Basic

/-!
# A table of descriptors

Descriptors refer to open files, several of them possibly to one.  A file that is opened is a new
one: the table counts them.

* `openAt_dup2_close` — to open a file, let another descriptor refer to it and close the first
  replaces what the other has referred to;
* `openAt_close` — to open and to close a file changes nothing.
-/

universe u

/-- What each descriptor refers to, and the number of the next file that is opened. -/
structure Descriptors (κ : Type u) where
  file : κ → Option Nat
  next : Nat
  fresh : ∀ fd f, file fd = some f → f < next

namespace Descriptors

variable {κ : Type u} [DecidableEq κ] {t : Descriptors κ} {fd g newfd : κ}

/-- The descriptors that are open. -/
def opened (t : Descriptors κ) : Set κ := {fd | t.file fd ≠ none}

omit [DecidableEq κ] in
theorem notMem_opened : fd ∉ t.opened ↔ t.file fd = none := not_not

omit [DecidableEq κ] in
/-- The next file is not open yet. -/
theorem file_ne_next (t : Descriptors κ) (fd : κ) : t.file fd ≠ some t.next :=
  fun h => lt_irrefl _ (t.fresh fd t.next h)

omit [DecidableEq κ] in
theorem opened_congr {t' : Descriptors κ} (h : t'.file = t.file) : t'.opened = t.opened := by
  unfold opened
  rw [h]

/-- To let an open descriptor refer to another file opens no descriptor. -/
theorem opened_of_update {t' : Descriptors κ} {f : Nat}
    (h : t'.file = Function.update t.file fd (some f)) (hfd : fd ∈ t.opened) :
    t'.opened = t.opened := by
  ext g
  by_cases hg : g = fd
  · subst hg
    simpa [opened, h] using hfd
  · simp [opened, h, hg]

/-- A new file, open at `fd`. -/
def openAt (t : Descriptors κ) (fd : κ) : Descriptors κ where
  file := Function.update t.file fd (some t.next)
  next := t.next + 1
  fresh := by
    intro g f hg
    rw [Function.update_apply] at hg
    split at hg
    · obtain rfl := Option.some.inj hg
      exact Nat.lt_succ_self _
    · exact Nat.lt_succ_of_lt (t.fresh g f hg)

/-- `dup2`: `newfd` refers to what `oldfd` refers to. -/
def dup2 (t : Descriptors κ) (oldfd newfd : κ) : Descriptors κ where
  file := Function.update t.file newfd (t.file oldfd)
  next := t.next
  fresh := by
    intro g f hg
    rw [Function.update_apply] at hg
    split at hg
    · exact t.fresh oldfd f hg
    · exact t.fresh g f hg

/-- `close` -/
def close (t : Descriptors κ) (fd : κ) : Descriptors κ where
  file := Function.update t.file fd none
  next := t.next
  fresh := by
    intro g f hg
    rw [Function.update_apply] at hg
    split at hg
    · cases hg
    · exact t.fresh g f hg

@[simp] theorem openAt_file (t : Descriptors κ) (fd : κ) :
    (t.openAt fd).file = Function.update t.file fd (some t.next) := rfl

@[simp] theorem dup2_file (t : Descriptors κ) (oldfd newfd : κ) :
    (t.dup2 oldfd newfd).file = Function.update t.file newfd (t.file oldfd) := rfl

@[simp] theorem close_file (t : Descriptors κ) (fd : κ) :
    (t.close fd).file = Function.update t.file fd none := rfl

/-- **No leak.**  To open and to close a file at a free descriptor changes nothing. -/
theorem openAt_close (hfree : fd ∉ t.opened) : ((t.openAt fd).close fd).file = t.file := by
  ext1 g
  by_cases hg : g = fd
  · subst hg
    simp [notMem_opened.mp hfree]
  · simp [hg]

/-- **Replacement.**  The new file goes from a free descriptor to another one. -/
theorem openAt_dup2_close (hfree : fd ∉ t.opened) (hne : newfd ≠ fd) :
    (((t.openAt fd).dup2 fd newfd).close fd).file =
      Function.update t.file newfd (some t.next) := by
  ext1 g
  by_cases hg : g = fd
  · subst hg
    simp [notMem_opened.mp hfree, hne.symm]
  · by_cases hnew : g = newfd
    · subst hnew
      simp [hg]
    · simp [hg, hnew]

end Descriptors
