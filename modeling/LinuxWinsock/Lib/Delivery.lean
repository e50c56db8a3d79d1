import Mathlib.Data.List.Basic

/-!
# Delivering a stream in pieces

A sender offers one piece after the other to a channel, which accepts the first part of each, or
fails.  The sender goes on to the next piece whatever was accepted, and stops at a failure.

* `delivered`, `succeeded` — what has been accepted, and whether every piece was answered;
* `delivers_iff_resumes` — the channel holds the whole stream, or a prefix of it after a failure,
  exactly if behind a piece that is cut short the channel fails, and what it accepted in between
  continues that piece.
-/

universe u

/-- A piece that is offered, with the number of elements accepted; `none` for a failure. -/
structure Offer (α : Type u) where
  data : List α
  answer : Option Nat

namespace Offer

variable {α : Type u} {o : Offer α} {os before after between : List (Offer α)}

/-- What is accepted of a piece. -/
def accepted (o : Offer α) : List α := o.data.take (o.answer.getD 0)

/-- The channel after the pieces were offered. -/
def delivered : List (Offer α) → List α
  | [] => []
  | o :: os =>
    match o.answer with
    | none => []
    | some n => o.data.take n ++ delivered os

/-- No piece was answered by a failure. -/
def succeeded : List (Offer α) → Bool
  | [] => true
  | o :: os => o.answer.isSome && succeeded os

/-- The whole stream. -/
def whole (os : List (Offer α)) : List α := os.flatMap data

/-- The channel holds the whole stream if it did not fail, and a prefix of it if it did. -/
def Delivers (os : List (Offer α)) : Prop :=
  (succeeded os = true → delivered os = whole os) ∧
    (succeeded os = false → delivered os <+: whole os)

/-- Behind the first piece that is cut short the channel fails, and what it accepts until then is
    what the piece lacks. -/
def Resumes (os : List (Offer α)) : Prop :=
  ∀ before o rest n, os = before ++ o :: rest →
    (∀ b ∈ before, b.answer = some b.data.length) → o.answer = some n → n < o.data.length →
    ∃ between d after, rest = between ++ d :: after ∧ d.answer = none ∧
      (∀ b ∈ between, b.answer ≠ none) ∧
      between.flatMap accepted <+: o.data.drop n ++ whole rest

/-! ### One piece more -/

theorem delivered_cons_some {n : Nat} (h : o.answer = some n) (os : List (Offer α)) :
    delivered (o :: os) = o.data.take n ++ delivered os := by
  simp only [delivered, h]

theorem delivered_cons_none (h : o.answer = none) (os : List (Offer α)) :
    delivered (o :: os) = [] := by
  simp only [delivered, h]

theorem succeeded_cons_some {n : Nat} (h : o.answer = some n) (os : List (Offer α)) :
    succeeded (o :: os) = succeeded os := by
  simp only [succeeded, h, Option.isSome_some, Bool.true_and]

theorem succeeded_cons_none (h : o.answer = none) (os : List (Offer α)) :
    succeeded (o :: os) = false := by
  simp only [succeeded, h, Option.isSome_none, Bool.false_and]

theorem whole_cons (o : Offer α) (os : List (Offer α)) : whole (o :: os) = o.data ++ whole os :=
  List.flatMap_cons

/-- A channel that failed did so at some piece, and holds what it accepted until then. -/
theorem failed_iff : succeeded os = false ↔ ∃ between d after, os = between ++ d :: after ∧
    d.answer = none ∧ ∀ b ∈ between, b.answer ≠ none := by
  induction os with
  | nil => simp [succeeded]
  | cons o os ih =>
    cases h : o.answer with
    | none =>
      refine iff_of_true (succeeded_cons_none h os) ⟨[], o, os, rfl, h, ?_⟩
      exact fun b hb => absurd hb List.not_mem_nil
    | some n =>
      rw [succeeded_cons_some h, ih]
      constructor
      · rintro ⟨between, d, after, rfl, hd, hb⟩
        refine ⟨o :: between, d, after, rfl, hd, fun b hmem => ?_⟩
        rcases List.mem_cons.mp hmem with rfl | hmem
        · rw [h]
          exact Option.some_ne_none n
        · exact hb b hmem
      · rintro ⟨between, d, after, heq, hd, hb⟩
        cases between with
        | nil =>
          obtain rfl := (List.cons.inj heq).1
          rw [h] at hd
          cases hd
        | cons b between =>
          obtain ⟨rfl, rfl⟩ := List.cons.inj heq
          exact ⟨between, d, after, rfl, hd, fun b hmem => hb b (List.mem_cons_of_mem _ hmem)⟩

/-- What is accepted until a failure. -/
theorem delivered_failed {d : Offer α} (hd : d.answer = none) (hb : ∀ b ∈ between, b.answer ≠ none)
    (after : List (Offer α)) : delivered (between ++ d :: after) = between.flatMap accepted := by
  induction between with
  | nil => exact delivered_cons_none hd after
  | cons b between ih =>
    obtain ⟨n, hn⟩ := Option.ne_none_iff_exists'.mp (hb b List.mem_cons_self)
    rw [List.cons_append, delivered_cons_some hn, List.flatMap_cons, accepted, hn,
      ih (fun b hmem => hb b (List.mem_cons_of_mem _ hmem))]
    rfl

/-! ### Pieces behind pieces -/

theorem succeeded_append (os os' : List (Offer α)) :
    succeeded (os ++ os') = (succeeded os && succeeded os') := by
  induction os with
  | nil => rfl
  | cons o os ih => rw [List.cons_append, succeeded, succeeded, ih, Bool.and_assoc]

theorem whole_append (os os' : List (Offer α)) : whole (os ++ os') = whole os ++ whole os' :=
  List.flatMap_append

/-- Behind pieces that were all answered the channel goes on. -/
theorem delivered_append_of_succeeded {os : List (Offer α)} (h : succeeded os = true)
    (os' : List (Offer α)) : delivered (os ++ os') = delivered os ++ delivered os' := by
  induction os with
  | nil => rfl
  | cons o os ih =>
    cases ho : o.answer with
    | none =>
      rw [succeeded_cons_none ho] at h
      cases h
    | some n =>
      rw [succeeded_cons_some ho] at h
      rw [List.cons_append, delivered_cons_some ho, delivered_cons_some ho, ih h, List.append_assoc]

/-- Behind a failure it does not. -/
theorem delivered_append_of_failed {os : List (Offer α)} (h : succeeded os = false)
    (os' : List (Offer α)) : delivered (os ++ os') = delivered os := by
  induction os with
  | nil => cases h
  | cons o os ih =>
    cases ho : o.answer with
    | none => rw [List.cons_append, delivered_cons_none ho, delivered_cons_none ho]
    | some n =>
      rw [succeeded_cons_some ho] at h
      rw [List.cons_append, delivered_cons_some ho, delivered_cons_some ho, ih h]

/-! ### The exact condition -/

/-- What was accepted is never longer than what was offered. -/
theorem length_delivered_le (os : List (Offer α)) : (delivered os).length ≤ (whole os).length := by
  induction os with
  | nil => exact Nat.le_refl _
  | cons o os ih =>
    rw [whole_cons, List.length_append]
    cases h : o.answer with
    | none =>
      rw [delivered_cons_none h]
      exact Nat.zero_le _
    | some n =>
      rw [delivered_cons_some h, List.length_append, List.length_take]
      omega

/-- After a failure at once nothing is asked. -/
theorem resumes_cons_none (h : o.answer = none) (os : List (Offer α)) : Resumes (o :: os) := by
  intro before o' rest n heq hbefore ho' _
  cases before with
  | nil =>
    obtain ⟨rfl, -⟩ := List.cons.inj heq
    rw [h] at ho'
    cases ho'
  | cons b before =>
    obtain ⟨rfl, -⟩ := List.cons.inj heq
    have hfull := hbefore o List.mem_cons_self
    rw [h] at hfull
    cases hfull

/-- A piece that is accepted in full asks for nothing. -/
theorem resumes_cons_full (h : o.answer = some o.data.length) (os : List (Offer α)) :
    Resumes (o :: os) ↔ Resumes os := by
  constructor
  · rintro hres before o' rest n rfl hbefore
    refine hres (o :: before) o' rest n rfl (fun b hmem => ?_)
    rcases List.mem_cons.mp hmem with rfl | hmem
    · exact h
    · exact hbefore b hmem
  · intro hres before o' rest n heq hbefore ho' hshort
    cases before with
    | nil =>
      obtain ⟨rfl, -⟩ := List.cons.inj heq
      rw [h] at ho'
      obtain rfl := Option.some.inj ho'
      exact absurd hshort (Nat.lt_irrefl _)
    | cons b before =>
      obtain ⟨-, rfl⟩ := List.cons.inj heq
      exact hres before o' rest n rfl (fun b hmem => hbefore b (List.mem_cons_of_mem _ hmem)) ho'
        hshort

/-- Behind a piece that is cut short the channel has to fail, and to go on where it was cut. -/
theorem resumes_cons_short {n : Nat} (h : o.answer = some n) (hn : n < o.data.length)
    (os : List (Offer α)) :
    Resumes (o :: os) ↔
      succeeded os = false ∧ delivered os <+: o.data.drop n ++ whole os := by
  constructor
  · intro hres
    obtain ⟨between, d, after, rfl, hd, hb, hprefix⟩ :=
      hres [] o os n rfl (fun b hmem => absurd hmem List.not_mem_nil) h hn
    rw [delivered_failed hd hb]
    exact ⟨failed_iff.mpr ⟨between, d, after, rfl, hd, hb⟩, hprefix⟩
  · rintro ⟨hfail, hprefix⟩ before o' rest n' heq hbefore ho' _
    cases before with
    | nil =>
      obtain ⟨rfl, rfl⟩ := List.cons.inj heq
      obtain rfl : n = n' := Option.some.inj (h.symm.trans ho')
      obtain ⟨between, d, after, rfl, hd, hb⟩ := failed_iff.mp hfail
      rw [delivered_failed hd hb] at hprefix
      exact ⟨between, d, after, rfl, hd, hb, hprefix⟩
    | cons b before =>
      obtain ⟨rfl, -⟩ := List.cons.inj heq
      have hfull := hbefore o List.mem_cons_self
      rw [h] at hfull
      obtain rfl := Option.some.inj hfull
      exact absurd hn (Nat.lt_irrefl _)

/-- **The exact condition.**  If the channel accepts no more than it is offered, it holds the
    stream as it should exactly if it resumes behind a piece that is cut short. -/
theorem delivers_iff_resumes (h : ∀ o ∈ os, ∀ n, o.answer = some n → n ≤ o.data.length) :
    Delivers os ↔ Resumes os := by
  induction os with
  | nil =>
    refine iff_of_true ⟨fun _ => rfl, fun hfail => by cases hfail⟩ ?_
    intro before o rest n heq
    cases before <;> cases heq
  | cons o os ih =>
    have ih := ih (fun o' hmem => h o' (List.mem_cons_of_mem _ hmem))
    cases ho : o.answer with
    | none =>
      refine iff_of_true ?_ (resumes_cons_none ho os)
      unfold Delivers
      rw [succeeded_cons_none ho, delivered_cons_none ho]
      exact ⟨fun hsucc => (by cases hsucc), fun _ => List.nil_prefix⟩
    | some n =>
      have hle := h o List.mem_cons_self n ho
      unfold Delivers
      rw [succeeded_cons_some ho, delivered_cons_some ho, whole_cons]
      by_cases hfull : n = o.data.length
      · -- the piece is in the channel, and stays in front of both sides
        subst hfull
        rw [resumes_cons_full ho, ← ih, List.take_length, List.append_cancel_left_eq,
          List.prefix_append_right_inj]
        rfl
      · have hshort : n < o.data.length := by omega
        have hsplit : o.data ++ whole os = o.data.take n ++ (o.data.drop n ++ whole os) := by
          rw [← List.append_assoc, List.take_append_drop]
        rw [resumes_cons_short ho hshort, hsplit, List.append_cancel_left_eq,
          List.prefix_append_right_inj]
        -- what is lacking is never made up for
        have hlacks : delivered os ≠ o.data.drop n ++ whole os := by
          intro heq
          have hlen := length_delivered_le os
          rw [heq, List.length_append, List.length_drop] at hlen
          omega
        cases hsucc : succeeded os with
        | true => simp [hlacks]
        | false => simp

end Offer
