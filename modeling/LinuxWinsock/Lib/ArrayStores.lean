import LinuxWinsock.Lib.WideString
import Mathlib.Data.List.GetD

/-!
# Stores into arrays of bytes

What a function stores into an array, byte by byte, as the list of the indices and bytes.

* `storeAll_copyStores` — what `strncpy` leaves of an array;
* `stringIn_cut` — a string that is copied up to `n` and terminated there is cut to `n`.
-/

namespace CString

open WideString

variable {s : CString} {array : List Byte} {n : Nat}

/-- The array after the stores. -/
def storeAll (array : List Byte) (stores : List (Nat × Byte)) : List Byte :=
  stores.foldl (fun array e => array.set e.1 e.2) array

/-- The stores of `strncpy(dst, s, n)`, which go on with zeros behind the string, and of
    `memcpy(dst, s, n)` within it. -/
def copyStores (s : CString) (n : Nat) : List (Nat × Byte) :=
  (List.range n).map (fun i => (i, s.getD i 0))

theorem storeAll_append (array : List Byte) (stores stores' : List (Nat × Byte)) :
    storeAll array (stores ++ stores') = storeAll (storeAll array stores) stores' :=
  List.foldl_append

theorem copyStores_succ (s : CString) (n : Nat) :
    copyStores s (n + 1) = copyStores s n ++ [(n, s.getD n 0)] := by
  rw [copyStores, List.range_succ, List.map_append]
  rfl

/-- No store is behind the `n` bytes. -/
theorem lt_of_mem_copyStores {e : Nat × Byte} (h : e ∈ copyStores s n) : e.1 < n := by
  obtain ⟨i, hi, rfl⟩ := List.mem_map.mp h
  exact List.mem_range.mp hi

/-- One more byte of a string with zeros behind it. -/
theorem take_append_zeros_succ (s : CString) (n : Nat) :
    s.take (n + 1) ++ List.replicate (n + 1 - s.length) 0 =
      s.take n ++ List.replicate (n - s.length) 0 ++ [s.getD n 0] := by
  by_cases hn : n < s.length
  · have hsub : n + 1 - s.length = 0 ∧ n - s.length = 0 := by omega
    rw [hsub.1, hsub.2, List.take_succ_eq_append_getElem hn, List.getD_eq_getElem s 0 hn]
    simp
  · have hsub : n + 1 - s.length = (n - s.length) + 1 := by omega
    rw [List.take_of_length_le (by omega), List.take_of_length_le (by omega), hsub,
      List.replicate_succ', List.getD_eq_default s 0 (by omega), List.append_assoc]

/-- The first `n` bytes of a string with zeros behind it. -/
theorem length_take_append_zeros (s : CString) (n : Nat) :
    (s.take n ++ List.replicate (n - s.length) (0 : Byte)).length = n := by
  rw [List.length_append, List.length_take, List.length_replicate]
  omega

/-- A store behind what is there already. -/
theorem set_append_drop {front : List Byte} (hfront : front.length = n) (hn : n < array.length)
    (b : Byte) : (front ++ array.drop n).set n b = front ++ b :: array.drop (n + 1) := by
  rw [List.set_append_right _ _ (by omega), hfront, Nat.sub_self, List.drop_eq_getElem_cons hn,
    List.set_cons_zero]

/-- **`strncpy`** leaves the string in the array, cut to `n` bytes or with zeros up to there. -/
theorem storeAll_copyStores (s : CString) (hn : n ≤ array.length) :
    storeAll array (copyStores s n) =
      s.take n ++ List.replicate (n - s.length) 0 ++ array.drop n := by
  induction n with
  | zero => simp [storeAll, copyStores]
  | succ n ih =>
    rw [copyStores_succ, storeAll_append, ih (by omega), take_append_zeros_succ]
    show (_ ++ array.drop n).set n (s.getD n 0) = _
    rw [set_append_drop (length_take_append_zeros s n) (by omega)]
    exact List.append_cons _ _ _

/-- **Cutting.**  What is copied up to `n`, and terminated there, is the string cut to `n`. -/
theorem stringIn_cut (hs : 0 ∉ s) (hn : n < array.length) :
    stringIn (storeAll array (copyStores s n ++ [(n, 0)])) = some (s.take n) := by
  have htake : (0 : Byte) ∉ s.take n := fun hmem => hs (List.mem_of_mem_take hmem)
  rw [storeAll_append, storeAll_copyStores s (by omega)]
  show stringIn ((_ ++ array.drop n).set n 0) = _
  rw [set_append_drop (length_take_append_zeros s n) hn]
  -- the first of the zeros ends the string, if the copy has any
  cases hzeros : n - s.length with
  | zero =>
    rw [List.replicate_zero, List.append_nil]
    exact terminated_append htake _
  | succ k =>
    rw [List.replicate_succ, List.append_assoc, List.cons_append]
    exact terminated_append htake _

end CString
