import LinuxWinsock.Lib.Memory
import Mathlib.Data.List.TakeWhile

/-!
# C strings and decimal numbers

A C string is the list of its bytes before the terminator.

* `strrchr_append` — the last occurrence of a byte, where a string was put together;
* `atoi_digits`, `atoi_decimal` — `atoi` of digits, and of what `%d` prints.
-/

/-- A C string, as its bytes before the terminator. -/
abbrev CString := List Byte

namespace CString

/-! ### Searching and truncating -/

/-- The index of the last occurrence of `c`. -/
def strrchr : CString → Byte → Option Nat
  | [], _ => none
  | b :: s, c =>
    match strrchr s c with
    | some i => some (i + 1)
    | none => if b = c then some 0 else none

theorem strrchr_eq_none {s : CString} {c : Byte} (h : c ∉ s) : strrchr s c = none := by
  induction s with
  | nil => rfl
  | cons b s ih =>
    have hb : b ≠ c := fun heq => h (heq ▸ List.mem_cons_self)
    have hs : c ∉ s := fun hmem => h (List.mem_cons_of_mem b hmem)
    simp [strrchr, ih hs, hb]

/-- The last `c` is the one that no other follows. -/
theorem strrchr_append (s : CString) {t : CString} {c : Byte} (h : c ∉ t) :
    strrchr (s ++ c :: t) c = some s.length := by
  induction s with
  | nil => simp [strrchr, strrchr_eq_none h]
  | cons b s ih => simp [strrchr, ih]

/-- What a bounded print leaves of `s` in an array of `size` bytes. -/
def snprintf (size : Nat) (s : CString) : CString := s.take (size - 1)

theorem snprintf_of_lt {size : Nat} {s : CString} (h : s.length < size) : snprintf size s = s :=
  List.take_of_length_le (by omega)

/-! ### Decimal numbers -/

/-- A natural number as `%d` prints it. -/
def decimal (n : Nat) : CString := (Nat.toDigits 10 n).map (fun c => BitVec.ofNat 8 c.toNat)

def isDigit (c : Byte) : Bool := decide (48 ≤ c.toNat) && decide (c.toNat ≤ 57)

def isSpace (c : Byte) : Bool := c = 32 || (decide (9 ≤ c.toNat) && decide (c.toNat ≤ 13))

/-- The number that the digits of `s` stand for. -/
def digitsValue (s : CString) : Nat := s.foldl (fun v c => 10 * v + (c.toNat - 48)) 0

/-- The number as a `long`, limited to its range. -/
def clampLong (v : Int) : Int := max (-(2 ^ 63)) (min v (2 ^ 63 - 1))

/-- `strtol(s, NULL, 10)`: spaces, a sign, and the digits up to the first other byte. -/
def strtol (s : CString) : Int :=
  match s.dropWhile isSpace with
  | [] => 0
  | c :: rest =>
    if c = 45 then clampLong (-(digitsValue (rest.takeWhile isDigit)))
    else if c = 43 then clampLong (digitsValue (rest.takeWhile isDigit))
    else clampLong (digitsValue ((c :: rest).takeWhile isDigit))

/-- `(int) strtol(s, NULL, 10)` -/
def atoi (s : CString) : BitVec 32 := BitVec.ofInt 32 (strtol s)

/-- A printed digit keeps its code. -/
theorem toNat_ofChar {c : Char} (h : c.isDigit = true) :
    (BitVec.ofNat 8 c.toNat).toNat = c.toNat ∧ 48 ≤ c.toNat ∧ c.toNat ≤ 57 := by
  have hrange : 48 ≤ c.toNat ∧ c.toNat ≤ 57 := Char.isDigit_iff_toNat.mp h
  refine ⟨?_, hrange⟩
  rw [BitVec.toNat_ofNat]
  omega

/-- Everything that is printed is a digit. -/
theorem isDigit_of_mem_decimal {n : Nat} {c : Byte} (h : c ∈ decimal n) : isDigit c = true := by
  obtain ⟨d, hd, rfl⟩ := List.mem_map.mp h
  have hdigit := Nat.isDigit_of_mem_toDigits (by decide) (by decide) hd
  obtain ⟨hcode, hlo, hhi⟩ := toNat_ofChar hdigit
  simp [isDigit, hcode, hlo, hhi]

theorem decimal_ne_nil (n : Nat) : decimal n ≠ [] := by
  simp [decimal, Nat.toDigits_ne_nil]

theorem length_decimal_le {n k : Nat} (hk : 0 < k) (h : n < 10 ^ k) : (decimal n).length ≤ k := by
  rw [decimal, List.length_map]
  exact (Nat.length_toDigits_le_iff (by decide) hk).mpr h

/-- The digits that are printed stand for the number. -/
theorem digitsValue_decimal (n : Nat) : digitsValue (decimal n) = n := by
  have hfold : ∀ (l : List Char) (v : Nat), (∀ c ∈ l, c.isDigit = true) →
      (l.map (fun c => BitVec.ofNat 8 c.toNat)).foldl (fun v c => 10 * v + (c.toNat - 48)) v =
        Nat.ofDigitChars 10 l v := by
    intro l
    induction l with
    | nil => intro v _; simp
    | cons c l ih =>
      intro v hl
      have hc := (toNat_ofChar (hl c List.mem_cons_self)).1
      rw [List.map_cons, List.foldl_cons, hc, Nat.ofDigitChars_cons]
      exact ih _ (fun d hd => hl d (List.mem_cons_of_mem c hd))
  have hdigits : ∀ c ∈ Nat.toDigits 10 n, c.isDigit = true :=
    fun c hc => Nat.isDigit_of_mem_toDigits (by decide) (by decide) hc
  rw [digitsValue, decimal, hfold _ _ hdigits, Nat.ofDigitChars_ten_toDigits]

/-- A digit is neither a space nor a sign. -/
theorem plain_of_isDigit {c : Byte} (h : isDigit c = true) :
    isSpace c = false ∧ c ≠ 45 ∧ c ≠ 43 := by
  have hrange : 48 ≤ c.toNat ∧ c.toNat ≤ 57 := by simpa [isDigit] using h
  have hne : ∀ d : Byte, d.toNat < 48 → c ≠ d := by
    rintro d hd rfl
    omega
  have hspace : ¬ c = 32 := hne 32 (by decide)
  have htab : ¬ c.toNat ≤ 13 := by omega
  refine ⟨?_, hne 45 (by decide), hne 43 (by decide)⟩
  rw [isSpace, decide_eq_false hspace, decide_eq_false htab, Bool.and_false, Bool.or_false]

/-- `strtol` of digits alone. -/
theorem strtol_digits {s : CString} (hne : s ≠ []) (hs : ∀ c ∈ s, isDigit c = true) :
    strtol s = clampLong (digitsValue s) := by
  have hdigits : s.takeWhile isDigit = s := List.takeWhile_eq_self_iff.mpr hs
  cases s with
  | nil => exact absurd rfl hne
  | cons c rest =>
    obtain ⟨hspace, hminus, hplus⟩ := plain_of_isDigit (hs c List.mem_cons_self)
    simp only [strtol, List.dropWhile_cons, hspace, hminus, hplus, hdigits, if_false,
      Bool.false_eq_true]

/-- **`atoi` of digits** is the number they stand for. -/
theorem atoi_digits {s : CString} (hne : s ≠ []) (hs : ∀ c ∈ s, isDigit c = true)
    (hmax : digitsValue s < 2 ^ 31) : atoi s = BitVec.ofNat 32 (digitsValue s) := by
  have hclamp : clampLong (digitsValue s) = digitsValue s := by
    unfold clampLong
    omega
  rw [atoi, strtol_digits hne hs, hclamp, BitVec.ofInt_natCast]

/-- **`atoi` reads back what `%d` prints.** -/
theorem atoi_decimal {n : Nat} (h : n < 2 ^ 31) : atoi (decimal n) = BitVec.ofNat 32 n := by
  have hdigits := atoi_digits (decimal_ne_nil n) (fun c hc => isDigit_of_mem_decimal hc)
  rw [digitsValue_decimal] at hdigits
  exact hdigits h

/-- Zeros, and whatever ends the number behind them. -/
theorem atoi_zeros {s : CString} (hs : ∀ c ∈ s, c = 48 ∨ c = 46) : atoi s = 0 := by
  have hzero : ∀ t : CString, (∀ c ∈ t, c = 48) → digitsValue t = 0 := by
    intro t ht
    rw [List.eq_replicate_of_mem ht]
    induction t.length with
    | zero => rfl
    | succ n ih => exact ih
  have hprefix : digitsValue (s.takeWhile isDigit) = 0 := by
    refine hzero _ (fun c hc => (hs c (List.takeWhile_subset _ hc)).resolve_right ?_)
    rintro rfl
    exact absurd (List.mem_takeWhile_imp hc) (by decide)
  cases s with
  | nil => rfl
  | cons c rest =>
    have hc : isSpace c = false ∧ c ≠ 45 ∧ c ≠ 43 := by
      rcases hs c List.mem_cons_self with rfl | rfl <;> decide
    obtain ⟨hspace, hminus, hplus⟩ := hc
    simp only [atoi, strtol, List.dropWhile_cons, hspace, hminus, hplus, hprefix, if_false,
      Bool.false_eq_true]
    rfl

end CString
