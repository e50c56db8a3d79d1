import LinuxWinsock.Lib.CString

/-!
# Wide strings and conversions between the two kinds

A wide string is the list of its characters before the terminator.  `mbstowcs` and `wcstombs`
are one conversion, of at most `n` characters into an array: the terminator is left out when
there is no room for it, and the result does not tell.

* `terminated` — the string an array starts with, if a terminator is in the array;
* `mbstowcs_of_lt`, `wcstombs_of_lt` — a string shorter than `n` arrives whole;
* `mbstowcs_of_le`, `wcstombs_of_le` — of any other, the first `n` characters arrive, with no
  terminator behind them.
-/

/-- A `wchar_t` of Linux. -/
abbrev WChar := BitVec 32

/-- A wide string, as its characters before the terminator. -/
abbrev WString := List WChar

namespace WideString

/-! ### Arrays of characters -/

section Arrays

variable {α β : Type} [DecidableEq β] {nul : β} {l r : List β}

/-- The string an array starts with; `none` where a scan for its end leaves the array. -/
def terminated (nul : β) : List β → Option (List β)
  | [] => none
  | b :: l => if b = nul then some [] else (terminated nul l).map (b :: ·)

theorem terminated_append (hl : nul ∉ l) (r : List β) :
    terminated nul (l ++ nul :: r) = some l := by
  induction l with
  | nil => simp [terminated]
  | cons b l ih =>
    simp only [List.mem_cons, not_or] at hl
    have hb : b ≠ nul := fun heq => hl.1 heq.symm
    simp [terminated, hb, ih hl.2]

theorem terminated_eq_none (hl : nul ∉ l) : terminated nul l = none := by
  induction l with
  | nil => simp [terminated]
  | cons b l ih =>
    simp only [List.mem_cons, not_or] at hl
    have hb : b ≠ nul := fun heq => hl.1 heq.symm
    simp [terminated, hb, ih hl.2]

/-- The conversion of at most `n` characters, each by `f`: the array after it, and the number
    of characters before the terminator, or `none` at one that `f` does not convert. -/
def convert (f : α → Option β) (nul : β) : Nat → List α → List β → List β × Option Nat
  | 0, _, dst => (dst, some 0)
  | _ + 1, [], dst => (nul :: dst.tail, some 0)
  | n + 1, a :: src, dst =>
    match f a with
    | none => (dst, none)
    | some b =>
      let rest := convert f nul n src dst.tail
      (b :: rest.1, rest.2.map (· + 1))

variable {f : α → Option β} {g : α → β} {src : List α} {n : Nat}

omit [DecidableEq β] in
/-- With room for the terminator, the whole string is converted. -/
theorem convert_of_lt (hf : ∀ a ∈ src, f a = some (g a)) (hn : src.length < n) (dst : List β) :
    convert f nul n src dst =
      (src.map g ++ nul :: dst.drop (src.length + 1), some src.length) := by
  induction src generalizing n dst with
  | nil =>
    obtain ⟨m, rfl⟩ := Nat.exists_eq_succ_of_ne_zero (Nat.ne_of_gt hn)
    simp [convert]
  | cons a src ih =>
    obtain ⟨m, rfl⟩ := Nat.exists_eq_succ_of_ne_zero (Nat.ne_of_gt (Nat.zero_lt_of_lt hn))
    have hrest := ih (fun b hb => hf b (List.mem_cons_of_mem a hb)) (Nat.lt_of_succ_lt_succ hn)
      dst.tail
    simp [convert, hf a List.mem_cons_self, hrest]

omit [DecidableEq β] in
/-- Without it, the first `n` characters are, and nothing ends them. -/
theorem convert_of_le (hf : ∀ a ∈ src, f a = some (g a)) (hn : n ≤ src.length) (dst : List β) :
    convert f nul n src dst = ((src.take n).map g ++ dst.drop n, some n) := by
  induction n generalizing src dst with
  | zero => simp [convert]
  | succ n ih =>
    cases src with
    | nil => simp at hn
    | cons a src =>
      have hrest := ih (fun b hb => hf b (List.mem_cons_of_mem a hb)) (by simpa using hn) dst.tail
      simp [convert, hf a List.mem_cons_self, hrest]

omit [DecidableEq β] in
/-- No more than `n` characters are looked at. -/
theorem convert_take (f : α → Option β) (nul : β) (n : Nat) (src : List α) (dst : List β) :
    convert f nul n (src.take n) dst = convert f nul n src dst := by
  induction n generalizing src dst with
  | zero => rfl
  | succ n ih =>
    cases src with
    | nil => rfl
    | cons a src => simp only [List.take_succ_cons, convert, ih]

omit [DecidableEq β] in
/-- At a character that is not converted, the conversion fails. -/
theorem convert_refused {a : α} (hmem : a ∈ src.take n) (ha : f a = none) (dst : List β) :
    (convert f nul n src dst).2 = none := by
  induction n generalizing src dst with
  | zero => cases hmem
  | succ n ih =>
    cases src with
    | nil => cases hmem
    | cons b src =>
      cases hb : f b with
      | none => simp only [convert, hb]
      | some c =>
        have hne : a ≠ b := by
          rintro rfl
          rw [ha] at hb
          cases hb
        rw [List.take_succ_cons, List.mem_cons, or_iff_right hne] at hmem
        simp only [convert, hb, ih hmem dst.tail, Option.map_none]

end Arrays

/-! ### ASCII -/

/-- The characters are ASCII, and none is the terminator. -/
def Ascii {w : Nat} (s : List (BitVec w)) : Prop := ∀ c ∈ s, c ≠ 0 ∧ c.toNat < 128

/-- A byte as a wide character, in the `C` locale. -/
def widenChar (c : Byte) : Option WChar := if c.toNat < 128 then some (c.setWidth 32) else none

/-- A wide character as a byte, in the `C` locale. -/
def narrowChar (c : WChar) : Option Byte := if c.toNat < 128 then some (c.setWidth 8) else none

/-- The same text, in wide characters. -/
def widen (s : CString) : WString := s.map (·.setWidth 32)

/-- The same text, in bytes. -/
def narrow (s : WString) : CString := s.map (·.setWidth 8)

@[simp] theorem length_widen (s : CString) : (widen s).length = s.length := by simp [widen]

@[simp] theorem length_narrow (s : WString) : (narrow s).length = s.length := by simp [narrow]

theorem Ascii.append {w : Nat} {s t : List (BitVec w)} (hs : Ascii s) (ht : Ascii t) :
    Ascii (s ++ t) := by
  intro c hc
  rcases List.mem_append.mp hc with hc | hc
  · exact hs c hc
  · exact ht c hc

theorem Ascii.take {w : Nat} {s : List (BitVec w)} (hs : Ascii s) (n : Nat) : Ascii (s.take n) :=
  fun c hc => hs c (List.mem_of_mem_take hc)

theorem Ascii.nul_not_mem {w : Nat} {s : List (BitVec w)} (hs : Ascii s) : 0 ∉ s :=
  fun hmem => (hs 0 hmem).1 rfl

/-- A character other than 0 that fits is not 0 at another width. -/
theorem setWidth_ne_zero {v w : Nat} {c : BitVec v} (hc : c ≠ 0) (hlt : c.toNat < 2 ^ w) :
    c.setWidth w ≠ 0 := by
  intro hzero
  have hnat := congrArg BitVec.toNat hzero
  simp only [BitVec.toNat_setWidth, Nat.mod_eq_of_lt hlt] at hnat
  apply hc
  apply BitVec.eq_of_toNat_eq
  simpa using hnat

theorem Ascii.widen {s : CString} (hs : Ascii s) : 0 ∉ widen s := by
  intro hmem
  obtain ⟨c, hc, hzero⟩ := List.mem_map.mp hmem
  have hlt := (hs c hc).2
  exact setWidth_ne_zero (hs c hc).1 (by omega) hzero

theorem Ascii.narrow {s : WString} (hs : Ascii s) : 0 ∉ narrow s := by
  intro hmem
  obtain ⟨c, hc, hzero⟩ := List.mem_map.mp hmem
  have hlt := (hs c hc).2
  exact setWidth_ne_zero (hs c hc).1 (by omega) hzero

/-- A text that was widened is narrowed to what it was. -/
@[simp] theorem narrow_widen (s : CString) : narrow (widen s) = s := by
  rw [narrow, widen, List.map_map]
  conv_rhs => rw [← List.map_id s]
  apply List.map_congr_left
  intro c _
  show (c.setWidth 32).setWidth 8 = c
  rw [BitVec.setWidth_setWidth_of_le _ (by decide), BitVec.setWidth_eq]

theorem ascii_widen {s : CString} (hs : Ascii s) : Ascii (widen s) := by
  intro c hc
  refine ⟨fun hzero => hs.widen (hzero ▸ hc), ?_⟩
  obtain ⟨b, hb, rfl⟩ := List.mem_map.mp hc
  have hlt := (hs b hb).2
  rw [BitVec.toNat_setWidth]
  omega

/-! ### The functions of the C library -/

/-- `mbstowcs(dst, s, n)`: what it leaves in `dst`, and what it returns; `none` is
    `(size_t)-1`. -/
def mbstowcs (dst : List WChar) (s : CString) (n : Nat) : List WChar × Option Nat :=
  convert widenChar 0 n s dst

/-- `wcstombs(dst, s, n)` -/
def wcstombs (dst : List Byte) (s : WString) (n : Nat) : List Byte × Option Nat :=
  convert narrowChar 0 n s dst

/-- `wcslen` of the memory from a pointer on; `none` where it runs out of it. -/
def wcslen (mem : List WChar) : Option Nat := (terminated 0 mem).map List.length

/-- An array of `n` bytes on the stack, with what it happens to hold. -/
structure CharArray (n : Nat) where
  bytes : List Byte
  size : bytes.length = n

/-- The string in an array of bytes; `none` where reading it leaves the array. -/
def stringIn (array : List Byte) : Option CString := terminated 0 array

section Library

variable {s : CString} {t : WString} {n : Nat}

theorem widenChar_of_ascii (hs : Ascii s) : ∀ c ∈ s, widenChar c = some (c.setWidth 32) :=
  fun c hc => if_pos (hs c hc).2

theorem narrowChar_of_ascii (ht : Ascii t) : ∀ c ∈ t, narrowChar c = some (c.setWidth 8) :=
  fun c hc => if_pos (ht c hc).2

theorem mbstowcs_of_lt (hs : Ascii s) (hn : s.length < n) (dst : List WChar) :
    mbstowcs dst s n = (widen s ++ 0 :: dst.drop (s.length + 1), some s.length) :=
  convert_of_lt (widenChar_of_ascii hs) hn dst

theorem mbstowcs_of_le (hs : Ascii s) (hn : n ≤ s.length) (dst : List WChar) :
    mbstowcs dst s n = (widen (s.take n) ++ dst.drop n, some n) :=
  convert_of_le (widenChar_of_ascii hs) hn dst

theorem wcstombs_of_lt (ht : Ascii t) (hn : t.length < n) (dst : List Byte) :
    wcstombs dst t n = (narrow t ++ 0 :: dst.drop (t.length + 1), some t.length) :=
  convert_of_lt (narrowChar_of_ascii ht) hn dst

theorem wcstombs_of_le (ht : Ascii t) (hn : n ≤ t.length) (dst : List Byte) :
    wcstombs dst t n = (narrow (t.take n) ++ dst.drop n, some n) :=
  convert_of_le (narrowChar_of_ascii ht) hn dst

theorem wcslen_append (hs : Ascii s) (mem : List WChar) :
    wcslen (widen s ++ 0 :: mem) = some s.length := by
  rw [wcslen, terminated_append hs.widen, Option.map_some, length_widen]

/-- **Narrowing into an array** always succeeds; a string that is shorter than the array is in
    it, terminated, and of any other no terminator is. -/
theorem wcstombs_array (ht : Ascii t) (array : CharArray n) :
    ∃ bytes len, wcstombs array.bytes t n = (bytes, some len) ∧
      stringIn bytes = if t.length < n then some (narrow t) else none := by
  by_cases hn : t.length < n
  · refine ⟨_, _, wcstombs_of_lt ht hn array.bytes, ?_⟩
    rw [if_pos hn, stringIn, terminated_append ht.narrow]
  · refine ⟨_, _, wcstombs_of_le ht (by omega) array.bytes, ?_⟩
    rw [if_neg hn, List.drop_of_length_le (by rw [array.size]), List.append_nil]
    exact terminated_eq_none (ht.take n).narrow

/-- The same if only as much of the string as fits is ASCII. -/
theorem wcstombs_array_take (ht : Ascii (t.take n)) (array : CharArray n) :
    ∃ bytes len, wcstombs array.bytes t n = (bytes, some len) ∧
      stringIn bytes = if t.length < n then some (narrow t) else none := by
  obtain ⟨bytes, len, hconv, hstring⟩ := wcstombs_array ht array
  have hcut : wcstombs array.bytes t n = wcstombs array.bytes (t.take n) n :=
    (convert_take narrowChar 0 n t array.bytes).symm
  refine ⟨bytes, len, hcut.trans hconv, ?_⟩
  rw [hstring, List.length_take]
  by_cases hn : t.length < n
  · rw [if_pos hn, if_pos (by omega), List.take_of_length_le (by omega)]
  · rw [if_neg hn, if_neg (by omega)]

/-- **Narrowing fails** at a character that is not ASCII, if it is one of the first `n`. -/
theorem wcstombs_refused {c : WChar} (hmem : c ∈ t.take n) (hc : 128 ≤ c.toNat)
    (dst : List Byte) : (wcstombs dst t n).2 = none :=
  convert_refused hmem (if_neg (not_lt.mpr hc)) dst

end Library

end WideString
