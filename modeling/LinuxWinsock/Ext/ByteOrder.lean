import LinuxWinsock.Api
import LinuxWinsock.Lib.Memory

namespace LinuxWinsock.Ext

/-!
# Byte order

`WSAHtonl`, `WSANtohl`, `WSAHtons` and `WSANtohs` of `wsa_extended.c`.  An `unsigned long` has 64
bits, and the conversions of the C library that are called for it have 32.

* `readBack_iff_of_inverse` — what two inverse conversions of a narrower word do to a wider one;
* `readBack_iff` — the words that come back.
-/

/-! ### The four functions -/

/-- What a conversion leaves behind: its result, the last error, and the word at its pointer. -/
structure Converted (w : Nat) where
  ret : Int
  lastError : Int
  word : Option (BitVec w)

/-- A conversion of a word; `out` is the word at the pointer, or `none` for `NULL`.  The socket is
    not looked at. -/
def convertWord {w : Nat} (convert : BitVec w → BitVec w) (_s : SOCKET) (word : BitVec w)
    (out : Option (BitVec w)) : Converted w :=
  match out with
  | none => ⟨SOCKET_ERROR, WSAEFAULT, none⟩
  | some _ => ⟨0, 0, some (convert word)⟩

/-- A conversion of 32-bit words called with an `unsigned long`: the argument is cut to `uint32_t`,
    and the result is widened again. -/
def onLong (convert : BitVec 32 → BitVec 32) (x : BitVec 64) : BitVec 64 :=
  (convert (x.setWidth 32)).setWidth 64

def wsaHtonl : SOCKET → BitVec 64 → Option (BitVec 64) → Converted 64 :=
  convertWord (onLong htonl)

def wsaHtons : SOCKET → BitVec 16 → Option (BitVec 16) → Converted 16 :=
  convertWord htons

def wsaNtohl : SOCKET → BitVec 64 → Option (BitVec 64) → Converted 64 :=
  convertWord (onLong ntohl)

def wsaNtohs : SOCKET → BitVec 16 → Option (BitVec 16) → Converted 16 :=
  convertWord ntohs

/-! ### There and back -/

variable {w : Nat}

/-- If the first function returns 0 for `x`, the second returns 0 for what it has stored, and stores
    `x`. -/
def ReadBack (there back : SOCKET → BitVec w → Option (BitVec w) → Converted w) (x : BitVec w) :
    Prop :=
  ∀ s n y, (there s x (some n)).ret = 0 → ∃ n', (there s x (some n)).word = some n' ∧
    (back s n' (some y)).ret = 0 ∧ (back s n' (some y)).word = some x

/-- Only the two conversions matter. -/
theorem readBack_convertWord_iff {there back : BitVec w → BitVec w} {x : BitVec w} :
    ReadBack (convertWord there) (convertWord back) x ↔ back (there x) = x := by
  constructor
  · intro h
    obtain ⟨n', hthere, -, hback⟩ := h 0 0 0 rfl
    obtain rfl : there x = n' := Option.some.inj hthere
    exact Option.some.inj hback
  · intro h s n y _
    exact ⟨there x, rfl, rfl, congrArg some h⟩

/-- A word survives the cut to 32 bits exactly if it has no others. -/
theorem setWidth_setWidth_eq_iff {x : BitVec 64} :
    (x.setWidth 32).setWidth 64 = x ↔ x.toNat < 2 ^ 32 := by
  rw [← BitVec.toNat_inj, BitVec.toNat_setWidth, BitVec.toNat_setWidth]
  have hlt : x.toNat % 2 ^ 32 < 2 ^ 64 := by omega
  rw [Nat.mod_eq_of_lt hlt, Nat.mod_eq_iff_lt (by decide)]

/-- Two inverse conversions bring an `unsigned long` back exactly if it has 32 bits. -/
theorem readBack_iff_of_inverse {there back : BitVec 32 → BitVec 32}
    (hinverse : ∀ v, back (there v) = v) {x : BitVec 64} :
    ReadBack (convertWord (onLong there)) (convertWord (onLong back)) x ↔ x.toNat < 2 ^ 32 := by
  have hcut : ∀ v : BitVec 32, (v.setWidth 64).setWidth 32 = v := by
    intro v
    rw [BitVec.setWidth_setWidth_of_le _ (by decide), BitVec.setWidth_eq]
  rw [readBack_convertWord_iff, ← setWidth_setWidth_eq_iff]
  unfold onLong
  rw [hcut, hinverse]

/-- **Byte order.**  An `unsigned long` comes back from the two conversions, in either order, exactly
    if it has 32 bits; an `unsigned short` always does. -/
theorem readBack_iff (x : BitVec 64) (v : BitVec 16) :
    (ReadBack wsaHtonl wsaNtohl x ↔ x.toNat < 2 ^ 32) ∧
    (ReadBack wsaNtohl wsaHtonl x ↔ x.toNat < 2 ^ 32) ∧
    ReadBack wsaHtons wsaNtohs v ∧ ReadBack wsaNtohs wsaHtons v := by
  refine ⟨readBack_iff_of_inverse ntohl_htonl, readBack_iff_of_inverse htonl_ntohl, ?_, ?_⟩
  · exact readBack_convertWord_iff.mpr (ntohs_htons v)
  · exact readBack_convertWord_iff.mpr (htons_ntohs v)

/-- The lowest bit that is cut off. -/
theorem not_readBack_long : ¬ ∀ (x : BitVec 64) (v : BitVec 16),
    ReadBack wsaHtonl wsaNtohl x ∧ ReadBack wsaNtohl wsaHtonl x ∧ ReadBack wsaHtons wsaNtohs v ∧
      ReadBack wsaNtohs wsaHtons v := by
  intro h
  have hlong := (h (2 ^ 32) 0).1
  have hback : onLong ntohl (onLong htonl (2 ^ 32)) = 2 ^ 32 :=
    readBack_convertWord_iff.mp hlong
  exact absurd hback (by decide)

end LinuxWinsock.Ext
