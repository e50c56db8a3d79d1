import LinuxWinsock.Addr.Convert
import LinuxWinsock.Lib.Inet

namespace LinuxWinsock.Addr

open Memory CString CString.Inet

/-!
# The port of an address string

`WSAStringToAddressA` takes what follows the last colon for the port and reads it with `atoi`,
which stops at the first byte it cannot use and reports no error.

* `storeAddress_eq_zero_iff` — when the branch of a family succeeds;
* `portSound_iff` — the port that is stored is the one in the string exactly if what follows the
  last colon is a port, or the call fails for another reason.
-/

variable {libc : Libc} {f : Family} {p s t addrOnly : CString} {mem : Memory}
  {length port : BitVec 32}

/-! ### The branch -/

/-- A branch succeeds if there is room and the text is an address, whatever the port. -/
theorem storeAddress_eq_zero_iff :
    (storeAddress libc f addrOnly port mem length).ret = 0 ↔
      ¬ length.toInt < f.sockaddrSize ∧ libc.inetPton f addrOnly ≠ none := by
  unfold storeAddress
  by_cases hroom : length.toInt < f.sockaddrSize
  · rw [if_pos hroom]
    simp [hroom, SOCKET_ERROR]
  · rw [if_neg hroom]
    cases libc.inetPton f addrOnly <;> simp [hroom, SOCKET_ERROR]

/-- A branch that succeeds has stored the lower half of the port. -/
theorem saPort_storeAddress (h : (storeAddress libc f addrOnly port mem length).ret = 0) :
    ∃ mem', (storeAddress libc f addrOnly port mem length).address = some mem' ∧
      saPort mem' = htons (port.setWidth 16) := by
  obtain ⟨hroom, haddr⟩ := storeAddress_eq_zero_iff.mp h
  obtain ⟨addr, hpton⟩ := Option.ne_none_iff_exists'.mp haddr
  obtain ⟨mem', hstore, -, hport, -⟩ := storeAddress_spec port mem (not_lt.mp hroom) hpton
  exact ⟨mem', congrArg ToAddress.address hstore, hport⟩

/-! ### The port -/

/-- A port as text: decimal digits, for a number up to 65535. -/
def IsPort (s : CString) : Prop :=
  s ≠ [] ∧ (∀ c ∈ s, isDigit c = true) ∧ digitsValue s ≤ 65535

instance (s : CString) : Decidable (IsPort s) :=
  inferInstanceAs (Decidable (s ≠ [] ∧ (∀ c ∈ s, isDigit c = true) ∧ digitsValue s ≤ 65535))

/-- If the call returns 0, what follows the last colon of the string is a port, and is the port
    that is stored. -/
def PortSound (libc : Libc) (f : Family) (t : CString) (mem : Memory) (length : BitVec 32) :
    Prop :=
  (wsaStringToAddressA libc (some t) (BitVec.ofNat 32 f.af) (some mem) (some length)).ret = 0 →
  ∀ p s, t = p ++ 58 :: s → 58 ∉ s →
    IsPort s ∧ ∃ mem',
      (wsaStringToAddressA libc (some t) (BitVec.ofNat 32 f.af) (some mem) (some length)).address =
        some mem' ∧
      (ntohs (saPort mem')).toNat = digitsValue s

/-- A port fits its member. -/
theorem atoi_of_isPort (h : IsPort s) :
    (atoi s).setWidth 16 = BitVec.ofNat 16 (digitsValue s) ∧
      (BitVec.ofNat 16 (digitsValue s)).toNat = digitsValue s := by
  obtain ⟨hne, hdigits, hmax⟩ := h
  constructor
  · rw [atoi_digits hne hdigits (by omega), BitVec.setWidth_ofNat_of_le (by decide)]
  · rw [BitVec.toNat_ofNat]
    omega

/-- **The port is sound** exactly if what follows the last colon is a port, or the call fails for
    another reason: the text in front is too long or no address, or there is no room. -/
theorem portSound_iff :
    PortSound libc f t mem length ↔
      ∀ p s, t = p ++ 58 :: s → 58 ∉ s →
        IsPort s ∨ INET6_ADDRSTRLEN ≤ p.length ∨ libc.inetPton f p = none ∨
          length.toInt < f.sockaddrSize := by
  -- when the call returns 0, for each way to cut the text at its last colon
  have hcall : ∀ p s, t = p ++ 58 :: s → 58 ∉ s →
      ((wsaStringToAddressA libc (some t) (BitVec.ofNat 32 f.af) (some mem) (some length)).ret = 0 ↔
        ¬ (INET6_ADDRSTRLEN ≤ p.length ∨ libc.inetPton f p = none ∨
          length.toInt < f.sockaddrSize)) := by
    rintro p s rfl hs
    rw [wsaStringToAddressA_colon libc p hs, not_or, not_or]
    by_cases hlong : INET6_ADDRSTRLEN ≤ p.length
    · rw [if_pos hlong]
      simp [hlong, SOCKET_ERROR]
    · rw [if_neg hlong, storeAddress_eq_zero_iff]
      tauto
  constructor
  · intro hsound p s ht hs
    by_cases hfails : INET6_ADDRSTRLEN ≤ p.length ∨ libc.inetPton f p = none ∨
        length.toInt < f.sockaddrSize
    · exact .inr hfails
    · exact .inl (hsound ((hcall p s ht hs).mpr hfails) p s ht hs).1
  · intro hcond hret p s ht hs
    have hfails := (hcall p s ht hs).mp hret
    have hport := (hcond p s ht hs).resolve_right hfails
    refine ⟨hport, ?_⟩
    have hlong : ¬ INET6_ADDRSTRLEN ≤ p.length := fun hlong => hfails (.inl hlong)
    rw [ht, wsaStringToAddressA_colon libc p hs, if_neg hlong] at hret ⊢
    obtain ⟨mem', haddr, hstored⟩ := saPort_storeAddress hret
    obtain ⟨hlow, hvalue⟩ := atoi_of_isPort hport
    refine ⟨mem', haddr, ?_⟩
    rw [hstored, hlow, ntohs_htons, hvalue]

/-- "::1:80x" is read as `::1` with the port 80. -/
theorem port_unsound : ¬ PortSound loopbackLibc .inet6 [58, 58, 49, 58, 56, 48, 120]
    (fun _ => 0) 28 := by
  intro hsound
  have hport := (hsound (by decide) [58, 58, 49] [56, 48, 120] rfl (by decide)).1
  exact absurd hport (by decide)

end LinuxWinsock.Addr
