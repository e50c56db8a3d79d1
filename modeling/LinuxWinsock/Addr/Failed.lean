import LinuxWinsock.Addr.Literal
import LinuxWinsock.Addr.Wide

namespace LinuxWinsock.Addr

open Memory CString WideString

/-!
# Conversions that fail

What `WSAStringToAddressA` and `WSAStringToAddressW` leave of the caller's address and length when
they return `SOCKET_ERROR`.  The text is converted last, when the address is cleared already.

* `storeAddress_unparsable` — what a text that is no address leaves behind;
* `keeps_iff` — for which arguments the two functions leave the address alone.
-/

/-! ### What a failed call may change -/

/-- The call reports a buffer that is too small: `WSAEFAULT`, although no pointer is `NULL`. -/
def ReportsTooSmall (hasString : Bool) (lpAddress : Option Memory)
    (lpAddressLength : Option (BitVec 32)) (o : ToAddress) : Prop :=
  hasString = true ∧ lpAddress ≠ none ∧ lpAddressLength ≠ none ∧ o.lastError = WSAEFAULT

/-- The address is as it was, and the length too, but for a buffer that is too small: then it is the
    size that is required. -/
structure LeftAlone (hasString : Bool) (addressFamily : BitVec 32) (lpAddress : Option Memory)
    (lpAddressLength : Option (BitVec 32)) (o : ToAddress) : Prop where
  address : o.address = lpAddress
  length : ¬ ReportsTooSmall hasString lpAddress lpAddressLength o → o.length = lpAddressLength
  required : ReportsTooSmall hasString lpAddress lpAddressLength o →
    ∃ f length, Family.ofNat? addressFamily.toNat = some f ∧ lpAddressLength = some length ∧
      length.toInt < f.sockaddrSize ∧ o.length = some (BitVec.ofNat 32 f.sockaddrSize)

/-- The call is defined, and leaves the address alone if it fails. -/
def Keeps (hasString : Bool) (addressFamily : BitVec 32) (lpAddress : Option Memory)
    (lpAddressLength : Option (BitVec 32)) (call : Option ToAddress) : Prop :=
  ∃ o, call = some o ∧
    (o.ret = SOCKET_ERROR → LeftAlone hasString addressFamily lpAddress lpAddressLength o)

/-- The bytes of an address of which only the family and the port are set. -/
def clearedBytes (f : Family) (port : BitVec 32) : List Byte :=
  bytes16 (BitVec.ofNat 16 f.af) ++ bytes16 (htons (port.setWidth 16)) ++
    List.replicate (f.sockaddrSize - 4) 0

/-- The call is valid but for its text, which is no address of the family, and the address is not by
    chance what the call makes of it. -/
def Spoils (libc : Libc) (t : CString) (addressFamily : BitVec 32) (mem : Memory)
    (length : BitVec 32) : Prop :=
  ∃ addrOnly port f, splitPort t = some (addrOnly, port) ∧
    Family.ofNat? addressFamily.toNat = some f ∧ (f.sockaddrSize : Int) ≤ length.toInt ∧
    libc.inetPton f addrOnly = none ∧
    ¬ (mem.loadBytes 0 f.sockaddrSize = clearedBytes f port ∧
      length = BitVec.ofNat 32 f.sockaddrSize)

variable {libc : Libc} {f : Family} {t addrOnly : CString} {addressFamily : BitVec 32}
  {mem : Memory} {length port : BitVec 32} {lpAddress : Option Memory}
  {lpAddressLength : Option (BitVec 32)} {hasString : Bool}

/-! ### The text that is no address -/

theorem length_clearedBytes (f : Family) (port : BitVec 32) :
    (clearedBytes f port).length = f.sockaddrSize := by
  cases f <;> rfl

/-- The address cleared, and the family and the port stored in it. -/
theorem store_cleared (mem : Memory) (f : Family) (port : BitVec 32) :
    ((mem.storeBytes 0 (List.replicate f.sockaddrSize 0)).store16 0
        (BitVec.ofNat 16 f.af)).store16 2 (htons (port.setWidth 16)) =
      mem.storeBytes 0 (clearedBytes f port) := by
  have hzeros : List.replicate f.sockaddrSize (0 : Byte) =
      [] ++ ([0, 0] ++ ([0, 0] ++ List.replicate (f.sockaddrSize - 4) 0)) := by
    cases f <;> rfl
  have hlen : ∀ v : BitVec 16, ([0, 0] : List Byte).length = (bytes16 v).length := fun _ => rfl
  have hfamily := storeBytes_overwrite mem 0 [] (hlen (BitVec.ofNat 16 f.af))
    ([0, 0] ++ List.replicate (f.sockaddrSize - 4) 0)
  have hport := storeBytes_overwrite mem 0 (bytes16 (BitVec.ofNat 16 f.af))
    (hlen (htons (port.setWidth 16))) (List.replicate (f.sockaddrSize - 4) 0)
  rw [hzeros, clearedBytes, List.append_assoc, ← hport]
  exact congrArg (fun m => Memory.storeBytes m 2 (bytes16 (htons (port.setWidth 16)))) hfamily

/-- **A text that is no address**: the address is cleared, and the length is stored. -/
theorem storeAddress_unparsable (hlen : (f.sockaddrSize : Int) ≤ length.toInt)
    (hpton : libc.inetPton f addrOnly = none) :
    storeAddress libc f addrOnly port mem length =
      ⟨SOCKET_ERROR, WSAEINVAL, some (mem.storeBytes 0 (clearedBytes f port)),
        some (BitVec.ofNat 32 f.sockaddrSize)⟩ := by
  have hroom : ¬ length.toInt < f.sockaddrSize := by omega
  rw [storeAddress, if_neg hroom, hpton]
  show ToAddress.mk _ _ (some (Memory.store16 _ 2 _)) _ = _
  rw [store_cleared]

/-! ### The two functions -/

/-- A call that fails with the address and the length as they were, other than for want of room. -/
theorem leftAlone_of_error {ret e : Int}
    (he : e = WSAEFAULT → hasString = false ∨ lpAddress = none ∨ lpAddressLength = none) :
    LeftAlone hasString addressFamily lpAddress lpAddressLength
      ⟨ret, e, lpAddress, lpAddressLength⟩ := by
  have hreports : ¬ ReportsTooSmall hasString lpAddress lpAddressLength
      ⟨ret, e, lpAddress, lpAddressLength⟩ := by
    rintro ⟨hstring, haddress, hlength, hcode⟩
    rcases he hcode with he | he | he
    · rw [hstring] at he
      cases he
    · exact haddress he
    · exact hlength he
  exact ⟨rfl, fun _ => rfl, fun h => absurd h hreports⟩

/-- A branch leaves the address alone exactly if there is no room, or the text is an address, or
    makes no difference. -/
theorem storeAddress_keeps_iff (hfamily : Family.ofNat? addressFamily.toNat = some f)
    (port : BitVec 32) :
    Keeps true addressFamily (some mem) (some length)
        (some (storeAddress libc f addrOnly port mem length)) ↔
      ((f.sockaddrSize : Int) ≤ length.toInt → libc.inetPton f addrOnly = none →
        mem.loadBytes 0 f.sockaddrSize = clearedBytes f port ∧
          length = BitVec.ofNat 32 f.sockaddrSize) := by
  by_cases hroom : length.toInt < f.sockaddrSize
  · refine iff_of_true ⟨_, rfl, fun _ => ?_⟩ (fun hlen => by omega)
    rw [storeAddress, if_pos hroom]
    have hreports : ReportsTooSmall true (some mem) (some length)
        ⟨SOCKET_ERROR, WSAEFAULT, some mem, some (BitVec.ofNat 32 f.sockaddrSize)⟩ :=
      ⟨rfl, nofun, nofun, rfl⟩
    exact ⟨rfl, fun h => absurd hreports h, fun _ => ⟨f, length, hfamily, rfl, hroom, rfl⟩⟩
  · have hlen : (f.sockaddrSize : Int) ≤ length.toInt := by omega
    cases hpton : libc.inetPton f addrOnly with
    | some addr =>
      have hret : (storeAddress libc f addrOnly port mem length).ret = 0 :=
        storeAddress_eq_zero_iff.mpr ⟨hroom, by rw [hpton]; exact nofun⟩
      refine iff_of_true ⟨_, rfl, fun hfail => ?_⟩ (fun _ h => by cases h)
      rw [hret] at hfail
      exact absurd hfail (by decide)
    | none =>
      rw [storeAddress_unparsable hlen hpton]
      have hsame : mem.storeBytes 0 (clearedBytes f port) = mem ↔
          mem.loadBytes 0 f.sockaddrSize = clearedBytes f port := by
        rw [storeBytes_eq_self_iff, length_clearedBytes]
      have hreports : ¬ ReportsTooSmall true (some mem) (some length)
          ⟨SOCKET_ERROR, WSAEINVAL, some (mem.storeBytes 0 (clearedBytes f port)),
            some (BitVec.ofNat 32 f.sockaddrSize)⟩ := by
        rintro ⟨-, -, -, hcode⟩
        have heq : WSAEINVAL = WSAEFAULT := hcode
        exact absurd heq (by decide)
      constructor
      · rintro ⟨o, ho, hkeeps⟩ _ _
        obtain rfl := Option.some.inj ho
        have hleft := hkeeps rfl
        exact ⟨hsame.mp (Option.some.inj hleft.address),
          (Option.some.inj (hleft.length hreports)).symm⟩
      · intro h
        obtain ⟨hmem, hlength⟩ := h hlen rfl
        refine ⟨_, rfl, fun _ => ⟨congrArg some (hsame.mpr hmem), fun _ => ?_, fun h => ?_⟩⟩
        · exact congrArg some hlength.symm
        · exact absurd h hreports

/-- The narrow function leaves the address alone exactly if the text does not spoil it. -/
theorem wsaStringToAddressA_keeps_iff (libc : Libc) (addressString : Option CString)
    (addressFamily : BitVec 32) (lpAddress : Option Memory) (lpAddressLength : Option (BitVec 32)) :
    Keeps addressString.isSome addressFamily lpAddress lpAddressLength
        (some (wsaStringToAddressA libc addressString addressFamily lpAddress lpAddressLength)) ↔
      ∀ t mem length, addressString = some t → lpAddress = some mem →
        lpAddressLength = some length → ¬ Spoils libc t addressFamily mem length := by
  rcases wsaStringToAddressA_cases libc addressString addressFamily lpAddress lpAddressLength with
    ⟨e, hcall, he, hrefused⟩ |
    ⟨t, mem, length, addrOnly, port, f, rfl, rfl, rfl, hsplit, hfamily, hcall⟩
  · rw [hcall]
    refine iff_of_true ⟨_, rfl, fun _ => leftAlone_of_error fun hfault => ?_⟩ ?_
    · rw [Option.isSome_eq_false_iff, Option.isNone_iff_eq_none]
      exact he hfault
    · rintro t mem length rfl rfl rfl ⟨addrOnly, port, f, hsplit, hfamily, -⟩
      rcases hrefused t rfl nofun nofun with h | h
      · rw [h] at hsplit
        cases hsplit
      · rw [h] at hfamily
        cases hfamily
  · rw [hcall, Option.isSome_some, storeAddress_keeps_iff hfamily]
    constructor
    · rintro h t' mem' length' ⟨rfl⟩ ⟨rfl⟩ ⟨rfl⟩ ⟨addrOnly', port', f', hsplit', hfamily', hlen, hpton,
        hspoilt⟩
      obtain ⟨rfl, rfl⟩ := Prod.mk.inj (Option.some.inj (hsplit.symm.trans hsplit'))
      obtain rfl := Option.some.inj (hfamily.symm.trans hfamily')
      exact hspoilt (h hlen hpton)
    · intro h hlen hpton
      by_contra hspoilt
      exact h t mem length rfl rfl rfl
        ⟨addrOnly, port, f, hsplit, hfamily, hlen, hpton, hspoilt⟩

/-- The wide function leaves it alone exactly if it refuses a pointer or a character, or if its array
    has room for the text, and that does not spoil the address. -/
theorem wsaStringToAddressW_keeps_iff {wide : WString} (hwide : 0 ∉ wide) (libc : Libc)
    (buffer : CharArray printSize) (addressFamily : BitVec 32) (lpAddress : Option Memory)
    (lpAddressLength : Option (BitVec 32)) :
    Keeps true addressFamily lpAddress lpAddressLength
        (wsaStringToAddressW libc buffer wide addressFamily lpAddress lpAddressLength) ↔
      lpAddress = none ∨ lpAddressLength = none ∨ (∃ c ∈ wide.take 62, 128 ≤ c.toNat) ∨
        (wide.length < 62 ∧ ∀ mem length, lpAddress = some mem → lpAddressLength = some length →
          ¬ Spoils libc (narrow wide) addressFamily mem length) := by
  by_cases hrefused : ∃ c ∈ wide.take 62, 128 ≤ c.toNat
  · obtain ⟨c, hmem, hc⟩ := hrefused
    have hnone := wcstombs_refused hmem hc buffer.bytes
    refine iff_of_true ?_ (.inr (.inr (.inl ⟨c, hmem, hc⟩)))
    obtain ⟨bytes, hconv⟩ : ∃ bytes, wcstombs buffer.bytes wide printSize = (bytes, none) :=
      ⟨_, Prod.ext rfl hnone⟩
    rw [wsaStringToAddressW, hconv]
    exact ⟨_, rfl, fun _ => leftAlone_of_error fun h => absurd h (by decide)⟩
  · have hascii : Ascii (wide.take 62) := by
      intro c hc
      have hlt : ¬ 128 ≤ c.toNat := fun hle => hrefused ⟨c, hc, hle⟩
      refine ⟨fun hzero => ?_, not_le.mp hlt⟩
      rw [hzero] at hc
      exact hwide (List.mem_of_mem_take hc)
    obtain ⟨bytes, len, hconv, hstring⟩ := wcstombs_array_take hascii buffer
    have hconv : wcstombs buffer.bytes wide printSize = (bytes, some len) := hconv
    rw [or_iff_right hrefused, wsaStringToAddressW, hconv]
    cases lpAddress with
    | none =>
      refine iff_of_true ⟨_, rfl, fun _ => leftAlone_of_error fun _ => ?_⟩ (.inl rfl)
      exact .inr (.inl rfl)
    | some mem =>
      cases lpAddressLength with
      | none =>
        refine iff_of_true ⟨_, rfl, fun _ => leftAlone_of_error fun _ => ?_⟩ (.inr (.inl rfl))
        exact .inr (.inr rfl)
      | some length =>
        simp only [hstring]
        by_cases hlen : wide.length < 62
        · rw [if_pos hlen]
          have hnarrow := wsaStringToAddressA_keeps_iff libc (some (narrow wide)) addressFamily
            (some mem) (some length)
          rw [Option.isSome_some] at hnarrow
          rw [Option.map_some, hnarrow]
          simp [hlen]
        · rw [if_neg hlen]
          refine iff_of_false ?_ (by simp [hlen])
          rintro ⟨o, ho, -⟩
          cases ho

/-- **Failed conversions.**  The narrow function leaves the address alone, if it fails, exactly if
    there is not a valid call but for a text that is no address.  The wide one does if also its
    array has room for the text, unless a pointer or a character is refused. -/
theorem keeps_iff (libc : Libc) (addressString : Option CString) (wide : WString)
    (hwide : 0 ∉ wide) (buffer : CharArray printSize) (addressFamily : BitVec 32)
    (lpAddress : Option Memory) (lpAddressLength : Option (BitVec 32)) :
    (Keeps addressString.isSome addressFamily lpAddress lpAddressLength
        (some (wsaStringToAddressA libc addressString addressFamily lpAddress lpAddressLength)) ↔
      ∀ t mem length, addressString = some t → lpAddress = some mem →
        lpAddressLength = some length → ¬ Spoils libc t addressFamily mem length) ∧
    (Keeps true addressFamily lpAddress lpAddressLength
        (wsaStringToAddressW libc buffer wide addressFamily lpAddress lpAddressLength) ↔
      lpAddress = none ∨ lpAddressLength = none ∨ (∃ c ∈ wide.take 62, 128 ≤ c.toNat) ∨
        (wide.length < 62 ∧ ∀ mem length, lpAddress = some mem → lpAddressLength = some length →
          ¬ Spoils libc (narrow wide) addressFamily mem length)) :=
  ⟨wsaStringToAddressA_keeps_iff libc addressString addressFamily lpAddress lpAddressLength,
    wsaStringToAddressW_keeps_iff hwide libc buffer addressFamily lpAddress lpAddressLength⟩

/-- "1.2.3:80" is refused by both functions after the address is cleared, and "1.2.3.4:80" is not
    refused. -/
theorem keeps_dotted :
    ¬ Keeps true 2 (some (fun _ => 255)) (some 16)
      (some (wsaStringToAddressA ptonLibc (some [49, 46, 50, 46, 51, 58, 56, 48]) 2
        (some (fun _ => 255)) (some 16))) ∧
    Keeps true 2 (some (fun _ => 255)) (some 16)
      (wsaStringToAddressW ptonLibc (zeroArray printSize)
        [49, 46, 50, 46, 51, 46, 52, 58, 56, 48] 2 (some (fun _ => 255)) (some 16)) := by
  have h := keeps_iff ptonLibc (some [49, 46, 50, 46, 51, 58, 56, 48])
    [49, 46, 50, 46, 51, 46, 52, 58, 56, 48] (by decide) (zeroArray printSize) 2
    (some (fun _ => 255)) (some 16)
  refine ⟨fun hkeeps => ?_, h.2.mpr (.inr (.inr (.inr ⟨by decide, ?_⟩)))⟩
  · refine h.1.mp hkeeps _ _ _ rfl rfl rfl ⟨[49, 46, 50, 46, 51], 80, .inet, by decide, by decide,
      by decide, by decide, ?_⟩
    rintro ⟨hbytes, -⟩
    exact absurd hbytes (by decide)
  · rintro mem length ⟨rfl⟩ ⟨rfl⟩ ⟨addrOnly, port, f, hsplit, hfamily, -, hpton, -⟩
    have hsplit' : splitPort (narrow [49, 46, 50, 46, 51, 46, 52, 58, 56, 48]) =
        some ([49, 46, 50, 46, 51, 46, 52], 80) := by decide
    obtain ⟨rfl, rfl⟩ := Prod.mk.inj (Option.some.inj (hsplit'.symm.trans hsplit))
    have hfamily' : Family.ofNat? (2 : BitVec 32).toNat = some .inet := by decide
    obtain rfl := Option.some.inj (hfamily'.symm.trans hfamily)
    exact absurd hpton (by decide)

/-- An address of all ones is no longer one when "1.2.3" has been refused. -/
theorem not_keeps_unparsable : ¬ ∀ (addressString : Option CString) (addressFamily : BitVec 32)
    (lpAddress : Option Memory) (lpAddressLength : Option (BitVec 32)),
    Keeps addressString.isSome addressFamily lpAddress lpAddressLength
      (some (wsaStringToAddressA ptonLibc addressString addressFamily lpAddress
        lpAddressLength)) := by
  intro h
  obtain ⟨o, ho, hkeeps⟩ := h (some [49, 46, 50, 46, 51]) 2 (some (fun _ => 255)) (some 16)
  obtain rfl := Option.some.inj ho
  have haddress := (hkeeps (by decide)).address
  -- the first byte is that of the family
  have hbyte := congrArg (Option.map (fun m : Memory => m 0)) haddress
  exact absurd hbyte (by decide)

end LinuxWinsock.Addr
