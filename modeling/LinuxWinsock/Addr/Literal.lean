import LinuxWinsock.Addr.Port

namespace LinuxWinsock.Addr

open Memory CString CString.Inet

/-!
# Address strings without a port

The last colon of an IPv6 literal is taken for the one in front of a port, although the literal
has none.

* `storesPortless_colon_iff` — a literal with a colon is stored as it stands if it is still a
  literal for the same address without its last piece, which is read as the port 0;
* `storesPortless_iff` — the literals that are.
-/

/-- `inet_pton` -/
def inetPton : Family → CString → Option (List Byte)
  | .inet => inetPton4
  | .inet6 => inetPton6

/-- The call returns 0 and stores the family, the address and the port 0. -/
def StoresPortless (libc : Libc) (f : Family) (t : CString) (addr : List Byte) (mem : Memory)
    (length : BitVec 32) : Prop :=
  ∃ mem', wsaStringToAddressA libc (some t) (BitVec.ofNat 32 f.af) (some mem) (some length) =
      ⟨0, 0, some mem', some (BitVec.ofNat 32 f.sockaddrSize)⟩ ∧
    saFamily mem' = BitVec.ofNat 16 f.af ∧ saAddr f mem' = addr ∧ saPort mem' = 0

variable {libc : Libc} {f : Family} {p s t : CString} {addr : List Byte} {mem : Memory}
  {length : BitVec 32}

/-! ### What is known of a literal -/

/-- An address has the size of its family. -/
theorem length_of_inetPton (h : inetPton f t = some addr) : addr.length = f.addrSize := by
  cases f with
  | inet => exact (inetPton4_spec h).1
  | inet6 => exact length_of_inetPton6 h

/-- A literal fits `addr_only`, and has a colon exactly if it is one of the family `AF_INET6`. -/
theorem literal_text (h : inetPton f t = some addr) :
    t.length < INET6_ADDRSTRLEN ∧ (58 ∈ t ↔ f = .inet6) := by
  cases f with
  | inet =>
    obtain ⟨-, hcolon, hlen, -⟩ := inetPton4_spec h
    refine ⟨?_, ?_⟩
    · show t.length < 46
      omega
    · exact iff_of_false hcolon (by decide)
  | inet6 =>
    obtain ⟨groups, hgroups, -⟩ := Option.map_eq_some_iff.mp h
    obtain ⟨hcolon, hlen⟩ := inet6Groups_text hgroups
    refine ⟨?_, ?_⟩
    · show t.length < 46
      omega
    · exact iff_of_true hcolon rfl

/-! ### With and without a colon -/

/-- A literal without a colon is stored as it stands. -/
theorem storesPortless_of_no_colon (hlibc : libc.inetPton = inetPton)
    (h : inetPton f t = some addr) (hcolon : 58 ∉ t)
    (hlen : (f.sockaddrSize : Int) ≤ length.toInt) : StoresPortless libc f t addr mem length := by
  have hfits := (literal_text h).1
  have hsplit : splitPort t = some (t, 0) := by
    unfold splitPort
    rw [strrchr_eq_none hcolon]
    show some (t.take (INET6_ADDRSTRLEN - 1), (0 : BitVec 32)) = some (t, 0)
    rw [List.take_of_length_le (by omega)]
  have hpton : libc.inetPton f t = some addr := by rw [hlibc, h]
  obtain ⟨mem', hstore, hfamily, hport, haddr⟩ := storeAddress_spec 0 mem hlen hpton
  refine ⟨mem', ?_, hfamily, haddr (length_of_inetPton h), hport.trans (by decide)⟩
  rw [wsaStringToAddressA_family, hsplit]
  exact hstore

/-- A literal with a colon is stored as it stands if it still is a literal for the same address
    without its last piece, and that piece is read as 0. -/
theorem storesPortless_colon_iff (hlibc : libc.inetPton = inetPton) (hs : 58 ∉ s)
    (hlen : (f.sockaddrSize : Int) ≤ length.toInt) :
    StoresPortless libc f (p ++ 58 :: s) addr mem length ↔
      inetPton f p = some addr ∧ htons ((atoi s).setWidth 16) = 0 := by
  unfold StoresPortless
  rw [wsaStringToAddressA_colon libc p hs]
  by_cases hlong : INET6_ADDRSTRLEN ≤ p.length
  · rw [if_pos hlong]
    constructor
    · rintro ⟨mem', hcall, -⟩
      have hret : SOCKET_ERROR = 0 := congrArg ToAddress.ret hcall
      exact absurd hret (by decide)
    · rintro ⟨hpton, -⟩
      have hfits := (literal_text hpton).1
      omega
  · rw [if_neg hlong]
    cases hpton : libc.inetPton f p with
    | none =>
      -- a text that is no address is refused, whatever follows it
      have hret : (storeAddress libc f p (atoi s) mem length).ret ≠ 0 := fun hret =>
        (storeAddress_eq_zero_iff.mp hret).2 hpton
      constructor
      · rintro ⟨mem', hcall, -⟩
        exact absurd (congrArg ToAddress.ret hcall) hret
      · rintro ⟨hpton', -⟩
        rw [hlibc, hpton'] at hpton
        cases hpton
    | some found =>
      have hfound : inetPton f p = some found := by rw [← hlibc, hpton]
      obtain ⟨mem', hstore, hfamily, hport, haddr⟩ := storeAddress_spec (atoi s) mem hlen hpton
      have haddr := haddr (length_of_inetPton hfound)
      rw [hstore, hfound]
      constructor
      · rintro ⟨mem'', hcall, -, haddr', hport'⟩
        obtain rfl : mem' = mem'' := Option.some.inj (congrArg ToAddress.address hcall)
        exact ⟨by rw [← haddr, haddr'], by rw [← hport, hport']⟩
      · rintro ⟨hsame, hzero⟩
        obtain rfl := Option.some.inj hsame
        exact ⟨mem', rfl, hfamily, haddr, hport.trans hzero⟩

/-- **Literals without a port.**  A literal is stored as it stands, with the port 0, exactly if
    it has no colon, or has a colon behind its first "::" and nothing but zeros there. -/
theorem storesPortless_iff (hlibc : libc.inetPton = inetPton) (h : inetPton f t = some addr)
    (hlen : (f.sockaddrSize : Int) ≤ length.toInt) :
    StoresPortless libc f t addr mem length ↔
      58 ∉ t ∨ ∃ l r, splitGap t = some (l, r) ∧ 58 ∈ r ∧ ∀ c ∈ r, IsZeroText c := by
  by_cases hcolon : 58 ∈ t
  · obtain rfl := (literal_text h).2.mp hcolon
    obtain ⟨p, s, rfl, hs⟩ := exists_last_of_mem hcolon
    obtain ⟨groups, hgroups, -⟩ := Option.map_eq_some_iff.mp h
    have hsame : inetPton .inet6 p = some addr ↔
        ∃ l r, splitGap (p ++ 58 :: s) = some (l, r) ∧ 58 ∈ r ∧ ∀ c ∈ r, IsZeroText c :=
      (inetPton6_eq_iff hgroups h).trans (inet6Groups_without_last hs hgroups)
    rw [storesPortless_colon_iff hlibc hs hlen, hsame, or_iff_right (not_not_intro hcolon),
      and_iff_left_iff_imp]
    -- the last piece is one of zeros, and is read as 0
    rintro ⟨l, r, hgap, hr, hzero⟩
    obtain ⟨r', s', rfl, hs'⟩ := exists_last_of_mem hr
    have hsplit : p ++ 58 :: s = (l ++ 58 :: 58 :: r') ++ 58 :: s' := by
      rw [(splitGap_spec hgap).1, List.append_assoc]
      rfl
    obtain ⟨rfl, rfl⟩ := last_unique hs hs' hsplit
    have hport : atoi s = 0 := by
      refine atoi_zeros (fun c hc => ?_)
      have hc58 : c ≠ 58 := fun heq => hs (heq ▸ hc)
      have hmem : c ∈ r' ++ 58 :: s := List.mem_append_right _ (List.mem_cons_of_mem _ hc)
      exact (hzero c hmem).imp_right (fun hdot => hdot.resolve_right hc58)
    rw [hport]
    rfl
  · exact iff_of_true (storesPortless_of_no_colon hlibc h hcolon hlen) (.inl hcolon)

/-- A C library that converts text as `inet_pton` does, and prints nothing. -/
def ptonLibc : Libc := ⟨fun _ _ _ => none, inetPton⟩

/-- "::0:0" is stored as it stands, and so is "127.0.0.1". -/
theorem storesPortless_zeros_and_inet :
    StoresPortless ptonLibc .inet6 [58, 58, 48, 58, 48] (List.replicate 16 0) (fun _ => 255) 28 ∧
    StoresPortless ptonLibc .inet [49, 50, 55, 46, 48, 46, 48, 46, 49] [127, 0, 0, 1]
      (fun _ => 255) 16 := by
  constructor
  · refine (storesPortless_iff rfl (by decide) (by decide)).mpr (.inr ⟨[], [48, 58, 48], rfl, ?_⟩)
    exact ⟨by decide, by decide⟩
  · exact (storesPortless_iff rfl (by decide) (by decide)).mpr (.inl (by decide))

/-- "::1" is a literal for an address, but is refused; "::2:3" is one as well, and is stored as
    `::2` with the port 3. -/
theorem not_storesPortless :
    inetPton .inet6 [58, 58, 49] = some (List.replicate 15 0 ++ [1]) ∧
    ¬ StoresPortless ptonLibc .inet6 [58, 58, 49] (List.replicate 15 0 ++ [1]) (fun _ => 0) 28 ∧
    (inetPton .inet6 [58, 58, 50, 58, 51]).isSome ∧
    ∃ mem', wsaStringToAddressA ptonLibc (some [58, 58, 50, 58, 51]) 10 (some (fun _ => 0))
        (some 28) = ⟨0, 0, some mem', some 28⟩ ∧
      saAddr .inet6 mem' = List.replicate 15 0 ++ [2] ∧ saPort mem' = htons 3 := by
  refine ⟨by decide, ?_, by decide, _, rfl, by decide, by decide⟩
  rintro ⟨mem', hcall, -⟩
  have hret : (wsaStringToAddressA ptonLibc (some [58, 58, 49]) (BitVec.ofNat 32 Family.inet6.af)
      (some (fun _ => 0)) (some 28)).ret = 0 := congrArg ToAddress.ret hcall
  exact absurd hret (by decide)

end LinuxWinsock.Addr
