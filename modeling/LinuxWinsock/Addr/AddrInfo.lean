import LinuxWinsock.Addr.Convert
import LinuxWinsock.Lib.Ledger
import LinuxWinsock.Lib.WideString

namespace LinuxWinsock.Addr

open Memory WideString LinkedList Heap

/-!
# Lists of addresses: `GetAddrInfoW` and `FreeAddrInfoW`

`GetAddrInfoW` narrows the names it is asked for, calls `getaddrinfo`, and copies the list that
it returns into blocks of its own: one for each entry, one for its address and one for its
canonical name.  `FreeAddrInfoW` releases such a list; the same loop cleans up in
`GetAddrInfoW` when there is no memory for an entry.

* `getAddrInfoW`, `freeAddrInfoW` — the two functions, over a heap with a ledger;
* `freeAddrInfoW_of_extends` — the destructor ends, and releases every block of a list.
-/

/-! ### The data -/

/-- An entry of the list of `getaddrinfo`, with the memory from `ai_addr` on. -/
structure AddrInfo where
  aiFlags : BitVec 32
  aiFamily : BitVec 32
  aiSocktype : BitVec 32
  aiProtocol : BitVec 32
  aiAddrlen : BitVec 32
  aiAddr : Option Memory
  aiCanonname : Option CString

/-- `struct addrinfoW`; the length is a `size_t` here. -/
structure ADDRINFOW where
  aiFlags : BitVec 32
  aiFamily : BitVec 32
  aiSocktype : BitVec 32
  aiProtocol : BitVec 32
  aiAddrlen : BitVec 64
  aiCanonname : Option Addr
  aiAddr : Option Addr
  aiNext : Option Addr
  deriving DecidableEq

/-- A block that the two functions allocate and release.  Of a name, what is written to its
    block. -/
inductive Block where
  | item (info : ADDRINFOW)
  | addr (bytes : List Byte)
  | name (chars : List WChar)
  deriving DecidableEq

/-- The link of the list. -/
def Block.next : Block → Option Addr
  | .item info => info.aiNext
  | _ => none

/-- What `GetAddrInfoW` leaves behind: its result, the last error if it is set, `*ppResult` if
    it is written, the blocks, and how often it has released the list of `getaddrinfo`. -/
structure GetAddrInfo where
  ret : Int
  lastError : Option Int
  ppResult : Option (Option Addr)
  ledger : Ledger Block
  freed : Nat

/-! ### The destructor -/

/-- `if (ptr != NULL) free(ptr)` -/
def freeIfAny (L : Ledger Block) : Option Addr → Option (Ledger Block)
  | none => some L
  | some p => L.free p

/-- The loop of `FreeAddrInfoW` and of the clean-up, with at most `n` iterations; `none` where it
    reads or releases a block that is not live, or never ends. -/
def freeItems : Nat → Ledger Block → Option Addr → Option (Ledger Block)
  | _, L, none => some L
  | 0, _, some _ => none
  | n + 1, L, some p =>
    match L.heap.cell p with
    | some (.item info) =>
      (freeIfAny L info.aiAddr).bind fun L =>
        (freeIfAny L info.aiCanonname).bind fun L =>
          (L.free p).bind fun L => freeItems n L info.aiNext
    | _ => none

/-- Each iteration releases a block, so there are no more of them than blocks. -/
def freeAddrInfoW (L : Ledger Block) (pAddrInfo : Option Addr) : Option (Ledger Block) :=
  freeItems L.heap.live.card L pAddrInfo

/-! ### The copy -/

/-- What is copied into the block of the address. -/
def AddrInfo.addrBlock (current : AddrInfo) : Option Block :=
  current.aiAddr.map (fun sa => .addr (sa.loadBytes 0 current.aiAddrlen.toNat))

/-- What is written to the block of the name, which has room for the terminator. -/
def AddrInfo.nameBlock (current : AddrInfo) : Option Block :=
  current.aiCanonname.map (fun name => .name (mbstowcs [] name (name.length + 1)).1)

/-- A block for a part of an entry, if the entry has it. -/
def copyPart (A : Allocator Block) (L : Ledger Block) : Option Block → Option Addr × Ledger Block
  | none => (none, L)
  -- where `malloc` fails, the pointer stays `NULL` and the copy goes on
  | some content => L.malloc A content

/-- The fields of an entry that are copied as they are. -/
def AddrInfo.toItem (current : AddrInfo) : ADDRINFOW :=
  { aiFlags := current.aiFlags, aiFamily := current.aiFamily, aiSocktype := current.aiSocktype,
    aiProtocol := current.aiProtocol, aiAddrlen := current.aiAddrlen.setWidth 64,
    aiCanonname := none, aiAddr := none, aiNext := none }

/-- An item for one entry; `some (none, _)` where there is no memory for the item itself. -/
def copyItem (A : Allocator Block) (L : Ledger Block) (current : AddrInfo) :
    Option (Option Addr × Ledger Block) :=
  match L.malloc A (.item current.toItem) with
  | (none, L) => some (none, L)
  | (some witem, L) =>
    let addr := copyPart A L current.addrBlock
    let name := copyPart A addr.2 current.nameBlock
    (name.2.store witem
      (.item { current.toItem with aiAddr := addr.1, aiCanonname := name.1 })).map
        (fun L => (some witem, L))

/-- The item becomes the head, or the successor of the last one: the new head and the blocks. -/
def linkItem (L : Ledger Block) (wresult wcurrent : Option Addr) (witem : Addr) :
    Option (Option Addr × Ledger Block) :=
  match wresult, wcurrent with
  | none, _ => some (some witem, L)
  | some head, some last =>
    match L.heap.cell last with
    | some (.item info) =>
      (L.store last (.item { info with aiNext := some witem })).map (fun L => (some head, L))
    | _ => none
  | some _, none => none

/-- The loop over the list of `getaddrinfo`, from the entries that are left on. -/
def copyLoop (A : Allocator Block) :
    List AddrInfo → Ledger Block → Option Addr → Option Addr → Option GetAddrInfo
  | [], L, wresult, _ => some ⟨0, some 0, some wresult, L, 1⟩
  | current :: rest, L, wresult, wcurrent =>
    match copyItem A L current with
    | none => none
    | some (none, L) =>
      (freeAddrInfoW L wresult).map
        (fun L => ⟨WSA_NOT_ENOUGH_MEMORY, some WSA_NOT_ENOUGH_MEMORY, none, L, 1⟩)
    | some (some witem, L) =>
      match linkItem L wresult wcurrent witem with
      | none => none
      | some (wresult, L) => copyLoop A rest L wresult (some witem)

/-! ### The call -/

/-- A name converted into an array, `some none` for `NULL`; `none` where it has a character
    that is not converted. -/
def narrowParam {n : Nat} (array : CharArray n) : Option WString → Option (Option (List Byte))
  | none => some none
  | some s =>
    match wcstombs array.bytes s n with
    | (_, none) => none
    | (bytes, some _) => some (some bytes)

/-- The name that is read from an array; `none` where reading it leaves the array. -/
def readParam : Option (List Byte) → Option (Option CString)
  | none => some none
  | some bytes => (stringIn bytes).map some

/-- The hints that are passed on. -/
def ADDRINFOW.toHints (hints : ADDRINFOW) : AddrInfo :=
  { aiFlags := hints.aiFlags, aiFamily := hints.aiFamily, aiSocktype := hints.aiSocktype,
    aiProtocol := hints.aiProtocol, aiAddrlen := 0, aiAddr := none, aiCanonname := none }

/-- `getaddrinfo` of the C library: a code other than 0, or a list. -/
abbrev Lookup := Option CString → Option CString → Option AddrInfo → Except Int (List AddrInfo)

/-- `none` where the code has no defined behaviour. -/
def getAddrInfoW (getaddrinfo : Lookup) (A : Allocator Block) (L : Ledger Block)
    (nodeBuffer serviceBuffer : CharArray 256) (pNodeName pServiceName : Option WString)
    (pHints : Option ADDRINFOW) : Option GetAddrInfo :=
  match narrowParam nodeBuffer pNodeName with
  | none => some ⟨WSAEINVAL, some WSAEINVAL, none, L, 0⟩
  | some node =>
    match narrowParam serviceBuffer pServiceName with
    | none => some ⟨WSAEINVAL, some WSAEINVAL, none, L, 0⟩
    | some service =>
      match readParam node, readParam service with
      | some node, some service =>
        match getaddrinfo node service (pHints.map ADDRINFOW.toHints) with
        | .error ret => some ⟨ret, none, none, L, 0⟩
        | .ok result => copyLoop A result L none none
      | _, _ => none

/-! ### Lists of items and their blocks -/

/-- The blocks of an item beside the one of the item. -/
def ADDRINFOW.parts (info : ADDRINFOW) : List Addr :=
  info.aiAddr.toList ++ info.aiCanonname.toList

/-- The blocks of a list of items, in the order of their release. -/
def footprint (items : List (Addr × ADDRINFOW)) : List Addr :=
  items.flatMap (fun i => i.2.parts ++ [i.1])

/-- From `p` on, the heap has these items. -/
abbrev Items (h : Heap Block) (p : Option Addr) (items : List (Addr × ADDRINFOW)) : Prop :=
  Holds Block.item ADDRINFOW.aiNext h p items

section Lists

variable {L : Ledger Block} {h : Heap Block} {p : Option Addr} {items : List (Addr × ADDRINFOW)}

/-- The items are a list of the heap. -/
theorem chain_of_items (hitems : Items h p items) :
    Chain Block.next h p (items.map Prod.fst) :=
  hitems.chain (fun _ => rfl)

theorem footprint_cons (i : Addr × ADDRINFOW) (items : List (Addr × ADDRINFOW)) :
    footprint (i :: items) = (i.2.parts ++ [i.1]) ++ footprint items :=
  List.flatMap_cons

theorem mem_footprint {i : Addr × ADDRINFOW} {b : Addr} (hi : i ∈ items)
    (hb : b ∈ i.2.parts ++ [i.1]) : b ∈ footprint items :=
  List.mem_flatMap.mpr ⟨i, hi, hb⟩

theorem addr_mem_footprint {i : Addr × ADDRINFOW} (hi : i ∈ items) : i.1 ∈ footprint items :=
  mem_footprint hi (by simp)

/-- The blocks of one item are released together. -/
theorem release_item (info : ADDRINFOW) (a : Addr) (L : Ledger Block)
    (k : Ledger Block → Option (Ledger Block)) :
    ((freeIfAny L info.aiAddr).bind fun L =>
      (freeIfAny L info.aiCanonname).bind fun L => (L.free a).bind k) =
        (Ledger.releaseAll (info.parts ++ [a]) L).bind k := by
  have hptr : ∀ (ptr : Option Addr) (L : Ledger Block),
      freeIfAny L ptr = Ledger.releaseAll ptr.toList L := by
    intro ptr L
    cases ptr <;> simp [freeIfAny, Ledger.releaseAll]
  have hone : ∀ L : Ledger Block, L.free a = Ledger.releaseAll [a] L := by
    intro L
    simp [Ledger.releaseAll]
  simp only [hptr, hone, ADDRINFOW.parts, Ledger.releaseAll_append, Option.bind_assoc]

/-- The loop releases the blocks of the list, and leads back to the heap without them. -/
theorem freeItems_of_extends {n : Nat} (hitems : Items L.heap p items)
    (hext : Extends h L.heap (footprint items)) (hn : items.length ≤ n) :
    ∃ L', freeItems n L p = some L' ∧ L'.heap = h ∧ L'.opened = L.opened ∧
      L'.allocated = L.allocated := by
  induction items generalizing L p n with
  | nil =>
    obtain rfl : p = none := hitems
    exact ⟨L, by cases n <;> simp [freeItems], hext.eq_of_nil, rfl, rfl⟩
  | cons i items ih =>
    obtain ⟨a, info⟩ := i
    obtain ⟨rfl, hcell, hrest⟩ := hitems
    obtain ⟨n, rfl⟩ := Nat.exists_eq_succ_of_ne_zero (Nat.ne_of_gt (Nat.zero_lt_of_lt hn))
    rw [footprint_cons] at hext
    obtain ⟨L₁, hrel, hext₁, hframe, hopened, halloc⟩ := Ledger.releaseAll_of_extends_append hext
    -- the items that are left are not among the blocks that were released
    have hkept : ∀ j ∈ items, L₁.heap.cell j.1 = L.heap.cell j.1 := by
      intro j hj
      apply hframe
      intro hmem
      exact List.disjoint_of_nodup_append hext.nodup hmem (addr_mem_footprint hj)
    obtain ⟨L₂, hfree, hheap, hopened', halloc'⟩ :=
      ih (hrest.congr hkept) hext₁ (Nat.le_of_succ_le_succ hn)
    refine ⟨L₂, ?_, hheap, hopened'.trans hopened, halloc'.trans halloc⟩
    simp only [freeItems, hcell]
    rw [release_item, hrel, Option.bind_some, hfree]

/-- **The destructor** ends, and releases the blocks of the list. -/
theorem freeAddrInfoW_of_extends (hitems : Items L.heap p items)
    (hext : Extends h L.heap (footprint items)) :
    ∃ L', freeAddrInfoW L p = some L' ∧ L'.heap = h ∧ L'.opened = L.opened ∧
      L'.allocated = L.allocated := by
  apply freeItems_of_extends hitems hext
  simpa using (chain_of_items hitems).length_le

end Lists

end LinuxWinsock.Addr
