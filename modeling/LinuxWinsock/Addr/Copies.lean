import LinuxWinsock.Addr.AddrInfo
import Mathlib.Data.Finset.Lattice.Fold
import Mathlib.Order.Lattice.Nat

namespace LinuxWinsock.Addr

open Memory WideString LinkedList Heap

/-!
# What `GetAddrInfoW` makes of a list of addresses

The loop of `GetAddrInfoW` keeps a list of items with a cursor on the last one, and appends an
item for each entry of the list of `getaddrinfo`.

* `Built` — the invariant of the loop: the items of the entries so far, and their blocks;
* `copyLoop_of_succeeds`, `copyLoop_of_fails` — the loop ends with an item for every entry, or
  with the heap as it was;
* `getAddrInfoW_copies` — if every allocation succeeds the entries are copied, and
  `FreeAddrInfoW` releases each block once;
* `getAddrInfoW_allOrNothing_iff` — the call is all or nothing exactly if a failure hits an item
  or none hits an address or a name.
-/

/-! ### Entries -/

/-- What an item says: its fields, and what is in the blocks that it points to. -/
structure Entry where
  aiFlags : BitVec 32
  aiFamily : BitVec 32
  aiSocktype : BitVec 32
  aiProtocol : BitVec 32
  aiAddrlen : BitVec 64
  addr : Option (Option Block)
  name : Option (Option Block)

def ADDRINFOW.entry (h : Heap Block) (info : ADDRINFOW) : Entry :=
  { aiFlags := info.aiFlags, aiFamily := info.aiFamily, aiSocktype := info.aiSocktype,
    aiProtocol := info.aiProtocol, aiAddrlen := info.aiAddrlen,
    addr := info.aiAddr.map h.cell, name := info.aiCanonname.map h.cell }

/-- The entry that says in wide characters what `e` says. -/
def AddrInfo.widened (e : AddrInfo) : Entry :=
  { aiFlags := e.aiFlags, aiFamily := e.aiFamily, aiSocktype := e.aiSocktype,
    aiProtocol := e.aiProtocol, aiAddrlen := e.aiAddrlen.setWidth 64,
    addr := e.aiAddr.map (fun sa => some (.addr (sa.loadBytes 0 e.aiAddrlen.toNat))),
    name := e.aiCanonname.map (fun name => some (.name (widen name ++ [0]))) }

/-- The call of `malloc` for the name of an entry whose item takes the call `n`. -/
def AddrInfo.nameCall (e : AddrInfo) (n : Nat) : Nat := n + 1 + if e.aiAddr.isSome then 1 else 0

/-- The first call for the next entry. -/
def AddrInfo.nextCall (e : AddrInfo) (n : Nat) : Nat :=
  e.nameCall n + if e.aiCanonname.isSome then 1 else 0

/-- The entry that is made of `e`: a part whose `malloc` fails is missing. -/
def AddrInfo.made (succeeds : Nat → Bool) (n : Nat) (e : AddrInfo) : Entry :=
  { aiFlags := e.aiFlags, aiFamily := e.aiFamily, aiSocktype := e.aiSocktype,
    aiProtocol := e.aiProtocol, aiAddrlen := e.aiAddrlen.setWidth 64,
    addr := if succeeds (n + 1) then e.addrBlock.map some else none,
    name := if succeeds (e.nameCall n) then e.nameBlock.map some else none }

/-- The entries that are made of a list, from the call `n` on. -/
def madeFrom (succeeds : Nat → Bool) : Nat → List AddrInfo → List Entry
  | _, [] => []
  | n, e :: es => e.made succeeds n :: madeFrom succeeds (e.nextCall n) es

/-- The calls of `malloc` for the items of a list. -/
def itemCalls : Nat → List AddrInfo → List Nat
  | _, [] => []
  | n, e :: es => n :: itemCalls (e.nextCall n) es

/-- The calls of `malloc` for the addresses and names of a list. -/
def partCalls : Nat → List AddrInfo → List Nat
  | _, [] => []
  | n, e :: es =>
    (e.aiAddr.map (fun _ => n + 1)).toList ++ (e.aiCanonname.map (fun _ => e.nameCall n)).toList ++
      partCalls (e.nextCall n) es

section Parts

variable {h h' : Heap Block} {info : ADDRINFOW}

theorem ADDRINFOW.entry_congr (hsame : ∀ b ∈ info.parts, h'.cell b = h.cell b) :
    info.entry h' = info.entry h := by
  have haddr : info.aiAddr.map h'.cell = info.aiAddr.map h.cell :=
    Option.map_congr (fun b hb => hsame b (by simp [ADDRINFOW.parts, hb]))
  have hname : info.aiCanonname.map h'.cell = info.aiCanonname.map h.cell :=
    Option.map_congr (fun b hb => hsame b (by simp [ADDRINFOW.parts, hb]))
  simp only [ADDRINFOW.entry, haddr, hname]

/-- A store to another block than the parts leaves the entry as it was. -/
theorem ADDRINFOW.entry_put {b : Addr} (x : Block) (hb : b ∉ info.parts) :
    info.entry (h.put b x) = info.entry h := by
  apply ADDRINFOW.entry_congr
  intro c hc
  apply put_cell_of_ne
  rintro rfl
  exact hb hc

end Parts

/-! ### One entry -/

section Copy

variable {A : Allocator Block} {L : Ledger Block}

/-- A part is copied if the entry has it and there is memory for it. -/
theorem copyPart_spec (content : Option Block) :
    ∃ ptr L', copyPart A L content = (ptr, L') ∧ Extends L.heap L'.heap ptr.toList ∧
      ptr.map L'.heap.cell = (if A.succeeds L.calls then content.map some else none) ∧
      L'.calls = L.calls + (if content.isSome then 1 else 0) ∧ L'.opened = L.opened ∧
      L'.released = L.released := by
  cases content with
  | none => exact ⟨none, L, rfl, Extends.refl _, by simp, rfl, rfl, rfl⟩
  | some x =>
    cases hA : A.succeeds L.calls with
    | false =>
      refine ⟨none, _, Ledger.malloc_of_fails x hA, Extends.refl _, by simp, rfl, rfl, rfl⟩
    | true =>
      obtain ⟨p, L', hmalloc, hfresh, hheap, hcalls, hopened, hreleased⟩ :=
        Ledger.malloc_of_succeeds x hA
      refine ⟨some p, L', hmalloc, ?_, ?_, hcalls, hopened, hreleased⟩
      · rw [hheap]
        exact extends_put x hfresh
      · simp [hheap]

/-- **One entry.**  If there is memory for the item, it says what is made of the entry. -/
theorem copyItem_of_succeeds (e : AddrInfo) (hA : A.succeeds L.calls = true) :
    ∃ a info L', copyItem A L e = some (some a, L') ∧
      Extends L.heap L'.heap (info.parts ++ [a]) ∧ L'.heap.cell a = some (.item info) ∧
      info.aiNext = none ∧ info.entry L'.heap = e.made A.succeeds L.calls ∧
      L'.calls = e.nextCall L.calls ∧ L'.opened = L.opened ∧ L'.released = L.released := by
  obtain ⟨a, L₁, hmalloc, hfresh, hheap, hcalls₁, hopened₁, hreleased₁⟩ :=
    Ledger.malloc_of_succeeds (.item e.toItem) hA
  obtain ⟨addr, L₂, hpart₂, hext₂, hcell₂, hcalls₂, hopened₂, hreleased₂⟩ :=
    copyPart_spec (A := A) (L := L₁) e.addrBlock
  obtain ⟨name, L₃, hpart₃, hext₃, hcell₃, hcalls₃, hopened₃, hreleased₃⟩ :=
    copyPart_spec (A := A) (L := L₂) e.nameBlock
  -- three stores to new blocks, one after the other
  have hext₁ : Extends L.heap L₁.heap [a] := by
    rw [hheap]
    exact extends_put _ hfresh
  have ha₁ : L₁.heap.cell a ≠ none := hext₁.allocated a (by simp)
  have ha₂ : L₂.heap.cell a ≠ none := by rwa [hext₂.cell_of_ne_none ha₁]
  have ha₃ : L₃.heap.cell a ≠ none := by rwa [hext₃.cell_of_ne_none ha₂]
  let info := { e.toItem with aiAddr := addr, aiCanonname := name }
  obtain ⟨L', hstore, hheap', hcalls', hopened', hreleased'⟩ :=
    Ledger.store_of_cell (.item info) ha₃
  have hcalls : L₂.calls = e.nameCall L.calls := by
    rw [hcalls₂, hcalls₁, AddrInfo.nameCall, AddrInfo.addrBlock, Option.isSome_map]
  refine ⟨a, info, L', ?_, ?_, ?_, rfl, ?_, ?_, ?_, ?_⟩
  · simp only [copyItem, hmalloc, hpart₂, hpart₃]
    rw [hstore, Option.map_some]
  · rw [hheap']
    have hall := ((hext₁.trans hext₂).trans hext₃).put (.item info) (p := a) (by simp)
    apply hall.perm
    simpa [info, ADDRINFOW.parts] using
      (List.perm_append_singleton a (addr.toList ++ name.toList)).symm
  · rw [hheap']
    exact put_cell_self _ _ _
  · -- the parts are other blocks than the item, and the later ones leave the earlier ones alone
    have haddr : addr.map L'.heap.cell = addr.map L₂.heap.cell := by
      apply Option.map_congr
      intro b hb
      have hb₂ : L₂.heap.cell b ≠ none := hext₂.allocated b (by simp [hb])
      have hba : b ≠ a := fun heq => hext₂.not_mem ha₁ (by simp [← heq, hb])
      rw [hheap', put_cell_of_ne _ _ hba, hext₃.cell_of_ne_none hb₂]
    have hname : name.map L'.heap.cell = name.map L₃.heap.cell := by
      apply Option.map_congr
      intro b hb
      have hba : b ≠ a := fun heq => hext₃.not_mem ha₂ (by simp [← heq, hb])
      rw [hheap', put_cell_of_ne _ _ hba]
    simp only [ADDRINFOW.entry, AddrInfo.made, info, AddrInfo.toItem, haddr, hname, hcell₂,
      hcell₃, hcalls₁, hcalls]
  · rw [hcalls', hcalls₃, hcalls, AddrInfo.nextCall, AddrInfo.nameBlock, Option.isSome_map]
  · rw [hopened', hopened₃, hopened₂, hopened₁]
  · rw [hreleased', hreleased₃, hreleased₂, hreleased₁]

theorem copyItem_of_fails (e : AddrInfo) (hA : A.succeeds L.calls = false) :
    copyItem A L e = some (none, { L with calls := L.calls + 1 }) := by
  simp only [copyItem, Ledger.malloc_of_fails _ hA]

end Copy

/-! ### The loop -/

/-- The addresses of the items are none of their parts. -/
theorem ne_of_mem_parts {items : List (Addr × ADDRINFOW)} (hnodup : (footprint items).Nodup)
    {i j : Addr × ADDRINFOW} (hi : i ∈ items) (hj : j ∈ items) {b : Addr} (hb : b ∈ i.2.parts) :
    b ≠ j.1 := by
  have hperm := List.flatMap_append_perm items (fun i => i.2.parts) (fun i => [i.1])
  have hboth := hperm.nodup_iff.mpr hnodup
  rintro rfl
  apply List.disjoint_of_nodup_append hboth
  · exact List.mem_flatMap.mpr ⟨i, hi, hb⟩
  · exact List.mem_flatMap.mpr ⟨j, hj, by simp⟩

/-- The loop has made the items of `es`, and owns their blocks; the rest of the heap is `h`. -/
structure Built (h : Heap Block) (L : Ledger Block) (wresult wcurrent : Option Addr)
    (items : List (Addr × ADDRINFOW)) (es : List Entry) : Prop where
  list : Items L.heap wresult items
  last : wcurrent = items.getLast?.map Prod.fst
  blocks : Extends h L.heap (footprint items)
  entries : items.map (fun i => i.2.entry L.heap) = es

namespace Built

variable {h : Heap Block} {L L' : Ledger Block} {wresult wcurrent : Option Addr}
  {items : List (Addr × ADDRINFOW)} {es : List Entry} {a : Addr} {info : ADDRINFOW}

theorem nil (L : Ledger Block) : Built L.heap L none none [] [] where
  list := rfl
  last := rfl
  blocks := Extends.refl _
  entries := rfl

/-- The blocks of the items are allocated. -/
theorem allocated (hB : Built h L wresult wcurrent items es) {i : Addr × ADDRINFOW}
    (hi : i ∈ items) {b : Addr} (hb : b ∈ i.2.parts ++ [i.1]) : L.heap.cell b ≠ none :=
  hB.blocks.allocated b (mem_footprint hi hb)

/-- New blocks leave the items alone. -/
theorem extended (hB : Built h L wresult wcurrent items es) {bs : List Addr}
    (hext : Extends L.heap L'.heap bs) :
    Items L'.heap wresult items ∧ items.map (fun i => i.2.entry L'.heap) = es := by
  have hsame : ∀ i ∈ items, ∀ b ∈ i.2.parts ++ [i.1], L'.heap.cell b = L.heap.cell b :=
    fun i hi b hb => hext.cell_of_ne_none (hB.allocated hi hb)
  constructor
  · exact hB.list.congr (fun i hi => hsame i hi i.1 (by simp))
  · rw [← hB.entries]
    apply List.map_congr_left
    intro i hi
    exact ADDRINFOW.entry_congr (fun b hb => hsame i hi b (List.mem_append_left _ hb))

/-- The first item is its own head. -/
theorem linkFirst (hB : Built h L wresult wcurrent [] es)
    (hext : Extends L.heap L'.heap (info.parts ++ [a]))
    (ha : L'.heap.cell a = some (.item info)) (hnext : info.aiNext = none) :
    Addr.linkItem L' wresult wcurrent a = some (some a, L') ∧
      Built h L' (some a) (some a) [(a, info)] (es ++ [info.entry L'.heap]) := by
  obtain ⟨hitems, hentries⟩ := hB.extended hext
  obtain rfl : wresult = none := hitems
  refine ⟨rfl, ?_⟩
  constructor
  case list => exact ⟨rfl, ha, hnext⟩
  case last => simp
  case blocks => simpa [footprint] using hB.blocks.trans hext
  case entries => simp [← hentries]

variable {pre : List (Addr × ADDRINFOW)} {c : Addr} {last : ADDRINFOW}

/-- The items in front of the last one are at other addresses. -/
theorem fst_ne_last {p : Option Addr} {heap : Heap Block} (hitems : Items heap p (pre ++ [(c, last)]))
    {i : Addr × ADDRINFOW} (hi : i ∈ pre) : i.1 ≠ c := by
  have hnodup := (chain_of_items hitems).nodup
  rw [List.map_append, List.nodup_append] at hnodup
  exact hnodup.2.2 i.1 (List.mem_map_of_mem hi) c (by simp)

/-- A later item is linked to the last one: the store leaves all entries as they were. -/
theorem linkLast (hB : Built h L wresult wcurrent (pre ++ [(c, last)]) es)
    (hext : Extends L.heap L'.heap (info.parts ++ [a]))
    (ha : L'.heap.cell a = some (.item info)) (hnext : info.aiNext = none) {L'' : Ledger Block}
    (hheap : L''.heap = L'.heap.put c (.item { last with aiNext := some a })) :
    Built h L'' wresult (some a) (pre ++ [(c, { last with aiNext := some a }), (a, info)])
      (es ++ [info.entry L'.heap]) := by
  obtain ⟨hitems, hentries⟩ := hB.extended hext
  have hmem : (c, last) ∈ pre ++ [(c, last)] := by simp
  -- the last item is another block than the new ones
  have hcnew : c ∉ info.parts ++ [a] := hext.not_mem (hB.allocated hmem (by simp))
  rw [List.mem_append, not_or] at hcnew
  have hac : a ≠ c := by
    rintro rfl
    exact hcnew.2 (by simp)
  constructor
  case list =>
    rw [hheap]
    apply Holds.snoc hitems
    · intro i hi
      exact put_cell_of_ne _ _ (fst_ne_last hitems hi)
    · exact put_cell_self _ _ _
    · rfl
    · rw [put_cell_of_ne _ _ hac]
      exact ha
    · exact hnext
  case last => simp
  case blocks =>
    rw [hheap]
    have hput := (hB.blocks.trans hext).put (Block.item { last with aiNext := some a }) (p := c)
      (List.mem_append_left _ (addr_mem_footprint hmem))
    simpa [footprint, ADDRINFOW.parts] using hput
  case entries =>
    have hold : ∀ i ∈ pre ++ [(c, last)], i.2.entry L''.heap = i.2.entry L'.heap := by
      intro i hi
      rw [hheap]
      apply ADDRINFOW.entry_put
      intro hc
      exact ne_of_mem_parts hB.blocks.nodup hi hmem hc rfl
    have hnew : info.entry L''.heap = info.entry L'.heap := by
      rw [hheap, ADDRINFOW.entry_put _ hcnew.1]
    rw [← hentries, ← List.map_congr_left hold, ← hnew]
    simp [ADDRINFOW.entry]

/-- **Append.**  A new item becomes the last one. -/
theorem linkItem (hB : Built h L wresult wcurrent items es)
    (hext : Extends L.heap L'.heap (info.parts ++ [a]))
    (ha : L'.heap.cell a = some (.item info)) (hnext : info.aiNext = none) :
    ∃ head L'' items', linkItem L' wresult wcurrent a = some (head, L'') ∧
      Built h L'' head (some a) items' (es ++ [info.entry L'.heap]) ∧
      L''.calls = L'.calls ∧ L''.opened = L'.opened ∧ L''.released = L'.released := by
  rcases List.eq_nil_or_concat' items with rfl | ⟨pre, ⟨c, last⟩, rfl⟩
  · obtain ⟨hlink, hbuilt⟩ := hB.linkFirst hext ha hnext
    exact ⟨_, L', _, hlink, hbuilt, rfl, rfl, rfl⟩
  · have hitems := (hB.extended hext).1
    have hc : L'.heap.cell c = some (.item last) := hitems.cell (c, last) (by simp)
    obtain ⟨head, rfl⟩ : ∃ head, wresult = some head := by
      apply Option.ne_none_iff_exists'.mp
      rw [Ne, hitems.eq_none_iff]
      simp
    have hcurrent : wcurrent = some c := by rw [hB.last]; simp
    obtain ⟨L'', hstore, hheap, hcalls, hopened, hreleased⟩ :=
      Ledger.store_of_cell (Block.item { last with aiNext := some a }) (p := c) (by rw [hc]; simp)
    refine ⟨some head, L'', _, ?_, hB.linkLast hext ha hnext hheap, hcalls, hopened, hreleased⟩
    rw [hcurrent]
    simp only [Addr.linkItem, hc]
    rw [hstore, Option.map_some]

end Built

section Loop

variable {A : Allocator Block} {h : Heap Block} {L : Ledger Block} {wresult wcurrent : Option Addr}
  {items : List (Addr × ADDRINFOW)} {es : List Entry} {source : List AddrInfo}

/-- **The loop**, with memory for every item: an item is appended for each entry. -/
theorem copyLoop_of_succeeds (source : List AddrInfo)
    (hB : Built h L wresult wcurrent items es)
    (hA : ∀ k ∈ itemCalls L.calls source, A.succeeds k = true) :
    ∃ L' head items', copyLoop A source L wresult wcurrent = some ⟨0, some 0, some head, L', 1⟩ ∧
      Items L'.heap head items' ∧ Extends h L'.heap (footprint items') ∧
      items'.map (fun i => i.2.entry L'.heap) = es ++ madeFrom A.succeeds L.calls source ∧
      L'.opened = L.opened ∧ L'.released = L.released := by
  induction source generalizing L wresult wcurrent items es with
  | nil => exact ⟨L, wresult, items, rfl, hB.list, hB.blocks, by simp [hB.entries, madeFrom], rfl, rfl⟩
  | cons e source ih =>
    obtain ⟨a, info, L₁, hcopy, hext, ha, hnext, hmade, hcalls₁, hopened₁, hreleased₁⟩ :=
      copyItem_of_succeeds e (hA L.calls (by simp [itemCalls]))
    obtain ⟨head, L₂, items₂, hlink, hB₂, hcalls₂, hopened₂, hreleased₂⟩ :=
      hB.linkItem hext ha hnext
    have hcalls : L₂.calls = e.nextCall L.calls := hcalls₂.trans hcalls₁
    have hrest : ∀ k ∈ itemCalls L₂.calls source, A.succeeds k = true := by
      intro k hk
      rw [hcalls] at hk
      exact hA k (List.mem_cons_of_mem _ hk)
    obtain ⟨L', head', items', hloop, hitems, hblocks, hentries, hopened, hreleased⟩ :=
      ih hB₂ hrest
    refine ⟨L', head', items', ?_, hitems, hblocks, ?_, ?_, ?_⟩
    · simp only [copyLoop, hcopy, hlink, hloop]
    · rw [hentries, hmade, hcalls]
      simp [madeFrom]
    · rw [hopened, hopened₂, hopened₁]
    · rw [hreleased, hreleased₂, hreleased₁]

/-- Without, it releases the items that it has made. -/
theorem copyLoop_of_fails (source : List AddrInfo)
    (hB : Built h L wresult wcurrent items es) {k : Nat}
    (hk : k ∈ itemCalls L.calls source) (hA : A.succeeds k = false) :
    ∃ L', copyLoop A source L wresult wcurrent =
        some ⟨WSA_NOT_ENOUGH_MEMORY, some WSA_NOT_ENOUGH_MEMORY, none, L', 1⟩ ∧ L'.heap = h := by
  induction source generalizing L wresult wcurrent items es with
  | nil => simp [itemCalls] at hk
  | cons e source ih =>
    cases hfirst : A.succeeds L.calls with
    | false =>
      -- the failing call changes no block, so the clean-up finds the items as they were made
      obtain ⟨L', hfree, hheap, _, _⟩ := freeAddrInfoW_of_extends
        (L := { L with calls := L.calls + 1 }) hB.list hB.blocks
      refine ⟨L', ?_, hheap⟩
      simp only [copyLoop, copyItem_of_fails e hfirst]
      rw [hfree, Option.map_some]
    | true =>
      obtain ⟨a, info, L₁, hcopy, hext, ha, hnext, _, hcalls₁, _, _⟩ :=
        copyItem_of_succeeds e hfirst
      obtain ⟨head, L₂, items₂, hlink, hB₂, hcalls₂, _, _⟩ := hB.linkItem hext ha hnext
      have hrest : k ∈ itemCalls L₂.calls source := by
        rw [hcalls₂, hcalls₁]
        rcases List.mem_cons.mp hk with rfl | hk
        · rw [hfirst] at hA
          cases hA
        · exact hk
      obtain ⟨L', hloop, hheap⟩ := ih hB₂ hrest
      refine ⟨L', ?_, hheap⟩
      simp only [copyLoop, hcopy, hlink, hloop]

end Loop

/-! ### Every allocation succeeds -/

/-- With memory for everything, what is made of an entry is its copy. -/
theorem made_eq_widened {succeeds : Nat → Bool} (hall : ∀ k, succeeds k = true) {e : AddrInfo}
    (hascii : ∀ name ∈ e.aiCanonname, Ascii name) (n : Nat) : e.made succeeds n = e.widened := by
  have hname : e.nameBlock.map some =
      e.aiCanonname.map (fun name => some (.name (widen name ++ [0]))) := by
    rw [AddrInfo.nameBlock, Option.map_map]
    apply Option.map_congr
    intro name hname
    simp [mbstowcs_of_lt (hascii name hname) (Nat.lt_succ_self _)]
  have haddr : e.addrBlock.map some =
      e.aiAddr.map (fun sa => some (.addr (sa.loadBytes 0 e.aiAddrlen.toNat))) := by
    rw [AddrInfo.addrBlock, Option.map_map]
    rfl
  simp only [AddrInfo.made, AddrInfo.widened, hall, if_true, hname, haddr]

theorem madeFrom_eq_map {succeeds : Nat → Bool} (hall : ∀ k, succeeds k = true)
    {es : List AddrInfo} (hascii : ∀ e ∈ es, ∀ name ∈ e.aiCanonname, Ascii name) (n : Nat) :
    madeFrom succeeds n es = es.map AddrInfo.widened := by
  induction es generalizing n with
  | nil => rfl
  | cons e es ih =>
    rw [madeFrom, made_eq_widened hall (hascii e List.mem_cons_self),
      ih (fun e' he' => hascii e' (List.mem_cons_of_mem e he')), List.map_cons]

/-- The call where `getaddrinfo` is asked for `node` and `service`, and returns a list. -/
theorem getAddrInfoW_of_ok {getaddrinfo : Lookup} {nodeBuffer serviceBuffer : CharArray 256}
    {pNodeName pServiceName : Option WString} {pHints : Option ADDRINFOW}
    {node service : Option CString} {result : List AddrInfo}
    (hnode : (narrowParam nodeBuffer pNodeName).bind readParam = some node)
    (hservice : (narrowParam serviceBuffer pServiceName).bind readParam = some service)
    (hresult : getaddrinfo node service (pHints.map ADDRINFOW.toHints) = .ok result)
    (A : Allocator Block) (L : Ledger Block) :
    getAddrInfoW getaddrinfo A L nodeBuffer serviceBuffer pNodeName pServiceName pHints =
      copyLoop A result L none none := by
  obtain ⟨bytes, hnarrow, hread⟩ := Option.bind_eq_some_iff.mp hnode
  obtain ⟨bytes', hnarrow', hread'⟩ := Option.bind_eq_some_iff.mp hservice
  simp only [getAddrInfoW, hnarrow, hnarrow', hread, hread', hresult]

/-- **Copy and release.**  If every allocation succeeds, the list of `getaddrinfo` is released
    once, and the result has its entries in their order; a following `FreeAddrInfoW` releases each
    block of the result once, and leaves none. -/
theorem getAddrInfoW_copies (getaddrinfo : Lookup) (A : Allocator Block) (h : Heap Block)
    (nodeBuffer serviceBuffer : CharArray 256) (pNodeName pServiceName : Option WString)
    (pHints : Option ADDRINFOW) (node service : Option CString) (result : List AddrInfo)
    (hnode : (narrowParam nodeBuffer pNodeName).bind readParam = some node)
    (hservice : (narrowParam serviceBuffer pServiceName).bind readParam = some service)
    (hresult : getaddrinfo node service (pHints.map ADDRINFOW.toHints) = .ok result)
    (hascii : ∀ e ∈ result, ∀ name ∈ e.aiCanonname, Ascii name)
    (hmalloc : ∀ k, A.succeeds k = true) :
    ∃ L head items, getAddrInfoW getaddrinfo A (Ledger.start h) nodeBuffer serviceBuffer pNodeName
        pServiceName pHints = some ⟨0, some 0, some head, L, 1⟩ ∧
      Items L.heap head items ∧
      items.map (fun i => i.2.entry L.heap) = result.map AddrInfo.widened ∧
      L.released = [] ∧ L.allocated.Nodup ∧
      ∃ L', freeAddrInfoW L head = some L' ∧ L'.allocated = L.allocated ∧
        L.allocated.Perm L'.released ∧ L'.heap = h := by
  obtain ⟨L, head, items, hloop, hitems, hblocks, hentries, hopened, hreleased⟩ :=
    copyLoop_of_succeeds result (Built.nil (Ledger.start h)) (fun k _ => hmalloc k)
  obtain ⟨L', hfree, hheap, hopened', halloc⟩ := freeAddrInfoW_of_extends hitems hblocks
  refine ⟨L, head, items, ?_, hitems, ?_, hreleased, Ledger.nodup_of_released_nil hreleased, L',
    hfree, halloc, ?_, hheap⟩
  · rw [getAddrInfoW_of_ok hnode hservice hresult, hloop]
  · rw [hentries, madeFrom_eq_map hmalloc hascii]
    rfl
  · rw [← halloc]
    apply Ledger.perm_of_live_eq
    rw [hheap, hopened', hopened]
    rfl

/-- `malloc` that takes the address above all that are live. -/
def allocatorAbove (succeeds : Nat → Bool) : Allocator Block where
  succeeds := succeeds
  place h := h.live.sup id + 1
  fresh h hmem := by
    exact Nat.not_succ_le_self _ (Finset.le_sup (f := id) hmem)

/-- An entry with an address of sixteen bytes and the name `a`. -/
def namedEntry : AddrInfo :=
  { aiFlags := 2, aiFamily := 2, aiSocktype := 1, aiProtocol := 6, aiAddrlen := 16,
    aiAddr := some (fun i => BitVec.ofNat 8 i), aiCanonname := some [97] }

/-- An array that holds nothing but zeros. -/
def zeroArray (n : Nat) : CharArray n := ⟨List.replicate n 0, List.length_replicate⟩

/-- The entry that follows it: another address, and no name. -/
def unnamedEntry : AddrInfo :=
  { aiFlags := 2, aiFamily := 10, aiSocktype := 2, aiProtocol := 17, aiAddrlen := 28,
    aiAddr := some (fun i => BitVec.ofNat 8 (100 + i)), aiCanonname := none }

/-- A list with two entries is copied in its order, and nothing of the copy is left. -/
theorem getAddrInfoW_copies_two : ∃ L head items L',
    getAddrInfoW (fun _ _ _ => .ok [namedEntry, unnamedEntry]) (allocatorAbove (fun _ => true))
      (Ledger.start Heap.empty) (zeroArray 256) (zeroArray 256) (some [98]) none none =
        some ⟨0, some 0, some head, L, 1⟩ ∧
      Items L.heap head items ∧ items.map (fun i => i.2.aiFamily) = [2, 10] ∧
      freeAddrInfoW L head = some L' ∧ L'.heap = Heap.empty := by
  have hnode : (narrowParam (zeroArray 256) (some [98])).bind readParam = some (some [98]) := by
    decide
  have hascii : ∀ e ∈ [namedEntry, unnamedEntry], ∀ name ∈ e.aiCanonname, Ascii name := by
    simp [namedEntry, unnamedEntry, Ascii]
  obtain ⟨L, head, items, hcall, hitems, hentries, _, _, L', hfree, _, _, hheap⟩ :=
    getAddrInfoW_copies (fun _ _ _ => .ok [namedEntry, unnamedEntry])
      (allocatorAbove (fun _ => true)) Heap.empty (zeroArray 256) (zeroArray 256) (some [98]) none
      none (some [98]) none [namedEntry, unnamedEntry] hnode rfl rfl hascii (fun _ => rfl)
  have hfamilies := congrArg (List.map Entry.aiFamily) hentries
  rw [List.map_map] at hfamilies
  exact ⟨L, head, items, L', hcall, hitems, hfamilies, hfree, hheap⟩

/-! ### Allocations that fail -/

/-- The call is all or nothing: it returns 0 and no part of an entry is missing, or it returns
    another code, writes no result and leaves no block. -/
def AllOrNothing (h : Heap Block) (result : List AddrInfo) (o : GetAddrInfo) : Prop :=
  (o.ret = 0 ∧ ∃ head items, o.ppResult = some head ∧ Items o.ledger.heap head items ∧
    items.map (fun i => (i.2.aiAddr.isSome, i.2.aiCanonname.isSome)) =
      result.map (fun e => (e.aiAddr.isSome, e.aiCanonname.isSome))) ∨
  (o.ret ≠ 0 ∧ o.ppResult = none ∧ o.freed = 1 ∧ o.ledger.heap = h)

/-- No part of one entry is missing exactly if the allocations for its parts succeed. -/
theorem made_parts_iff (succeeds : Nat → Bool) (n : Nat) (e : AddrInfo) :
    ((e.made succeeds n).addr.isSome, (e.made succeeds n).name.isSome) =
        (e.aiAddr.isSome, e.aiCanonname.isSome) ↔
      ∀ k ∈ (e.aiAddr.map (fun _ => n + 1)).toList ++
        (e.aiCanonname.map (fun _ => e.nameCall n)).toList, succeeds k = true := by
  cases haddr : e.aiAddr <;> cases hname : e.aiCanonname <;>
    cases hn : succeeds (n + 1) <;> cases hk : succeeds (e.nameCall n) <;>
      simp [AddrInfo.made, AddrInfo.addrBlock, AddrInfo.nameBlock, haddr, hname, hn, hk]

/-- No part of a list is missing exactly if the allocations for the parts succeed. -/
theorem madeFrom_parts_iff (succeeds : Nat → Bool) (n : Nat) (es : List AddrInfo) :
    (madeFrom succeeds n es).map (fun e => (e.addr.isSome, e.name.isSome)) =
        es.map (fun e => (e.aiAddr.isSome, e.aiCanonname.isSome)) ↔
      ∀ k ∈ partCalls n es, succeeds k = true := by
  induction es generalizing n with
  | nil => simp [madeFrom, partCalls]
  | cons e es ih =>
    rw [madeFrom, partCalls, List.map_cons, List.map_cons, List.cons_eq_cons, ih,
      made_parts_iff]
    exact List.forall_mem_append.symm

/-- The loop, with any pattern of failures. -/
theorem copyLoop_allOrNothing_iff (A : Allocator Block) (h : Heap Block)
    (result : List AddrInfo) :
    ∃ o, copyLoop A result (Ledger.start h) none none = some o ∧
      (AllOrNothing h result o ↔
        (∃ k ∈ itemCalls 0 result, A.succeeds k = false) ∨
          ∀ k ∈ partCalls 0 result, A.succeeds k = true) := by
  have hstart : Built h (Ledger.start h) none none [] [] := Built.nil (Ledger.start h)
  by_cases hfail : ∃ k ∈ itemCalls 0 result, A.succeeds k = false
  · obtain ⟨k, hk, hA⟩ := hfail
    obtain ⟨L', hloop, hheap⟩ := copyLoop_of_fails result hstart hk hA
    have hret : WSA_NOT_ENOUGH_MEMORY ≠ 0 := by decide
    exact ⟨_, hloop, iff_of_true (.inr ⟨hret, rfl, rfl, hheap⟩) (.inl ⟨k, hk, hA⟩)⟩
  · have hall : ∀ k ∈ itemCalls 0 result, A.succeeds k = true := by
      intro k hk
      by_contra hA
      exact hfail ⟨k, hk, Bool.eq_false_of_not_eq_true hA⟩
    obtain ⟨L', head, items, hloop, hitems, _, hentries, _, _⟩ :=
      copyLoop_of_succeeds result hstart hall
    refine ⟨_, hloop, ?_⟩
    -- which parts the items have is what their entries say
    have hparts : items.map (fun i => (i.2.aiAddr.isSome, i.2.aiCanonname.isSome)) =
        (madeFrom A.succeeds 0 result).map (fun e => (e.addr.isSome, e.name.isSome)) := by
      have hlist : items.map (fun i => i.2.entry L'.heap) = madeFrom A.succeeds 0 result := hentries
      rw [← hlist, List.map_map]
      simp [Function.comp_def, ADDRINFOW.entry]
    rw [← madeFrom_parts_iff, ← hparts]
    constructor
    · rintro (⟨_, head', items', hhead, hitems', hsame⟩ | ⟨hret, _⟩)
      · obtain rfl := Option.some.inj hhead
        obtain rfl := hitems.unique (fun _ _ => Block.item.inj) hitems'
        exact .inr hsame
      · exact absurd rfl hret
    · intro hcond
      exact .inl ⟨rfl, head, items, rfl, hitems, hcond.resolve_left hfail⟩

/-- **All or nothing**, exactly if a failure hits an item, or none hits a part of an entry. -/
theorem getAddrInfoW_allOrNothing_iff (getaddrinfo : Lookup) (A : Allocator Block)
    (h : Heap Block) (nodeBuffer serviceBuffer : CharArray 256)
    (pNodeName pServiceName : Option WString) (pHints : Option ADDRINFOW)
    (node service : Option CString) (result : List AddrInfo)
    (hnode : (narrowParam nodeBuffer pNodeName).bind readParam = some node)
    (hservice : (narrowParam serviceBuffer pServiceName).bind readParam = some service)
    (hresult : getaddrinfo node service (pHints.map ADDRINFOW.toHints) = .ok result) :
    ∃ o, getAddrInfoW getaddrinfo A (Ledger.start h) nodeBuffer serviceBuffer pNodeName
        pServiceName pHints = some o ∧
      (AllOrNothing h result o ↔
        (∃ k ∈ itemCalls 0 result, A.succeeds k = false) ∨
          ∀ k ∈ partCalls 0 result, A.succeeds k = true) := by
  rw [getAddrInfoW_of_ok hnode hservice hresult]
  exact copyLoop_allOrNothing_iff A h result

/-- Where the item of the one entry gets no memory, the call fails and leaves nothing. -/
theorem getAddrInfoW_allOrNothing_one : ∃ o,
    getAddrInfoW (fun _ _ _ => .ok [namedEntry]) (allocatorAbove (fun k => k ≠ 0))
      (Ledger.start Heap.empty) (zeroArray 256) (zeroArray 256) (some [98]) none none = some o ∧
      AllOrNothing Heap.empty [namedEntry] o := by
  have hnode : (narrowParam (zeroArray 256) (some [98])).bind readParam = some (some [98]) := by
    decide
  obtain ⟨o, ho, hiff⟩ := getAddrInfoW_allOrNothing_iff (fun _ _ _ => .ok [namedEntry])
    (allocatorAbove (fun k => k ≠ 0)) Heap.empty (zeroArray 256) (zeroArray 256) (some [98]) none
    none (some [98]) none [namedEntry] hnode rfl rfl
  exact ⟨o, ho, hiff.mpr (by decide)⟩

/-- Where its address gets none, the call returns 0 and the address is missing. -/
theorem getAddrInfoW_drops_address : ¬ ∃ o,
    getAddrInfoW (fun _ _ _ => .ok [namedEntry]) (allocatorAbove (fun k => k ≠ 1))
      (Ledger.start Heap.empty) (zeroArray 256) (zeroArray 256) (some [98]) none none = some o ∧
      AllOrNothing Heap.empty [namedEntry] o := by
  have hnode : (narrowParam (zeroArray 256) (some [98])).bind readParam = some (some [98]) := by
    decide
  rintro ⟨o, ho, hall⟩
  obtain ⟨o', ho', hiff⟩ := copyLoop_allOrNothing_iff (allocatorAbove (fun k => k ≠ 1)) Heap.empty
    [namedEntry]
  have hservice : (narrowParam (zeroArray 256) none).bind readParam = some none := rfl
  rw [getAddrInfoW_of_ok hnode hservice rfl, ho', Option.some.injEq] at ho
  subst ho
  exact absurd (hiff.mp hall) (by decide)

end LinuxWinsock.Addr
