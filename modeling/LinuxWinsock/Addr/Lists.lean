import LinuxWinsock.Addr.Copies
import LinuxWinsock.Lib.Transition

namespace LinuxWinsock.Addr.Lists

open Memory WideString LinkedList Heap TransitionSystem

/-!
# Many lists of addresses

Programs call `GetAddrInfoW` and `FreeAddrInfoW` in any order, with any answers of `getaddrinfo` and
any failures of `malloc`, on one heap.

* `next`, `system` — the calls;
* `outstanding` — the lists that were returned and are not released, from the calls made so far;
* `Owned` — each of them has its own blocks, and the heap has no others;
* `lists_kept` — a list stays as it was returned until it is released;
* `lists_released` — a list can always be released, and in the end every block was, once.
-/

/-! ### The calls -/

/-- A call of `GetAddrInfoW`: its arguments, and how `getaddrinfo` and `malloc` answer. -/
structure Query where
  getaddrinfo : Lookup
  A : Allocator Block
  nodeBuffer : CharArray 256
  serviceBuffer : CharArray 256
  pNodeName : Option WString
  pServiceName : Option WString
  pHints : Option ADDRINFOW

def Query.call (q : Query) (L : Ledger Block) : Option GetAddrInfo :=
  getAddrInfoW q.getaddrinfo q.A L q.nodeBuffer q.serviceBuffer q.pNodeName q.pServiceName q.pHints

/-- The list of `getaddrinfo`, if the names can be passed on and there is one. -/
def Query.answered (q : Query) : Option (List AddrInfo) := do
  let node ← (narrowParam q.nodeBuffer q.pNodeName).bind readParam
  let service ← (narrowParam q.serviceBuffer q.pServiceName).bind readParam
  (q.getaddrinfo node service (q.pHints.map ADDRINFOW.toHints)).toOption

inductive Label where
  | getAddrInfoW (q : Query)
  | freeAddrInfoW (pAddrInfo : Option Addr)

/-- The heap after a call; `none` where its behaviour is undefined. -/
def next (L : Ledger Block) : Label → Option (Ledger Block)
  | .getAddrInfoW q => (q.call L).map GetAddrInfo.ledger
  | .freeAddrInfoW p => Addr.freeAddrInfoW L p

/-- The system of the calls, on a heap without blocks. -/
def system : TransitionSystem (Ledger Block) Label := .ofFun (Ledger.start Heap.empty) next

/-! ### The lists that programs hold -/

/-- A list that was returned: its head, and what its entries said. -/
structure Known where
  head : Option Addr
  entries : List Entry

/-- The list that a call returns: the entries of `getaddrinfo`, without the parts for which there
    was no memory. -/
def Query.returned (q : Query) (L : Ledger Block) : Option Known :=
  (q.call L).bind fun o => q.answered.bind fun result =>
    o.ppResult.map fun head => ⟨head, madeFrom q.A.succeeds L.calls result⟩

/-- The lists that were returned and are not released. -/
def outstanding : List (Ledger Block × Label) → List Known
  | [] => []
  | (L, .getAddrInfoW q) :: tr => (q.returned L).toList ++ outstanding tr
  | (_, .freeAddrInfoW p) :: tr => (outstanding tr).eraseP (fun k => decide (k.head = p))

/-- `NULL`, or the head of a list that is not released. -/
def Releasable (tr : List (Ledger Block × Label)) (p : Option Addr) : Prop :=
  p = none ∨ ∃ k ∈ outstanding tr, k.head = p

/-- Programs release what they may release. -/
def Proper (tr : List (Ledger Block × Label)) (_ : Ledger Block) : Label → Prop
  | .freeAddrInfoW p => Releasable tr p
  | .getAddrInfoW _ => True

instance Releasable.decidable (tr : List (Ledger Block × Label)) (p : Option Addr) :
    Decidable (Releasable tr p) :=
  inferInstanceAs (Decidable (p = none ∨ ∃ k ∈ outstanding tr, k.head = p))

instance Proper.decidable (tr : List (Ledger Block × Label)) (L : Ledger Block) :
    (l : Label) → Decidable (Proper tr L l)
  | .freeAddrInfoW p => inferInstanceAs (Decidable (Releasable tr p))
  | .getAddrInfoW _ => .isTrue trivial

/-- The blocks of several lists. -/
def blocksOf (owned : List (Known × List (Addr × ADDRINFOW))) : List Addr :=
  owned.flatMap (fun o => footprint o.2)

/-- **Separation.**  Each list is in the heap as it was returned, in blocks of its own, and the heap
    has no other blocks. -/
structure Owned (known : List Known) (h : Heap Block)
    (owned : List (Known × List (Addr × ADDRINFOW))) : Prop where
  known : owned.map Prod.fst = known
  items : ∀ o ∈ owned, Items h o.1.head o.2
  entries : ∀ o ∈ owned, o.2.map (fun i => i.2.entry h) = o.1.entries
  blocks : Extends Heap.empty h (blocksOf owned)

variable {L L' : Ledger Block} {h h' : Heap Block} {known : List Known} {q : Query}
  {owned : List (Known × List (Addr × ADDRINFOW))} {items : List (Addr × ADDRINFOW)}
  {p : Option Addr} {o : GetAddrInfo}

/-! ### Heaps that change elsewhere -/

/-- A list is the same in a heap that keeps its blocks. -/
theorem items_congr (hitems : Items h p items)
    (hsame : ∀ b ∈ footprint items, h'.cell b = h.cell b) :
    Items h' p items ∧
      items.map (fun i => i.2.entry h') = items.map (fun i => i.2.entry h) := by
  refine ⟨hitems.congr (fun i hi => hsame i.1 (addr_mem_footprint hi)), ?_⟩
  apply List.map_congr_left
  intro i hi
  apply ADDRINFOW.entry_congr
  exact fun b hb => hsame b (mem_footprint hi (List.mem_append_left _ hb))

theorem mem_blocksOf {o : Known × List (Addr × ADDRINFOW)} {b : Addr} (ho : o ∈ owned)
    (hb : b ∈ footprint o.2) : b ∈ blocksOf owned := List.mem_flatMap.mpr ⟨o, ho, hb⟩

/-- The lists are the same in a heap that keeps their blocks. -/
theorem Owned.congr (ho : Owned known h owned)
    (hsame : ∀ b ∈ blocksOf owned, h'.cell b = h.cell b)
    (hblocks : Extends Heap.empty h' (blocksOf owned)) : Owned known h' owned where
  known := ho.known
  items o hmem := (items_congr (ho.items o hmem) (fun b hb => hsame b (mem_blocksOf hmem hb))).1
  entries o hmem := by
    rw [(items_congr (ho.items o hmem) (fun b hb => hsame b (mem_blocksOf hmem hb))).2]
    exact ho.entries o hmem
  blocks := hblocks

/-- **A list is returned**, in new blocks. -/
theorem Owned.returned (ho : Owned known h owned) {k : Known} (hitems : Items h' k.head items)
    (hentries : items.map (fun i => i.2.entry h') = k.entries)
    (hext : Extends h h' (footprint items)) : Owned (k :: known) h' ((k, items) :: owned) := by
  have hsame : ∀ b ∈ blocksOf owned, h'.cell b = h.cell b :=
    fun b hb => hext.cell_of_ne_none (ho.blocks.allocated b hb)
  constructor
  case known => rw [List.map_cons, ho.known]
  case items =>
    intro o hmem
    rcases List.mem_cons.mp hmem with rfl | hmem
    · exact hitems
    · exact (items_congr (ho.items o hmem) (fun b hb => hsame b (mem_blocksOf hmem hb))).1
  case entries =>
    intro o hmem
    rcases List.mem_cons.mp hmem with rfl | hmem
    · exact hentries
    · rw [(items_congr (ho.items o hmem) (fun b hb => hsame b (mem_blocksOf hmem hb))).2]
      exact ho.entries o hmem
  case blocks =>
    show Extends Heap.empty h' (footprint items ++ blocksOf owned)
    exact (ho.blocks.trans hext).perm List.perm_append_comm

/-- The heap without the blocks that come first. -/
theorem exists_without {bs cs : List Addr} (hext : Extends h h' (bs ++ cs)) :
    ∃ h₁, Extends h h₁ cs ∧ Extends h₁ h' bs := by
  obtain ⟨L', -, hrest, hframe, -⟩ :=
    Ledger.releaseAll_of_extends_append (L := Ledger.start h') hext
  have hsep : ∀ b ∈ bs, b ∉ cs := fun b hb hc => List.disjoint_of_nodup_append hext.nodup hb hc
  refine ⟨L'.heap, hrest, ?_⟩
  constructor
  case nodup => exact (List.nodup_append.mp hext.nodup).1
  case fresh =>
    intro b hb
    rw [hrest.frame b (hsep b hb)]
    exact hext.fresh b (List.mem_append_left cs hb)
  case allocated => exact fun b hb => hext.allocated b (List.mem_append_left cs hb)
  case frame => exact fun b hb => (hframe b hb).symm

/-- **A list is released**: the loop ends, and the other lists stay. -/
theorem Owned.released (ho : Owned known L.heap owned) {k : Known} (hk : k ∈ known)
    (hp : k.head = p) :
    ∃ L' owned', Addr.freeAddrInfoW L p = some L' ∧
      Owned (known.eraseP (fun k => decide (k.head = p))) L'.heap owned' ∧
      L'.opened = L.opened := by
  -- the first list with this head, among the lists with their blocks
  obtain ⟨o, hmem, rfl⟩ := List.mem_map.mp (ho.known ▸ hk)
  let f : Known × List (Addr × ADDRINFOW) → Bool := fun o => decide (o.1.head = p)
  obtain ⟨a, pre, post, -, ha, hsplit, herase⟩ :=
    List.exists_of_eraseP (p := f) hmem (decide_eq_true hp)
  have hhead : a.1.head = p := of_decide_eq_true ha
  have hamem : a ∈ owned := by
    rw [hsplit]
    exact List.mem_append_right pre List.mem_cons_self
  have hothers : ∀ c ∈ pre ++ post, c ∈ owned := by
    intro c hc
    rw [hsplit]
    rcases List.mem_append.mp hc with hc | hc
    · exact List.mem_append_left _ hc
    · exact List.mem_append_right pre (List.mem_cons_of_mem a hc)
  have hperm : (blocksOf owned).Perm (footprint a.2 ++ blocksOf (pre ++ post)) := by
    rw [hsplit]
    simp only [blocksOf, List.flatMap_append, List.flatMap_cons]
    exact List.perm_append_comm_assoc _ _ _
  obtain ⟨h₁, hrest, hown⟩ := exists_without (ho.blocks.perm hperm)
  have hitems : Items L.heap p a.2 := hhead ▸ ho.items a hamem
  obtain ⟨L', hfree, hheap, hopened, -⟩ := freeAddrInfoW_of_extends hitems hown
  have hsame : ∀ b ∈ blocksOf (pre ++ post), L'.heap.cell b = L.heap.cell b := by
    intro b hb
    rw [hheap]
    exact (hown.cell_of_ne_none (hrest.allocated b hb)).symm
  refine ⟨L', pre ++ post, hfree, ?_, hopened⟩
  constructor
  case known =>
    rw [← herase, ← ho.known, List.eraseP_map]
    rfl
  case items =>
    intro c hc
    exact (items_congr (ho.items c (hothers c hc)) (fun b hb => hsame b (mem_blocksOf hc hb))).1
  case entries =>
    intro c hc
    rw [(items_congr (ho.items c (hothers c hc)) (fun b hb => hsame b (mem_blocksOf hc hb))).2]
    exact ho.entries c (hothers c hc)
  case blocks =>
    rw [hheap]
    exact hrest

/-! ### One call -/

/-- What is copied is the answer of `getaddrinfo`. -/
theorem answered_or_unchanged (hcall : q.call L = some o) :
    (o.ppResult = none ∧ o.ledger = L) ∨
      ∃ result, q.answered = some result ∧ copyLoop q.A result L none none = some o := by
  simp only [Query.call, getAddrInfoW] at hcall
  split at hcall
  · cases hcall
    exact .inl ⟨rfl, rfl⟩
  rename_i node hnode
  split at hcall
  · cases hcall
    exact .inl ⟨rfl, rfl⟩
  rename_i service hservice
  split at hcall
  · rename_i node' service' hnode' hservice'
    split at hcall
    · cases hcall
      exact .inl ⟨rfl, rfl⟩
    · rename_i result hresult
      refine .inr ⟨result, ?_, hcall⟩
      simp [Query.answered, hnode, hservice, hnode', hservice', hresult, Except.toOption]
  · cases hcall

/-- **A call** leaves the heap as it was, or returns a list in new blocks. -/
theorem unchanged_or_returned (hcall : q.call L = some o) :
    (q.returned L = none ∧ o.ledger.heap = L.heap) ∨
      ∃ k items, q.returned L = some k ∧ Items o.ledger.heap k.head items ∧
        items.map (fun i => i.2.entry o.ledger.heap) = k.entries ∧
        Extends L.heap o.ledger.heap (footprint items) := by
  have hnone : o.ppResult = none → q.returned L = none := by
    intro hres
    simp [Query.returned, hcall, hres]
  rcases answered_or_unchanged hcall with ⟨hres, hL⟩ | ⟨result, hanswer, hloop⟩
  · exact .inl ⟨hnone hres, by rw [hL]⟩
  by_cases hfail : ∃ k ∈ itemCalls L.calls result, q.A.succeeds k = false
  · obtain ⟨k, hk, hA⟩ := hfail
    obtain ⟨L', hloop', hheap⟩ := copyLoop_of_fails result (Built.nil L) hk hA
    obtain rfl := Option.some.inj (hloop.symm.trans hloop')
    exact .inl ⟨hnone rfl, hheap⟩
  · have hall : ∀ k ∈ itemCalls L.calls result, q.A.succeeds k = true := by
      intro k hk
      by_contra hA
      exact hfail ⟨k, hk, Bool.eq_false_of_not_eq_true hA⟩
    obtain ⟨L', head, items, hloop', hitems, hblocks, hentries, -, -⟩ :=
      copyLoop_of_succeeds result (Built.nil L) hall
    obtain rfl := Option.some.inj (hloop.symm.trans hloop')
    refine .inr ⟨⟨head, madeFrom q.A.succeeds L.calls result⟩, items, ?_, hitems, hentries, hblocks⟩
    simp [Query.returned, hcall, hanswer]

/-! ### The blocks at the start

No operation of the two functions changes the account of them. -/

section Opened

variable {A : Allocator Block} {a : Addr} {x : Block} {wresult wcurrent head : Option Addr}

theorem malloc_opened (A : Allocator Block) (L : Ledger Block) (x : Block) :
    (L.malloc A x).2.opened = L.opened := by
  simp only [Ledger.malloc]
  split <;> rfl

theorem store_opened (h : L.store a x = some L') : L'.opened = L.opened := by
  simp only [Ledger.store] at h
  split at h
  · cases h
    rfl
  · cases h

theorem copyPart_opened (A : Allocator Block) (L : Ledger Block) (content : Option Block) :
    (copyPart A L content).2.opened = L.opened := by
  cases content with
  | none => rfl
  | some x => exact malloc_opened A L x

theorem copyItem_opened {e : AddrInfo} (h : copyItem A L e = some (head, L')) :
    L'.opened = L.opened := by
  have hmalloc := malloc_opened A L (.item e.toItem)
  simp only [copyItem] at h
  split at h
  · rename_i L₁ heq
    cases h
    rw [heq] at hmalloc
    exact hmalloc
  · rename_i witem L₁ heq
    rw [heq] at hmalloc
    obtain ⟨L₂, hstore, heq₂⟩ := Option.map_eq_some_iff.mp h
    cases heq₂
    rw [store_opened hstore, copyPart_opened, copyPart_opened]
    exact hmalloc

theorem linkItem_opened (h : linkItem L wresult wcurrent a = some (head, L')) :
    L'.opened = L.opened := by
  unfold linkItem at h
  split at h
  · cases h
    rfl
  · split at h
    · obtain ⟨L₂, hstore, heq⟩ := Option.map_eq_some_iff.mp h
      cases heq
      exact store_opened hstore
    · cases h
  · cases h

theorem free_opened (h : L.free a = some L') : L'.opened = L.opened := by
  simp only [Ledger.free] at h
  split at h
  · cases h
    rfl
  · cases h

theorem freeIfAny_opened (h : freeIfAny L p = some L') : L'.opened = L.opened := by
  cases p with
  | none =>
    cases h
    rfl
  | some a => exact free_opened h

theorem freeItems_opened {n : Nat} (h : freeItems n L p = some L') : L'.opened = L.opened := by
  induction n generalizing L p with
  | zero =>
    cases p with
    | none =>
      cases h
      rfl
    | some a => cases h
  | succ n ih =>
    cases p with
    | none =>
      cases h
      rfl
    | some a =>
      simp only [freeItems] at h
      split at h
      · obtain ⟨L₁, h₁, h⟩ := Option.bind_eq_some_iff.mp h
        obtain ⟨L₂, h₂, h⟩ := Option.bind_eq_some_iff.mp h
        obtain ⟨L₃, h₃, h⟩ := Option.bind_eq_some_iff.mp h
        rw [ih h, free_opened h₃, freeIfAny_opened h₂, freeIfAny_opened h₁]
      · cases h

theorem copyLoop_opened {source : List AddrInfo}
    (h : copyLoop A source L wresult wcurrent = some o) : o.ledger.opened = L.opened := by
  induction source generalizing L wresult wcurrent with
  | nil =>
    cases h
    rfl
  | cons e source ih =>
    simp only [copyLoop] at h
    split at h
    · cases h
    · rename_i L₁ hcopy
      obtain ⟨L₂, hfree, heq⟩ := Option.map_eq_some_iff.mp h
      cases heq
      show L₂.opened = L.opened
      rw [freeItems_opened hfree, copyItem_opened hcopy]
    · rename_i witem L₁ hcopy
      split at h
      · cases h
      · rename_i head L₂ hlink
        rw [ih h, linkItem_opened hlink, copyItem_opened hcopy]

theorem call_opened (hcall : q.call L = some o) : o.ledger.opened = L.opened := by
  rcases answered_or_unchanged hcall with ⟨-, hL⟩ | ⟨result, -, hloop⟩
  · rw [hL]
  · exact copyLoop_opened hloop

end Opened

/-! ### Every run -/

/-- What holds in every run: the lists are separate, and no block was there at the start. -/
def Inv (tr : List (Ledger Block × Label)) (L : Ledger Block) : Prop :=
  L.opened = ∅ ∧ ∃ owned, Owned (outstanding tr) L.heap owned

variable {tr : List (Ledger Block × Label)}

theorem inv_start : Inv [] (Ledger.start Heap.empty) := by
  refine ⟨rfl, [], ?_⟩
  constructor
  case known => rfl
  case items =>
    intro o ho
    cases ho
  case entries =>
    intro o ho
    cases ho
  case blocks => exact Extends.refl Heap.empty

/-- `NULL`, and the head of each list, can be released. -/
theorem Inv.freeAddrInfoW (hinv : Inv tr L) (hp : Releasable tr p) :
    ∃ L', Addr.freeAddrInfoW L p = some L' ∧ Inv ((L, .freeAddrInfoW p) :: tr) L' := by
  obtain ⟨hopened, owned, ho⟩ := hinv
  by_cases hk : ∃ k ∈ outstanding tr, k.head = p
  · obtain ⟨k, hk, hhead⟩ := hk
    obtain ⟨L', owned', hfree, ho', hopened'⟩ := ho.released hk hhead
    exact ⟨L', hfree, hopened'.trans hopened, owned', ho'⟩
  · -- `NULL`, and no list is `NULL`: nothing is released
    obtain rfl : p = none := hp.resolve_right hk
    have hfree : Addr.freeAddrInfoW L none = some L := by
      unfold Addr.freeAddrInfoW
      cases L.heap.live.card <;> rfl
    have hnone : (outstanding tr).eraseP (fun k => decide (k.head = none)) = outstanding tr := by
      apply List.eraseP_of_forall_not
      intro k hmem hhead
      exact hk ⟨k, hmem, of_decide_eq_true hhead⟩
    refine ⟨L, hfree, hopened, owned, ?_⟩
    show Owned ((outstanding tr).eraseP (fun k => decide (k.head = none))) L.heap owned
    rw [hnone]
    exact ho

/-- Every call keeps the lists separate. -/
theorem Inv.getAddrInfoW (hinv : Inv tr L) (hcall : q.call L = some o) :
    Inv ((L, .getAddrInfoW q) :: tr) o.ledger := by
  obtain ⟨hopened, owned, ho⟩ := hinv
  refine ⟨(call_opened hcall).trans hopened, ?_⟩
  rcases unchanged_or_returned hcall with ⟨hnone, hheap⟩ | ⟨k, items, hk, hitems, hentries, hext⟩
  · refine ⟨owned, ?_⟩
    show Owned ((q.returned L).toList ++ outstanding tr) o.ledger.heap owned
    rw [hnone, hheap]
    exact ho
  · refine ⟨(k, items) :: owned, ?_⟩
    show Owned ((q.returned L).toList ++ outstanding tr) o.ledger.heap _
    rw [hk]
    exact ho.returned hitems hentries hext

theorem inv_of_run (hrun : system.Run tr L) (hproper : AllSteps Proper tr) : Inv tr L := by
  induction hrun with
  | init hinit =>
    obtain rfl : _ = Ledger.start Heap.empty := hinit
    exact inv_start
  | step hrun hstep ih =>
    rename_i tr s t l
    obtain ⟨hok, hproper⟩ := hproper
    have hinv := ih hproper
    cases l with
    | getAddrInfoW q =>
      have hmap : (q.call s).map GetAddrInfo.ledger = some t := hstep
      obtain ⟨o, hcall, rfl⟩ := Option.map_eq_some_iff.mp hmap
      exact hinv.getAddrInfoW hcall
    | freeAddrInfoW p =>
      obtain ⟨L', hfree, hinv'⟩ := hinv.freeAddrInfoW hok
      obtain rfl : L' = t := Option.some.inj (hfree.symm.trans hstep)
      exact hinv'

/-- **Until it is released, a list stays as it was returned**, whatever else is looked up, released
    or refused memory. -/
theorem lists_kept (tr : List (Ledger Block × Label)) (L : Ledger Block)
    (hrun : system.Run tr L) (hproper : AllSteps Proper tr) :
    ∃ owned, Owned (outstanding tr) L.heap owned :=
  (inv_of_run hrun hproper).2

/-- A lookup whose answer is one entry with an address and a name. -/
def oneEntry (succeeds : Nat → Bool) : Query where
  getaddrinfo _ _ _ := .ok [namedEntry]
  A := allocatorAbove succeeds
  nodeBuffer := zeroArray 256
  serviceBuffer := zeroArray 256
  pNodeName := some [98]
  pServiceName := none
  pHints := none

/-- Two lists, the second one without a name, and the release of the first. -/
def twoLists : List Label :=
  [.getAddrInfoW (oneEntry (fun _ => true)), .getAddrInfoW (oneEntry (fun k => k ≠ 5)),
    .getAddrInfoW (oneEntry (fun k => k ≠ 6)), .freeAddrInfoW (some 1), .freeAddrInfoW none]

theorem exec_twoLists : (exec next twoLists [] (Ledger.start Heap.empty)).isSome = true := by
  decide +kernel

/-- The steps, and the heap after them. -/
def afterTwoLists : List (Ledger Block × Label) × Ledger Block :=
  (exec next twoLists [] (Ledger.start Heap.empty)).get exec_twoLists

/-- Of two lists, the one that is not released is kept; a lookup without memory leaves none. -/
theorem lists_kept_two : ∃ tr L, system.Run tr L ∧ (outstanding tr).map Known.head = [some 4] ∧
    ∃ owned, Owned (outstanding tr) L.heap owned := by
  have hrun : system.Run afterTwoLists.1 afterTwoLists.2 :=
    run_of_exec_isSome (Ledger.start Heap.empty) next twoLists exec_twoLists
  have hhead : (outstanding afterTwoLists.1).map Known.head = [some 4] := by decide +kernel
  have hproper : AllSteps Proper afterTwoLists.1 := by decide +kernel
  exact ⟨_, _, hrun, hhead, lists_kept _ _ hrun hproper⟩

/-- Where no list is left, no block is, and every block was released once. -/
theorem Inv.balanced (hinv : Inv tr L) (hnone : outstanding tr = []) :
    L.heap = Heap.empty ∧ L.allocated.Perm L.released := by
  obtain ⟨hopened, owned, ho⟩ := hinv
  obtain rfl : owned = [] := List.map_eq_nil_iff.mp (ho.known.trans hnone)
  have hheap : L.heap = Heap.empty := ho.blocks.eq_of_nil
  refine ⟨hheap, Ledger.perm_of_live_eq ?_⟩
  rw [hheap, hopened]
  rfl

/-- Programs can release all lists, one after the other. -/
theorem exists_release (n : Nat) (hrun : system.Run tr L) (hproper : AllSteps Proper tr)
    (hn : (outstanding tr).length = n) :
    ∃ more L', system.Run (more ++ tr) L' ∧ AllSteps Proper (more ++ tr) ∧ more.length = n ∧
      outstanding (more ++ tr) = [] := by
  induction n generalizing tr L with
  | zero => exact ⟨[], L, hrun, hproper, rfl, List.eq_nil_of_length_eq_zero hn⟩
  | succ n ih =>
    obtain ⟨k, hk⟩ : ∃ k, k ∈ outstanding tr :=
      List.exists_mem_of_length_pos (by omega)
    have hp : Releasable tr k.head := .inr ⟨k, hk, rfl⟩
    obtain ⟨L', hfree, -⟩ := (inv_of_run hrun hproper).freeAddrInfoW hp
    have hstep : system.step L (.freeAddrInfoW k.head) L' := hfree
    have hlength : (outstanding ((L, .freeAddrInfoW k.head) :: tr)).length = n := by
      have herase := List.length_eraseP_of_mem (p := fun c : Known => decide (c.head = k.head)) hk
        (decide_eq_true rfl)
      show ((outstanding tr).eraseP _).length = n
      omega
    obtain ⟨more, L'', hrun', hproper', hmore, hnone⟩ :=
      ih (.step hrun hstep) ⟨hp, hproper⟩ hlength
    refine ⟨more ++ [(L, .freeAddrInfoW k.head)], L'', ?_, ?_, ?_, ?_⟩
    · rw [List.append_assoc]
      exact hrun'
    · rw [List.append_assoc]
      exact hproper'
    · rw [List.length_append, hmore, List.length_singleton]
    · rw [List.append_assoc]
      exact hnone

/-- **No leak.**  `NULL` and the head of each list can be released at any moment; the lists that are
    left can be released one after the other; and where none is left, every block that was handed
    out was released, and once. -/
theorem lists_released (tr : List (Ledger Block × Label)) (L : Ledger Block)
    (hrun : system.Run tr L) (hproper : AllSteps Proper tr) :
    (∀ p, Releasable tr p → ∃ L', Addr.freeAddrInfoW L p = some L') ∧
      (∃ more L', system.Run (more ++ tr) L' ∧ AllSteps Proper (more ++ tr) ∧
        more.length = (outstanding tr).length ∧ outstanding (more ++ tr) = []) ∧
      (outstanding tr = [] → L.heap = Heap.empty ∧ L.allocated.Perm L.released) := by
  have hinv := inv_of_run hrun hproper
  refine ⟨fun p hp => ?_, exists_release _ hrun hproper rfl, hinv.balanced⟩
  obtain ⟨L', hfree, -⟩ := hinv.freeAddrInfoW hp
  exact ⟨L', hfree⟩

/-- One list, and its release. -/
def oneList : List Label := [.getAddrInfoW (oneEntry (fun _ => true)), .freeAddrInfoW (some 1)]

theorem exec_oneList : (exec next oneList [] (Ledger.start Heap.empty)).isSome = true := by
  decide +kernel

/-- The steps, and the heap after them. -/
def afterOneList : List (Ledger Block × Label) × Ledger Block :=
  (exec next oneList [] (Ledger.start Heap.empty)).get exec_oneList

/-- After the release of a list with three blocks, all three were released. -/
theorem lists_released_one : ∃ tr L, system.Run tr L ∧ L.allocated.length = 3 ∧
    L.allocated.Perm L.released := by
  have hrun : system.Run afterOneList.1 afterOneList.2 :=
    run_of_exec_isSome (Ledger.start Heap.empty) next oneList exec_oneList
  have hproper : AllSteps Proper afterOneList.1 := by decide +kernel
  have hnone : (outstanding afterOneList.1).length = 0 := by decide +kernel
  have hthree : afterOneList.2.allocated.length = 3 := by decide +kernel
  have hbalanced := (lists_released _ _ hrun hproper).2.2 (List.eq_nil_of_length_eq_zero hnone)
  exact ⟨_, _, hrun, hthree, hbalanced.2⟩

end LinuxWinsock.Addr.Lists
