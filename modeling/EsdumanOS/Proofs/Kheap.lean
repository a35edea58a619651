import EsdumanOS.Kheap

/-!
# The blocks of the kernel heap

What each piece of `kheap.c` does to the list of blocks: growing appends or enlarges, taking a block
splits it or not, freeing merges it and gives pages back. Every piece keeps the links, the places
and the payloads.
-/

namespace EsdumanOS

open Lib List HeapBlock

variable {x : ℕ}

namespace Kheap

section Fields

variable {s : Kheap} {f g : Field} {a b v x : ℕ}

def put (f : Field) (v : ℕ) (n : Node ℕ HeapHeader) : Node ℕ HeapHeader :=
  match f with
  | .magic => { n with data := { n.data with magic := v } }
  | .size => { n with data := { n.data with size := v } }
  | .isFree => { n with data := { n.data with isFree := v } }
  | .next => { n with next := v }
  | .prev => { n with prev := v }

lemma offset_le : f.offset + 4 ≤ 32 := by
  cases f <;> decide

lemma node_set_self (hv : v < 2 ^ 32) : (s.set f a v).node a = put f v (s.node a) := by
  cases f <;>
    simp (disch := omega) only [node, get, set, put, Field.offset, load32_store32 hv,
      load32_store32_apart]

lemma get_set_apart (h : a + 32 ≤ b ∨ b + 32 ≤ a) : (s.set f a v).get g b = s.get g b := by
  have hf := @offset_le f
  have hg := @offset_le g
  exact load32_store32_apart (by omega)

lemma node_set_apart (h : a + 32 ≤ b ∨ b + 32 ≤ a) : (s.set f a v).node b = s.node b := by
  simp only [node, get_set_apart h]

lemma mem_set_apart (h : x < a ∨ a + 32 ≤ x) : (s.set f a v).mem x = s.mem x := by
  have hf := @offset_le f
  exact store32_apart (by omega)

@[simp] lemma setTail_node : (s.setTail a).node = s.node := rfl

/-- What work on the list does not touch. -/
def rest (s : Kheap) : (ℕ → ℕ) × (ℕ → ℕ → ℕ) × Pmm × ℕ × ℕ :=
  (s.pd, s.pt, s.pmm, s.totalMemory, s.currentHeapEnd)

end Fields

section Tables

variable {s s' : Kheap} {va : ℕ}

structure SameList (s s' : Kheap) : Prop where
  mem : s'.mem = s.mem
  heapHead : s'.heapHead = s.heapHead
  heapTail : s'.heapTail = s.heapTail
  ordinary : ∀ va, s.ordinary va → s'.ordinary va

structure SameBlocks (s s' : Kheap) : Prop extends SameList s s' where
  heapEnd : s'.currentHeapEnd = s.currentHeapEnd

lemma SameList.trans {t : Kheap} (h : SameList s s') (h' : SameList s' t) : SameList s t :=
  ⟨h'.mem.trans h.mem, h'.heapHead.trans h.heapHead, h'.heapTail.trans h.heapTail,
    fun va hv => h'.ordinary va (h.ordinary va hv)⟩

lemma sameList_pmm (s : Kheap) (p : Pmm) : SameList s { s with pmm := p } :=
  ⟨rfl, rfl, rfl, fun _ h => h⟩

lemma SameList.node (h : SameList s s') : s'.node = s.node := by
  funext a
  simp only [Kheap.node, get, h.mem]

lemma SameBlocks.refl (s : Kheap) : SameBlocks s s := ⟨⟨rfl, rfl, rfl, fun _ h => h⟩, rfl⟩

lemma SameBlocks.trans {t : Kheap} (h : SameBlocks s s') (h' : SameBlocks s' t) :
    SameBlocks s t :=
  ⟨h.toSameList.trans h'.toSameList, h'.heapEnd.trans h.heapEnd⟩

lemma ensureTable_same (s : Kheap) (k : ℕ) : SameBlocks s (s.ensureTable k).2 := by
  unfold ensureTable
  split
  · exact .refl s
  · split
    · exact ⟨⟨rfl, rfl, rfl, fun _ h => h⟩, rfl⟩
    · refine ⟨⟨rfl, rfl, rfl, fun va hv => ⟨hv.1, ?_⟩⟩, rfl⟩
      -- the entry of a new table has no PS bit
      by_cases hk : pdIndex va = k
      · simp only [hk, Function.update_self, largePage, decide_eq_false_iff_not]
        omega
      · simp only [Function.update_of_ne hk]
        exact hv.2

lemma setTableWord_same (h : s.ordinary va) (j v : ℕ) :
    SameBlocks s (s.setTableWord (pdIndex va) j v) := by
  obtain ⟨hk, hl⟩ := h
  unfold setTableWord
  rw [if_neg (by omega), hl, if_neg (by simp)]
  exact ⟨⟨rfl, rfl, rfl, fun _ h => h⟩, rfl⟩

lemma freeEntry_same (s : Kheap) (e : ℕ) : SameBlocks s (s.freeEntry e) := by
  unfold freeEntry
  split
  · exact ⟨⟨rfl, rfl, rfl, fun _ h => h⟩, rfl⟩
  · exact .refl s

lemma mapPage_same {frame : ℕ} (h : (s.mapPage va frame).1 = true → s.ordinary va) :
    SameBlocks s (s.mapPage va frame).2 := by
  have hs := ensureTable_same s (pdIndex va)
  rcases heq : s.ensureTable (pdIndex va) with ⟨_ | _, t⟩
  · rw [heq] at hs
    simp only [mapPage, heq]
    exact hs
  · rw [heq] at hs
    simp only [mapPage, heq] at h ⊢
    split_ifs at h ⊢
    · exact hs
    · exact hs.trans (setTableWord_same (hs.ordinary va (h rfl)) _ _)

lemma unmapPage_same (h : s.ordinary va) : SameBlocks s (s.unmapPage va) := by
  unfold unmapPage
  split
  · exact setTableWord_same h _ _
  · exact .refl s

lemma rollbackPage_same (h : s.ordinary va) : SameBlocks s (s.rollbackPage va) := by
  unfold rollbackPage
  dsimp only
  split
  · have hf := freeEntry_same s (s.tableWord (pdIndex va) (ptIndex va))
    exact hf.trans (setTableWord_same (hf.ordinary va h) _ _)
  · exact .refl s

lemma heapRollback_same {start count : ℕ} (htop : start + count * 4096 ≤ 0xFFC00000)
    (h : ∀ va, start ≤ va → va < start + count * 4096 → s.ordinary va) :
    SameList s (s.heapRollback start count) := by
  have hl : SameList s
      ((range count).foldl (fun s j => s.rollbackPage (u32 (start + j * 4096))) s) := by
    refine foldl_invariant_mem (range count) (fun t j hj ht => ?_)
      (SameBlocks.refl s).toSameList
    rw [mem_range] at hj
    rw [u32_of_lt (by omega)]
    exact ht.trans (rollbackPage_same (ht.ordinary _ (h _ (by omega) (by omega)))).toSameList
  exact ⟨hl.mem, hl.heapHead, hl.heapTail, hl.ordinary⟩

lemma ordinary_page {e : ℕ} (he : 4096 ∣ e) (h : s.ordinary e) (hl : e ≤ va)
    (hr : va < e + 4096) : s.ordinary va := by
  have hi : pdIndex va = pdIndex e := by
    unfold pdIndex
    omega
  unfold ordinary
  rw [hi]
  exact h

lemma ordinary_top {e : ℕ} (he : 4096 ∣ e) (h : s.ordinary e) : e + 4096 ≤ 0xFFC00000 := by
  have hi := h.1
  unfold pdIndex at hi
  omega

structure OrdinaryFrom (s : Kheap) (start : ℕ) : Prop where
  page : 4096 ∣ s.currentHeapEnd
  top : s.currentHeapEnd ≤ 0xFFC00000
  le : start ≤ s.currentHeapEnd
  pages : ∀ va, start ≤ va → va < s.currentHeapEnd → s.ordinary va

lemma growPages_same {start : ℕ} : ∀ {n i : ℕ} {s : Kheap}, s.growsOrdinary n →
    s.currentHeapEnd = start + i * 4096 → s.OrdinaryFrom start →
    SameList s (growPages start n i s).2 ∧
      (((growPages start n i s).1 = false ∧ (growPages start n i s).2.currentHeapEnd = start) ∨
      ((growPages start n i s).1 = true ∧
        (growPages start n i s).2.currentHeapEnd = start + (i + n) * 4096 ∧
        (growPages start n i s).2.OrdinaryFrom start))
  | 0, i, s, _, he, hs =>
    ⟨(SameBlocks.refl s).toSameList, .inr ⟨rfl, he, hs⟩⟩
  | n + 1, i, s, hg, he, ⟨hp, htop, hle, hpages⟩ => by
    rcases halloc : pmmAllocFrame s.pmm with ⟨_ | f, p⟩
    · have hr := @heapRollback_same { s with pmm := p } start i (by omega)
        fun va h h' => hpages va h (by omega)
      simp only [growPages, halloc]
      exact ⟨(sameList_pmm s p).trans hr, .inl ⟨trivial, rfl⟩⟩
    · rcases hm : { s with pmm := p }.mapPage s.currentHeapEnd f with ⟨_ | _, t⟩
      · have ht := @mapPage_same { s with pmm := p } s.currentHeapEnd f (by simp [hm])
        rw [hm] at ht
        have hr := @heapRollback_same { t with pmm := pmmFreeFrame t.pmm f } start i (by omega)
          fun va h h' => ht.ordinary va (hpages va h (by omega))
        simp only [growPages, halloc, hm]
        have hf := ht.toSameList.trans (sameList_pmm t (pmmFreeFrame t.pmm f))
        exact ⟨(sameList_pmm s p).trans (hf.trans hr), .inl ⟨trivial, rfl⟩⟩
      · simp only [growsOrdinary, halloc, hm] at hg
        obtain ⟨ho, hg⟩ := hg
        have ht := @mapPage_same { s with pmm := p } s.currentHeapEnd f fun _ => ho
        rw [hm] at ht
        have ht' := ordinary_top hp ho
        have he' : t.currentHeapEnd = s.currentHeapEnd := ht.heapEnd
        have hu : u32 (t.currentHeapEnd + 4096) = s.currentHeapEnd + 4096 := by
          rw [he', u32_of_lt (by omega)]
        simp only [growPages, halloc, hm, hu] at hg ⊢
        have hn : OrdinaryFrom { t with currentHeapEnd := s.currentHeapEnd + 4096 } start := by
          refine ⟨?_, ht', ?_, fun va h h' => ?_⟩
          · exact (Nat.dvd_add_self_right).2 hp
          · exact hle.trans (Nat.le_add_right _ _)
          · rcases Nat.lt_or_ge va s.currentHeapEnd with hv | hv
            · exact ht.ordinary va (hpages va h hv)
            · exact ht.ordinary va (ordinary_page hp ho hv h')
        have hst : s.currentHeapEnd + 4096 = start + (i + 1) * 4096 := by omega
        obtain ⟨hsame, hres⟩ := growPages_same hg hst hn
        have hsum : i + (n + 1) = i + 1 + n := by omega
        rw [hsum]
        exact ⟨(sameList_pmm s p).trans (ht.toSameList.trans
          ⟨hsame.mem, hsame.heapHead, hsame.heapTail, hsame.ordinary⟩), hres⟩

end Tables

section Lists

variable {s s' : Kheap} {b c : HeapBlock} {bs l r : List HeapBlock} {x y : ℕ}

lemma header_free (h : b.free = true) : b.header = ⟨heapMagicFree, b.size, 1⟩ := by
  simp [header, h]

lemma header_allocated (h : b.free = false) : b.header = ⟨heapMagicAllocated, b.size, 0⟩ := by
  simp [header, h]

@[simp] lemma header_size (b : HeapBlock) : b.header.size = b.size := by
  unfold header
  split <;> rfl

lemma header_isFree (b : HeapBlock) : b.header.isFree ≠ 0 ↔ b.free = true := by
  cases h : b.free
  · simp [header_allocated h]
  · simp [header_free h]

lemma node_eq {a n p : ℕ} {h : HeapHeader} (hn : s.node a = ⟨h, n, p⟩) : s.get .magic a = h.magic ∧
    s.get .size a = h.size ∧ s.get .isFree a = h.isFree ∧ s.get .next a = n ∧ s.get .prev a = p :=
  ⟨congrArg (·.data.magic) hn, congrArg (·.data.size) hn, congrArg (·.data.isFree) hn,
    congrArg (·.next) hn, congrArg (·.prev) hn⟩

lemma lists_cut : s.Lists (l ++ b :: r) ↔
    s.heapHead = front addr l b.addr ∧ s.heapTail = back addr b.addr r ∧
      Chained addr header s.node 0 l b.addr ∧
      s.node b.addr = ⟨b.header, front addr r 0, back addr 0 l⟩ ∧
      Chained addr header s.node b.addr r 0 := by
  constructor
  · rintro ⟨hh, ht, h⟩
    rw [front_append] at hh
    rw [back_append] at ht
    rw [chained_append] at h
    exact ⟨hh, ht, h.1, h.2.1, h.2.2⟩
  · rintro ⟨hh, ht, hl, hb, hr⟩
    refine ⟨?_, ?_, chained_append.2 ⟨hl, hb, hr⟩⟩
    · rw [front_append]
      exact hh
    · rw [back_append]
      exact ht

lemma Lists.node (h : s.Lists bs) (hb : b ∈ bs) : (s.node b.addr).data = b.header :=
  h.links.at_mem hb

lemma Lists.get_next (h : s.Lists (l ++ b :: r)) :
    s.get .next b.addr = front addr r 0 :=
  (node_eq (lists_cut.1 h).2.2.2.1).2.2.2.1

lemma Lists.get_prev (h : s.Lists (l ++ b :: r)) : s.get .prev b.addr = back addr 0 l :=
  (node_eq (lists_cut.1 h).2.2.2.1).2.2.2.2

lemma Lists.get_size (h : s.Lists bs) (hb : b ∈ bs) : s.get .size b.addr = b.size := by
  rw [← header_size b, ← h.node hb]
  rfl

lemma Lists.get_isFree (h : s.Lists bs) (hb : b ∈ bs) :
    s.get .isFree b.addr ≠ 0 ↔ b.free = true := by
  rw [← header_isFree b, ← h.node hb]
  rfl

lemma Lists.adjacent (h : s.Lists bs) (hb : b ∈ bs) (htop : b.stop < 2 ^ 32) (a : ℕ) :
    s.heapBlocksAdjacent b.addr a = true ↔ b.stop = a := by
  unfold stop at htop ⊢
  simp only [heapBlocksAdjacent, h.get_size hb, decide_eq_true_eq]
  rw [u32_of_lt htop]

structure Holds (s : Kheap) (bs : List HeapBlock) : Prop where
  lists : s.Lists bs
  places : s.Places bs
  ordinary : s.OrdinaryFrom kheapStart

lemma order_cut : (l ++ b :: r).Pairwise (fun b c => b.stop ≤ c.addr) ↔
    l.Pairwise (fun b c => b.stop ≤ c.addr) ∧ r.Pairwise (fun b c => b.stop ≤ c.addr) ∧
      (∀ c ∈ l, c.stop ≤ b.addr) ∧ (∀ d ∈ r, b.stop ≤ d.addr) ∧
      ∀ c ∈ l, ∀ d ∈ r, c.stop ≤ d.addr := by
  simp only [pairwise_append, pairwise_cons, forall_mem_cons, forall_and]
  tauto

lemma order_apart (h : (l ++ b :: r).Pairwise fun b c => b.stop ≤ c.addr) :
    (∀ c ∈ l, c.addr + 32 ≤ b.addr) ∧ ∀ c ∈ r, b.addr + 32 ≤ c.addr := by
  obtain ⟨-, -, hl, hr, -⟩ := order_cut.1 h
  refine ⟨fun c hc => ?_, fun c hc => ?_⟩
  · have := hl c hc
    unfold stop at this
    omega
  · have := hr c hc
    unfold stop at this
    omega

@[mk_iff] structure Placed (e : ℕ) (b : HeapBlock) : Prop where
  start : kheapStart ≤ b.addr
  stop : b.stop ≤ e
  addr : 16 ∣ b.addr
  size : 16 ∣ b.size

lemma places_iff : s.Places bs ↔ bs.Pairwise (fun b c => b.stop ≤ c.addr) ∧
    ∀ b ∈ bs, Placed s.currentHeapEnd b :=
  ⟨fun h => ⟨h.order, fun b hb => ⟨h.start b hb, h.stop b hb, h.addr b hb, h.size b hb⟩⟩,
    fun ⟨ho, hp⟩ => ⟨ho, fun b hb => (hp b hb).start, fun b hb => (hp b hb).stop,
      fun b hb => (hp b hb).addr, fun b hb => (hp b hb).size⟩⟩

def Outside (bs : List HeapBlock) (x : ℕ) : Prop :=
  ∀ c ∈ bs, x < c.addr ∨ c.addr + 32 ≤ x ∧ (c.free = true → c.stop ≤ x)

lemma Places.outside (h : s.Places bs) (hb : b ∈ bs) (hf : b.free = false)
    (hx : b.addr + 32 ≤ x) (hx' : x < b.stop) : Outside bs x := by
  obtain ⟨l, r, rfl⟩ := append_of_mem hb
  obtain ⟨-, -, hl, hr, -⟩ := order_cut.1 h.order
  intro c hc
  rcases mem_append.1 hc with hc | hc
  · have hcb := hl c hc
    unfold HeapBlock.stop at hcb ⊢
    exact .inr ⟨by omega, fun _ => by omega⟩
  · rcases mem_cons.1 hc with rfl | hc
    · exact .inr ⟨hx, by simp [hf]⟩
    · exact .inl (hx'.trans_le (hr c hc))

lemma u32_less {m n : ℕ} (h : m ≤ n) (hn : n < 2 ^ 32) : u32 (n + 2 ^ 32 - m) = n - m := by
  unfold u32
  omega

lemma start_pos : 0 < kheapStart := by decide

lemma magicFree_lt : heapMagicFree < 2 ^ 32 := by decide

section NewFree

variable {block size next prev a : ℕ}

lemma newFree_node_self (hs : size < 2 ^ 32) (hn : next < 2 ^ 32) (hp : prev < 2 ^ 32) :
    (s.newFree block size next prev).node block = ⟨⟨heapMagicFree, size, 1⟩, next, prev⟩ := by
  have hm := magicFree_lt
  simp (disch := omega) only [newFree, node_set_self, put]

lemma newFree_node_apart (h : block + 32 ≤ a ∨ a + 32 ≤ block) :
    (s.newFree block size next prev).node a = s.node a := by
  simp only [newFree, node_set_apart h]

lemma newFree_mem (h : x < block ∨ block + 32 ≤ x) :
    (s.newFree block size next prev).mem x = s.mem x := by
  simp only [newFree, mem_set_apart h]

@[simp] lemma newFree_heapHead : (s.newFree block size next prev).heapHead = s.heapHead := rfl
@[simp] lemma newFree_heapTail : (s.newFree block size next prev).heapTail = s.heapTail := rfl

end NewFree

lemma pointBack_mem {after block : ℕ} (h : after = 0 ∨ x < after ∨ after + 32 ≤ x) :
    (s.pointBack after block).mem x = s.mem x := by
  unfold pointBack
  split_ifs with ha
  · exact mem_set_apart (h.resolve_left ha)
  · rfl

@[simp] lemma pointBack_heapHead {after block : ℕ} :
    (s.pointBack after block).heapHead = s.heapHead := by
  unfold pointBack
  split_ifs <;> rfl

lemma pointBack_rest {after block : ℕ} : (s.pointBack after block).rest = s.rest := by
  unfold pointBack
  split_ifs <;> rfl

lemma pointBack_node {after block a : ℕ} (h : after = 0 ∨ a + 32 ≤ after ∨ after + 32 ≤ a) :
    (s.pointBack after block).node a = s.node a := by
  unfold pointBack
  split_ifs with ha
  · exact node_set_apart (by omega)
  · rfl

lemma pointBack_chained (hr : Chained addr header s.node x r 0)
    (hp : ∀ c ∈ r, kheapStart ≤ c.addr)
    (ho : r.Pairwise fun b c => b.stop ≤ c.addr) (hy : y < 2 ^ 32)
    (ht : s.heapTail = back addr x r) :
    Chained addr header
        (s.pointBack (front addr r 0) y).node y r 0 ∧
      (s.pointBack (front addr r 0) y).heapTail = back addr y r := by
  cases r with
  | nil =>
    exact ⟨trivial, rfl⟩
  | cons c r =>
    have hc : c.addr ≠ 0 := by
      have h := hp c mem_cons_self
      have := start_pos
      omega
    simp only [front, pointBack, ne_eq, hc, not_false_eq_true, if_true]
    refine ⟨hr.rebase (node_set_self hy) fun d hd => node_set_apart ?_, ht⟩
    have hcd := (pairwise_cons.1 ho).1 d hd
    unfold stop at hcd
    omega

end Lists

section Grow

variable {s t : Kheap} {bs l : List HeapBlock} {b : HeapBlock} {total : ℕ}

def SameAllocated (bs bs' : List HeapBlock) : Prop := ∀ b, b.free = false → (b ∈ bs' ↔ b ∈ bs)

lemma Holds.lt (h : s.Holds bs) (hb : b ∈ bs) : b.stop ≤ 0xFFC00000 :=
  (h.places.stop b hb).trans h.ordinary.top

lemma Holds.pos (h : s.Holds bs) (hb : b ∈ bs) : 0 < b.addr :=
  start_pos.trans_le (h.places.start b hb)

lemma Holds.head_eq_zero (h : s.Holds bs) : s.heapHead = 0 ↔ bs = [] := by
  rw [h.lists.head]
  cases bs with
  | nil => simp [front]
  | cons b bs => simp [front, (h.pos mem_cons_self).ne']

lemma OrdinaryFrom.congr {start : ℕ} (h : s.OrdinaryFrom start) (hr : t.rest = s.rest) :
    t.OrdinaryFrom start := by
  obtain ⟨hp, htop, hle, hpages⟩ := h
  simp only [rest, Prod.mk.injEq] at hr
  obtain ⟨hpd, -, -, -, he⟩ := hr
  refine ⟨he ▸ hp, he ▸ htop, he ▸ hle, fun va h h' => ?_⟩
  have hv := hpages va h (he ▸ h')
  unfold ordinary at hv ⊢
  rw [hpd]
  exact hv

lemma Places.sublist {bs' : List HeapBlock} (h : s.Places bs) (hs : bs'.Sublist bs)
    (he : ∀ b ∈ bs', b.stop ≤ t.currentHeapEnd) : t.Places bs' :=
  ⟨h.order.sublist hs, fun b hb => h.start b (hs.subset hb), he,
    fun b hb => h.addr b (hs.subset hb), fun b hb => h.size b (hs.subset hb)⟩

lemma Places.snoc (h : s.Places l) (hl : ∀ c ∈ l, c.stop ≤ b.addr)
    (hle : s.currentHeapEnd ≤ t.currentHeapEnd) (hb : Placed t.currentHeapEnd b) :
    t.Places (l ++ [b]) := by
  obtain ⟨ho, hp⟩ := places_iff.1 h
  refine places_iff.2 ⟨order_cut.2 ⟨ho, List.Pairwise.nil, hl, by simp, by simp⟩, ?_⟩
  simp only [forall_mem_append, forall_mem_singleton]
  exact ⟨fun c hc => { hp c hc with stop := (hp c hc).stop.trans hle }, hb⟩

lemma SameList.lists (h : SameList t s) (hl : t.Lists bs) : s.Lists bs :=
  ⟨h.heapHead.trans hl.head, h.heapTail.trans hl.tail, by rw [h.node]; exact hl.links⟩

section Append

variable {start : ℕ}

lemma appendBlock_nil (h : s.Lists []) (hto : total < 2 ^ 32) (hp : 32 ≤ total) :
    (s.appendBlock start total).Lists [⟨start, total - 32, true⟩] := by
  have hs := u32_less hp hto
  have hh : s.heapHead = 0 := h.head
  have ht : s.heapTail = 0 := h.tail
  simp only [appendBlock, attach, newFree_heapHead, hh, if_true, hs, ht]
  refine ⟨rfl, rfl, ?_, trivial⟩
  exact newFree_node_self (by omega) (by decide) (by decide)

lemma linkTail_lists (start size : ℕ) (h : s.Lists (l ++ [b]))
    (hl : ∀ c ∈ l, c.addr + 32 ≤ b.addr) (hb : b.addr + 32 ≤ start) (hs : start < 2 ^ 32)
    (hsi : size < 2 ^ 32) :
    (((s.newFree start size 0 s.heapTail).linkTail start).setTail start).Lists
      (l ++ [b] ++ [⟨start, size, true⟩]) := by
  obtain ⟨hh, ht, -, -, -⟩ := lists_cut.1 h
  rw [lists_cut]
  simp only [linkTail, newFree_heapTail, ht, setTail_heapHead, set_heapHead, newFree_heapHead, back,
    setTail_heapTail, setTail_node, front_append, back_append]
  refine ⟨hh, trivial, ?_, ?_, trivial⟩
  · refine h.links.retarget ?_ fun c hc => ?_
    · simp (disch := omega) only [node_set_apart, node_set_self, newFree_node_apart, put]
    · have := hl c hc
      simp (disch := omega) only [node_set_apart, newFree_node_apart]
  · simp (disch := omega) only [node_set_apart, node_set_self, newFree_node_self, put]
    rfl

lemma settleTail_lists {n : HeapBlock} (h : (s.setTail start).Lists (l ++ [b] ++ [n]))
    (ht : s.heapTail = b.addr) (hl : ∀ c ∈ l, c.addr + 32 ≤ b.addr) (hb : b.stop ≤ start)
    (htop : start + total < 2 ^ 32) :
    (s.settleTail start total).Lists (if b.free = true ∧ b.stop = start then
      l ++ [⟨b.addr, b.size + total, true⟩] else l ++ [b] ++ [n]) := by
  have hs : s.get .size b.addr = b.size := h.get_size (by simp)
  have hf : s.get .isFree b.addr ≠ 0 ↔ b.free = true := h.get_isFree (by simp)
  have ha : s.heapBlocksAdjacent b.addr start = true ↔ b.stop = start :=
    h.adjacent (b := b) (by simp) (by omega) start
  simp only [settleTail, ht, hf, ha, hs]
  split_ifs with hc
  · obtain ⟨hf, ha⟩ := hc
    rw [append_assoc, singleton_append, lists_cut] at h
    obtain ⟨hh, -, hcl, hn, -⟩ := h
    unfold stop at ha
    rw [u32_of_lt (by omega), lists_cut]
    refine ⟨hh, ht, hcl.congr fun c hc => ?_, ?_, trivial⟩
    · have := hl c hc
      simp (disch := omega) only [node_set_apart]
      rfl
    · rw [setTail_node] at hn
      simp (disch := omega) only [node_set_self, put, hn, header_free hf]
      rfl
  · exact h

lemma settleTail_mem (h : x < s.heapTail ∨ s.heapTail + 32 ≤ x) :
    (s.settleTail start total).mem x = s.mem x := by
  unfold settleTail
  split_ifs
  · rw [mem_set_apart h, mem_set_apart h]
  · rfl

lemma appendBlock_rest : (s.appendBlock start total).rest = s.rest := by
  simp only [appendBlock, attach, settleTail]
  split_ifs <;> rfl

lemma appendBlock_mem (h : x < start)
    (ht : s.heapHead ≠ 0 → x < s.heapTail ∨ s.heapTail + 32 ≤ x) :
    (s.appendBlock start total).mem x = s.mem x := by
  simp only [appendBlock, attach]
  split_ifs with hh
  · exact newFree_mem (.inl h)
  · have ht := ht hh
    rw [settleTail_mem (by exact ht), linkTail, mem_set_apart (.inl h), mem_set_apart (by exact ht),
      newFree_mem (.inl h)]

end Append

lemma sameAllocated_last {b' : HeapBlock} (hb : b.free = true) (hb' : b'.free = true) :
    SameAllocated (l ++ [b]) (l ++ [b']) := by
  intro c hc
  simp only [mem_append, mem_singleton]
  constructor
  · rintro (h | rfl)
    · exact .inl h
    · simp [hb'] at hc
  · rintro (h | rfl)
    · exact .inl h
    · simp [hb] at hc

/-- The pages that were mapped become a free block, or part of the last. -/
lemma appendBlock_holds (h : t.Holds bs) (hs : SameList t s)
    (he : s.currentHeapEnd = t.currentHeapEnd + total) (hto : 4096 ∣ total) (hpo : 0 < total)
    (ho : s.OrdinaryFrom t.currentHeapEnd) :
    ∃ bs', (s.appendBlock t.currentHeapEnd total).Holds bs' ∧ SameAllocated bs bs' ∧
      (∀ x, Outside bs x → x < t.currentHeapEnd →
        (s.appendBlock t.currentHeapEnd total).mem x = t.mem x) ∧
      ∃ b ∈ bs', b.free = true ∧ total ≤ b.size + 32 := by
  obtain ⟨hpa, htop, hle, hpages⟩ := h.ordinary
  have ht' := ho.top
  have hor : s.OrdinaryFrom kheapStart := by
    refine ⟨ho.page, ho.top, by omega, fun va hv hv' => ?_⟩
    rcases Nat.lt_or_ge va t.currentHeapEnd with hlt | hge
    · exact hs.ordinary va (hpages va hv hlt)
    · exact ho.pages va hge hv'
  have ho' := hor.congr (@appendBlock_rest s total t.currentHeapEnd)
  have hsi := @u32_less 32 total (by omega) (by omega)
  have hli := hs.lists h.lists
  have he' : (s.appendBlock t.currentHeapEnd total).currentHeapEnd = t.currentHeapEnd + total :=
    (congrArg (·.2.2.2.2) appendBlock_rest).trans he
  have hp : (s.appendBlock t.currentHeapEnd total).Places
      (bs ++ [⟨t.currentHeapEnd, total - 32, true⟩]) := by
    refine h.places.snoc h.places.stop (by omega) ⟨hle, ?_, ?_, ?_⟩ <;>
      simp only [stop] <;> omega
  have hn : SameAllocated bs (bs ++ [⟨t.currentHeapEnd, total - 32, true⟩]) := by
    intro c hc
    simp only [mem_append, mem_singleton, or_iff_left_iff_imp]
    rintro rfl
    simp at hc
  have hmem : ∀ x, Outside bs x → x < t.currentHeapEnd →
      (s.appendBlock t.currentHeapEnd total).mem x = t.mem x := by
    intro x hx hlt
    rw [appendBlock_mem hlt (fun hh => ?_), hs.mem]
    have hne : bs ≠ [] := fun hni => hh (hs.heapHead.trans (h.head_eq_zero.2 hni))
    obtain ⟨b, hb, hbt⟩ : ∃ b ∈ bs, back addr 0 bs = b.addr := back_mem hne
    rw [hli.tail, hbt]
    exact (hx b hb).imp_right And.left
  rcases eq_nil_or_concat bs with rfl | ⟨l, b, rfl⟩
  · exact ⟨[⟨t.currentHeapEnd, total - 32, true⟩], ⟨appendBlock_nil hli (by omega) (by omega),
      hp, ho'⟩, hn, hmem, _, mem_singleton_self _, rfl, by simp only; omega⟩
  · rw [concat_eq_append] at *
    obtain ⟨hbl, -, hl, -, -⟩ := order_cut.1 h.places.order
    have hbs : b.stop ≤ t.currentHeapEnd := h.places.stop b (by simp)
    have hbp : b.addr + 32 + b.size = b.stop := rfl
    obtain ⟨hl', -⟩ := order_apart h.places.order
    have hhe : s.heapHead ≠ 0 := by
      rw [hs.heapHead, ne_eq, h.head_eq_zero]
      simp
    have ht : s.heapTail = b.addr := (lists_cut.1 hli).2.1
    have hln := linkTail_lists t.currentHeapEnd (total - 32) hli hl' (by omega) (by omega)
      (by omega)
    have hse := @settleTail_lists _ l b total _ _ hln ht hl' hbs (by omega)
    have heq : s.appendBlock t.currentHeapEnd total = ((s.newFree t.currentHeapEnd (total - 32) 0
        s.heapTail).linkTail t.currentHeapEnd).settleTail t.currentHeapEnd total := by
      simp only [appendBlock, attach, newFree_heapHead, if_neg hhe, hsi]
    rw [← heq] at hse
    split_ifs at hse with hc
    · have hpl : t.Places l :=
        h.places.sublist (sublist_append_left l [b]) fun c hc => h.places.stop c (by simp [hc])
      have := h.places.size b (by simp)
      refine ⟨_, ⟨hse, ?_, ho'⟩, sameAllocated_last hc.1 rfl, hmem, _,
        mem_append_right _ (mem_singleton_self _), rfl, by simp only; omega⟩
      refine hpl.snoc hl (by omega)
        ⟨h.places.start b (by simp), ?_, h.places.addr b (by simp), ?_⟩ <;>
        simp only [stop] <;> omega
    · exact ⟨_, ⟨hse, hp, ho'⟩, hn, hmem, _,
        mem_append_right _ (mem_singleton_self _), rfl, by simp only; omega⟩

lemma Holds.same (h : t.Holds bs) (hs : SameList t s)
    (he : s.currentHeapEnd = t.currentHeapEnd) : s.Holds bs := by
  obtain ⟨hl, hp, hpa, htop, hle, hpages⟩ := h
  refine ⟨hs.lists hl, ⟨hp.order, hp.start, ?_, hp.addr, hp.size⟩, ?_⟩
  · rw [he]
    exact hp.stop
  · refine ⟨he ▸ hpa, he ▸ htop, he ▸ hle, fun va h h' => hs.ordinary va ?_⟩
    exact hpages va h (he ▸ h')

def SamePayloads (s : Kheap) (bs : List HeapBlock) (s' : Kheap) : Prop :=
  ∀ b ∈ bs, b.free = false → ∀ x, b.addr + 32 ≤ x → x < b.stop → s'.mem x = s.mem x

lemma Holds.samePayloads {s' : Kheap} (h : s.Holds bs)
    (hmem : ∀ x, Outside bs x → x < s.currentHeapEnd → s'.mem x = s.mem x) :
    SamePayloads s bs s' := fun b hb hbf x hx hx' =>
  hmem x (h.places.outside hb hbf hx hx') (hx'.trans_le (h.places.stop b hb))

/-- What one piece of work leaves: a list of blocks with the same ones allocated, and their
bytes. -/
structure Keeps (s : Kheap) (bs : List HeapBlock) (s' : Kheap) (bs' : List HeapBlock) : Prop where
  holds : s'.Holds bs'
  allocated : SameAllocated bs bs'
  payloads : SamePayloads s bs s'

lemma Keeps.refl (h : s.Holds bs) : Keeps s bs s bs :=
  ⟨h, fun _ _ => Iff.rfl, fun _ _ _ _ _ _ => rfl⟩

lemma heapGrow_keeps {size : ℕ} (h : s.Holds bs) (hsi : size ≤ 2 ^ 31)
    (hgr : s.GrowOrdinary size) : ∃ bs', Keeps s bs (s.heapGrow size).2 bs' ∧
      ((s.heapGrow size).1 = true → ∃ b ∈ bs', b.free = true ∧ size ≤ b.size) := by
  have hpages : pagesFor size = (size + 32 + 0xFFF) / 0x1000 := by
    unfold pagesFor
    rw [u32_of_lt (n := size + 32) (by omega), u32_of_lt (by omega)]
  have ht : u32 (pagesFor size * 0x1000) = pagesFor size * 0x1000 := u32_of_lt (by omega)
  unfold heapGrow
  rw [ht]
  dsimp only
  split_ifs with hf
  · exact ⟨bs, .refl h, by simp⟩
  · have hor := hgr (by omega)
    have hs : s.OrdinaryFrom s.currentHeapEnd :=
      ⟨h.ordinary.page, h.ordinary.top, le_rfl, fun va hv hv' => absurd hv' (by omega)⟩
    obtain ⟨hsame, hres⟩ := growPages_same hor (by omega : _ = s.currentHeapEnd + 0 * 4096) hs
    rcases hg : growPages s.currentHeapEnd (pagesFor size) 0 s with ⟨_ | _, t⟩
    · simp only [hg, true_and, Bool.false_eq_true, false_and, or_false] at hsame hres
      refine ⟨bs, ⟨h.same hsame hres, fun _ _ => Iff.rfl, fun _ _ _ x _ _ => ?_⟩, by simp⟩
      rw [hsame.mem]
    · simp only [hg, Bool.true_eq_false, false_and, true_and, false_or, Nat.zero_add] at hsame hres
      obtain ⟨he, ho⟩ := hres
      obtain ⟨bs', hh, halloc, hmem, b, hb, hbf, hbs⟩ :=
        appendBlock_holds h hsame he (Dvd.intro_left _ rfl) (by omega) ho
      exact ⟨bs', ⟨hh, halloc, h.samePayloads hmem⟩, fun _ => ⟨b, hb, hbf, by omega⟩⟩

end Grow

section Find

variable {s : Kheap} {bs : List HeapBlock} {size : ℕ}

def fits (size : ℕ) (b : HeapBlock) : Bool := b.free && decide (size ≤ b.size)

lemma findFit_eq : ∀ {bs : List HeapBlock} {p fuel : ℕ},
    Chained addr header s.node p bs 0 → (∀ b ∈ bs, b.addr ≠ 0) →
    bs.length < fuel → s.findFit size fuel (front addr bs 0) =
      .ok ((bs.find? (fits size)).map addr)
  | _, _, 0, _, _, hf => absurd hf (Nat.not_lt_zero _)
  | [], _, fuel + 1, _, _, _ => by simp [findFit, front]
  | b :: bs, _, fuel + 1, ⟨hn, h⟩, hp, hf => by
    have hb : b.addr ≠ 0 := hp b mem_cons_self
    obtain ⟨hm, hs, hfr, hne, -⟩ := node_eq hn
    have hok : b.header.magic = heapMagicAllocated ∨ b.header.magic = heapMagicFree := by
      unfold header
      split
      · exact .inr rfl
      · exact .inl rfl
    have ih := @findFit_eq bs b.addr fuel h (fun c hc => hp c (mem_cons_of_mem _ hc))
      (by simpa using hf)
    change s.findFit size (fuel + 1) b.addr = _
    simp only [findFit, hb, if_false, hm, hfr, hs, hne, header_isFree, header_size, ih, find?_cons]
    rw [if_neg (by tauto)]
    by_cases hfi : b.free = true ∧ size ≤ b.size
    · simp [fits, hfi]
    · have hno : fits size b = false := by
        simpa [fits] using hfi
      rw [if_neg hfi, hno]

lemma length_le : ∀ {bs : List HeapBlock} {lo hi : ℕ},
    bs.Pairwise (fun b c => b.stop ≤ c.addr) → (∀ b ∈ bs, lo ≤ b.addr) →
    (∀ b ∈ bs, b.stop ≤ hi) → lo ≤ hi → lo + 32 * bs.length ≤ hi
  | [], _, _, _, _, _, hle => by simpa using hle
  | b :: bs, lo, hi, ho, hlo, hhi, _ => by
    obtain ⟨hb, ho⟩ := pairwise_cons.1 ho
    have hbl := hlo b mem_cons_self
    have hbh := hhi b mem_cons_self
    have ih := length_le ho hb (fun c hc => hhi c (mem_cons_of_mem _ hc)) hbh
    unfold stop at ih
    rw [length_cons]
    omega

lemma Holds.findFit (h : s.Holds bs) (size : ℕ) : s.findFit size chainFuel s.heapHead =
    .ok ((bs.find? (fits size)).map addr) := by
  rw [h.lists.head]
  refine findFit_eq h.lists.links (fun b hb => (h.pos hb).ne') ?_
  have hl := length_le h.places.order h.places.start h.places.stop h.ordinary.le
  have htop := h.ordinary.top
  unfold chainFuel
  omega

end Find

section Take

variable {s : Kheap} {b : HeapBlock} {bs l r : List HeapBlock} {size : ℕ}

/-- The header of one block is rewritten, and no other node. -/
lemma Lists.rewrite {t : Kheap} {b' : HeapBlock} (h : s.Lists (l ++ b :: r))
    (ho : (l ++ b :: r).Pairwise fun b c => b.stop ≤ c.addr) (ha : b'.addr = b.addr)
    (hh : t.heapHead = s.heapHead) (ht : t.heapTail = s.heapTail)
    (hb : t.node b.addr = { s.node b.addr with data := b'.header })
    (hn : ∀ a, b.addr + 32 ≤ a ∨ a + 32 ≤ b.addr → t.node a = s.node a) :
    t.Lists (l ++ b' :: r) := by
  obtain ⟨hh', ht', hl, hb', hr⟩ := lists_cut.1 h
  obtain ⟨hal, har⟩ := order_apart ho
  rw [lists_cut, ha, hh, ht, hb, hb']
  exact ⟨hh', ht', hl.congr fun c hc => hn _ (.inr (hal c hc)), rfl,
    hr.congr fun c hc => hn _ (.inl (har c hc))⟩

lemma mark_lists (h : s.Lists (l ++ b :: r))
    (ho : (l ++ b :: r).Pairwise fun b c => b.stop ≤ c.addr) (f : Bool) {i m : ℕ}
    (hi : i = if f then 1 else 0) (hm : m = if f then heapMagicFree else heapMagicAllocated) :
    ((s.set .isFree b.addr i).set .magic b.addr m).Lists (l ++ ⟨b.addr, b.size, f⟩ :: r) := by
  have hi' : i < 2 ^ 32 := by subst hi; split <;> decide
  have hm' : m < 2 ^ 32 := by subst hm; split <;> decide
  refine h.rewrite ho rfl rfl rfl ?_ fun a ha => ?_
  · rw [node_set_self hm', node_set_self hi', (lists_cut.1 h).2.2.2.1]
    subst hi hm
    cases f <;> simp [put, header_allocated, header_free]
  · rw [node_set_apart ha, node_set_apart ha]

lemma OrdinaryFrom.relist {t : Kheap} (h : s.OrdinaryFrom kheapStart) (hr : t.rest = s.rest)
    (hl : t.Lists bs) (hp : s.Places bs) : t.Holds bs := by
  have he : t.currentHeapEnd = s.currentHeapEnd := congrArg (·.2.2.2.2) hr
  refine ⟨hl, ⟨hp.order, hp.start, ?_, hp.addr, hp.size⟩, h.congr hr⟩
  rw [he]
  exact hp.stop

lemma Places.refree (h : s.Places (l ++ b :: r)) (f : Bool) :
    s.Places (l ++ ⟨b.addr, b.size, f⟩ :: r) := by
  obtain ⟨ho, hp⟩ := places_iff.1 h
  rw [order_cut] at ho
  refine places_iff.2 ⟨order_cut.2 ho, ?_⟩
  simp only [forall_mem_append, forall_mem_cons] at hp ⊢
  obtain ⟨hl, hb, hr⟩ := hp
  exact ⟨hl, ⟨hb.start, hb.stop, hb.addr, hb.size⟩, hr⟩

lemma Places.window {w w' : List HeapBlock} {lo hi : ℕ} (h : s.Places (l ++ (w ++ r)))
    (hl : ∀ c ∈ l, c.stop ≤ lo) (hr : ∀ d ∈ r, hi ≤ d.addr)
    (ho' : w'.Pairwise fun b c => b.stop ≤ c.addr) (hle : lo ≤ hi)
    (hw : ∀ c ∈ w', Placed s.currentHeapEnd c ∧ lo ≤ c.addr ∧ c.stop ≤ hi) :
    s.Places (l ++ (w' ++ r)) := by
  obtain ⟨ho, hp⟩ := places_iff.1 h
  rw [places_iff]
  simp only [pairwise_append, forall_mem_append] at ho hp ⊢
  obtain ⟨hol, ⟨-, hor, -⟩, -⟩ := ho
  obtain ⟨hpl, -, hpr⟩ := hp
  refine ⟨⟨hol, ⟨ho', hor, fun c hc d hd => (hw c hc).2.2.trans (hr d hd)⟩, fun c hc => ?_⟩,
    hpl, fun c hc => (hw c hc).1, hpr⟩
  exact ⟨fun d hd => (hl c hc).trans (hw d hd).2.1,
    fun d hd => (hl c hc).trans (hle.trans (hr d hd))⟩

lemma header_resize (b : HeapBlock) (n : ℕ) :
    (⟨b.addr, n, b.free⟩ : HeapBlock).header = { b.header with size := n } := by
  cases h : b.free <;> simp [header_allocated, header_free, h]

lemma splitBlock_lists (h : s.Lists (l ++ b :: r))
    (ho : (l ++ b :: r).Pairwise fun b c => b.stop ≤ c.addr)
    (hs : ∀ c ∈ l ++ b :: r, kheapStart ≤ c.addr)
    (htop : ∀ c ∈ l ++ b :: r, c.stop ≤ 0xFFC00000) (hsi : size + 32 ≤ b.size) :
    (s.splitBlock size b.addr).Lists
      (l ++ ⟨b.addr, size, b.free⟩ :: ⟨b.addr + 32 + size, b.size - size - 32, true⟩ :: r) := by
  obtain ⟨hh, ht, hl, hb, hr⟩ := lists_cut.1 h
  obtain ⟨hal, -⟩ := order_apart ho
  obtain ⟨-, hor, -, hbr, -⟩ := order_cut.1 ho
  have hbt := htop b (by simp)
  unfold stop at hbt hbr
  have hf : u32 (b.size + 2 ^ 32 + 2 ^ 32 - size - 32) = b.size - size - 32 := by
    unfold u32
    omega
  have hbl : u32 (b.addr + 32 + size) = b.addr + 32 + size := u32_of_lt (by omega)
  have hrt : ∀ c ∈ r, c.addr < 2 ^ 32 := fun c hc => by
    have := htop c (by simp [hc])
    unfold stop at this
    omega
  have hfr := @front_or _ _ addr 0 r (· < 2 ^ 32) hrt
  have ha : front addr r 0 = 0 ∨ b.addr + 32 + size + 32 ≤ front addr r 0 :=
    front_or fun c hc => by have := hbr c hc; omega
  simp only [splitBlock, hbl, h.get_next, h.get_size (show b ∈ l ++ b :: r by simp), hf]
  set n := s.newFree (b.addr + 32 + size) (b.size - size - 32) (front addr r 0) b.addr
    with hn
  have hnr : Chained addr header n.node b.addr r 0 :=
    hr.congr fun c hc => newFree_node_apart (.inl (by have := hbr c hc; omega))
  obtain ⟨hp, hpt⟩ := pointBack_chained hnr (fun c hc => hs c (by simp [hc])) hor
    (show b.addr + 32 + size < 2 ^ 32 by omega) ht
  refine lists_cut.2 ⟨?_, ?_, hl.congr fun c hc => ?_, ?_, ?_, hp.congr fun c hc => ?_⟩
  · rw [set_heapHead, set_heapHead, pointBack_heapHead]
    exact hh
  · simpa only [set_heapTail, back] using hpt
  · have := hal c hc
    rw [node_set_apart (by omega), node_set_apart (by omega), pointBack_node (by omega),
      newFree_node_apart (by omega)]
  · rw [node_set_self (by omega), node_set_self (by omega), pointBack_node (by omega),
      newFree_node_apart (by omega), hb, header_resize b size]
    rfl
  · dsimp only
    rw [node_set_apart (by omega), node_set_apart (by omega), pointBack_node (by omega),
      newFree_node_self (by omega) (by omega) (by omega)]
    rfl
  · have := hbr c hc
    rw [node_set_apart (by omega), node_set_apart (by omega)]

lemma takeBlock_rest {curr : ℕ} : (s.takeBlock size curr).rest = s.rest := by
  simp only [takeBlock]
  split_ifs
  · exact pointBack_rest
  · rfl

lemma splitBlock_mem (h : s.Lists (l ++ b :: r)) (hfr : b.free = true)
    (hs : size + 32 ≤ b.size) (htop : b.stop < 2 ^ 32) (hx : Outside (l ++ b :: r) x) :
    (s.splitBlock size b.addr).mem x = s.mem x := by
  have hb := hx b (by simp)
  simp only [hfr, true_imp_iff] at hb
  unfold stop at hb htop
  have hf := @front_or _ _ addr 0 r (fun a => x < a ∨ a + 32 ≤ x) fun c hc =>
    (hx c (by simp [hc])).imp_right And.left
  simp only [splitBlock, h.get_next, u32_of_lt (show b.addr + 32 + size < 2 ^ 32 by omega)]
  rw [mem_set_apart (by omega), mem_set_apart (by omega), pointBack_mem hf, newFree_mem (by omega)]

lemma mem_allocated {c d : HeapBlock} {w : List HeapBlock} (hd : d.free = false)
    (hb : b.free = true) (hw : ∀ c ∈ w, c.free = true) :
    d ∈ l ++ c :: (w ++ r) ↔ d = c ∨ d ∈ l ++ b :: r := by
  have hdb : d ≠ b := fun h => by simp [h, hb] at hd
  have hdw : d ∉ w := fun h => by simp [hw d h] at hd
  simp only [mem_append, mem_cons, hdb, hdw, false_or]
  tauto

lemma takeBlock_holds (h : s.Holds bs) (hb : b ∈ bs) (hf : b.free = true)
    (hsi : size ≤ b.size) (h16 : 16 ∣ size) :
    ∃ bs' n, (s.takeBlock size b.addr).Holds bs' ∧ size ≤ n ∧
      (∀ d, d.free = false → (d ∈ bs' ↔ d = ⟨b.addr, n, false⟩ ∨ d ∈ bs)) ∧
      ∀ x, Outside bs x → (s.takeBlock size b.addr).mem x = s.mem x := by
  obtain ⟨l, r, rfl⟩ := append_of_mem hb
  have htop := h.lt hb
  have hbs := h.places.size b hb
  have hba := h.places.addr b hb
  obtain ⟨-, -, hl, hr, -⟩ := order_cut.1 h.places.order
  have hm : ∀ x, Outside (l ++ b :: r) x → ∀ t : Kheap, t.mem x = s.mem x →
      ((t.set .isFree b.addr 0).set .magic b.addr heapMagicAllocated).mem x = s.mem x := by
    intro x hx t ht
    have hxb := (hx b (by simp)).imp_right And.left
    rw [mem_set_apart hxb, mem_set_apart hxb, ht]
  have hu : u32 (u32 (size + 32) + 4) = size + 36 := by
    unfold stop at htop
    rw [u32_of_lt (n := size + 32) (by omega), u32_of_lt (by omega)]
  unfold takeBlock
  rw [hu, h.lists.get_size hb]
  split_ifs with hla
  · -- the block is split
    have hs := splitBlock_lists h.lists h.places.order h.places.start (fun c hc => h.lt hc)
      (by omega : size + 32 ≤ b.size)
    have hp : ∀ f, s.Places (l ++ ⟨b.addr, size, f⟩ ::
        ⟨b.addr + 32 + size, b.size - size - 32, true⟩ :: r) := by
      intro f
      have hsa := h.places.start b hb
      have hst := h.places.stop b hb
      unfold stop at hst
      refine @Places.window s l r [b] [_, _] b.addr b.stop h.places hl hr ?_ ?_ ?_ <;>
        simp [stop, placed_iff] <;> omega
    have hli := mark_lists hs (hp b.free).order false rfl rfl
    refine ⟨_, size, h.ordinary.relist pointBack_rest hli (hp false), le_rfl, fun d hd => ?_,
      fun x hx => ?_⟩
    · exact @mem_allocated b l r _ d [_] hd hf (by simp)
    · exact hm x hx _ (splitBlock_mem h.lists hf (by omega) (by omega) hx)
  · have hli := mark_lists h.lists h.places.order false rfl rfl
    refine ⟨_, b.size, h.ordinary.relist rfl hli (h.places.refree false), hsi, fun d hd => ?_,
      fun x hx => hm x hx s rfl⟩
    exact @mem_allocated b l r _ d [] hd hf (by simp)

end Take

section Malloc

variable {s : Kheap} {b c d : HeapBlock} {bs : List HeapBlock} {size : ℕ}

lemma Places.addr_inj (h : s.Places bs) (hb : b ∈ bs) (hc : c ∈ bs) (heq : b.addr = c.addr) :
    b = c := by
  by_contra hne
  have := pairwise_or h.order hb hc hne
  unfold HeapBlock.stop at this
  omega

/-- What `kmalloc` returns: nothing, or the payload of a block that was not allocated. -/
structure Mallocs (s : Kheap) (bs : List HeapBlock) (size p : ℕ) (s' : Kheap)
    (bs' : List HeapBlock) : Prop where
  holds : s'.Holds bs'
  payloads : SamePayloads s bs s'
  result : p = 0 ∧ SameAllocated bs bs' ∨
    ∃ c, p = c.addr + 32 ∧ c.free = false ∧ size ≤ c.size ∧
      (∀ d ∈ bs, d.free = false → d.addr ≠ c.addr) ∧
      ∀ d, d.free = false → (d ∈ bs' ↔ d = c ∨ d ∈ bs)

lemma kmallocLoop_take {fuel : ℕ} (h : s.Holds bs) (hf : bs.find? (fits size) = some b)
    (h16 : 16 ∣ size) : ∃ bs', kmallocLoop size (fuel + 1) s =
      .ok (b.addr + 32, s.takeBlock size b.addr) ∧
      Mallocs s bs size (b.addr + 32) (s.takeBlock size b.addr) bs' := by
  have hb : b ∈ bs := mem_of_find?_eq_some hf
  have hbf := find?_some hf
  simp only [fits, Bool.and_eq_true, decide_eq_true_eq] at hbf
  have htop := h.lt hb
  unfold stop at htop
  obtain ⟨bs', n, hh, hn, halloc, hmem⟩ := takeBlock_holds h hb hbf.1 hbf.2 h16
  refine ⟨bs', ?_, hh, h.samePayloads fun x hx _ => hmem x hx,
    .inr ⟨⟨b.addr, n, false⟩, rfl, rfl, hn, ?_, halloc⟩⟩
  · rw [kmallocLoop, h.findFit, hf]
    simp only [Option.map_some]
    rw [u32_of_lt (by omega)]
  · intro d hd hdf heq
    have := h.places.addr_inj hd hb heq
    simp [this, hbf.1] at hdf

lemma SamePayloads.trans {s0 s' : Kheap} {bs0 : List HeapBlock} (h0 : SamePayloads s0 bs0 s)
    (ha : ∀ b ∈ bs0, b.free = false → b ∈ bs) (h : SamePayloads s bs s') :
    SamePayloads s0 bs0 s' := fun b hb hbf x hx hx' =>
  (h b (ha b hb hbf) hbf x hx hx').trans (h0 b hb hbf x hx hx')

lemma Mallocs.after {s0 s' : Kheap} {bs0 bs' : List HeapBlock} {p : ℕ}
    (h : Mallocs s bs size p s' bs') (hk : Keeps s0 bs0 s bs) : Mallocs s0 bs0 size p s' bs' := by
  obtain ⟨hh, hpa, hres⟩ := h
  refine ⟨hh, hk.payloads.trans (fun b hb hbf => (hk.allocated b hbf).2 hb) hpa, ?_⟩
  rcases hres with ⟨hp, ha⟩ | ⟨c, hp, hc, hcs, hne, ha⟩
  · exact .inl ⟨hp, fun d hd => (ha d hd).trans (hk.allocated d hd)⟩
  · refine .inr ⟨c, hp, hc, hcs, fun d hd hdf => hne d ((hk.allocated d hdf).2 hd) hdf, ?_⟩
    exact fun d hd => (ha d hd).trans (or_congr_right (hk.allocated d hd))

lemma roundUp_eq (h : size ≤ 2 ^ 31) : roundUp size = (size + 15) / 16 * 16 := by
  unfold roundUp
  rw [u32_of_lt (by omega)]

lemma kmalloc_mallocs (h : s.Holds bs) (hs : size ≤ 2 ^ 31) (ho : s.MallocOrdinary size) :
    ∃ p s' bs', s.kmalloc size = .ok (p, s') ∧ Mallocs s bs size p s' bs' := by
  have hre : SameAllocated bs bs := fun _ _ => Iff.rfl
  by_cases hz : size = 0
  · exact ⟨0, s, bs, by simp [kmalloc, hz], h, fun _ _ _ _ _ _ => rfl, .inl ⟨rfl, hre⟩⟩
  have hr := roundUp_eq hs
  have h16 : 16 ∣ roundUp size := hr ▸ Dvd.intro_left _ rfl
  have hle : size ≤ roundUp size := by omega
  have hmo : ∀ {p s0 bs0 s' bs'}, Mallocs s0 bs0 (roundUp size) p s' bs' →
      Mallocs s0 bs0 size p s' bs' := by
    rintro p s0 bs0 s' bs' ⟨hh, hpa, hres⟩
    refine ⟨hh, hpa, hres.imp_right ?_⟩
    rintro ⟨c, hp, hcf, hcs, hrs⟩
    exact ⟨c, hp, hcf, hle.trans hcs, hrs⟩
  obtain ⟨fuel, hf⟩ : ∃ fuel, chainFuel = fuel + 2 := ⟨2 ^ 27 - 2, by decide⟩
  simp only [kmalloc, hz, if_false, hf]
  rcases hfi : bs.find? (fits (roundUp size)) with _ | b
  · have hn := h.findFit (roundUp size)
    rw [hfi, Option.map_none] at hn
    obtain ⟨bs', hk, hgr⟩ := heapGrow_keeps h (by omega) (ho hz hn)
    rw [kmallocLoop, hn]
    rcases hg : s.heapGrow (roundUp size) with ⟨_ | _, t⟩
    · rw [hg] at hk
      exact ⟨0, t, bs', rfl, hk.holds, hk.payloads, .inl ⟨rfl, hk.allocated⟩⟩
    · rw [hg] at hk hgr
      obtain ⟨b, hb, hbf, hbs⟩ := hgr rfl
      have hso : (bs'.find? (fits (roundUp size))).isSome := by
        rw [find?_isSome]
        exact ⟨b, hb, by simp [fits, hbf, hbs]⟩
      obtain ⟨c, hc⟩ := Option.isSome_iff_exists.1 hso
      obtain ⟨bs'', heq, hm⟩ := @kmallocLoop_take t c bs' _ fuel hk.holds hc h16
      exact ⟨_, _, bs'', heq, hmo (hm.after hk)⟩
  · obtain ⟨bs', heq, hm⟩ := @kmallocLoop_take s b bs _ (fuel + 1) h hfi h16
    exact ⟨_, _, bs', heq, hmo hm⟩

end Malloc

end Kheap

section Pointers

variable {live live' : List (ℕ × ℕ)} {own own' : ℕ → ℕ → Prop} {e : ℕ × ℕ} {ptr : ℕ}

lemma giveUp_sublist (live : List (ℕ × ℕ)) (ptr : ℕ) : (giveUp live ptr).Sublist live :=
  filter_sublist

lemma mem_giveUp : e ∈ giveUp live ptr ↔ e ∈ live ∧ e.1 ≠ ptr := by
  simp [giveUp]

lemma notMem_giveUp : ptr ∉ (giveUp live ptr).map Prod.fst := by
  simp [giveUp]

lemma payloadByte_iff : payloadByte live x = true ↔ ∃ e ∈ live, e.1 ≤ x ∧ x < e.1 + e.2 := by
  simp [payloadByte]

/-- Each pointer is held once, and is one that `own` allows for its size. -/
structure Owned (own : ℕ → ℕ → Prop) (live : List (ℕ × ℕ)) : Prop where
  nodup : (live.map Prod.fst).Nodup
  block : ∀ e ∈ live, own e.1 e.2

namespace Owned

variable (h : Owned own live)
include h

lemma mono (ha : ∀ p n, own p n → own' p n) : Owned own' live :=
  ⟨h.nodup, fun e he => ha _ _ (h.block e he)⟩

lemma notMem (hn : ∀ n, ¬ own ptr n) : ptr ∉ live.map Prod.fst := by
  intro hmem
  obtain ⟨e, he, rfl⟩ := mem_map.1 hmem
  exact hn _ (h.block e he)

lemma cons {n : ℕ} (hp : own ptr n) (hne : ptr ∉ live.map Prod.fst) :
    Owned own ((ptr, n) :: live) :=
  ⟨nodup_cons.2 ⟨hne, h.nodup⟩, forall_mem_cons.2 ⟨hp, h.block⟩⟩

lemma give (ha : ∀ p n, p ≠ ptr → own p n → own' p n) : Owned own' (giveUp live ptr) := by
  refine ⟨h.nodup.sublist ((giveUp_sublist _ _).map _), fun e he => ?_⟩
  obtain ⟨he, hne⟩ := mem_giveUp.1 he
  exact ha _ _ hne (h.block e he)

lemma giveUp_unheld (hn : ∀ n, ¬ own ptr n) : giveUp live ptr = live :=
  filter_eq_self.2 fun e he => decide_eq_true fun heq => hn _ (heq ▸ h.block e he)

lemma find_unheld (hn : ∀ n, ¬ own ptr n) : live.find? (fun e => decide (e.1 = ptr)) = none :=
  find?_eq_none.2 fun e he heq => hn _ (of_decide_eq_true heq ▸ h.block e he)

end Owned

end Pointers

end EsdumanOS
