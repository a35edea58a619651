import EsdumanOS.Proofs.Kheap

/-!
# Runs of the kernel heap

What holds after every call of a run: the blocks are linked and placed as they should be, every
pointer that is held is the payload of one of them, and a block that was moved has its bytes. It
holds as long as the heap grows into pages that are its own to map.
-/

namespace EsdumanOS

open Lib Function HeapBlock
open List hiding attach

variable {x : ℕ} {bs' : List HeapBlock} {live : List (ℕ × ℕ)} {s' : Kheap} {start total : ℕ}

namespace Kheap

section Merge

variable {s : Kheap} {b c : HeapBlock} {bs l r : List HeapBlock}

lemma absorb_lists (h : s.Lists (l ++ b :: c :: r))
    (ho : (l ++ b :: c :: r).Pairwise fun b c => b.stop ≤ c.addr)
    (hs : ∀ d ∈ l ++ b :: c :: r, kheapStart ≤ d.addr)
    (htop : ∀ d ∈ l ++ b :: c :: r, d.stop ≤ 0xFFC00000) :
    (s.absorb b.addr c.addr).Lists (l ++ ⟨b.addr, b.size + (c.size + 32), b.free⟩ :: r) := by
  obtain ⟨hh, ht, hl, hb, hc, hr⟩ := lists_cut.1 h
  obtain ⟨hal, har⟩ := order_apart ho
  obtain ⟨-, hor, -, hbr, -⟩ := order_cut.1 ho
  obtain ⟨hcr, hor⟩ := pairwise_cons.1 hor
  have hbc := hbr c (by simp)
  have hct := htop c (by simp)
  have hbt := htop b (by simp)
  unfold stop at hct hbc hcr hbt
  have hne : (s.node c.addr).next = front addr r 0 := by rw [hc]
  have ha : ∀ v, (s.set .size b.addr v).get .next c.addr = front addr r 0 :=
    fun v => (get_set_apart (by omega)).trans hne
  have hsi : u32 (b.size + (c.size + 32)) = b.size + (c.size + 32) := u32_of_lt (by omega)
  simp only [absorb, h.get_size (show b ∈ l ++ b :: c :: r by simp),
    h.get_size (show c ∈ l ++ b :: c :: r by simp), ha, hsi]
  set n := (s.set .size b.addr (b.size + (c.size + 32))).set .next b.addr
    (front addr r 0) with hn
  have hnr : Chained addr header n.node c.addr r 0 := hr.congr fun d hd => by
    have := hcr d hd
    rw [hn, node_set_apart (by omega), node_set_apart (by omega)]
  obtain ⟨hp, hpt⟩ := pointBack_chained hnr (fun d hd => hs d (by simp [hd])) hor
    (show b.addr < 2 ^ 32 by omega) ht
  have hap : front addr r 0 = 0 ∨ b.addr + 32 ≤ front addr r 0 :=
    front_or fun d hd => by have := hcr d hd; omega
  have hrt := @front_or _ _ addr 0 r (· < 2 ^ 32) fun d hd => by
    have := htop d (by simp [hd])
    unfold stop at this
    omega
  refine lists_cut.2 ⟨?_, hpt, hl.congr fun d hd => ?_, ?_, hp⟩
  · rw [pointBack_heapHead]
    exact hh
  · have := hal d hd
    rw [pointBack_node (by omega), hn, node_set_apart (by omega), node_set_apart (by omega)]
  · dsimp only
    rw [pointBack_node (by omega), hn, node_set_self (by omega), node_set_self (by omega), hb,
      header_resize b (b.size + (c.size + 32))]
    rfl

lemma absorb_mem (h : s.Lists (l ++ b :: c :: r)) (hb : b.addr + 32 ≤ c.addr)
    (hx : Outside (l ++ b :: c :: r) x) : (s.absorb b.addr c.addr).mem x = s.mem x := by
  have hxb := (hx b (by simp)).imp_right And.left
  have hn : s.get .next c.addr = front addr r 0 :=
    Lists.get_next (l := l ++ [b]) (by simpa using h)
  have hf := @front_or _ _ addr 0 r (fun a => x < a ∨ a + 32 ≤ x) fun d hd =>
    (hx d (by simp [hd])).imp_right And.left
  simp only [absorb, get_set_apart (.inl hb), hn]
  rw [pointBack_mem hf, mem_set_apart hxb, mem_set_apart hxb]

lemma absorb_keeps (h : s.Holds (l ++ b :: c :: r)) (hb : b.free = true) (hc : c.free = true)
    (ha : b.stop = c.addr) : Keeps s (l ++ b :: c :: r) (s.absorb b.addr c.addr)
      (l ++ ⟨b.addr, b.size + (c.size + 32), b.free⟩ :: r) := by
  obtain ⟨-, -, hl, -, -⟩ := order_cut.1 h.places.order
  have hr := (order_cut (l := l ++ [b]) (b := c) (r := r)).1 (by simpa using h.places.order)
  have hli := absorb_lists h.lists h.places.order h.places.start fun d hd => h.lt hd
  have hs : (⟨b.addr, b.size + (c.size + 32), b.free⟩ : HeapBlock).stop = c.stop := by
    unfold stop at ha ⊢
    simp only
    omega
  have hbs := h.places.size b (by simp)
  have hcs := h.places.size c (by simp)
  have hp : s.Places (l ++ ⟨b.addr, b.size + (c.size + 32), b.free⟩ :: r) := by
    refine @Places.window s l r [b, c] [_] b.addr c.stop h.places hl hr.2.2.2.1
      (pairwise_singleton _ _) ?_ ?_
    · rw [← hs]
      simp [stop, Nat.add_assoc]
    · simp only [forall_mem_singleton]
      exact ⟨⟨h.places.start b (by simp), hs.le.trans (h.places.stop c (by simp)),
        h.places.addr b (by simp), by dsimp only; omega⟩, le_rfl, hs.le⟩
  refine ⟨h.ordinary.relist pointBack_rest hli hp, ?_,
    h.samePayloads fun x hx _ => absorb_mem h.lists ?_ hx⟩
  · intro d hd
    have hdb : d ≠ b := fun h => by simp [h, hb] at hd
    have hdc : d ≠ c := fun h => by simp [h, hc] at hd
    have hdn : d ≠ ⟨b.addr, b.size + (c.size + 32), b.free⟩ := fun h => by simp [h, hb] at hd
    simp only [mem_append, mem_cons, hdb, hdc, hdn, false_or]
  · unfold stop at ha
    omega

lemma Holds.adjacent (h : s.Holds bs) (hb : b ∈ bs) (a : ℕ) :
    s.heapBlocksAdjacent b.addr a = true ↔ b.stop = a :=
  h.lists.adjacent hb ((h.lt hb).trans_lt (by decide)) a

lemma mergeNext_keeps (h : s.Holds (l ++ b :: r)) (hb : b.free = true) :
    ∃ n r', n.addr = b.addr ∧ n.free = true ∧
      Keeps s (l ++ b :: r) (s.mergeNext b.addr) (l ++ n :: r') := by
  unfold mergeNext
  rw [h.lists.get_next]
  dsimp only
  split_ifs with hco
  · obtain ⟨hne, hf, ha⟩ := hco
    cases r with
    | nil => exact absurd rfl hne
    | cons c r =>
      have hc := (h.lists.get_isFree (b := c) (by simp)).1 hf
      rw [front, h.adjacent (by simp)] at ha
      exact ⟨⟨b.addr, b.size + (c.size + 32), b.free⟩, r, rfl, hb, absorb_keeps h hb hc ha⟩
  · exact ⟨b, r, rfl, hb, .refl h⟩

lemma mergePrev_keeps (h : s.Holds (l ++ b :: r)) (hb : b.free = true) :
    ∃ n l', n.addr = (s.mergePrev b.addr).1 ∧ n.free = true ∧
      Keeps s (l ++ b :: r) (s.mergePrev b.addr).2 (l' ++ n :: r) := by
  unfold mergePrev
  rw [h.lists.get_prev]
  dsimp only
  split_ifs with hc
  · obtain ⟨hne, hf, had⟩ := hc
    rcases eq_nil_or_concat l with rfl | ⟨l, a, rfl⟩
    · exact absurd rfl hne
    · simp only [concat_eq_append, back_append, append_assoc, singleton_append]
        at h hf had ⊢
      have ha := (h.lists.get_isFree (b := a) (by simp)).1 hf
      change s.heapBlocksAdjacent a.addr b.addr = true at had
      rw [h.adjacent (by simp)] at had
      exact ⟨⟨a.addr, a.size + (b.size + 32), a.free⟩, l, rfl, ha, absorb_keeps h ha hb had⟩
  · exact ⟨b, l, rfl, hb, .refl h⟩

end Merge

section Shrink

variable {s : Kheap} {b : HeapBlock} {bs l r : List HeapBlock}

lemma releasePage_same {e : ℕ} (he : u32 (s.currentHeapEnd + 2 ^ 32 - 4096) = e)
    (ho : s.ordinary e) : SameList s s.releasePage ∧ s.releasePage.currentHeapEnd = e := by
  simp only [releasePage, he]
  set t : Kheap := { s with currentHeapEnd := e }
  have hst : SameList s t := ⟨rfl, rfl, rfl, fun _ h => h⟩
  have hf := freeEntry_same t (t.tableWord (pdIndex e) (ptIndex e))
  have hu := unmapPage_same (hf.ordinary e (hst.ordinary e ho))
  exact ⟨hst.trans (hf.toSameList.trans hu.toSameList), hu.heapEnd.trans hf.heapEnd⟩

lemma releasePages_succ (s : Kheap) (n : ℕ) :
    s.releasePages (n + 1) = s.releasePage.releasePages n :=
  iterate_succ_apply releasePage n s

lemma releasePages_same {n : ℕ} (ho : s.OrdinaryFrom kheapStart)
    (hn : kheapStart + n * 4096 ≤ s.currentHeapEnd) : SameList s (s.releasePages n) ∧
      (s.releasePages n).currentHeapEnd = s.currentHeapEnd - n * 4096 ∧
      (s.releasePages n).OrdinaryFrom kheapStart := by
  induction n generalizing s with
  | zero => exact ⟨⟨rfl, rfl, rfl, fun _ h => h⟩, by simp [releasePages], ho⟩
  | succ n ih =>
    rw [Nat.succ_mul, ← Nat.add_assoc] at hn
    obtain ⟨hp, htop, hle, hpages⟩ := ho
    obtain ⟨e, he⟩ : ∃ e, s.currentHeapEnd = e + 4096 := ⟨s.currentHeapEnd - 4096, by omega⟩
    have hor : s.ordinary e := hpages e (by omega) (by omega)
    obtain ⟨hsame, hen⟩ := releasePage_same (by unfold u32; omega) hor
    rw [releasePages_succ]
    generalize s.releasePage = t at hsame hen ⊢
    have ho : t.OrdinaryFrom kheapStart := by
      refine ⟨by omega, by omega, by omega, fun va h h' => hsame.ordinary va ?_⟩
      exact hpages va h (by omega)
    obtain ⟨hs', he', ho'⟩ := ih ho (by omega)
    exact ⟨hsame.trans hs', by omega, ho'⟩

lemma dropBlock_lists (h : s.Lists (l ++ [b]))
    (ho : (l ++ [b]).Pairwise fun b c => b.stop ≤ c.addr) (hpo : ∀ c ∈ l, 0 < c.addr) :
    (s.dropBlock b.addr).Lists l := by
  have hp : s.get .prev b.addr = back addr 0 l := h.get_prev
  unfold dropBlock
  rw [hp]
  rcases eq_nil_or_concat l with rfl | ⟨l, a, rfl⟩
  · exact ⟨rfl, rfl, trivial⟩
  · rw [concat_eq_append] at *
    have ha : a.addr ≠ 0 := (hpo a (by simp)).ne'
    obtain ⟨hh, -, hl, -, -⟩ := lists_cut.1 h
    obtain ⟨hal, -⟩ := order_apart (l := l) (b := a) (r := [b]) (by simpa using ho)
    have hb : back addr 0 (l ++ [a]) = a.addr := by simp [back]
    rw [hb, if_pos ha]
    refine ⟨?_, hb.symm, ?_⟩
    · rw [front_append] at hh ⊢
      exact hh
    · refine hl.retarget (node_set_self (by decide)) fun c hc => node_set_apart ?_
      have := hal c hc
      omega

lemma resize_lists {n : ℕ} (h : s.Lists (l ++ b :: r))
    (ho : (l ++ b :: r).Pairwise fun b c => b.stop ≤ c.addr) (hn : n < 2 ^ 32) :
    (s.set .size b.addr n).Lists (l ++ ⟨b.addr, n, b.free⟩ :: r) := by
  refine h.rewrite ho rfl rfl rfl ?_ fun a ha => node_set_apart ha
  rw [node_set_self hn, header_resize b n, (lists_cut.1 h).2.2.2.1]
  rfl

lemma dropBlock_rest : (s.dropBlock x).rest = s.rest := by
  simp only [dropBlock]
  split_ifs <;> rfl

lemma dropBlock_mem (h : s.Lists (l ++ [b])) (hx : Outside l x) :
    (s.dropBlock b.addr).mem x = s.mem x := by
  unfold dropBlock
  rw [h.get_prev]
  dsimp only
  split_ifs with hne
  · obtain ⟨a, ha, hb⟩ : ∃ a ∈ l, back addr 0 l = a.addr := by
      refine back_mem fun hn => hne ?_
      rw [hn]
      rfl
    rw [setTail_mem, hb]
    exact mem_set_apart ((hx a ha).imp_right And.left)
  · rfl

lemma tail_last (h : s.Holds (l ++ b :: r)) (ht : b.addr = s.heapTail) : r = [] := by
  by_contra hr
  obtain ⟨-, hta, -⟩ := lists_cut.1 h.lists
  obtain ⟨d, hd, hb⟩ : ∃ d ∈ r, back addr b.addr r = d.addr := back_mem hr
  have := (order_apart h.places.order).2 d hd
  omega

lemma shrink_keeps (h : s.Holds (l ++ b :: r)) (hb : b.free = true) :
    ∃ bs', Keeps s (l ++ b :: r) (s.shrink b.addr) bs' := by
  unfold shrink
  rw [h.lists.get_size (show b ∈ l ++ b :: r by simp)]
  split_ifs with hco
  swap
  · exact ⟨_, .refl h⟩
  obtain ⟨ht, hbi⟩ := hco
  obtain rfl := tail_last h ht
  have hs := h.places.start b (by simp)
  have hst := h.places.stop b (by simp)
  have hbs := h.places.size b (by simp)
  have hba := h.places.addr b (by simp)
  obtain ⟨-, -, hl, -, -⟩ := order_cut.1 h.places.order
  have hbt : b.stop = b.addr + 32 + b.size := rfl
  obtain ⟨hsame, he, hor⟩ := releasePages_same (n := b.size / 4096) h.ordinary (by omega)
  have hli := hsame.lists h.lists
  have hmem : ∀ x, (s.releasePages (b.size / 4096)).mem x = s.mem x := fun x => by rw [hsame.mem]
  dsimp only
  generalize s.releasePages (b.size / 4096) = t at hsame he hor hli hmem ⊢
  rw [hli.get_size (show b ∈ l ++ [b] by simp)]
  have hu : u32 (b.size + 2 ^ 32 - b.size / 4096 * 4096) = b.size - b.size / 4096 * 4096 := by
    unfold u32
    omega
  rw [hu]
  obtain ⟨m, hm⟩ : ∃ m, m = b.size - b.size / 4096 * 4096 := ⟨_, rfl⟩
  rw [← hm]
  have hl' := resize_lists (n := m) hli h.places.order (by omega)
  have hp : t.Places l := h.places.sublist (sublist_append_left l [b])
    fun c hc => by have := hl c hc; omega
  have hm' : ∀ x, Outside (l ++ [b]) x → (t.set .size b.addr m).mem x = s.mem x := fun x hx => by
    rw [mem_set_apart ((hx b (by simp)).imp_right And.left), hmem]
  split_ifs
  · -- what is left is too small for a block
    have ho : (l ++ [(⟨b.addr, m, b.free⟩ : HeapBlock)]).Pairwise
        (fun b c => b.stop ≤ c.addr) :=
      order_cut.2 ⟨hp.order, List.Pairwise.nil, hl, by simp, by simp⟩
    have hdr := dropBlock_lists hl' ho fun c hc => h.pos (by simp [hc])
    refine ⟨l, hor.relist dropBlock_rest hdr hp, fun d hd => ?_, ?_⟩
    · have hdb : d ≠ b := fun h => by simp [h, hb] at hd
      simp [hdb]
    · refine h.samePayloads fun x hx _ => ?_
      rw [dropBlock_mem hl' fun c hc => hx c (by simp [hc]), hm' x hx]
  · refine ⟨_, hor.relist rfl hl' (hp.snoc hl le_rfl ⟨hs, ?_, hba, ?_⟩), sameAllocated_last hb hb,
      h.samePayloads fun x hx _ => hm' x hx⟩ <;> simp only [stop] <;> omega

end Shrink

section Free

variable {s : Kheap} {b : HeapBlock} {bs l r : List HeapBlock}

structure Frees (s : Kheap) (bs : List HeapBlock) (b : HeapBlock) (s' : Kheap)
    (bs' : List HeapBlock) : Prop where
  holds : s'.Holds bs'
  allocated : ∀ d, d.free = false → (d ∈ bs' ↔ d ≠ b ∧ d ∈ bs)
  payloads : ∀ d ∈ bs, d ≠ b → d.free = false → ∀ x, d.addr + 32 ≤ x → x < d.stop →
    s'.mem x = s.mem x

lemma Frees.keeps {s' s'' : Kheap} {bs' bs'' : List HeapBlock} (h : Frees s bs b s' bs')
    (hk : Keeps s' bs' s'' bs'') : Frees s bs b s'' bs'' := by
  refine ⟨hk.holds, fun d hd => (hk.allocated d hd).trans (h.allocated d hd), ?_⟩
  intro d hd hdb hdf x hx hx'
  exact (hk.payloads d ((h.allocated d hdf).2 ⟨hdb, hd⟩) hdf x hx hx').trans
    (h.payloads d hd hdb hdf x hx hx')

lemma mark_frees (h : s.Holds (l ++ b :: r)) (hb : b.free = false) :
    Frees s (l ++ b :: r) b ((s.set .isFree b.addr 1).set .magic b.addr heapMagicFree)
      (l ++ ⟨b.addr, b.size, true⟩ :: r) := by
  have hbm : b ∈ l ++ b :: r := by simp
  refine ⟨h.ordinary.relist rfl (mark_lists h.lists h.places.order true rfl rfl)
    (h.places.refree true), fun d hd => ?_, fun d hd hdb hdf x hx hx' => ?_⟩
  · have hne : ∀ c, c ∈ l ∨ c ∈ r → c ≠ b := by
      obtain ⟨ha, har⟩ := order_apart h.places.order
      rintro c (hc | hc) rfl
      · have := ha c hc
        omega
      · have := har c hc
        omega
    have hdn : d ≠ ⟨b.addr, b.size, true⟩ := fun h => by simp [h] at hd
    have hdb := hne d
    simp only [mem_append, mem_cons, hdn, false_or]
    tauto
  · have ho := (h.places.outside hd hdf hx hx') b hbm
    have ho := ho.imp_right And.left
    rw [mem_set_apart ho, mem_set_apart ho]

lemma Holds.pointer (h : s.Holds bs) (hb : b ∈ bs) (hf : b.free = false) :
    u32 (b.addr + 32 + 2 ^ 32 - 32) = b.addr ∧ s.get .magic b.addr = heapMagicAllocated ∧
      s.get .isFree b.addr = 0 ∧ s.get .size b.addr = b.size := by
  have htop := h.lt hb
  unfold stop at htop
  have hh := h.lists.node hb
  rw [header_allocated hf] at hh
  refine ⟨?_, congrArg HeapHeader.magic hh, congrArg HeapHeader.isFree hh, h.lists.get_size hb⟩
  unfold u32
  omega

lemma kfree_frees (h : s.Holds bs) (hb : b ∈ bs) (hf : b.free = false) :
    ∃ s' bs', s.kfree (b.addr + 32) = .ok s' ∧ Frees s bs b s' bs' := by
  obtain ⟨hbl, hmg, hi, -⟩ := h.pointer hb hf
  obtain ⟨l, r, rfl⟩ := append_of_mem hb
  have hma := mark_frees h hf
  obtain ⟨n, r', hn, hnf, hnx⟩ := mergeNext_keeps hma.holds rfl
  obtain ⟨m, l', hm, hmf, hp⟩ := mergePrev_keeps hnx.holds hnf
  obtain ⟨bs', hs⟩ := shrink_keeps hp.holds hmf
  refine ⟨_, bs', ?_, ((hma.keeps hnx).keeps hp).keeps hs⟩
  have hne : heapMagicAllocated ≠ heapMagicFree := by decide
  simp only [kfree, hbl, hmg, hi, hne, Nat.add_eq_zero_iff, OfNat.ofNat_ne_zero, and_false,
    zero_ne_one, or_self, ne_eq, not_true_eq_false, if_false]
  rw [hm, hn]

end Free

section Contents

variable {s s' : Kheap} {b c : HeapBlock} {bs : List HeapBlock} {live : List (ℕ × ℕ)}

lemma Holds.of_headers (h : s.Holds bs)
    (hmem : ∀ b ∈ bs, ∀ x, b.addr ≤ x → x < b.addr + 32 → s'.mem x = s.mem x)
    (hh : s'.heapHead = s.heapHead) (ht : s'.heapTail = s.heapTail)
    (he : s'.currentHeapEnd = s.currentHeapEnd)
    (ho : ∀ va, kheapStart ≤ va → s.ordinary va → s'.ordinary va) : s'.Holds bs := by
  have hg : ∀ b ∈ bs, ∀ f, s'.get f b.addr = s.get f b.addr := fun b hb f => by
    have hf := @offset_le f
    exact load32_congr fun x hx hx' => hmem b hb x (by omega) (by omega)
  refine ⟨⟨hh.trans h.lists.head, ht.trans h.lists.tail, h.lists.links.congr fun b hb => ?_⟩,
    h.places.sublist (.refl bs) (he ▸ h.places.stop), ?_⟩
  · simp only [Kheap.node, hg b hb]
  · obtain ⟨hp, htop, hle, hpages⟩ := h.ordinary
    rw [← he] at hp htop hle hpages
    exact ⟨hp, htop, hle, fun va hv hv' => ho va hv (hpages va hv hv')⟩

/-- A pointer to an allocated block of at least so many bytes. -/
def Payload (bs : List HeapBlock) (p n : ℕ) : Prop :=
  ∃ b ∈ bs, b.free = false ∧ p = b.addr + 32 ∧ n ≤ b.size

lemma between_holds (h : s.Holds bs) (hl : Owned (Payload bs) live) (e : Between) :
    (s.between e live).Holds bs := by
  refine h.of_headers (fun b hb x hx hx' => ?_) rfl rfl rfl fun va hv ho => ?_
  · have hst := h.places.start b hb
    have hs := h.places.stop b hb
    unfold stop at hs
    have hn : payloadByte live x = false := by
      by_contra hy
      rw [Bool.not_eq_false] at hy
      obtain ⟨e, he, hel, her⟩ := payloadByte_iff.1 hy
      obtain ⟨c, hc, hcf, hp, hn⟩ := hl.block e he
      have hstop : c.stop = c.addr + 32 + c.size := rfl
      rcases h.places.outside hc hcf (x := x) (by omega) (by omega) b hb with hou | hou <;> omega
    simp only [between]
    rw [if_pos ⟨by omega, by omega, hn⟩]
  · have hi : ¬ pdIndex va < 768 := by
      unfold kheapStart at hv
      unfold pdIndex
      omega
    unfold ordinary at ho ⊢
    simp only [between, if_neg hi]
    exact ho

lemma copy_holds {src n : ℕ} (h : s.Holds bs) (hc : c ∈ bs) (hcf : c.free = false)
    (hn : n ≤ c.size) :
    { s with mem := copyBytes (c.addr + 32) src n s.mem }.Holds bs := by
  refine h.of_headers (fun b hb x hx hx' => copyBytes_apart ?_) rfl rfl rfl fun _ _ hv => hv
  by_contra hin
  have hs : c.stop = c.addr + 32 + c.size := rfl
  rcases h.places.outside hc hcf (x := x) (by omega) (by omega) b hb with ho | ho <;> omega

lemma kmallocSize_eq (h : s.Holds bs) (hb : b ∈ bs) (hf : b.free = false) :
    s.kmallocSize (b.addr + 32) = b.size := by
  obtain ⟨hbl, hm, -, hs⟩ := h.pointer hb hf
  simp only [kmallocSize, Nat.add_eq_zero_iff, OfNat.ofNat_ne_zero, and_false, if_false, hbl,
    hm, hs, ne_eq, not_true_eq_false]

lemma krealloc_stays {size : ℕ} (h : s.Holds bs) (hb : b ∈ bs) (hf : b.free = false)
    (hz : size ≠ 0) (hle : size ≤ b.size) :
    s.krealloc (b.addr + 32) size = .ok (b.addr + 32, s) := by
  obtain ⟨hbl, hm, -, hs⟩ := h.pointer hb hf
  simp only [krealloc, hz, if_false, Nat.add_eq_zero_iff, OfNat.ofNat_ne_zero, and_false, hbl,
    hm, hs, hle, ne_eq, not_true_eq_false, if_true]

lemma krealloc_grows {size : ℕ} (h : s.Holds bs) (hb : b ∈ bs) (hbf : b.free = false)
    (hlt : b.size < size) : s.krealloc (b.addr + 32) size =
      match s.kmalloc size with
      | .error h => .error h
      | .ok (0, t) => .ok (0, t)
      | .ok (newPtr, t) =>
        match { t with mem := copyBytes newPtr (b.addr + 32) b.size t.mem }.kfree (b.addr + 32) with
        | .error h => .error h
        | .ok t => .ok (newPtr, t) := by
  obtain ⟨hbl, hm, -, hg⟩ := h.pointer hb hbf
  unfold krealloc
  rw [if_neg (by omega), if_neg (by omega)]
  simp only [hbl, hg]
  exact (if_neg (by simp [hm])).trans (if_neg (by omega))

lemma krealloc_moves {size : ℕ} (h : s.Holds bs) (hb : b ∈ bs) (hbf : b.free = false)
    (hs : size ≤ 2 ^ 31) (hlt : b.size < size) (ho : s.MallocOrdinary size) :
    ∃ p t bs₁, Mallocs s bs size p t bs₁ ∧
      (p = 0 ∧ s.krealloc (b.addr + 32) size = .ok (0, t) ∨
      p ≠ 0 ∧ ∃ t₁ s' bs', s.krealloc (b.addr + 32) size = .ok (p, s') ∧ Frees t₁ bs₁ b s' bs' ∧
        ∀ k < b.size, s'.mem (p + k) = s.mem (b.addr + 32 + k)) := by
  obtain ⟨p, t, bs₁, heq, hmal⟩ := kmalloc_mallocs h hs ho
  refine ⟨p, t, bs₁, hmal, ?_⟩
  rw [krealloc_grows h hb hbf hlt, heq]
  obtain ⟨hh, hp, ⟨rfl, ha⟩ | ⟨c, rfl, hcf, hcs, hne, ha⟩⟩ := hmal
  · exact .inl ⟨rfl, rfl⟩
  · have hc' : c ∈ bs₁ := (ha c hcf).2 (.inl rfl)
    have hb' : b ∈ bs₁ := (ha b hbf).2 (.inr hb)
    have hbc : b ≠ c := fun heq => hne b hb hbf (by rw [heq])
    have hdi := pairwise_or hh.places.order hb' hc' hbc
    unfold stop at hdi
    have hc := @copy_holds t c bs₁ (b.addr + 32) b.size hh hc' hcf (by omega)
    obtain ⟨s', bs', hfr, hf⟩ := kfree_frees hc hb' hbf
    refine .inr ⟨by omega, _, s', bs', by simp only [hfr], hf, fun k hk => ?_⟩
    rw [hf.payloads c hc' hbc.symm hcf _ (by omega) (by unfold stop; omega)]
    simp only
    rw [copyBytes_copied (by omega) k hk]
    exact hp b hb hbf _ (by omega) (by unfold stop; omega)

lemma not_payload_zero (n : ℕ) : ¬ Payload bs 0 n := by
  rintro ⟨b, -, -, hp, -⟩
  omega

lemma Mallocs.owned {size p : ℕ} {bs' : List HeapBlock} (h : Mallocs s bs size p s' bs')
    (ho : Owned (Payload bs) live) :
    Owned (Payload bs') (if p = 0 then live else (p, size) :: live) := by
  rcases h.result with ⟨rfl, ha⟩ | ⟨c, rfl, hcf, hcs, hne, ha⟩
  · exact ho.mono fun p n ⟨b, hb, hbf, hr⟩ => ⟨b, (ha b hbf).2 hb, hbf, hr⟩
  · rw [if_neg (by omega)]
    refine (ho.mono fun p n ⟨b, hb, hbf, hr⟩ => ⟨b, (ha b hbf).2 (.inr hb), hbf, hr⟩).cons
      ⟨c, (ha c hcf).2 (.inl rfl), hcf, rfl, hcs⟩ (ho.notMem ?_)
    rintro n ⟨b, hb, hbf, hp, -⟩
    exact hne b hb hbf (by omega)

lemma Frees.owned {bs' : List HeapBlock} (h : Frees s bs b s' bs') (ho : Owned (Payload bs) live) :
    Owned (Payload bs') (giveUp live (b.addr + 32)) := by
  refine ho.give fun p n hne ⟨d, hd, hdf, hp, hn⟩ =>
    ⟨d, (h.allocated d hdf).2 ⟨?_, hd⟩, hdf, hp, hn⟩
  rintro rfl
  exact hne hp

end Contents

end Kheap

open Kheap

section Calls

variable {t : HeapSys} {s : Kheap} {bs : List HeapBlock} {size ptr : ℕ}

structure HeapInv (t : HeapSys) : Prop where
  blocks : ∃ bs, t.heap.Holds bs ∧ Owned (Payload bs) t.live
  moves : ∀ m ∈ t.moves, m.Kept
  halted : t.halted = none ∨ t.halted = some .initFailed

lemma kmalloc_heapInv (h : HeapInv { t with heap := s }) (hs : size ≤ 2 ^ 31)
    (ho : s.MallocOrdinary size) : HeapInv (t.kmalloc s size) := by
  obtain ⟨⟨bs, h, hl⟩, hm, hh⟩ := h
  obtain ⟨p, s', bs', heq, hmal⟩ := kmalloc_mallocs h hs ho
  have hl' := hmal.owned hl
  unfold HeapSys.kmalloc
  rw [heq]
  cases p with
  | zero => exact ⟨⟨bs', hmal.holds, hl'⟩, hm, hh⟩
  | succ p => exact ⟨⟨bs', hmal.holds, hl'⟩, hm, hh⟩

lemma kfree_held (h : s.Holds bs) (hl : Owned (Payload bs) live)
    (hp : ptr = 0 ∨ ptr ∈ live.map Prod.fst) :
    ∃ s' bs', s.kfree ptr = .ok s' ∧ s'.Holds bs' ∧ Owned (Payload bs') (giveUp live ptr) := by
  rcases hp with rfl | hp
  · exact ⟨s, bs, by simp [Kheap.kfree], h, hl.give fun _ _ _ hp => hp⟩
  · obtain ⟨e, he, rfl⟩ := mem_map.1 hp
    obtain ⟨b, hb, hbf, hbp, -⟩ := hl.block e he
    obtain ⟨s', bs', heq, hf⟩ := kfree_frees h hb hbf
    rw [hbp]
    exact ⟨s', bs', heq, hf.holds, hf.owned hl⟩

lemma kfree_heapInv (h : HeapInv { t with heap := s })
    (hp : ptr = 0 ∨ ptr ∈ t.live.map Prod.fst) : HeapInv (t.kfree s ptr) := by
  obtain ⟨⟨bs, h, hl⟩, hm, hh⟩ := h
  obtain ⟨s', bs', heq, hho, hl'⟩ := kfree_held h hl hp
  simp only [HeapSys.kfree, heq]
  exact ⟨⟨bs', hho, hl'⟩, hm, hh⟩

lemma moved_kept {b : HeapBlock} {p : ℕ} (hl : Owned (Payload bs) t.live)
    (hm : ∀ m ∈ t.moves, m.Kept) (hp : s.Places bs) (hb : b ∈ bs)
    (hke : ∀ k < min b.size size, s'.mem (p + k) = s.mem (b.addr + 32 + k)) :
    ∀ m ∈ t.moved s (b.addr + 32) size p s', m.Kept := by
  unfold HeapSys.moved
  split
  · rename_i e hf
    have he := mem_of_find?_eq_some hf
    have hpt : e.1 = b.addr + 32 := by simpa using find?_some hf
    obtain ⟨d, hd, -, hdp, hds⟩ := hl.block e he
    obtain rfl := hp.addr_inj hd hb (by omega)
    intro m hmem
    rcases mem_cons.1 hmem with rfl | hmem
    · intro k hk
      exact hke k (by simp only at hk; omega)
    · exact hm m hmem
  · exact hm

lemma krealloc_heapInv (hi : HeapInv { t with heap := s }) (hs : size ≤ 2 ^ 31)
    (hp : ptr = 0 ∨ ptr ∈ t.live.map Prod.fst)
    (ho : ptr = 0 ∨ s.kmallocSize ptr < size → s.MallocOrdinary size) :
    HeapInv (t.krealloc s ptr size) := by
  have ⟨⟨bs, h, hl⟩, hm, hh⟩ := hi
  by_cases hz : size = 0
  · obtain ⟨s', bs', heq, hho, hl'⟩ := kfree_held h hl hp
    have he' : s.krealloc ptr 0 = .ok (0, s') := by simp only [krealloc, if_true, heq]
    subst hz
    simp only [HeapSys.krealloc, he', if_true]
    exact ⟨⟨bs', hho, hl'⟩, hm, hh⟩
  rcases hp with rfl | hp
  · -- as `kmalloc`
    have heq : t.krealloc s 0 size = t.kmalloc s size := by
      have hk : s.krealloc 0 size = s.kmalloc size := by simp [krealloc, hz]
      simp only [HeapSys.krealloc, HeapSys.kmalloc, hk, HeapSys.moved, if_neg hz,
        hl.find_unheld not_payload_zero, hl.giveUp_unheld not_payload_zero]
    rw [heq]
    exact kmalloc_heapInv hi hs (ho (.inl rfl))
  · obtain ⟨e, he, rfl⟩ := mem_map.1 hp
    obtain ⟨b, hb, hbf, hbp, -⟩ := hl.block e he
    rw [hbp] at ho ⊢
    rw [kmallocSize_eq h hb hbf] at ho
    rcases Nat.lt_or_ge b.size size with hlt | hle
    · obtain ⟨p, s₁, bs₁, hmal, ⟨rfl, heq⟩ | ⟨hp0, t₁, s', bs', heq, hf, hbytes⟩⟩ :=
        krealloc_moves h hb hbf hs hlt (ho (.inr hlt))
      · have hl' := hmal.owned hl
        simp only [HeapSys.krealloc, heq, if_neg hz]
        exact ⟨⟨bs₁, hmal.holds, hl'⟩, hm, hh⟩
      · have hl' := hf.owned (hmal.owned hl)
        have hne : p ≠ b.addr + 32 := by
          rcases hmal.result with ⟨h0, -⟩ | ⟨c, rfl, -, -, hne, -⟩
          · exact absurd h0 hp0
          · have := hne b hb hbf
            omega
        rw [if_neg hp0, giveUp, filter_cons_of_pos (by simpa using hne)] at hl'
        have hk : t.krealloc s (b.addr + 32) size = { t with
            heap := s', live := (p, size) :: giveUp t.live (b.addr + 32),
            moves := t.moved s (b.addr + 32) size p s' } := by
          unfold HeapSys.krealloc
          rw [heq]
          cases p with
          | zero => exact absurd rfl hp0
          | succ p => rfl
        rw [hk]
        exact ⟨⟨bs', hf.holds, hl'⟩, moved_kept hl hm h.places hb fun k hk => hbytes k (by omega),
          hh⟩
    · simp only [HeapSys.krealloc, krealloc_stays h hb hbf hz hle]
      have hl' : Owned (Payload bs) (giveUp t.live (b.addr + 32)) := hl.give fun _ _ _ hp => hp
      exact ⟨⟨bs, h, hl'.cons ⟨b, hb, hbf, rfl, hle⟩ notMem_giveUp⟩,
        moved_kept hl hm h.places hb fun _ _ => rfl, hh⟩

lemma heapStep_heapInv (t : HeapSys) (e : HeapStep) (h : HeapInv t) (ho : OrdinaryCall t e) :
    HeapInv (heapStep t e) := by
  unfold heapStep
  split_ifs
  · exact h
  · obtain ⟨⟨bs, hho, hl⟩, hm, hh⟩ := h
    have hb : HeapInv { t with heap := t.heap.between e.between t.live } :=
      ⟨⟨bs, between_holds hho hl e.between, hl⟩, hm, hh⟩
    unfold OrdinaryCall at ho
    split
    · rename_i size heq
      rw [heq] at ho
      exact kmalloc_heapInv hb ho.1 ho.2
    · rename_i ptr heq
      rw [heq] at ho
      exact kfree_heapInv hb ho
    · rename_i ptr size heq
      rw [heq] at ho
      exact krealloc_heapInv hb ho.1 ho.2.1 ho.2.2

end Calls

lemma heapBoot_holds (m : Kheap) : (heapBoot m).Holds [] := by
  refine ⟨⟨rfl, rfl, trivial⟩, ⟨List.Pairwise.nil, ?_, ?_, ?_, ?_⟩, ?_, ?_, le_rfl, ?_⟩
  · simp
  · simp
  · simp
  · simp
  · simp only [heapBoot, kheapStart]
    omega
  · simp only [heapBoot, kheapStart]
    omega
  · intro va hle hlt
    exact absurd hlt (by simpa [heapBoot] using hle)

lemma initKheap_boot (m : Kheap) : (heapBoot m).initKheap = match (heapBoot m).heapGrow 1 with
    | (false, _) => .error .initFailed
    | (true, s) => .ok s := rfl

lemma init_heapInv (m : Kheap) (h : (heapBoot m).GrowOrdinary 1) : HeapInv (HeapSys.init m) := by
  obtain ⟨bs, hk, -⟩ := heapGrow_keeps (heapBoot_holds m) (by decide) h
  have hn : ∀ {s : Kheap} {bs}, s.Holds bs → ∃ bs, s.Holds bs ∧ Owned (Payload bs) [] :=
    fun h => ⟨_, h, by simp, by simp⟩
  unfold HeapSys.init
  rw [initKheap_boot]
  rcases hg : (heapBoot m).heapGrow 1 with ⟨_ | _, s⟩
  · exact ⟨hn (heapBoot_holds m), by simp, .inr rfl⟩
  · rw [hg] at hk
    exact ⟨hn hk.holds, by simp, .inl rfl⟩

lemma HeapInv.sound {t : HeapSys} (h : HeapInv t) : HeapSound t := by
  obtain ⟨⟨bs, hho, hl⟩, hm, hh⟩ := h
  refine ⟨⟨bs, hho.lists, hho.places, hl.nodup, fun e he => ?_⟩, hm, hh⟩
  obtain ⟨b, hb, hbr⟩ := hl.block e he
  exact ⟨b, ⟨hb, hbr⟩, fun c hc => hho.places.addr_inj hc.1 hb (by omega)⟩

/-- After every call of a run that maps ordinary pages only the heap is sound. -/
theorem heapRun_sound (m : Kheap) (calls : List HeapStep) (hinit : (heapBoot m).GrowOrdinary 1)
    (hok : StepsMeet heapStep OrdinaryCall (.init m) calls) :
    HeapSound (heapRun (.init m) calls) :=
  (foldl_induction heapStep_heapInv calls (init_heapInv m hinit) hok).sound

def Between.idle : Between := ⟨id, id, id, id⟩

def smallMachine : Kheap :=
  ⟨fun _ => 0, 0, 0, 0, fun k => k * 4096 + 3, fun _ _ => 0,
    ⟨4, fun _ => false, fun _ => 0, 0, 0⟩, 4 * 4096⟩

def smallCalls : List HeapStep :=
  [⟨.idle, .kmalloc 100⟩, ⟨.idle, .kmalloc 40⟩, ⟨.idle, .krealloc 0xD0000020 200⟩,
    ⟨.idle, .kfree 0xD00000B0⟩]

/-- Two blocks are allocated, one is moved and the other one freed. -/
theorem heapRun_sound_small : HeapSound (heapRun (HeapSys.init smallMachine) smallCalls) ∧
    (heapRun (.init smallMachine) smallCalls).live = [(0xD0000100, 200)] := by
  refine ⟨heapRun_sound smallMachine smallCalls (fun _ => ?_) ⟨?_, ?_, ?_, ?_, trivial⟩,
    by decide +kernel⟩
  · exact ⟨⟨by decide +kernel, by decide +kernel⟩, trivial⟩
  · exact ⟨by decide, fun _ h => absurd h (by decide +kernel)⟩
  · exact ⟨by decide, fun _ h => absurd h (by decide +kernel)⟩
  · exact ⟨by decide, .inr (by decide +kernel), fun _ _ h => absurd h (by decide +kernel)⟩
  · exact .inr (by decide +kernel)

/-! The heap has no upper end. Where it meets the framebuffer, the tables that `map_page` writes are
the first page of the framebuffer, which the heap then hands out. -/

section Framebuffer

variable {s c : Kheap} {live : List (ℕ × ℕ)} {t : HeapSys} {n size a : ℕ}

def fbDirectory (k : ℕ) : ℕ := if k = 900 then 0xFD00008B else k * 4096 + 3

/-- The frames when `n` have been taken for the heap. -/
def fbPmm (n : ℕ) : Pmm where
  framesCount := 131072
  bitmap f := decide (f < 4096 + n)
  refcount f := if 4096 ≤ f ∧ f < 4096 + n then 1 else 0
  lowestFreeIdx := if n = 0 then 0 else (4095 + n) / 32
  usedMemory := (4096 + n) * 4096

/-- The tables when the heap has `n` pages. -/
def fbTables (n k j : ℕ) : ℕ :=
  if j < 1024 ∧ 832 ≤ k ∧ (k - 832) * 1024 + j < n then (4096 + ((k - 832) * 1024 + j)) * 4096 + 3
  else 0

/-- The machine around a list of blocks in `n` pages; those from 0xE1000000 on have no table. -/
def fbRest (n : ℕ) : (ℕ → ℕ) × (ℕ → ℕ → ℕ) × Pmm × ℕ × ℕ :=
  (fbDirectory, fbTables (min n 69632), fbPmm n, 2 ^ 29, kheapStart + n * 4096)

lemma rest_eq : s.rest = fbRest n ↔ s.pd = fbDirectory ∧ s.pt = fbTables (min n 69632) ∧
    s.pmm = fbPmm n ∧ s.totalMemory = 2 ^ 29 ∧ s.currentHeapEnd = kheapStart + n * 4096 := by
  simp only [rest, fbRest, Prod.mk.injEq]

lemma fbPmm_alloc (hn : n < 126976) :
    pmmAllocFrame (fbPmm n) = (some (4096 + n), fbPmm (n + 1)) := by
  have hfi : firstIdx (fun f => decide ((fbPmm n).lowestFreeIdx ≤ f / 32) && !(fbPmm n).bitmap f)
      ((fbPmm n).bitmapSizeWords * 32) = some (4096 + n) := by
    rw [firstIdx_eq_some]
    simp only [Pmm.bitmapSizeWords, fbPmm]
    refine ⟨?_, by omega, fun j hj => by simp [hj]⟩
    split_ifs <;> simp
    omega
  have hlt : ¬ (fbPmm n).framesCount ≤ 4096 + n := by
    simp only [fbPmm]
    omega
  simp only [pmmAllocFrame, pmmFindFirstFree, hfi, if_neg hlt]
  simp only [fbPmm, Prod.mk.injEq, true_and, Pmm.mk.injEq]
  refine ⟨funext fun f => ?_, funext fun f => ?_, ?_, ?_⟩
  · by_cases hf : f = 4096 + n
    · simp [hf]
    · simp only [update_of_ne hf, decide_eq_decide]
      omega
  · by_cases hf : f = 4096 + n
    · simp [hf]
    · rw [update_of_ne hf]
      split_ifs <;> omega
  · rw [if_neg (by omega)]
    omega
  · simp only [u32, pageSize]
    omega

lemma fbDirectory_below {k : ℕ} (h : k < 900) :
    present (fbDirectory k) = true ∧ largePage (fbDirectory k) = false := by
  simp only [fbDirectory, if_neg h.ne, present, largePage, decide_eq_true_eq,
    decide_eq_false_iff_not]
  omega

lemma mapPage_below (h : s.rest = fbRest n) (hn : n < 69632) (p : Pmm) :
    { s with pmm := p }.mapPage s.currentHeapEnd (4096 + n) =
      (true, { s with pmm := p, pt := fbTables (min (n + 1) 69632) }) := by
  obtain ⟨hpd, hpt, -, -, he⟩ := rest_eq.1 h
  rw [min_eq_left hn.le] at hpt
  rw [min_eq_left hn]
  unfold kheapStart at he
  have hk : pdIndex s.currentHeapEnd = 832 + n / 1024 := by unfold pdIndex; omega
  have hj : ptIndex s.currentHeapEnd = n % 1024 := by unfold ptIndex; omega
  obtain ⟨hp, hl⟩ := @fbDirectory_below (832 + n / 1024) (by omega)
  have hw : fbTables n (832 + n / 1024) (n % 1024) = 0 := if_neg (by omega)
  simp only [Kheap.mapPage, Kheap.ensureTable, hk, hj, hpd, hp, if_true, tableWord, hl, hpt, hw,
    show 832 + n / 1024 ≠ 1023 by omega, if_false, Bool.false_eq_true, setTableWord]
  rw [if_neg (fun h => absurd h.1 (by decide))]
  congr
  funext k j
  unfold fbTables
  by_cases hka : k = 832 + n / 1024
  · subst hka
    by_cases hja : j = n % 1024
    · subst hja
      rw [update_self, update_self, if_pos (by omega)]
      omega
    · rw [update_self, update_of_ne hja]
      split_ifs <;> omega
  · rw [update_of_ne hka]
    split_ifs <;> omega

/-- `s` with `n` pages. -/
def fbAt (s : Kheap) (n : ℕ) : Kheap :=
  { s with
    currentHeapEnd := kheapStart + n * 4096
    pt := fbTables (min n 69632)
    pmm := fbPmm n }

lemma fbAt_rest {n' : ℕ} (h : s.rest = fbRest n) : (fbAt s n').rest = fbRest n' := by
  obtain ⟨hpd, -, -, htm, -⟩ := rest_eq.1 h
  exact rest_eq.2 ⟨hpd, rfl, rfl, htm, rfl⟩

lemma growPages_below {start : ℕ} : ∀ {k i n : ℕ} {s : Kheap}, s.rest = fbRest n → n + k ≤ 69632 →
    Kheap.growPages start k i s = (true, fbAt s (n + k))
  | 0, i, n, s, h, hn => by
    obtain ⟨-, hpt, hpmm, -, he⟩ := rest_eq.1 h
    rw [Nat.add_zero, fbAt, ← hpt, ← hpmm, ← he]
    rfl
  | k + 1, i, n, s, h, hn => by
    obtain ⟨-, -, hpmm, -, he⟩ := rest_eq.1 h
    have hu : u32 (s.currentHeapEnd + 4096) = kheapStart + (n + 1) * 4096 := by
      rw [he, u32_of_lt] <;> unfold kheapStart <;> omega
    have ih := @growPages_below start k (i + 1) (n + 1) _ (fbAt_rest h) (by omega)
    rw [show n + 1 + k = n + (k + 1) by omega] at ih
    simp only [Kheap.growPages, hpmm, fbPmm_alloc (show n < 126976 by omega),
      mapPage_below h (by omega), hu]
    exact ih

/-- The heap after growing to `n` pages. -/
def fbGrow (s : Kheap) (n total : ℕ) : Kheap := (fbAt s n).appendBlock s.currentHeapEnd total

lemma fbRest_freeMemory {t : ℕ} (h : s.rest = fbRest n) (hn : n * 4096 + t ≤ 126976 * 4096) :
    ¬ s.freeMemory < t := by
  obtain ⟨-, -, hpmm, htm, -⟩ := rest_eq.1 h
  simp only [Kheap.freeMemory, hpmm, htm, fbPmm]
  split <;> omega

lemma heapGrow_below {k t z : ℕ} (h : s.rest = fbRest n) (hk : pagesFor z = k)
    (ht : u32 (k * 0x1000) = t) (hmu : k * 4096 = t) (hn : n + k ≤ 69632) :
    s.heapGrow z = (true, fbGrow s (n + k) t) ∧ (fbGrow s (n + k) t).rest = fbRest (n + k) := by
  refine ⟨?_, appendBlock_rest.trans (fbAt_rest h)⟩
  simp only [Kheap.heapGrow, hk, ht, if_neg (fbRest_freeMemory h (t := t) (by omega)),
    growPages_below h hn, fbGrow]

/-- The entry of page `j` of the framebuffer is among its first pixels. -/
def fbPixel (s : Kheap) (j : ℕ) : Kheap :=
  { s with mem := store32 s.mem (0xE1000000 + 4 * j) ((4096 + (69632 + j)) * 4096 + 3) }

lemma heapGrow_pixel {j z : ℕ} (h : s.rest = fbRest (69632 + j)) (hk : pagesFor z = 1)
    (hj : j < 1024) (hw : present (load32 s.mem (0xE1000000 + 4 * j)) = false) :
    s.heapGrow z = (true, fbGrow (fbPixel s j) (69632 + j + 1) 4096) ∧
      (fbGrow (fbPixel s j) (69632 + j + 1) 4096).rest = fbRest (69632 + j + 1) := by
  refine ⟨?_, appendBlock_rest.trans (@fbAt_rest (fbPixel s j) _ _ h)⟩
  obtain ⟨hpd, hpt, hpmm, -, he⟩ := rest_eq.1 h
  have hki : pdIndex s.currentHeapEnd = 900 := by
    rw [he]
    unfold pdIndex kheapStart
    omega
  have hji : ptIndex s.currentHeapEnd = j := by
    rw [he]
    unfold ptIndex kheapStart
    omega
  have hl : largePage (fbDirectory 900) = true := by decide
  have hpr : present (fbDirectory 900) = true := by decide
  have hu : u32 (s.currentHeapEnd + 4096) = kheapStart + (69632 + j + 1) * 4096 := by
    rw [he, u32_of_lt] <;> unfold kheapStart <;> omega
  have hmin : min (69632 + j + 1) 69632 = min (69632 + j) 69632 := by omega
  simp only [Kheap.heapGrow, hk, Nat.one_mul, show u32 0x1000 = 4096 from rfl,
    if_neg (fbRest_freeMemory h (t := 4096) (by omega)), Kheap.growPages, hpmm,
    fbPmm_alloc (show 69632 + j < 126976 by omega), Kheap.mapPage, hki, hji, Kheap.ensureTable, hpd,
    hpr, if_true, tableWord, hl, show ¬ (900 = 1023) by decide, if_false,
    show 900 * 2 ^ 22 = 0xE1000000 from rfl, hw, Bool.false_eq_true, false_and, setTableWord, hu,
    fbGrow, fbPixel, fbAt, hmin, ← hpt]

lemma kmallocLoop_found {fuel : ℕ} (hf : s.findFit size chainFuel s.heapHead = .ok (some a)) :
    kmallocLoop size (fuel + 1) s = .ok (u32 (a + 32), s.takeBlock size a) := by
  rw [Kheap.kmallocLoop, hf]

/-- A heap with these pages, as a list of calls leaves it. -/
def FbState (c : Kheap) (n : ℕ) (live : List (ℕ × ℕ)) (t : HeapSys) : Prop :=
  t = ⟨c, live, [], none⟩ ∧ c.rest = fbRest n

lemma FbState.kmalloc {n' z : ℕ} (h : FbState c n live t) (h0 : z ≠ 0) (ha : u32 (a + 32) ≠ 0)
    (hg : c.findFit (roundUp z) chainFuel c.heapHead = .ok (some a) ∧ c = s ∧ n = n' ∨
      c.findFit (roundUp z) chainFuel c.heapHead = .ok none ∧
      (c.heapGrow (roundUp z) = (true, s) ∧ s.rest = fbRest n') ∧
      s.findFit (roundUp z) chainFuel s.heapHead = .ok (some a)) :
    FbState (s.takeBlock (roundUp z) a) n' ((u32 (a + 32), z) :: live)
      (heapStep t ⟨.idle, .kmalloc z⟩) := by
  obtain ⟨rfl, hr⟩ := h
  have hbe : c.between .idle live = c := by simp only [Kheap.between, Between.idle, id, ite_self]
  obtain ⟨fuel, hf⟩ : ∃ fuel, chainFuel = fuel + 1 + 1 := ⟨2 ^ 27 - 2, by decide⟩
  have hk : c.kmalloc z = .ok (u32 (a + 32), s.takeBlock (roundUp z) a) ∧
      s.rest = fbRest n' := by
    rw [Kheap.kmalloc, if_neg h0]
    rcases hg with ⟨hfi, rfl, rfl⟩ | ⟨hno, ⟨hgr, hr'⟩, hfi⟩
    · exact ⟨kmallocLoop_found hfi, hr⟩
    · refine ⟨?_, hr'⟩
      conv_lhs => rw [hf]
      rw [Kheap.kmallocLoop, hno]
      simp only [hgr]
      exact kmallocLoop_found hfi
  refine ⟨?_, takeBlock_rest.trans hk.2⟩
  simp [heapStep, hbe, HeapSys.kmalloc, hk.1]

def fbMachine : Kheap :=
  ⟨fun _ => 0, 0, 0, 0, fbDirectory, fun _ _ => 0,
    ⟨131072, fun f => decide (f < 4096), fun _ => 0, 0, 4096 * 4096⟩, 2 ^ 29⟩

lemma fbMachine_init :
    FbState (fbGrow (heapBoot fbMachine) 1 4096) 1 [] (.init fbMachine) := by
  have hr : (heapBoot fbMachine).rest = fbRest 0 := by
    refine rest_eq.2 ⟨rfl, ?_, ?_, rfl, rfl⟩
    · funext k j
      exact (if_neg (by omega)).symm
    · simp [fbMachine, heapBoot, fbPmm]
      funext f
      rw [if_neg (by omega)]
  obtain ⟨hg, hr'⟩ := heapGrow_below hr (z := 1) (k := 1) (t := 4096) (by decide) (by decide) rfl
    (by decide)
  refine ⟨?_, hr'⟩
  unfold HeapSys.init initKheap
  rw [show ({ heapBoot fbMachine with heapHead := 0, heapTail := 0 } : Kheap) =
    heapBoot fbMachine from rfl, hg]

def fbCalls : List HeapStep :=
  [⟨.idle, .kmalloc 285208544⟩, ⟨.idle, .kmalloc 4064⟩, ⟨.idle, .kmalloc 4064⟩,
    ⟨.idle, .kmalloc 4064⟩, ⟨.idle, .kmalloc 4064⟩]

lemma fbRun_live : (heapRun (HeapSys.init fbMachine) fbCalls).live =
    [(0xE1000020, 4064), (0xE1001020, 4064), (0xE1000020, 4064), (0xE0FFF020, 4064),
      (0xD0000020, 285208544)] := by
  have h0 := fbMachine_init
  have h1 := h0.kmalloc (z := 285208544) (a := 0xD0000000) (by decide) (by decide)
    (.inr ⟨by decide +kernel, heapGrow_below h0.2 (k := 69631) (t := 285208576) (by decide)
      (by decide) rfl (by decide), by decide +kernel⟩)
  have h2 := h1.kmalloc (z := 4064) (a := 0xE0FFF000) (by decide) (by decide)
    (.inl ⟨by decide +kernel, rfl, rfl⟩)
  have h3 := h2.kmalloc (z := 4064) (a := 0xE1000000) (by decide) (by decide)
    (.inr ⟨by decide +kernel, heapGrow_pixel (j := 0) h2.2 (by decide) (by decide)
      (by decide +kernel), by decide +kernel⟩)
  have h4 := h3.kmalloc (z := 4064) (a := 0xE1001000) (by decide) (by decide)
    (.inr ⟨by decide +kernel, heapGrow_pixel (j := 1) h3.2 (by decide) (by decide)
      (by decide +kernel), by decide +kernel⟩)
  have h5 := h4.kmalloc (z := 4064) (a := 0xE1000000) (by decide) (by decide)
    (.inr ⟨by decide +kernel, heapGrow_pixel (j := 2) h4.2 (by decide) (by decide)
      (by decide +kernel), by decide +kernel⟩)
  obtain ⟨heq, -⟩ := h5
  simp only [heapRun, fbCalls, foldl_cons, foldl_nil, heq]
  decide

/-- The heap grows into the framebuffer, and the fifth call hands out a block of the third. -/
theorem heapRun_framebuffer_overlaps :
    ¬ HeapSound (heapRun (.init fbMachine) fbCalls) := by
  rintro ⟨⟨bs, -, -, hlive⟩, -, -⟩
  have hnodup := hlive.nodup
  rw [fbRun_live] at hnodup
  exact absurd hnodup (by decide)

end Framebuffer

end EsdumanOS
