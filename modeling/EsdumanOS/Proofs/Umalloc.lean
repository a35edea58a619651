import Mathlib.Data.List.TakeWhile
import EsdumanOS.Umalloc

/-!
# The blocks of the user allocator

The list of blocks fills the break heap (`Tiles`), so an operation replaces a window of the list by
other blocks over the same bytes (`Holds.window`). A split and a merge are such windows; growing
appends a block. Mappings lie above.
-/

namespace EsdumanOS

open Lib Function UBlock UHeap
open List hiding Disjoint

variable {m : UBlock} {x : ℕ}

namespace UHeap

section Fields

variable {s : UHeap} {f : UField} {a b v x : ℕ}

def bound : UField → ℕ
  | .magic | .size | .next => 2 ^ 32
  | .isFree | .fromMmap => 256

def put (f : UField) (v : ℕ) (n : UHeader × ℕ) : UHeader × ℕ :=
  match f with
  | .magic => ({ n.1 with magic := v }, n.2)
  | .size => ({ n.1 with size := v }, n.2)
  | .next => (n.1, v)
  | .isFree => ({ n.1 with isFree := v }, n.2)
  | .fromMmap => ({ n.1 with fromMmap := v }, n.2)

lemma load32_update_apart {m : Buf} {c : UInt8} (h : b < a ∨ a + 4 ≤ b) :
    load32 (update m b c) a = load32 m a :=
  load32_congr fun x _ _ => update_of_ne (by omega) _ _

lemma node_set_self (hv : v < bound f) : (s.set f a v).node a = put f v (s.node a) := by
  have hb : v < 256 → v % 256 = v := Nat.mod_eq_of_lt
  cases f <;> simp only [bound] at hv <;>
    simp (disch := omega) [node, get, set, put, load32_store32, load32_store32_apart,
      store32_apart, load32_update_apart, hb]

lemma mem_set_apart (h : x < a ∨ a + 16 ≤ x) : (s.set f a v).mem x = s.mem x := by
  cases f <;> simp only [set]
  · exact store32_apart (by omega)
  · exact store32_apart (by omega)
  · exact store32_apart (by omega)
  · exact update_of_ne (by omega) _ _
  · exact update_of_ne (by omega) _ _

lemma node_congr {s' : UHeap} (h : ∀ x, a ≤ x → x < a + 16 → s'.mem x = s.mem x) :
    s'.node a = s.node a := by
  have h0 : load32 s'.mem a = load32 s.mem a := load32_congr fun x _ _ => h x (by omega) (by omega)
  have h4 : load32 s'.mem (a + 4) = load32 s.mem (a + 4) :=
    load32_congr fun x _ _ => h x (by omega) (by omega)
  have h8 : load32 s'.mem (a + 8) = load32 s.mem (a + 8) :=
    load32_congr fun x _ _ => h x (by omega) (by omega)
  simp only [node, get, h0, h4, h8, h (a + 12) (by omega) (by omega),
    h (a + 13) (by omega) (by omega)]

lemma node_set_apart (h : a + 16 ≤ b ∨ b + 16 ≤ a) : (s.set f a v).node b = s.node b :=
  node_congr fun _ _ _ => mem_set_apart (by omega)

lemma node_eq {h : UHeader} {n : ℕ} (hn : s.node a = (h, n)) : s.get .magic a = h.magic ∧
    s.get .size a = h.size ∧ s.get .isFree a = h.isFree ∧ s.get .fromMmap a = h.fromMmap ∧
    s.get .next a = n := by
  obtain ⟨rfl, rfl⟩ := hn
  exact ⟨rfl, rfl, rfl, rfl, rfl⟩

section NewBlock

variable {size next isFree fromMmap : ℕ}

lemma newBlock_node_self (hs : size < 2 ^ 32) (hn : next < 2 ^ 32) (hf : isFree < 256)
    (hm : fromMmap < 256) : (s.newBlock a size next isFree fromMmap).node a =
      (⟨umallocMagic, size, isFree, fromMmap⟩, next) := by
  unfold newBlock
  rw [node_set_self hm, node_set_self hf, node_set_self hn, node_set_self hs,
    node_set_self (by simp [bound, umallocMagic])]
  rfl

lemma newBlock_mem (h : x < a ∨ a + 16 ≤ x) :
    (s.newBlock a size next isFree fromMmap).mem x = s.mem x := by
  unfold newBlock
  simp only [mem_set_apart h]

end NewBlock

end Fields

end UHeap

section Tiles

variable {a z : ℕ} {b c : UBlock} {bs l w r : List UBlock}

lemma UBlock.addr_lt_stop (b : UBlock) : b.addr + 16 ≤ b.stop := by
  simp [stop]

lemma tiles_append : ∀ {a : ℕ} {l : List UBlock},
    Tiles a (l ++ r) z ↔ ∃ m, Tiles a l m ∧ Tiles m r z
  | a, [] => by simp [Tiles]
  | a, b :: l => by
    simp only [cons_append, Tiles, tiles_append (l := l), and_assoc, exists_and_left]

lemma Tiles.length_le : ∀ {a : ℕ} {bs : List UBlock}, Tiles a bs z → a + bs.length * 16 ≤ z
  | _, [], h => by simpa using (show _ = _ from h).le
  | a, b :: bs, ⟨hb, h⟩ => by
    have := h.length_le
    have := b.addr_lt_stop
    rw [length_cons]
    omega

lemma Tiles.mem : ∀ {a : ℕ} {bs : List UBlock}, Tiles a bs z → b ∈ bs → a ≤ b.addr ∧ b.stop ≤ z
  | _, [], _, hb => by cases hb
  | a, c :: bs, ⟨hc, h⟩, hb => by
    have hs := c.addr_lt_stop
    rcases mem_cons.1 hb with rfl | hb
    · refine ⟨hc.ge, ?_⟩
      rcases bs with _ | ⟨d, bs⟩
      · exact h.le
      · have hl := Tiles.length_le h
        omega
    · have := h.mem hb
      omega

lemma Tiles.order : ∀ {a : ℕ} {bs : List UBlock}, Tiles a bs z →
    bs.Pairwise fun b c => b.stop ≤ c.addr
  | _, [], _ => .nil
  | _, _ :: _, ⟨_, h⟩ => pairwise_cons.2 ⟨fun _ hc => (h.mem hc).1, h.order⟩

lemma Tiles.unique : ∀ {a : ℕ} {bs : List UBlock} {y : ℕ}, Tiles a bs z → Tiles a bs y → z = y
  | _, [], _, h, h' => Eq.trans (Eq.symm h) h'
  | _, _ :: _, _, h, h' => h.2.unique h'.2

lemma Tiles.window {w' : List UBlock} {lo hi : ℕ} (h : Tiles a (l ++ (w ++ r)) z) (hne : w ≠ [])
    (hw : Tiles lo w hi) (hw' : Tiles lo w' hi) :
    Tiles a (l ++ (w' ++ r)) z ∧ (∀ c ∈ l, c.stop ≤ lo) ∧ (∀ c ∈ r, hi ≤ c.addr) ∧ hi ≤ z := by
  obtain ⟨m, hl, h⟩ := tiles_append.1 h
  obtain ⟨m', hwm, hr⟩ := tiles_append.1 h
  rcases w with _ | ⟨b, w⟩
  · exact absurd rfl hne
  · obtain rfl : m = lo := hwm.1.symm.trans hw.1
    obtain rfl := hwm.unique hw
    exact ⟨tiles_append.2 ⟨m, hl, tiles_append.2 ⟨m', hw', hr⟩⟩, fun c hc => (hl.mem hc).2,
      fun c hc => (hr.mem hc).1, (Nat.le_add_right _ _).trans hr.length_le⟩

end Tiles

section Blocks

variable {s s' : UHeap} {start : ℕ} {b c : UBlock} {bs ms l w w' r : List UBlock}

def UBlock.pages (m : UBlock) : Finset ℕ :=
  Finset.Ico (m.addr / pageSize) (m.addr / pageSize + pagesFor (m.size + 16))

structure UHeap.Mapping (s : UHeap) (m : UBlock) : Prop where
  used : m.free = false
  node : s.node m.addr = (⟨umallocMagic, m.size, 0, 1⟩, 0)
  aligned : pageSize ∣ m.addr
  pages : m.pages ⊆ s.maps

structure UHeap.Holds (s : UHeap) (start : ℕ) (bs ms : List UBlock) : Prop where
  lists : s.Lists bs
  tiles : Tiles start bs s.brk
  none : start = 0 → s.brk = 0
  top : s.brk ≤ userMmapFloor * pageSize
  mappings : ∀ m ∈ ms, s.Mapping m
  disjoint : ms.Pairwise fun m n => Disjoint m.pages n.pages
  region : ∀ p ∈ s.maps, userMmapFloor ≤ p ∧ p < userMmapTop

lemma UBlock.mem_pages (ha : pageSize ∣ m.addr) (hl : m.addr ≤ x)
    (hr : x < m.stop) : x / pageSize ∈ m.pages := by
  obtain ⟨p, hp⟩ := ha
  simp only [stop] at hr
  simp only [pages, pagesFor, Finset.mem_Ico, pageSize] at hp ⊢
  omega

namespace UHeap

lemma Mapping.mem_maps (h : s.Mapping m) (hl : m.addr ≤ x)
    (hr : x < m.stop) : x / pageSize ∈ s.maps :=
  h.pages (mem_pages h.aligned hl hr)

namespace Holds

section

variable (h : s.Holds start bs ms)
include h

lemma floor (hm : m ∈ ms) : userMmapFloor * pageSize ≤ m.addr := by
  have hs := m.addr_lt_stop
  have hlo := h.region _ ((h.mappings m hm).mem_maps (x := m.addr) le_rfl (by omega))
  simp only [pageSize, userMmapFloor] at hlo ⊢
  omega

lemma above (hm : m ∈ ms) : s.brk ≤ m.addr ∧ m.stop ≤ userMmapTop * pageSize := by
  refine ⟨h.top.trans (h.floor hm), ?_⟩
  have hs := m.addr_lt_stop
  have hhi := h.region _
    ((h.mappings m hm).mem_maps (x := m.stop - 1) (by omega) (by omega))
  simp only [pageSize] at hhi ⊢
  omega

section

variable (hb : b ∈ bs ++ ms)
include hb

lemma pos : 0 < b.addr := by
  have hs := b.addr_lt_stop
  rcases mem_append.1 hb with hb | hb
  · have hmem := h.tiles.mem hb
    by_contra h0
    have := h.none (by omega)
    omega
  · have hlo := h.floor hb
    simp only [pageSize, userMmapFloor] at hlo
    omega

lemma lt : b.stop ≤ userMmapTop * pageSize := by
  rcases mem_append.1 hb with hb | hb
  · have hmem := h.tiles.mem hb
    have htop := h.top
    have : userMmapFloor * pageSize ≤ userMmapTop * pageSize := by decide
    omega
  · exact (h.above hb).2

lemma apart (hc : c ∈ bs ++ ms) (hne : b ≠ c) :
    b.stop ≤ c.addr ∨ c.stop ≤ b.addr := by
  rcases mem_append.1 hb with hb | hb <;> rcases mem_append.1 hc with hc | hc
  · exact pairwise_or h.tiles.order hb hc hne
  · exact .inl ((h.tiles.mem hb).2.trans (h.above hc).1)
  · exact .inr ((h.tiles.mem hc).2.trans (h.above hb).1)
  · have hdi : Disjoint b.pages c.pages :=
      (pairwise_or h.disjoint hb hc hne).elim id fun hd => hd.symm
    by_contra hover
    have hbs := b.addr_lt_stop
    have hcs := c.addr_lt_stop
    -- the larger of the two starts is a byte of both
    exact Finset.disjoint_left.1 hdi
      (mem_pages (x := max b.addr c.addr) (h.mappings b hb).aligned (by omega) (by omega))
      (mem_pages (x := max b.addr c.addr) (h.mappings c hc).aligned (by omega) (by omega))

lemma addr_inj (hc : c ∈ bs ++ ms) (heq : b.addr = c.addr) : b = c := by
  by_contra hne
  have := h.apart hb hc hne
  have := b.addr_lt_stop
  have := c.addr_lt_stop
  omega

end

end

end Holds

lemma lists_cut : s.Lists (l ++ b :: r) ↔ s.head = front addr l b.addr ∧
    Strung addr header s.node l b.addr ∧
    s.node b.addr = (b.header, front addr r 0) ∧
    Strung addr header s.node r 0 := by
  constructor
  · rintro ⟨hh, hli⟩
    obtain ⟨hl, hb, hr⟩ := strung_append.1 hli
    exact ⟨by rw [hh, front_append]; rfl, hl, hb, hr⟩
  · rintro ⟨hh, hl, hb, hr⟩
    exact ⟨by rw [hh, front_append]; rfl, strung_append.2 ⟨hl, hb, hr⟩⟩

lemma Lists.next (h : s.Lists (l ++ b :: r)) :
    s.get .next b.addr = front addr r 0 :=
  (node_eq (lists_cut.1 h).2.2.1).2.2.2.2

lemma Lists.header (h : s.Lists bs) (hb : b ∈ bs) : s.get .magic b.addr = umallocMagic ∧
    s.get .size b.addr = b.size ∧ s.get .isFree b.addr = (if b.free then 1 else 0) ∧
    s.get .fromMmap b.addr = 0 := by
  have hn := h.links.at_mem hb
  simp only [node, UBlock.header, UHeader.mk.injEq] at hn
  exact hn

lemma Holds.of_headers (h : s.Holds start bs ms)
    (hmem : ∀ b ∈ bs ++ ms, ∀ x, b.addr ≤ x → x < b.addr + 16 → s'.mem x = s.mem x)
    (hh : s'.head = s.head) (hbrk : s'.brk = s.brk) (hma : ∀ m ∈ ms, m.pages ⊆ s'.maps)
    (hre : ∀ p ∈ s'.maps, userMmapFloor ≤ p ∧ p < userMmapTop) : s'.Holds start bs ms := by
  have hn : ∀ b ∈ bs ++ ms, s'.node b.addr = s.node b.addr := fun b hb =>
    node_congr fun x hl hr => hmem b hb x hl hr
  refine ⟨⟨hh.trans h.lists.head, ?_⟩, by rw [hbrk]; exact h.tiles, by rw [hbrk]; exact h.none,
    by rw [hbrk]; exact h.top, fun m hm => ?_, h.disjoint, hre⟩
  · exact h.lists.links.congr fun b hb => hn b (mem_append_left ms hb)
  · have hmp := h.mappings m hm
    refine ⟨hmp.used, ?_, hmp.aligned, hma m hm⟩
    rw [hn m (mem_append_right bs hm), hmp.node]

lemma Holds.cons (h : s.Holds start bs ms) (hm : s.Mapping m)
    (hd : ∀ n ∈ ms, Disjoint m.pages n.pages) : s.Holds start bs (m :: ms) :=
  ⟨h.lists, h.tiles, h.none, h.top,
    fun n hn => (mem_cons.1 hn).elim (fun heq => heq ▸ hm) (h.mappings n),
    pairwise_cons.2 ⟨hd, h.disjoint⟩, h.region⟩

lemma Holds.window (lo hi : ℕ) (w w' : List UBlock) (h : s.Holds start (l ++ (w ++ r)) ms)
    (hne : w ≠ []) (hn' : w' ≠ []) (hw : Tiles lo w hi) (hw' : Tiles lo w' hi)
    (hmem : ∀ x, x < lo ∨ hi ≤ x → s'.mem x = s.mem x) (hh : s'.head = s.head)
    (hbrk : s'.brk = s.brk) (hma : s'.maps = s.maps)
    (hli : Strung addr header s'.node w' (front addr r 0)) :
    s'.Holds start (l ++ (w' ++ r)) ms := by
  obtain ⟨ht, hl, hr, hhi⟩ := h.tiles.window hne hw hw'
  have hn : ∀ c ∈ l ++ r, s'.node c.addr = s.node c.addr := by
    intro c hc
    have hs := c.addr_lt_stop
    rcases mem_append.1 hc with hc | hc
    · have := hl c hc
      exact node_congr fun x _ _ => hmem x (by omega)
    · have := hr c hc
      exact node_congr fun x _ _ => hmem x (by omega)
  have hf : ∀ n, front addr w' n = front addr w n := by
    rcases w with _ | ⟨b, w⟩
    · exact absurd rfl hne
    · rcases w' with _ | ⟨c, w'⟩
      · exact absurd rfl hn'
      · exact fun n => hw'.1.trans hw.1.symm
  obtain ⟨hsl, hsr⟩ := strung_append.1 h.lists.links
  obtain ⟨-, hsr⟩ := strung_append.1 hsr
  refine ⟨⟨?_, strung_append.2 ⟨?_, strung_append.2 ⟨hli, ?_⟩⟩⟩, by rw [hbrk]; exact ht,
    by rw [hbrk]; exact h.none, by rw [hbrk]; exact h.top, fun m hm => ?_, h.disjoint,
    by rw [hma]; exact h.region⟩
  · rw [hh, h.lists.head]
    simp only [front_append, hf]
  · have hsame : front addr (w' ++ r) 0 = front addr (w ++ r) 0 := by
      simp only [front_append, hf]
    rw [hsame]
    exact hsl.congr fun c hc => hn c (mem_append_left _ hc)
  · exact hsr.congr fun c hc => hn c (mem_append_right _ hc)
  · have hmp := h.mappings m hm
    have ha := (h.above hm).1
    refine ⟨hmp.used, ?_, hmp.aligned, by rw [hma]; exact hmp.pages⟩
    rw [node_congr fun x hx _ => hmem x (.inr (by omega)), hmp.node]

end UHeap

end Blocks

section Windows

variable {s s' : UHeap} {start : ℕ} {b c : UBlock} {bs ms l r : List UBlock}

namespace UHeap

lemma Holds.brk_le (h : s.Holds start bs ms) : s.brk ≤ 0xA0000000 := h.top

lemma Holds.bound (h : s.Holds start bs ms) (hb : b ∈ bs) :
    0 < b.addr ∧ b.addr + 16 + b.size ≤ 0xA0000000 :=
  ⟨h.pos (mem_append_left ms hb), (h.tiles.mem hb).2.trans h.brk_le⟩

lemma Holds.front_lt (h : s.Holds start (l ++ r) ms) : front addr r 0 < 2 ^ 32 := by
  rcases r with _ | ⟨c, r⟩
  · simp [front]
  · have := h.bound (b := c) (by simp)
    simp only [front]
    omega

lemma mark_holds (h : s.Holds start (l ++ b :: r) ms) (v : Bool) :
    (s.set .isFree b.addr (if v then 1 else 0)).Holds start (l ++ { b with free := v } :: r)
      ms := by
  have hv : (if v then 1 else 0) < 256 := by cases v <;> simp
  refine .window b.addr b.stop [b] [{ b with free := v }] h (by simp) (by simp)
    ⟨rfl, rfl⟩ ⟨rfl, rfl⟩ (fun x hx => ?_) rfl rfl rfl ⟨?_, trivial⟩
  · have := b.addr_lt_stop
    exact mem_set_apart (by omega)
  · rw [node_set_self hv, (lists_cut.1 h.lists).2.2.1]
    rfl

lemma cut_holds {need : ℕ} (h : s.Holds start (l ++ b :: r) ms) (hne : need + 32 ≤ b.size) :
    (s.umallocSplit b.addr need).Holds start (l ++ { b with size := need } ::
      ⟨b.addr + 16 + need, b.size - need - 16, true⟩ :: r) ms := by
  have hb := h.bound (b := b) (by simp)
  obtain ⟨-, hs, -, -⟩ := h.lists.header (b := b) (by simp)
  have hn := h.lists.next
  have hf := Holds.front_lt (l := l ++ [b]) (by simpa using h)
  have hr : u32 (b.addr + 16 + need) = b.addr + 16 + need := u32_of_lt (by omega)
  have hl : u32 (b.size + 2 ^ 32 + 2 ^ 32 - need - 16) = b.size - need - 16 := by
    unfold u32
    omega
  have hg : ¬ b.size < u32 (u32 (need + 16) + 16) := by
    unfold u32
    omega
  simp only [umallocSplit, hs, hn, hg, if_false, hr, hl]
  refine .window b.addr b.stop [b] [{ b with size := need },
    ⟨b.addr + 16 + need, b.size - need - 16, true⟩] h (by simp) (by simp) ⟨rfl, rfl⟩
    ⟨rfl, rfl, ?_⟩ (fun x hx => ?_) rfl rfl rfl ⟨?_, ?_, trivial⟩
  · simp only [Tiles, stop]
    omega
  · simp only [stop] at hx
    rw [mem_set_apart (by omega), mem_set_apart (by omega), newBlock_mem (by omega)]
  · rw [node_set_self (by simp only [bound]; omega),
      node_set_self (by simp only [bound]; omega),
      node_congr (s := s) fun x _ _ => newBlock_mem (by omega), (lists_cut.1 h.lists).2.2.1]
    rfl
  · show node _ (b.addr + 16 + need) = _
    rw [node_set_apart (by omega), node_set_apart (by omega),
      newBlock_node_self (by omega) hf (by omega) (by omega)]
    rfl

lemma absorb_holds (h : s.Holds start (l ++ b :: c :: r) ms) :
    (s.absorb b.addr c.addr).Holds start
      (l ++ { b with size := b.size + 16 + c.size } :: r) ms := by
  have hc := h.bound (b := c) (by simp)
  obtain ⟨-, hb, -, -⟩ := h.lists.header (b := b) (by simp)
  obtain ⟨-, hcs, -, -⟩ := h.lists.header (b := c) (by simp)
  have hn := Lists.next (l := l ++ [b]) (b := c) (by simpa using h.lists)
  have hf := Holds.front_lt (l := l ++ [b, c]) (by simpa using h)
  have ha : c.addr = b.addr + 16 + b.size := by
    obtain ⟨m, -, ht⟩ := tiles_append.1 h.tiles
    exact ht.2.1
  have hsum : u32 (b.size + (16 + c.size)) = b.size + 16 + c.size := by
    unfold u32
    omega
  have hk : (s.set .size b.addr (b.size + 16 + c.size)).get .next c.addr =
      front addr r 0 := by
    have hno : (s.set .size b.addr (b.size + 16 + c.size)).node c.addr = s.node c.addr :=
      node_set_apart (by omega)
    rw [← hn]
    exact congrArg Prod.snd hno
  simp only [absorb, hb, hcs, hsum, hk]
  refine .window b.addr c.stop [b, c] [{ b with size := b.size + 16 + c.size }] h (by simp)
    (by simp) ⟨rfl, ha, rfl⟩ ⟨rfl, ?_⟩ (fun x hx => ?_) rfl rfl rfl ⟨?_, trivial⟩
  · simp only [Tiles, stop]
    omega
  · simp only [stop] at hx
    rw [mem_set_apart (by omega), mem_set_apart (by omega)]
  · rw [node_set_self (by simp only [bound]; omega),
      node_set_self (by simp only [bound]; omega), (lists_cut.1 h.lists).2.2.1]
    rfl

end UHeap

end Windows

section Walks

variable {s : UHeap} {start a need : ℕ} {b p : UBlock} {bs ms l r : List UBlock}

namespace UHeap

lemma Strung.front_node (h : Strung addr header s.node (b :: r) 0) :
    s.get .size b.addr = b.size ∧ s.get .isFree b.addr = (if b.free then 1 else 0) ∧
      s.get .next b.addr = front addr r 0 := by
  obtain ⟨-, hs, hf, -, hn⟩ := node_eq h.1
  exact ⟨hs, hf, hn⟩

def fits (need : ℕ) (b : UBlock) : Bool := b.free && decide (need ≤ b.size)

lemma findFree_eq (need : ℕ) : ∀ {r : List UBlock} {k t : ℕ},
    Strung addr header s.node r 0 → (∀ c ∈ r, c.addr ≠ 0) → r.length < k →
    s.findFree need k (front addr r 0) t =
      some (match r.find? (fits need) with
        | some b => .inl b.addr
        | none => .inr (back addr t r))
  | [], k + 1, t, _, _, _ => by simp [findFree, front, back]
  | b :: r, k + 1, t, h, hp, hf => by
    obtain ⟨hs, hfr, hn⟩ := Strung.front_node h
    have hb : b.addr ≠ 0 := hp b (by simp)
    have ih := findFree_eq need (k := k) (t := b.addr) h.2
      (fun c hc => hp c (mem_cons_of_mem _ hc)) (by simpa using hf)
    simp only [findFree, front_cons, hb, if_false, hs, hfr, hn]
    by_cases hfi : fits need b = true
    · have hco : (if b.free then 1 else 0) ≠ 0 ∧ need ≤ b.size := by
        simpa [fits] using hfi
      rw [if_pos hco, find?_cons_of_pos hfi]
    · have hco : ¬ ((if b.free then 1 else 0) ≠ 0 ∧ need ≤ b.size) := by
        simpa [fits] using hfi
      rw [if_neg hco, find?_cons_of_neg hfi, ih]
      rfl

lemma findPrev_none (ha : a ≠ 0) : ∀ {r : List UBlock} {k : ℕ},
    Strung addr header s.node r 0 → (∀ c ∈ r, c.addr ≠ 0) →
    (∀ c ∈ r.tail, c.addr ≠ a) → r.length < k →
    s.findPrev a k (front addr r 0) = some 0
  | [], k + 1, _, _, _, _ => by simp [findPrev, front]
  | b :: r, k + 1, h, hp, hne, hfu => by
    obtain ⟨-, -, hn⟩ := Strung.front_node h
    have hb : b.addr ≠ 0 := hp b (by simp)
    have hf : front addr r 0 ≠ a := by
      rcases r with _ | ⟨c, r⟩
      · exact ha.symm
      · exact hne c (by simp)
    have ih := findPrev_none ha (k := k) h.2
      (fun c hc => hp c (mem_cons_of_mem _ hc))
      (fun c hc => hne c (mem_of_mem_tail hc)) (by simpa using hfu)
    simp only [findPrev, front_cons, hn]
    rw [if_neg (by simp [hb, hf]), ih]

lemma findPrev_some : ∀ {l : List UBlock} {k : ℕ},
    Strung addr header s.node (l ++ p :: b :: r) 0 →
    (∀ c ∈ l ++ [p], c.addr ≠ 0 ∧ c.addr ≠ b.addr) → l.length < k →
    s.findPrev b.addr k (front addr (l ++ p :: b :: r) 0) = some p.addr
  | [], k + 1, h, _, _ => by
    obtain ⟨-, -, hn⟩ := Strung.front_node h
    simp only [findPrev, nil_append, front_cons, hn, or_true, if_true]
  | c :: l, k + 1, h, hne, hfu => by
    rw [cons_append] at h ⊢
    obtain ⟨-, -, hn⟩ := Strung.front_node h
    have hc := hne c (by simp)
    have hf : front addr (l ++ p :: b :: r) 0 ≠ b.addr := by
      rcases l with _ | ⟨d, l⟩
      · exact (hne p (by simp)).2
      · exact (hne d (by simp)).2
    have ih := findPrev_some (k := k) h.2
      (fun d hd => hne d (mem_cons_of_mem _ hd)) (by simpa using hfu)
    simp only [findPrev, front_cons, hn]
    rw [if_neg (not_or.2 ⟨hc.1, hf⟩), ih]

lemma Holds.adjacent (h : s.Holds start (l ++ b :: p :: r) ms) :
    s.umallocAdjacent b.addr p.addr = true := by
  have hb := h.bound (b := b) (by simp)
  obtain ⟨-, hs, -, -⟩ := h.lists.header (b := b) (by simp)
  obtain ⟨m, -, ht⟩ := tiles_append.1 h.tiles
  have hp : p.addr = b.addr + 16 + b.size := ht.2.1
  simp only [umallocAdjacent, hs, hp, decide_eq_true_eq]
  exact Nat.mod_eq_of_lt (by omega)

lemma absorb_mem (c : ℕ) (h : x < a ∨ a + 16 ≤ x) : (s.absorb a c).mem x = s.mem x := by
  simp only [absorb, mem_set_apart h]

lemma mergeForward_holds : ∀ {r : List UBlock} {k : ℕ} {s : UHeap} {b : UBlock},
    s.Holds start (l ++ b :: r) ms → r.length < k →
    ∃ s' n, mergeForward b.addr k s = some s' ∧
      s'.Holds start (l ++ { b with size := n } :: r.dropWhile free) ms ∧
      ∀ x, x < b.addr ∨ b.addr + 16 ≤ x → s'.mem x = s.mem x
  | [], k + 1, s, b, h, _ => by
    have hn : s.get .next b.addr = 0 := h.lists.next
    refine ⟨s, b.size, ?_, h, fun _ _ => rfl⟩
    simp [mergeForward, hn]
  | c :: r, k + 1, s, b, h, hfu => by
    have hn : s.get .next b.addr = c.addr := h.lists.next
    have hc := h.bound (b := c) (by simp)
    obtain ⟨-, -, hf, -⟩ := h.lists.header (b := c) (by simp)
    have ha := h.adjacent
    rcases hcf : c.free with _ | _
    · refine ⟨s, b.size, ?_, ?_, fun _ _ => rfl⟩
      · simp [mergeForward, hn, hf, hcf]
      · rw [dropWhile_cons_of_neg (by simp [hcf])]
        exact h
    · obtain ⟨s', n, hm, hh, hmem⟩ := mergeForward_holds (k := k) (absorb_holds h)
        (by simpa using hfu)
      refine ⟨s', n, ?_, ?_, fun x hx => (hmem x hx).trans (absorb_mem _ hx)⟩
      · simp only [mergeForward, hn, hf, hcf, ha]
        rw [if_pos ⟨by omega, by simp, trivial⟩]
        exact hm
      · rw [dropWhile_cons_of_pos hcf]
        exact hh

end UHeap

end Walks

section Growth

variable {s s' : UHeap} {k : KernelReply} {start need : ℕ} {b t : UBlock} {bs ms l : List UBlock}

namespace UHeap

structure Grown (s s' : UHeap) : Prop where
  mem : ∀ x, x < s.brk ∨ userMmapFloor * pageSize ≤ x → s'.mem x = s.mem x
  head : s'.head = s.head
  maps : s'.maps = s.maps
  brk : s.brk + 16 ≤ s'.brk
  top : s'.brk ≤ userMmapFloor * pageSize

lemma sysBrk_grown (k : KernelReply) {addr : ℕ} (ha : s.brk + 16 ≤ addr) :
    s.sysBrk k addr = (s.brk, s) ∨
    Grown s (s.sysBrk k addr).2 ∧ addr ≤ (s.sysBrk k addr).1 ∧
      (s.sysBrk k addr).1 = (s.sysBrk k addr).2.brk := by
  unfold sysBrk
  by_cases hg : k.brkOk = true ∧ s.brk ≤ addr ∧ addr ≤ pageEnd addr ∧
      pageEnd addr ≤ userMmapFloor * pageSize
  · rw [if_pos hg]
    obtain ⟨-, -, hl, htop⟩ := hg
    refine .inr ⟨⟨fun x hx => ?_, rfl, rfl, ha.trans hl, htop⟩, hl, rfl⟩
    exact if_neg (by omega)
  · exact .inl (if_neg hg)

/-- The break went up from `s` to `s'`, and the new bytes are a block behind the last one. -/
def appendBlock (s s' : UHeap) (tail : ℕ) : UHeap :=
  let t := s'.newBlock s.brk (s'.brk - s.brk - 16) 0 0 0
  if tail ≠ 0 then t.set .next tail s.brk else { t with head := s.brk }

lemma appendBlock_mem {tail x : ℕ} (hx : x < s.brk ∨ s.brk + 16 ≤ x)
    (ht : tail = 0 ∨ x < tail ∨ tail + 16 ≤ x) : (s.appendBlock s' tail).mem x = s'.mem x := by
  unfold appendBlock
  rcases Nat.eq_zero_or_pos tail with rfl | hp
  · simpa using newBlock_mem hx
  · rw [if_pos (by omega), mem_set_apart (by omega), newBlock_mem hx]

lemma appendBlock_kept (s s' : UHeap) (tail : ℕ) :
    (s.appendBlock s' tail).brk = s'.brk ∧ (s.appendBlock s' tail).maps = s'.maps := by
  unfold appendBlock
  split <;> exact ⟨rfl, rfl⟩

lemma back_apart (hx : ∀ c ∈ bs, x < c.addr ∨ c.addr + 16 ≤ x) :
    back addr 0 bs = 0 ∨ x < back addr 0 bs ∨ back addr 0 bs + 16 ≤ x := by
  rcases eq_or_ne bs [] with rfl | hne
  · exact .inl rfl
  · obtain ⟨c, hc, hb⟩ := back_mem (p := 0) hne
    rw [hb]
    exact .inr (hx c hc)

lemma appendBlock_lists (h : s.Holds start bs ms) (hp : 0 < s.brk) (hg : Grown s s') :
    (s.appendBlock s' (back addr 0 bs)).Lists
      (bs ++ [⟨s.brk, s'.brk - s.brk - 16, false⟩]) := by
  have hbrk := hg.brk
  have htop : s'.brk ≤ 0xA0000000 := hg.top
  have ho : ∀ c ∈ bs, (s'.newBlock s.brk (s'.brk - s.brk - 16) 0 0 0).node c.addr =
      s.node c.addr := by
    intro c hc
    have hmem := h.tiles.mem hc
    have hs := c.addr_lt_stop
    refine node_congr fun x _ _ => ?_
    rw [newBlock_mem (by omega), hg.mem x (by omega)]
  have hne : (s'.newBlock s.brk (s'.brk - s.brk - 16) 0 0 0).node s.brk =
      (⟨umallocMagic, s'.brk - s.brk - 16, 0, 0⟩, 0) :=
    newBlock_node_self (by omega) (by omega) (by omega) (by omega)
  unfold appendBlock
  rcases eq_nil_or_concat bs with rfl | ⟨l, t, rfl⟩
  · exact ⟨rfl, hne, trivial⟩
  · rw [concat_eq_append] at h ho ⊢
    have ht := h.bound (b := t) (by simp)
    have htm := h.tiles.mem (b := t) (by simp)
    have hts := t.addr_lt_stop
    have hla : back addr 0 (l ++ [t]) = t.addr := by simp [back]
    have hl : ∀ c ∈ l, c.addr + 16 ≤ t.addr := by
      intro c hc
      have := (pairwise_append.1 h.tiles.order).2.2 c hc t (by simp)
      have := c.addr_lt_stop
      omega
    rw [hla, if_pos (by omega)]
    obtain ⟨hh, hli, hn, -⟩ := lists_cut.1 h.lists
    rw [append_assoc]
    refine lists_cut.2 ⟨?_, ?_, ?_, ?_, trivial⟩
    · simpa [newBlock, hg.head] using hh
    · refine hli.congr fun c hc => ?_
      rw [node_set_apart (.inr (hl c hc)), ho c (by simp [hc])]
    · rw [node_set_self (by simp only [bound]; omega), ho t (by simp), hn]
      rfl
    · show node _ s.brk = _
      rw [node_set_apart (by omega), hne]
      rfl

lemma appendBlock_holds (h : s.Holds start bs ms) (hp : 0 < s.brk) (hg : Grown s s') :
    (s.appendBlock s' (back addr 0 bs)).Holds start
      (bs ++ [⟨s.brk, s'.brk - s.brk - 16, false⟩]) ms := by
  have hbrk := hg.brk
  have htop := hg.top
  obtain ⟨hsame, hma⟩ := appendBlock_kept s s' (back addr 0 bs)
  refine ⟨appendBlock_lists h hp hg, ?_, fun h0 => ?_, ?_, fun m hm => ?_, h.disjoint, ?_⟩
  · refine tiles_append.2 ⟨s.brk, h.tiles, rfl, ?_⟩
    simp only [Tiles, stop]
    omega
  · have := h.none h0
    omega
  · rw [hsame]
    exact hg.top
  · have hmp := h.mappings m hm
    have hf : userMmapFloor * pageSize ≤ m.addr := h.floor hm
    refine ⟨hmp.used, ?_, hmp.aligned, by rw [hma, hg.maps]; exact hmp.pages⟩
    rw [node_congr (s := s) fun x hx _ => ?_, hmp.node]
    rw [appendBlock_mem (by omega) (back_apart fun c hc => ?_), hg.mem x (by omega)]
    have := h.tiles.mem hc
    have := c.addr_lt_stop
    omega
  · rw [hma, hg.maps]
    exact h.region

lemma appendBlock_payload (h : s.Holds start bs ms) (hg : Grown s s') (hb : b ∈ bs ++ ms)
    (hl : b.addr + 16 ≤ x) (hr : x < b.stop) :
    (s.appendBlock s' (back addr 0 bs)).mem x = s.mem x := by
  have hbrk := hg.brk
  have htop := hg.top
  have hs : x < s.brk ∨ userMmapFloor * pageSize ≤ x := by
    rcases mem_append.1 hb with hb | hb
    · have := h.tiles.mem hb
      omega
    · have := h.floor hb
      omega
  rw [appendBlock_mem (by omega) (back_apart fun c hc => ?_), hg.mem x hs]
  by_cases hcb : c = b
  · subst hcb
    exact .inr hl
  · have := c.addr_lt_stop
    have := h.apart (mem_append_left ms hc) hb hcb
    omega

end UHeap

end Growth

section Malloc

variable {s s' : UHeap} {k : KernelReply} {start need size : ℕ} {b c : UBlock}
  {bs ms bs' ms' l r : List UBlock}

def UHeap.SamePayload (s s' : UHeap) (c : UBlock) : Prop :=
  ∀ x, c.addr + 16 ≤ x → x < c.stop → s'.mem x = s.mem x

structure UHeap.Takes (s : UHeap) (bs ms : List UBlock) (need : ℕ) (s' : UHeap) (start : ℕ)
    (bs' ms' : List UBlock) (b : UBlock) : Prop where
  holds : s'.Holds start bs' ms'
  solo : NoFreePair bs'
  mem : b ∈ bs' ++ ms'
  used : b.free = false
  room : need ≤ b.size
  fresh : ∀ c ∈ bs ++ ms, c.free = false → c ≠ b
  kept : ∀ c ∈ bs ++ ms, c.free = false → c ∈ bs' ++ ms' ∧ s.SamePayload s' c

lemma noFreePair_cut : NoFreePair (l ++ b :: r) ↔ NoFreePair l ∧ NoFreePair r ∧
    (∀ c ∈ l.getLast?, ¬ (c.free = true ∧ b.free = true)) ∧
    ∀ c ∈ r.head?, ¬ (b.free = true ∧ c.free = true) := by
  unfold NoFreePair
  rw [isChain_append, isChain_cons]
  simp only [head?_cons, Option.mem_def, Option.some.injEq]
  constructor
  · rintro ⟨hl, ⟨hr, hre⟩, hlb⟩
    exact ⟨hl, hre, fun c hc => hlb c hc b rfl, hr⟩
  · rintro ⟨hl, hre, hlb, hr⟩
    refine ⟨hl, ⟨hr, hre⟩, fun c hc d hd => ?_⟩
    rw [← hd]
    exact hlb c hc

namespace UHeap

lemma split_cases (need : ℕ) (h : s.Holds start (l ++ b :: r) ms) (hn : need ≤ b.size) :
    ∃ n rest, (s.umallocSplit b.addr need).Holds start
        (l ++ { b with size := n } :: (rest ++ r)) ms ∧ need ≤ n ∧
      (rest = [] ∨ ∃ d : UBlock, rest = [d] ∧ d.free = true) ∧
      ∀ x, x < b.addr ∨ b.stop ≤ x → (s.umallocSplit b.addr need).mem x = s.mem x := by
  have hb := h.bound (b := b) (by simp)
  by_cases hc : need + 32 ≤ b.size
  · refine ⟨need, [_], cut_holds h hc, le_rfl, .inr ⟨_, rfl, rfl⟩, fun x hx => ?_⟩
    have hr : u32 (b.addr + 16 + need) = b.addr + 16 + need := u32_of_lt (by omega)
    simp only [stop] at hx
    simp only [umallocSplit, hr]
    split
    · rfl
    · rw [mem_set_apart (by omega), mem_set_apart (by omega), newBlock_mem (by omega)]
  · obtain ⟨-, hs, -, -⟩ := h.lists.header (b := b) (by simp)
    have hsame : s.umallocSplit b.addr need = s := by
      unfold umallocSplit
      rw [if_pos]
      unfold u32
      omega
    rw [hsame]
    exact ⟨b.size, [], h, hn, .inl rfl, fun _ _ => rfl⟩

lemma ne_of_free (hb : b.free = true) (hc : c.free = false) : c ≠ b := by
  rintro rfl
  rw [hb] at hc
  cases hc

lemma fits_iff : fits need b = true ↔ b.free = true ∧ need ≤ b.size := by
  simp [fits]

lemma takeFree_takes (h : s.Holds start (l ++ b :: r) ms) (hs : NoFreePair (l ++ b :: r))
    (hfi : fits need b = true) : ∃ bs' c, c.addr = b.addr ∧
      s.Takes (l ++ b :: r) ms need ((s.umallocSplit b.addr need).set .isFree b.addr 0) start bs' ms
        c := by
  obtain ⟨hf, hnd⟩ := fits_iff.1 hfi
  obtain ⟨n, rest, hh, hn, hre, hmem⟩ := split_cases need h hnd
  have hm := mark_holds hh false
  obtain ⟨hl, hr, -, hb⟩ := noFreePair_cut.1 hs
  refine ⟨_, { b with size := n, free := false }, rfl, hm, ?_, by simp, rfl, hn,
    fun c hc hcf => ?_, fun c hc hcf => ⟨?_, ?_⟩⟩
  · refine noFreePair_cut.2 ⟨hl, ?_, by simp, by simp⟩
    rcases hre with rfl | ⟨d, rfl, hd⟩
    · exact hr
    · -- the block was free, so the one behind it is not
      refine isChain_cons.2 ⟨fun c hc hdc => hb c hc ⟨hf, hdc.2⟩, hr⟩
  · rintro rfl
    have heq : b = { b with size := n, free := false } := h.addr_inj (by simp) hc rfl
    rw [heq] at hf
    cases hf
  · simp only [mem_append, mem_cons, ne_of_free hf hcf, false_or] at hc ⊢
    tauto
  · intro x hx hxs
    have ha := h.apart (by simp) hc (ne_of_free hf hcf).symm
    have hst := b.addr_lt_stop
    rw [mem_set_apart (by omega), hmem x (by omega)]

lemma grow_takes (h : s.Holds start bs ms) (hs : NoFreePair bs) (hne : need + 16 < 0x10000)
    (hp : 0 < need) : s.umallocGrow k need (back addr 0 bs) = (0, s) ∨
    ∃ bs' c, c.addr = s.brk ∧ (s.umallocGrow k need (back addr 0 bs)).1 = s.brk ∧
      s.Takes bs ms need
        ((s.umallocGrow k need (back addr 0 bs)).2.umallocSplit s.brk need) start bs' ms
        c := by
  have htop := h.brk_le
  have ht : u32 (need + 16) = need + 16 := u32_of_lt (by omega)
  have ha : u32 (s.brk + (need + 16)) = s.brk + (need + 16) := u32_of_lt (by omega)
  rcases Nat.eq_zero_or_pos s.brk with h0 | hbrk
  · left
    simp only [umallocGrow, h0, if_true]
  · have had : s.brk + 16 ≤ s.brk + (need + 16) := by omega
    rcases sysBrk_grown k had with hno | ⟨hg, hl, hre⟩
    · left
      simp only [umallocGrow, ht, ha, hno]
      rw [if_neg (by omega), if_pos (by omega)]
    · right
      generalize hs1 : (s.sysBrk k (s.brk + (need + 16))).2 = s1 at hg hre
      have hgt : s1.brk ≤ 0xA0000000 := hg.top
      have hsi : u32 (s1.brk + 2 ^ 32 + 2 ^ 32 - s.brk - 16) = s1.brk - s.brk - 16 := by
        unfold u32
        omega
      have hgr : s.umallocGrow k need (back addr 0 bs) =
          (s.brk, s.appendBlock s1 (back addr 0 bs)) := by
        simp only [umallocGrow, ht, ha, hs1, hre, hsi]
        rw [if_neg (by omega), if_neg (by omega)]
        rfl
      rw [hgr]
      have hnw := appendBlock_holds h hbrk hg
      obtain ⟨n, rest, hh, hn, hr, hmem⟩ := split_cases need hnw (by simp only; omega)
      have hf : ∀ c ∈ bs ++ ms, c.stop ≤ s.brk ∨ s1.brk ≤ c.addr := by
        intro c hc
        rcases mem_append.1 hc with hc | hc
        · exact .inl (h.tiles.mem hc).2
        · exact .inr (hg.top.trans (h.floor hc))
      refine ⟨_, ⟨s.brk, n, false⟩, rfl, rfl, hh, ?_, by simp, rfl, hn, fun c hc _ => ?_,
        fun c hc _ => ⟨?_, fun x hx hxs => ?_⟩⟩
      · refine noFreePair_cut.2 ⟨hs, ?_, by simp, by simp⟩
        rcases hr with rfl | ⟨d, rfl, -⟩
        · exact isChain_nil
        · exact isChain_singleton d
      · rintro rfl
        have := hf _ hc
        simp only [stop] at this
        omega
      · simp only [mem_append, mem_cons] at hc ⊢
        tauto
      · have := hf c hc
        rw [hmem x (by simp only [stop] at *; omega), appendBlock_payload h hg hc hx hxs]

lemma breakBlock_takes (h : s.Holds start bs ms) (hs : NoFreePair bs)
    (hn : need + 16 < 0x10000) (hp : 0 < need) : s.breakBlock k need = some (0, s) ∨
    ∃ s' bs' c, s.breakBlock k need = some (c.addr + 16, s') ∧
      s.Takes bs ms need s' start bs' ms c := by
  have hl := h.tiles.length_le
  have htop := h.brk_le
  have hw := findFree_eq need (k := listFuel) (t := 0) h.lists.links
    (fun c hc => (h.pos (mem_append_left ms hc)).ne') (by simp only [listFuel]; omega)
  rw [← h.lists.head] at hw
  rcases hf : bs.find? (fits need) with _ | b
  · rw [hf] at hw
    simp only [breakBlock, hw]
    rcases grow_takes (k := k) h hs hn hp with hno | ⟨bs', c, hc, hr, ht⟩
    · left
      rw [hno]
      rfl
    · right
      have hbrk : s.brk ≠ 0 := by
        have := ht.holds.pos ht.mem
        omega
      refine ⟨_, bs', c, ?_, ht⟩
      rw [hr, if_neg hbrk, hc, u32_of_lt (by omega)]
  · right
    rw [hf] at hw
    simp only [breakBlock, hw]
    obtain ⟨l, r, rfl⟩ := append_of_mem (mem_of_find?_eq_some hf)
    obtain ⟨bs', c, hc, ht⟩ := takeFree_takes h hs (find?_some hf)
    have hb := h.bound (b := b) (by simp)
    refine ⟨_, bs', c, ?_, ht⟩
    rw [u32_of_lt (by omega), hc]

def mapBlock (s : UHeap) (p n need : ℕ) : UHeap :=
  { s.zeroed (p * pageSize) ((p + n) * pageSize) with
    maps := s.maps ∪ Finset.Ico p (p + n) }.newBlock (p * pageSize) need 0 0 1

section Mapping

variable {p n : ℕ}

lemma mapBlock_mem (hn : 0 < n) (h : x < p * pageSize ∨ (p + n) * pageSize ≤ x) :
    (s.mapBlock p n need).mem x = s.mem x := by
  have hsum : (p + n) * pageSize = p * pageSize + n * pageSize := Nat.add_mul _ _ _
  have hp : pageSize ≤ n * pageSize := Nat.le_mul_of_pos_left _ hn
  have h16 : 16 ≤ pageSize := by decide
  unfold mapBlock
  rw [newBlock_mem (by omega)]
  exact if_neg (by omega)

section

variable (h : s.Holds start bs ms)
include h

lemma Holds.outside (hf : userMmapFloor ≤ p)
    (hd : Disjoint (Finset.Ico p (p + n)) s.maps) (hc : c ∈ bs ++ ms)
    (hl : c.addr ≤ x) (hr : x < c.stop) : x < p * pageSize ∨ (p + n) * pageSize ≤ x := by
  rcases mem_append.1 hc with hc | hc
  · have hs := (h.tiles.mem hc).2
    have hbrk := h.top
    have hlo : userMmapFloor * pageSize ≤ p * pageSize := Nat.mul_le_mul_right _ hf
    omega
  · by_contra hin
    refine Finset.disjoint_right.1 hd ((h.mappings c hc).mem_maps hl hr)
      (Finset.mem_Ico.2 ⟨?_, ?_⟩)
    · exact (Nat.le_div_iff_mul_le (by decide)).2 (by omega)
    · exact (Nat.div_lt_iff_lt_mul (by decide)).2 (by omega)

lemma mapBlock_holds (hf : userMmapFloor ≤ p)
    (htop : p + n ≤ userMmapTop) (hd : Disjoint (Finset.Ico p (p + n)) s.maps) (hn : 0 < n) :
    (s.mapBlock p n need).Holds start bs ms := by
  refine h.of_headers (fun c hc x hl hr => ?_) rfl rfl (fun m hm => ?_) fun q hq => ?_
  · have := c.addr_lt_stop
    exact mapBlock_mem hn (h.outside hf hd hc hl (by omega))
  · exact (h.mappings m hm).pages.trans Finset.subset_union_left
  · rcases Finset.mem_union.1 hq with hq | hq
    · exact h.region q hq
    · have := Finset.mem_Ico.1 hq
      omega

lemma mapBlock_takes (hs : NoFreePair bs)
    (hf : userMmapFloor ≤ p) (htop : p + pagesFor (need + 16) ≤ userMmapTop)
    (hd : Disjoint (Finset.Ico p (p + pagesFor (need + 16))) s.maps)
    (hne : need + 16 < 2 ^ 32) :
    s.Takes bs ms need (s.mapBlock p (pagesFor (need + 16)) need) start bs
      (⟨p * pageSize, need, false⟩ :: ms) ⟨p * pageSize, need, false⟩ := by
  have hn : 0 < pagesFor (need + 16) := by
    simp only [pagesFor, pageSize]
    omega
  have hpages : (⟨p * pageSize, need, false⟩ : UBlock).pages =
      Finset.Ico p (p + pagesFor (need + 16)) := by
    simp only [pages]
    rw [Nat.mul_div_cancel _ (by decide)]
  refine ⟨(mapBlock_holds h hf htop hd hn).cons ⟨rfl, ?_, ⟨p, Nat.mul_comm _ _⟩, ?_⟩
    fun m hm => ?_, hs, by simp, rfl, le_rfl, fun c hc _ => ?_,
    fun c hc _ => ⟨?_, fun x hl hr => ?_⟩⟩
  · exact newBlock_node_self (by omega) (by omega) (by omega) (by omega)
  · rw [hpages]
    exact Finset.subset_union_right
  · rw [hpages]
    exact hd.mono_right (h.mappings m hm).pages
  · rintro rfl
    have hsum : (p + pagesFor (need + 16)) * pageSize =
        p * pageSize + pagesFor (need + 16) * pageSize := Nat.add_mul _ _ _
    have hp : pageSize ≤ pagesFor (need + 16) * pageSize := Nat.le_mul_of_pos_left _ hn
    have h16 : 16 ≤ pageSize := by decide
    have := h.outside (x := p * pageSize) hf hd hc le_rfl
      (by simp only [stop]; omega)
    omega
  · simp only [mem_append, mem_cons] at hc ⊢
    tauto
  · exact mapBlock_mem hn (h.outside hf hd hc (by omega) hr)

lemma mmapBlock_takes (hs : NoFreePair bs) (hn : need + 16 < 2 ^ 32) : s.mmapBlock k need = (0, s) ∨
    ∃ s' m, s.mmapBlock k need = (m.addr + 16, s') ∧
      s.Takes bs ms need s' start bs (m :: ms) m := by
  have ht : u32 (need + 16) = need + 16 := u32_of_lt hn
  by_cases hg : k.mmapOk = true ∧ userMmapFloor ≤ k.mmapPage ∧
      k.mmapPage + pagesFor (need + 16) ≤ userMmapTop ∧
      Disjoint (Finset.Ico k.mmapPage (k.mmapPage + pagesFor (need + 16))) s.maps
  · right
    obtain ⟨-, hf, htop, hd⟩ := id hg
    have hi : k.mmapPage ≤ userMmapTop := by omega
    have hlt : k.mmapPage * pageSize + 16 < 0xFFFFFFFF := by
      have hle : k.mmapPage * pageSize ≤ userMmapTop * pageSize := Nat.mul_le_mul_right _ hi
      have : userMmapTop * pageSize + 16 < 0xFFFFFFFF := by decide
      omega
    refine ⟨_, _, ?_, mapBlock_takes h hs hf htop hd hn⟩
    simp only [mmapBlock, sysMmap, ht]
    rw [if_pos hg, if_neg (by omega), u32_of_lt (by omega)]
    rfl
  · left
    simp only [mmapBlock, sysMmap, ht]
    rw [if_neg hg]
    rfl

end

end Mapping

lemma umallocRound_eq {n : ℕ} (h : n ≤ 0xFFFFFFF0) : umallocRound n = (n + 15) / 16 * 16 := by
  unfold umallocRound u32
  rw [Nat.mod_eq_of_lt (by omega)]

lemma umalloc_guard (h : ¬ (umallocRound size < size ∨
    u32 (umallocRound size + 16) < umallocRound size)) :
    size ≤ umallocRound size ∧ umallocRound size + 16 < 2 ^ 32 := by
  unfold umallocRound u32 at *
  omega

lemma umalloc_takes (k : KernelReply) (size : ℕ) (h : s.Holds start bs ms) (hs : NoFreePair bs) :
    s.umalloc k size = some (0, s) ∨ ∃ s' bs' ms' b, s.umalloc k size = some (b.addr + 16, s') ∧
      s.Takes bs ms (umallocRound size) s' start bs' ms' b ∧ size ≤ b.size := by
  unfold umalloc
  by_cases h0 : size = 0
  · exact .inl (if_pos h0)
  rw [if_neg h0]
  by_cases hb : umallocRound size < size ∨ u32 (umallocRound size + 16) < umallocRound size
  · exact .inl (if_pos hb)
  rw [if_neg hb]
  obtain ⟨hle, hlt⟩ := umalloc_guard hb
  rw [u32_of_lt hlt]
  by_cases hm : umallocMmapMin ≤ umallocRound size + 16
  · rw [if_pos hm]
    rcases mmapBlock_takes (k := k) h hs hlt with hn | ⟨s', m, hr, ht⟩
    · exact .inl (congrArg some hn)
    · exact .inr ⟨s', bs, m :: ms, m, congrArg some hr, ht, hle.trans ht.room⟩
  · rw [if_neg hm]
    have hsm : umallocRound size + 16 < 0x10000 := by
      simpa only [umallocMmapMin, not_le] using hm
    rcases breakBlock_takes (k := k) h hs hsm (by omega) with
      hn | ⟨s', bs', b, hr, ht⟩
    · exact .inl hn
    · exact .inr ⟨s', bs', ms, b, hr, ht, hle.trans ht.room⟩

end UHeap

end Malloc

section Free

variable {s s' : UHeap} {start : ℕ} {b c p : UBlock} {bs ms bs' ms' l r : List UBlock}

structure UHeap.Gives (s : UHeap) (bs ms : List UBlock) (b : UBlock) (s' : UHeap) (start : ℕ)
    (bs' ms' : List UBlock) : Prop where
  holds : s'.Holds start bs' ms'
  solo : NoFreePair bs'
  kept : ∀ c ∈ bs ++ ms, c.free = false → c ≠ b → c ∈ bs' ++ ms' ∧ s.SamePayload s' c

lemma mem_dropWhile_free (hc : c ∈ r) (hf : c.free = false) : c ∈ r.dropWhile free := by
  rw [← takeWhile_append_dropWhile (p := free) (l := r)] at hc
  rcases mem_append.1 hc with hc | hc
  · have := mem_takeWhile_imp hc
    rw [hf] at this
    cases this
  · exact hc

lemma head_dropWhile_free (hc : c ∈ (r.dropWhile free).head?) : c.free = false := by
  have := head?_dropWhile_not free r
  rw [Option.mem_def.1 hc] at this
  simpa using this

lemma NoFreePair.dropWhile (h : NoFreePair r) : NoFreePair (r.dropWhile free) :=
  h.suffix (dropWhile_suffix _)

namespace UHeap

lemma Holds.header_apart (h : s.Holds start bs ms) (hb : b ∈ bs ++ ms) (hc : c ∈ bs ++ ms)
    (hne : c ≠ b) (hl : c.addr ≤ x) (hr : x < c.stop) : x < b.addr ∨ b.addr + 16 ≤ x := by
  have := h.apart hc hb hne
  have := b.addr_lt_stop
  omega

@[simp] lemma sysMunmap_mem {a n : ℕ} : (s.sysMunmap a n).mem = s.mem := rfl

lemma unmap_gives (h : s.Holds start bs (l ++ b :: r)) (hs : NoFreePair bs) :
    s.Gives bs (l ++ b :: r) b ((s.set .magic b.addr 0).sysMunmap b.addr (b.size + 16)) start bs
      (l ++ r) := by
  have hsu : (l ++ r).Sublist (l ++ b :: r) := (sublist_cons_self b r).append_left l
  have hd := pairwise_append.1 h.disjoint
  have hdi := pairwise_cons.1 hd.2.1
  have ho : ∀ m ∈ l ++ r, Disjoint m.pages b.pages := by
    intro m hm
    rcases mem_append.1 hm with hm | hm
    · exact hd.2.2 m hm b (by simp)
    · exact (hdi.1 m hm).symm
  have hre : s.Holds start bs (l ++ r) :=
    ⟨h.lists, h.tiles, h.none, h.top, fun m hm => h.mappings m (hsu.subset hm),
      h.disjoint.sublist hsu, h.region⟩
  -- the others share no page with it, so none of them is at its address
  have hne : ∀ c ∈ bs ++ (l ++ r), c ≠ b := by
    rintro c hc rfl
    have hst := c.addr_lt_stop
    rcases mem_append.1 hc with hc | hc
    · have := (h.tiles.mem hc).2
      have := (h.above (m := c) (by simp)).1
      omega
    · have hp := mem_pages (h.mappings c (by simp)).aligned le_rfl
        (by omega : c.addr < c.stop)
      exact Finset.disjoint_left.1 (ho c hc) hp hp
  have hi : ∀ c ∈ bs ++ (l ++ r), c ∈ bs ++ (l ++ b :: r) := fun c hc =>
    ((List.Sublist.refl bs).append hsu).subset hc
  refine ⟨hre.of_headers (fun c hc x hl hr => ?_) rfl rfl (fun m hm => ?_) fun q hq => ?_, hs,
    fun c hc _ hcb => ⟨?_, fun x hl hr => ?_⟩⟩
  · have := c.addr_lt_stop
    rw [sysMunmap_mem]
    exact mem_set_apart (h.header_apart (by simp) (hi c hc) (hne c hc) hl (by omega))
  · exact Finset.subset_sdiff.2 ⟨(h.mappings m (hsu.subset hm)).pages, ho m hm⟩
  · exact h.region q (Finset.mem_sdiff.1 hq).1
  · simp only [mem_append, mem_cons] at hc ⊢
    tauto
  · rw [sysMunmap_mem]
    exact mem_set_apart (h.header_apart (by simp) hc hcb (by omega) hr)

lemma mergeBack_gives (h : s.Holds start (l ++ p :: b :: r) ms)
    (hs : NoFreePair (l ++ [p])) (hr : NoFreePair r) (hh : ∀ c ∈ r.head?, c.free = false) :
    ∃ bs', (s.mergeBack p.addr b.addr).Holds start bs' ms ∧ NoFreePair bs' ∧
      (∀ c ∈ l ++ p :: r, c.free = false → c ∈ bs') ∧
      ∀ x, p.free = false ∨ x < p.addr ∨ p.addr + 16 ≤ x →
        (s.mergeBack p.addr b.addr).mem x = s.mem x := by
  have hp := h.bound (b := p) (by simp)
  obtain ⟨-, -, hf, -⟩ := h.lists.header (b := p) (by simp)
  obtain ⟨hl, -, hlp, -⟩ := noFreePair_cut.1 hs
  have ha := h.adjacent
  have hn : ∀ d : UBlock, ∀ c ∈ r.head?, ¬ (d.free = true ∧ c.free = true) := by
    intro d c hc
    simp [hh c hc]
  unfold mergeBack
  rcases hpf : p.free with _ | _
  · rw [if_neg (by simp [hf, hpf])]
    refine ⟨_, h, noFreePair_cut.2 ⟨hl, isChain_cons.2 ⟨hn b, hr⟩, ?_, by simp [hpf]⟩,
      fun c hc _ => ?_, fun _ _ => rfl⟩
    · simp [hpf]
    · simp only [mem_append, mem_cons] at hc ⊢
      tauto
  · rw [if_pos ⟨by omega, by simp [hf, hpf], ha⟩]
    refine ⟨_, absorb_holds h, noFreePair_cut.2 ⟨hl, hr, hlp, hn _⟩, fun c hc hcf => ?_,
      fun x hx => absorb_mem _ (by simpa using hx)⟩
    simp only [mem_append, mem_cons, ne_of_free hpf hcf, false_or] at hc ⊢
    tauto

/-- A block that is freed is merged with its free neighbours. -/
lemma free_gives (h : s.Holds start (l ++ b :: r) ms) (hs : NoFreePair (l ++ b :: r)) :
    ∃ s' bs', (do
        let s ← mergeForward b.addr listFuel (s.set .isFree b.addr 1)
        let prev ← s.findPrev b.addr listFuel s.head
        pure (s.mergeBack prev b.addr)) = some s' ∧
      s.Gives (l ++ b :: r) ms b s' start bs' ms := by
  obtain ⟨hl, hr, -, -⟩ := noFreePair_cut.1 hs
  have hm := mark_holds h true
  have hle := hm.tiles.length_le
  have htop := hm.brk_le
  simp only [length_append, length_cons] at hle htop
  obtain ⟨s2, n, hme, h2, hmem⟩ :=
    mergeForward_holds (k := listFuel) hm (by simp only [listFuel]; omega)
  rw [if_pos rfl] at hme hmem
  have hmem2 : ∀ c ∈ l ++ b :: r ++ ms, c ≠ b → s.SamePayload s2 c := by
    intro c hc hcb x hx hxs
    have ho := h.header_apart (b := b) (by simp) hc hcb (by omega) hxs
    rw [hmem x ho, mem_set_apart ho]
  have hln := h2.tiles.length_le
  have ht := h2.brk_le
  simp only [length_append, length_cons] at hln
  simp only [hme, Option.bind_eq_bind, Option.bind_some, h2.lists.head]
  have hb := h.bound (b := b) (by simp)
  rcases eq_nil_or_concat l with rfl | ⟨l, p, rfl⟩
  · have hp : s2.findPrev b.addr listFuel (front addr
        ([] ++ { b with size := n, free := true } :: r.dropWhile free) 0) = some 0 := by
      refine findPrev_none (by omega) h2.lists.links
        (fun c hc => (h2.pos (mem_append_left ms hc)).ne') (fun c hc => ?_)
        (by simp only [listFuel, nil_append, length_cons]; omega)
      have := (pairwise_cons.1 h2.tiles.order).1 c hc
      simp only [stop] at this
      omega
    rw [hp]
    refine ⟨s2, _, by simp [mergeBack], h2, ?_, fun c hc hcf hcb => ⟨?_, hmem2 c hc hcb⟩⟩
    · refine noFreePair_cut.2 ⟨hl, hr.dropWhile, by simp, fun c hc => ?_⟩
      simp [head_dropWhile_free hc]
    · simp only [nil_append, mem_append, mem_cons, hcb, false_or] at hc ⊢
      rcases hc with hc | hc
      · exact .inl (.inr (mem_dropWhile_free hc hcf))
      · exact .inr hc
  · rw [length_concat] at hln
    simp only [concat_eq_append, append_assoc, cons_append, nil_append]
      at h h2 hl hmem2 ⊢
    have hp : s2.findPrev b.addr listFuel (front addr
        (l ++ p :: { b with size := n, free := true } :: r.dropWhile free) 0) =
        some p.addr := by
      refine findPrev_some (b := { b with size := n, free := true }) h2.lists.links
        (fun c hc => ⟨?_, ?_⟩) (by simp only [listFuel]; omega)
      · refine (h2.pos (mem_append_left ms ?_)).ne'
        simp only [mem_append, mem_cons] at hc ⊢
        tauto
      · have hor := h.tiles.order
        rw [show l ++ p :: b :: r = (l ++ [p]) ++ b :: r by simp] at hor
        have := (pairwise_append.1 hor).2.2 c hc b (by simp)
        have := c.addr_lt_stop
        simp only
        omega
    rw [hp]
    obtain ⟨bs', hh, hs', hi, hba⟩ :=
      mergeBack_gives h2 hl hr.dropWhile fun c hc => head_dropWhile_free hc
    refine ⟨_, bs', rfl, hh, hs', fun c hc hcf hcb => ⟨?_, fun x hx hxs => ?_⟩⟩
    · rcases mem_append.1 hc with hc | hc
      · refine mem_append_left ms (hi c ?_ hcf)
        simp only [mem_append, mem_cons, hcb, false_or] at hc ⊢
        rcases hc with hc | rfl | hc
        · exact .inl hc
        · exact .inr (.inl rfl)
        · exact .inr (.inr (mem_dropWhile_free hc hcf))
      · exact mem_append_right bs' hc
    · rw [hba x ?_]
      · exact hmem2 c (by simpa using hc) hcb x hx hxs
      · by_cases hcp : c = p
        · exact .inl (hcp ▸ hcf)
        · exact .inr (h.header_apart (by simp) hc hcp (by omega) hxs)

lemma ufree_gives (h : s.Holds start bs ms) (hs : NoFreePair bs) (hb : b ∈ bs ++ ms)
    (hf : b.free = false) : ∃ s' bs' ms', s.ufree (b.addr + 16) = some s' ∧
      s.Gives bs ms b s' start bs' ms' := by
  have hlt := h.lt hb
  have htop : userMmapTop * pageSize < 2 ^ 32 := by decide
  simp only [stop] at hlt
  have ha : u32 (b.addr + 16 + 2 ^ 32 - 16) = b.addr := by
    unfold u32
    omega
  simp only [ufree, ha]
  rw [if_neg (by omega)]
  rcases mem_append.1 hb with hb | hb
  · obtain ⟨hm, -, hfr, hma⟩ := h.lists.header hb
    rw [if_neg (by simp [hm, hfr, hf]), if_neg (by simp [hma])]
    obtain ⟨l, r, rfl⟩ := append_of_mem hb
    obtain ⟨s', bs', hr, hg⟩ := free_gives h hs
    exact ⟨s', bs', ms, hr, hg⟩
  · obtain ⟨hm, hsi, hfr, hma, -⟩ := node_eq (h.mappings b hb).node
    rw [if_neg (by simp [hm, hfr]), if_pos (by simp [hma]), hsi]
    obtain ⟨l, r, rfl⟩ := append_of_mem hb
    rw [u32_of_lt (show b.size + 16 < 2 ^ 32 by omega)]
    exact ⟨_, bs, l ++ r, rfl, unmap_gives h hs⟩

end UHeap

end Free

end EsdumanOS
