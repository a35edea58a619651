import EsdumanOS.Proofs.Kheap
import EsdumanOS.Proofs.Umalloc

/-!
# Runs of the user allocator

Every pointer that a program holds lies in a block of its own that is in use (`Owned`). The calls
keep that, the tiling and the merging, whatever the kernel answers; `urealloc` does so for the sizes
that `umalloc_round` does not wrap, and for no other.
-/

namespace EsdumanOS

open Lib UHeap List UBlock

section Pointers

variable {s s' s'' : UHeap} {start : ℕ} {b c : UBlock} {bs ms bs' ms' cs : List UBlock}
  {live : List (ℕ × ℕ)}

/-- A pointer to a block in use of at least so many bytes. -/
def UHeap.Payload (cs : List UBlock) (p n : ℕ) : Prop :=
  ∃ b ∈ cs, b.free = false ∧ p = b.addr + 16 ∧ n ≤ b.size

lemma not_userPayload_zero (n : ℕ) : ¬ Payload cs 0 n := by
  rintro ⟨b, -, -, hp, -⟩
  omega

namespace Owned

lemma apart (h : Owned (Payload (bs ++ ms)) live) (hs : s.Holds start bs ms) :
    live.Pairwise fun e f => e.1 + e.2 ≤ f.1 ∨ f.1 + f.2 ≤ e.1 := by
  refine (pairwise_map.1 h.nodup).imp_of_mem fun {e f} he hf hne => ?_
  obtain ⟨b, hb, -, hbp, hbs⟩ := h.block e he
  obtain ⟨c, hc, -, hcp, hcs⟩ := h.block f hf
  have hbc : b ≠ c := by
    rintro rfl
    exact hne (by omega)
  have := hs.apart hb hc hbc
  simp only [stop] at this
  omega

lemma backed (h : Owned (Payload (bs ++ ms)) live) (hs : s.Holds start bs ms) {e : ℕ × ℕ}
    (he : e ∈ live) : Backed s bs e := by
  obtain ⟨b, hb, hbf, hp, hsi⟩ := h.block e he
  rcases mem_append.1 hb with hb | hb
  · exact .inl ⟨b, hb, hbf, hp, hsi⟩
  · refine .inr fun x hl hr => (hs.mappings b hb).mem_maps (by omega) ?_
    simp only [stop]
    omega

end Owned

lemma written_holds (h : s.Holds start bs ms) (ho : Owned (Payload (bs ++ ms)) live)
    (writes : Buf → Buf) : (s.written writes start live).Holds start bs ms := by
  refine h.of_headers (fun b hb x hl hr => if_pos ⟨?_, ?_⟩) rfl rfl
    (fun m hm => (h.mappings m hm).pages) h.region
  · have := b.addr_lt_stop
    rcases mem_append.1 hb with hb | hb
    · have := h.tiles.mem hb
      exact .inl (by omega)
    · exact .inr ((h.mappings b hb).mem_maps hl (by omega))
  · by_contra hy
    obtain ⟨e, he, hel, her⟩ := payloadByte_iff.1 (by simpa using hy)
    obtain ⟨c, hc, -, hp, hn⟩ := ho.block e he
    have hcr : x < c.stop := by
      simp only [stop]
      omega
    by_cases hcb : c = b
    · subst hcb
      omega
    · have := h.header_apart hb hc hcb (x := x) (by omega) hcr
      omega

lemma UHeap.Holds.header (h : s.Holds start bs ms) (hb : b ∈ bs ++ ms) :
    s.get .magic b.addr = umallocMagic ∧ s.get .size b.addr = b.size := by
  rcases mem_append.1 hb with hb | hb
  · obtain ⟨hm, hs, -, -⟩ := h.lists.header hb
    exact ⟨hm, hs⟩
  · obtain ⟨hm, hs, -, -, -⟩ := node_eq (h.mappings b hb).node
    exact ⟨hm, hs⟩

lemma UHeap.Takes.fill {need : ℕ} (h : s.Takes bs ms need s' start bs' ms' b)
    (hmem : ∀ x, x < b.addr + 16 ∨ b.stop ≤ x → s''.mem x = s'.mem x) (hh : s''.head = s'.head)
    (hbrk : s''.brk = s'.brk) (hma : s''.maps = s'.maps) :
    s.Takes bs ms need s'' start bs' ms' b := by
  refine ⟨h.holds.of_headers (fun c hc x hl hr => hmem x ?_) hh hbrk (fun m hm => ?_) ?_, h.solo,
    h.mem, h.used, h.room, h.fresh, fun c hc hcf => ⟨(h.kept c hc hcf).1, fun x hl hr => ?_⟩⟩
  · by_cases hcb : c = b
    · subst hcb
      exact .inl hr
    · have := h.holds.apart hc h.mem hcb
      have := c.addr_lt_stop
      omega
  · rw [hma]
    exact (h.holds.mappings m hm).pages
  · rw [hma]
    exact h.holds.region
  · have := h.holds.apart (h.kept c hc hcf).1 h.mem (h.fresh c hc hcf)
    rw [hmem x (by omega)]
    exact (h.kept c hc hcf).2 x hl hr

lemma Owned.takes {need n : ℕ} (h : Owned (Payload (bs ++ ms)) live)
    (ht : s.Takes bs ms need s' start bs' ms' b) (hn : n ≤ b.size) :
    Owned (Payload (bs' ++ ms')) ((b.addr + 16, n) :: live) := by
  refine (h.mono fun p n ⟨c, hc, hcf, hr⟩ => ⟨c, (ht.kept c hc hcf).1, hcf, hr⟩).cons
    ⟨b, ht.mem, ht.used, rfl, hn⟩ (h.notMem ?_)
  rintro n ⟨c, hc, hcf, hp, -⟩
  exact ht.fresh c hc hcf (ht.holds.addr_inj (ht.kept c hc hcf).1 ht.mem (by omega))

lemma Owned.gives (h : Owned (Payload (bs ++ ms)) live) (hg : s.Gives bs ms b s' start bs' ms') :
    Owned (Payload (bs' ++ ms')) (giveUp live (b.addr + 16)) := by
  refine h.give fun p n hne ⟨c, hc, hcf, hp, hn⟩ => ⟨c, (hg.kept c hc hcf ?_).1, hcf, hp, hn⟩
  rintro rfl
  exact hne hp

end Pointers

section Calls

variable {t : USys} {s s' : UHeap} {k : KernelReply} {start size ptr : ℕ} {b : UBlock}
  {bs ms bs' ms' : List UBlock} {live : List (ℕ × ℕ)}

structure UInv (t : USys) : Prop where
  blocks : ∃ bs ms, t.heap.Holds t.start bs ms ∧ NoFreePair bs ∧ Owned (Payload (bs ++ ms)) t.live
  moves : ∀ m ∈ t.moves, m.Kept
  ends : t.stuck = false

lemma ucalloc_takes (h : s.Holds start bs ms) (hs : NoFreePair bs) (n : ℕ) :
    s.ucalloc k n size = some (0, s) ∨
      ∃ s' bs' ms' b, s.ucalloc k n size = some (b.addr + 16, s') ∧
        s.Takes bs ms (umallocRound (n * size)) s' start bs' ms' b ∧ n * size ≤ b.size := by
  unfold ucalloc
  by_cases hb : n ≠ 0 ∧ 0xFFFFFFFF / n < size
  · exact .inl (if_pos hb)
  rw [if_neg hb]
  have hlt : u32 (n * size) = n * size := by
    rcases Nat.eq_zero_or_pos n with rfl | hn
    · simp [u32]
    · have hle : size ≤ 0xFFFFFFFF / n := by
        by_contra hgt
        exact hb ⟨hn.ne', by omega⟩
      have := (Nat.le_div_iff_mul_le hn).1 hle
      rw [Nat.mul_comm] at this
      exact Nat.mod_eq_of_lt (by omega)
  rw [hlt]
  rcases umalloc_takes k (n * size) h hs with
    hno | ⟨s', bs', ms', b, hr, ht, hle⟩
  · left
    rw [hno]
    rfl
  · right
    rw [hr]
    refine ⟨s'.zeroed (b.addr + 16) (b.addr + 16 + n * size), bs', ms', b, rfl,
      ht.fill (fun x hx => if_neg ?_) rfl rfl rfl, hle⟩
    simp only [stop] at hx
    omega

lemma took_inv (h : s.Holds t.start bs ms) (hs : NoFreePair bs)
    (ho : Owned (Payload (bs ++ ms)) t.live) (hm : ∀ m ∈ t.moves, m.Kept) (he : t.stuck = false)
    {x : Option (ℕ × UHeap)} {need : ℕ}
    (hx : x = some (0, s) ∨ ∃ s' bs' ms' b, x = some (b.addr + 16, s') ∧
      s.Takes bs ms need s' t.start bs' ms' b ∧ size ≤ b.size) : UInv (t.took s size x) := by
  rcases hx with rfl | ⟨s', bs', ms', b, rfl, ht, hle⟩
  · exact ⟨⟨bs, ms, h, hs, ho⟩, hm, he⟩
  · exact ⟨⟨bs', ms', ht.holds, ht.solo, ho.takes ht hle⟩, hm, he⟩

lemma ufree_held (h : s.Holds start bs ms) (hs : NoFreePair bs)
    (ho : Owned (Payload (bs ++ ms)) live) (hp : ptr = 0 ∨ ptr ∈ live.map Prod.fst) :
    ∃ s' bs' ms', s.ufree ptr = some s' ∧ s'.Holds start bs' ms' ∧ NoFreePair bs' ∧
      Owned (Payload (bs' ++ ms')) (giveUp live ptr) := by
  rcases hp with rfl | hp
  · exact ⟨s, bs, ms, by simp [UHeap.ufree], h, hs,
      ho.give fun _ _ _ hp => hp⟩
  · obtain ⟨e, he, rfl⟩ := mem_map.1 hp
    obtain ⟨b, hb, hbf, hbp, -⟩ := ho.block e he
    rw [hbp]
    obtain ⟨s', bs', ms', hr, hg⟩ := ufree_gives h hs hb hbf
    exact ⟨s', bs', ms', hr, hg.holds, hg.solo, ho.gives hg⟩

lemma ufree_inv (h : UInv { t with heap := s }) (hp : ptr = 0 ∨ ptr ∈ t.live.map Prod.fst) :
    UInv (t.ufree s ptr) := by
  obtain ⟨⟨bs, ms, h, hs, ho⟩, hm, he⟩ := h
  obtain ⟨s', bs', ms', hr, h', hs', ho'⟩ := ufree_held h hs ho hp
  simp only [USys.ufree, hr]
  exact ⟨⟨bs', ms', h', hs', ho'⟩, hm, he⟩

lemma UHeap.Holds.back (h : s.Holds start bs ms) (hb : b ∈ bs ++ ms) :
    u32 (b.addr + 16 + 2 ^ 32 - 16) = b.addr := by
  have hlt : b.addr + 16 + b.size < 2 ^ 32 := (h.lt hb).trans_lt (by decide)
  unfold u32
  omega

lemma urealloc_stays (k : KernelReply) (h : s.Holds start bs ms) (hb : b ∈ bs ++ ms)
    (hz : size ≠ 0) (hle : umallocRound size ≤ b.size) :
    s.urealloc k (b.addr + 16) size = some (b.addr + 16, s) := by
  obtain ⟨hm, hs⟩ := h.header hb
  simp only [UHeap.urealloc, h.back hb, hm, hs]
  rw [if_neg (by omega), if_neg hz, if_neg (by simp), if_pos hle]

lemma urealloc_moves (h : s.Holds start bs ms) (hs : NoFreePair bs) (hb : b ∈ bs ++ ms)
    (hbf : b.free = false) (hz : size ≠ 0) (hlt : b.size < umallocRound size) :
    s.urealloc k (b.addr + 16) size = some (0, s) ∨
      ∃ s1 bs1 ms1 c s' bs' ms', s.urealloc k (b.addr + 16) size = some (c.addr + 16, s') ∧
        s.Takes bs ms (umallocRound size) s1 start bs1 ms1 c ∧ size ≤ c.size ∧
        s1.Gives bs1 ms1 b s' start bs' ms' ∧
        ∀ i < b.size, UHeap.mem s' (c.addr + 16 + i) = s.mem (b.addr + 16 + i) := by
  obtain ⟨hm, hsi⟩ := h.header hb
  simp only [UHeap.urealloc, h.back hb, hm, hsi]
  rw [if_neg (by omega), if_neg hz, if_neg (by simp), if_neg (by omega)]
  rcases umalloc_takes k size h hs with
    hno | ⟨s0, bs1, ms1, c, hre, ht, hle⟩
  · left
    rw [hno]
    rfl
  right
  obtain ⟨hin, hp⟩ := ht.kept b hb hbf
  have hr := ht.room
  have hcb : c ≠ b := (ht.fresh b hb hbf).symm
  have ha := ht.holds.apart ht.mem hin hcb
  simp only [stop] at ha
  obtain ⟨s1, hs1⟩ : ∃ s1, s1 = { s0 with
    mem := copyBytes (c.addr + 16) (b.addr + 16) b.size s0.mem } := ⟨_, rfl⟩
  have hta : s.Takes bs ms (umallocRound size) s1 start bs1 ms1 c := by
    rw [hs1]
    refine ht.fill (fun x hx => copyBytes_apart ?_) rfl rfl rfl
    simp only [stop] at hx
    omega
  obtain ⟨s', bs', ms', hf, hg⟩ := ufree_gives hta.holds hta.solo hin hbf
  refine ⟨s1, bs1, ms1, c, s', bs', ms', ?_, hta, hle, hg, fun i hi => ?_⟩
  · rw [hre]
    simp only [(ht.holds.header hin).2, ← hs1, hf]
    rfl
  · have hsame := (hg.kept c hta.mem hta.used hcb).2 (c.addr + 16 + i) (by omega)
      (by simp only [stop]; omega)
    have hc : s1.mem (c.addr + 16 + i) = s0.mem (b.addr + 16 + i) := by
      rw [hs1]
      exact copyBytes_copied (by omega) i hi
    rw [hsame, hc, hp (b.addr + 16 + i) (by omega) (by simp only [stop]; omega)]

lemma moved_good {p : ℕ} (h : s.Holds start bs ms) (ho : Owned (Payload (bs ++ ms)) t.live)
    (hm : ∀ m ∈ t.moves, m.Kept) (hb : b ∈ bs ++ ms)
    (hk : ∀ n ≤ b.size, UMove.Kept ⟨b.addr + 16, n, size, p, s.mem, s'.mem⟩) :
    ∀ m ∈ t.moved s (b.addr + 16) size p s', m.Kept := by
  unfold USys.moved
  split
  · rename_i e hf
    have he := mem_of_find?_eq_some hf
    have hp : e.1 = b.addr + 16 := by simpa using find?_some hf
    obtain ⟨c, hc, -, hcp, hcs⟩ := ho.block e he
    obtain rfl := h.addr_inj hc hb (by omega)
    intro m hmem
    rcases mem_cons.1 hmem with rfl | hmem
    · exact hk e.2 hcs
    · exact hm m hmem
  · exact hm

lemma urealloc_inv (h : UInv { t with heap := s }) (hp : ptr = 0 ∨ ptr ∈ t.live.map Prod.fst)
    (hsi : ptr = 0 ∨ size ≤ 0xFFFFFFF0) : UInv (t.urealloc s k ptr size) := by
  obtain ⟨⟨bs, ms, h, hs, ho⟩, hm, he⟩ := h
  rcases hp with rfl | hp
  · -- as `umalloc`
    have heq : s.urealloc k 0 size = s.umalloc k size := by simp [UHeap.urealloc]
    have hsame := ho.giveUp_unheld not_userPayload_zero
    have hmoved := ho.find_unheld not_userPayload_zero
    rcases umalloc_takes k size h hs with
      hno | ⟨s', bs', ms', b, hr, ht, hle⟩
    · simp only [USys.urealloc, heq, hno, USys.moved, hmoved, hsame, ite_self]
      exact ⟨⟨bs, ms, h, hs, ho⟩, hm, he⟩
    · simp only [USys.urealloc, heq, hr, USys.moved, hmoved, hsame]
      exact ⟨⟨bs', ms', ht.holds, ht.solo, ho.takes ht hle⟩, hm, he⟩
  obtain ⟨e, he', rfl⟩ := mem_map.1 hp
  obtain ⟨b, hb, hbf, hbp, -⟩ := ho.block e he'
  rw [hbp] at hp hsi ⊢
  by_cases hz : size = 0
  · subst hz
    obtain ⟨s', bs', ms', hr, h', hs', ho'⟩ := ufree_held h hs ho (.inr hp)
    have heq : s.urealloc k (b.addr + 16) 0 = some (0, s') := by
      simp [UHeap.urealloc, hr]
    simp only [USys.urealloc, heq, if_true]
    refine ⟨⟨bs', ms', h', hs', ho'⟩, moved_good h ho hm hb fun n _ => .inl ⟨.inr rfl, ?_⟩, he⟩
    intro i hi
    simp at hi
  rcases Nat.lt_or_ge b.size (umallocRound size) with hlt | hle
  · rcases urealloc_moves (k := k) h hs hb hbf hz hlt with
      hno | ⟨s1, bs1, ms1, c, s', bs', ms', hr, ht, hle, hg, hbytes⟩
    · simp only [USys.urealloc, hno, if_neg hz]
      exact ⟨⟨bs, ms, h, hs, ho⟩, moved_good h ho hm hb fun n _ => .inr ⟨rfl, fun _ _ => rfl⟩, he⟩
    · simp only [USys.urealloc, hr]
      have hcb : c.addr + 16 ≠ b.addr + 16 := by
        intro heq
        obtain ⟨hin, -⟩ := ht.kept b hb hbf
        exact ht.fresh b hb hbf (ht.holds.addr_inj hin ht.mem (by omega))
      have hbo := (ho.takes ht hle).gives hg
      rw [giveUp, filter_cons_of_pos (by simpa using hcb)] at hbo
      refine ⟨⟨bs', ms', hg.holds, hg.solo, hbo⟩, moved_good h ho hm hb fun n hn =>
        .inl ⟨.inl (by simp only; omega), fun i hi => ?_⟩, he⟩
      exact hbytes i (by simp only at hi; omega)
  · simp only [USys.urealloc, urealloc_stays k h hb hz hle]
    have hf : size ≤ b.size := by
      have := umallocRound_eq (n := size) (by omega)
      omega
    refine ⟨⟨bs, ms, h, hs, ?_⟩, moved_good h ho hm hb fun n _ =>
      .inl ⟨.inl (by simp only; omega), fun _ _ => rfl⟩, he⟩
    exact (ho.give fun _ _ _ hp => hp).cons ⟨b, hb, hbf, rfl, hf⟩ notMem_giveUp

end Calls

section Runs

variable {t : USys} {e : UStep}

lemma UInv.sound (h : UInv t) : USound t := by
  obtain ⟨⟨bs, ms, hs, hso, ho⟩, hm, he⟩ := h
  refine ⟨⟨bs, hs.lists, pairwise_map.2 (hs.tiles.order.imp fun {b c} hb => ?_), hs.tiles,
    hso, fun e he => ho.backed hs he⟩, ho.apart hs, hm, he⟩
  have := b.addr_lt_stop
  omega

/-- A call whose size can be rounded up keeps the heap. -/
lemma uStep_inv (h : UInv t) (hl : LiveCall t e) (hr : RoundsUp e) : UInv (uStep t e) := by
  obtain ⟨⟨bs, ms, hs, hso, ho⟩, hm, he⟩ := h
  have hw := written_holds hs ho e.writes
  unfold uStep
  rw [he, if_neg (by simp)]
  unfold LiveCall at hl
  unfold RoundsUp at hr
  rcases hc : e.call with size | ptr | ⟨n, size⟩ | ⟨ptr, size⟩ <;> simp only [hc] at hl hr ⊢
  · exact took_inv hw hso ho hm he (umalloc_takes e.reply size hw hso)
  · exact ufree_inv ⟨⟨bs, ms, hw, hso, ho⟩, hm, he⟩ hl
  · exact took_inv hw hso ho hm he (ucalloc_takes hw hso n)
  · exact urealloc_inv ⟨⟨bs, ms, hw, hso, ho⟩, hm, he⟩ hl.2 hr

lemma umallocRound_wrapped {n : ℕ} (hn : 0xFFFFFFF0 < n) (hlt : n < 2 ^ 32) :
    umallocRound n = 0 := by
  unfold umallocRound u32
  omega

lemma not_backed {s : UHeap} {start : ℕ} {bs ms bs' : List UBlock} {e : ℕ × ℕ}
    (h : s.Holds start bs ms) (hs : 0xFFFFFFF0 < e.2) (ht : Tiles start bs' s.brk) :
    ¬ Backed s bs' e := by
  rintro (⟨b, hb, -, -, hle⟩ | ha)
  · have hmem := ht.mem hb
    have htop := h.top
    simp only [stop, userMmapFloor, pageSize] at hmem htop
    omega
  · have htop := (h.region _ (ha (e.1 + e.2 - 1) (by omega) (by omega))).2
    have : userMmapTop ≤ 0xC0000 := by decide
    simp only [pageSize] at htop
    omega

lemma uStep_wrapped (h : UInv t) (hl : LiveCall t e) (hr : ¬ RoundsUp e) :
    ¬ USound (uStep t e) := by
  obtain ⟨⟨bs, ms, hs, -, ho⟩, -, he⟩ := h
  have hw := written_holds hs ho e.writes
  unfold uStep
  rw [he, if_neg (by simp)]
  unfold LiveCall at hl
  unfold RoundsUp at hr
  rcases hc : e.call with size | ptr | ⟨n, size⟩ | ⟨ptr, size⟩ <;> simp only [hc] at hl hr ⊢
  · exact absurd trivial hr
  · exact absurd trivial hr
  · exact absurd trivial hr
  · obtain ⟨hp, hsi⟩ := not_or.1 hr
    obtain ⟨f, hf, rfl⟩ := mem_map.1 (hl.2.resolve_left hp)
    obtain ⟨b, hb, -, hbp, -⟩ := ho.block f hf
    have hne : size ≠ 0 := by omega
    have hre := urealloc_stays e.reply hw hb hne
      (by rw [umallocRound_wrapped (by omega) hl.1]; omega)
    rw [hbp]
    simp only [USys.urealloc, hre]
    rintro ⟨⟨bs', -, -, ht, -, hba⟩, -, -, -⟩
    exact not_backed hw (e := (b.addr + 16, size)) (by omega) ht
      (hba _ mem_cons_self)

lemma run_sound_iff : ∀ (calls : List UStep) {t : USys}, UInv t →
    StepsMeet uStep LiveCall t calls →
    ((∀ n, USound (uRun t (calls.take n))) ↔ ∀ e ∈ calls, RoundsUp e)
  | [], t, h, _ => by simpa [uRun] using h.sound
  | e :: es, t, h, ⟨hl, he⟩ => by
    constructor
    · intro ha
      have hr : RoundsUp e := by
        by_contra hno
        exact uStep_wrapped h hl hno (ha 1)
      have ih := run_sound_iff es (uStep_inv h hl hr) he
      refine forall_mem_cons.2 ⟨hr, ih.1 fun n => ha (n + 1)⟩
    · intro ha
      have ih := run_sound_iff es (uStep_inv h hl (ha e (by simp))) he
      rintro (_ | n)
      · exact h.sound
      · exact ih.2 (fun f hf => ha f (mem_cons_of_mem _ hf)) n

lemma uStart_inv (mem : Buf) {brk : ℕ} (hbrk : brk ≤ userMmapFloor * pageSize) :
    UInv (uStart mem brk) := by
  refine ⟨⟨[], [], ⟨⟨rfl, trivial⟩, rfl, id, hbrk, by simp, .nil, by simp [uStart]⟩, .nil,
    ⟨by simp [uStart], by simp [uStart]⟩⟩, by simp [uStart], rfl⟩

/-- A run is sound throughout iff no live pointer is resized beyond what `umalloc_round` can round.
-/
theorem uRun_sound_iff (mem : Buf) (brk : ℕ) (calls : List UStep)
    (hbrk : brk ≤ userMmapFloor * pageSize)
    (hlive : StepsMeet uStep LiveCall (uStart mem brk) calls) :
    (∀ n, USound (uRun (uStart mem brk) (calls.take n))) ↔ ∀ e ∈ calls, RoundsUp e :=
  run_sound_iff calls (uStart_inv mem hbrk) hlive

def grantedCall (call : UCall) : UStep := ⟨id, ⟨true, true, userMmapFloor⟩, call⟩

def userCalls : List UStep :=
  [grantedCall (.umalloc 100), grantedCall (.ucalloc 3 8), grantedCall (.umalloc 0x20000),
    grantedCall (.urealloc 0x500010 200), grantedCall (.ufree 0xA0000010)]

/-- Two blocks and a mapping are allocated, one block is moved and the mapping freed. -/
theorem uRun_sound_sample :
    (∀ n, USound (uRun (uStart (fun _ => 0) 0x500000) (userCalls.take n))) ∧
      (uRun (uStart (fun _ => 0) 0x500000) userCalls).live =
        [(0x5000C0, 200), (0x500090, 24)] := by
  refine ⟨(uRun_sound_iff _ _ userCalls (by decide) ⟨?_, ⟨?_, ?_⟩, ?_, ⟨?_, .inr ?_⟩, .inr ?_,
    trivial⟩).2 ?_, by decide +kernel⟩
  · exact (by decide : 100 < 2 ^ 32)
  · exact (by decide : 3 < 2 ^ 32)
  · exact (by decide : 8 < 2 ^ 32)
  · exact (by decide : 0x20000 < 2 ^ 32)
  · exact (by decide : 200 < 2 ^ 32)
  · decide +kernel
  · decide +kernel
  · simp [userCalls, RoundsUp, grantedCall]

def wrappedCalls : List UStep :=
  [grantedCall (.umalloc 16), grantedCall (.urealloc 0x500010 0xFFFFFFFF)]

/-- A block of 16 bytes is returned for 4294967295. -/
theorem uRun_wraps : StepsMeet uStep LiveCall (uStart (fun _ => 0) 0x500000) wrappedCalls ∧
    (uRun (uStart (fun _ => 0) 0x500000) wrappedCalls).live = [(0x500010, 0xFFFFFFFF)] ∧
    ¬ USound (uRun (uStart (fun _ => 0) 0x500000) wrappedCalls) := by
  have hfirst : LiveCall (uStart (fun _ => 0) 0x500000) (grantedCall (.umalloc 16)) :=
    (by decide : 16 < 2 ^ 32)
  have hsecond : LiveCall (uStep (uStart (fun _ => 0) 0x500000) (grantedCall (.umalloc 16)))
      (grantedCall (.urealloc 0x500010 0xFFFFFFFF)) :=
    ⟨by decide, .inr (by decide +kernel)⟩
  refine ⟨⟨hfirst, hsecond, trivial⟩, by decide +kernel, ?_⟩
  refine uStep_wrapped (uStep_inv (uStart_inv _ (by decide)) hfirst trivial) hsecond ?_
  simp [RoundsUp, grantedCall]

end Runs

end EsdumanOS
