import EsdumanOS.Pmm
import EsdumanOS.Lib.Ledger

/-!
# The frame allocator against its ledger

`Holds p sys usr` says who holds the frames of `p`: `sys` the frames with one owner for good (page
tables, directories, the kernel's own), `usr` the frames that page table entries map, once for every
entry. Each call of the allocator is one entry in the ledger.
-/

namespace EsdumanOS

open Function Multiset

def Pmm.Pool (p : Pmm) (f : ℕ) : Prop :=
  pmmLowMemoryFrames ≤ f ∧ f < p.framesCount

structure Pmm.Holds (p : Pmm) (sys usr : Multiset ℕ) : Prop where
  ledger : Lib.Ledger p.Pool p.refcount sys usr
  bits : ∀ f, p.Pool f → (p.bitmap f = true ↔ p.refcount f ≠ 0)
  low : ∀ f < pmmLowMemoryFrames, p.bitmap f = true

variable {p p' : Pmm} {sys usr : Multiset ℕ} {f : ℕ}

lemma pmmAllocFrame_cases (p : Pmm) :
    (∃ l, pmmAllocFrame p = (none, { p with lowestFreeIdx := l })) ∨
    ∃ f l, f < p.framesCount ∧ p.bitmap f = false ∧
      pmmAllocFrame p = (some f, { p with
        bitmap := update p.bitmap f true
        refcount := update p.refcount f 1
        lowestFreeIdx := l
        usedMemory := u32 (p.usedMemory + pageSize) }) := by
  unfold pmmAllocFrame pmmFindFirstFree
  cases hfi : Lib.firstIdx (fun f => decide (p.lowestFreeIdx ≤ f / 32) && !p.bitmap f)
      (p.bitmapSizeWords * 32) with
  | none => exact .inl ⟨p.lowestFreeIdx, rfl⟩
  | some f =>
    obtain ⟨hfr, -⟩ := Lib.firstIdx_eq_some.1 hfi
    dsimp only
    by_cases hf : p.framesCount ≤ f
    · rw [if_pos hf]
      exact .inl ⟨f / 32, rfl⟩
    · rw [if_neg hf]
      exact .inr ⟨f, f / 32, by omega, by simpa using (Bool.and_eq_true_iff.1 hfr).2, rfl⟩

namespace Pmm.Holds

section

variable (h : p.Holds sys usr)
include h

lemma setHint (l : ℕ) : Pmm.Holds { p with lowestFreeIdx := l } sys usr := ⟨h.ledger, h.bits, h.low⟩

lemma pool_of_free (hlt : f < p.framesCount) (hf : p.bitmap f = false) :
    p.Pool f ∧ p.refcount f = 0 := by
  have hp : p.Pool f := by
    refine ⟨?_, hlt⟩
    by_contra hlow
    rw [h.low f (by omega)] at hf
    exact absurd hf (by decide)
  refine ⟨hp, ?_⟩
  by_contra hne
  rw [(h.bits f hp).2 hne] at hf
  exact absurd hf (by decide)

lemma bits_update {b : Bool} {n : ℕ} (hb : b = true ↔ n ≠ 0) (g : ℕ)
    (hg : p.Pool g) : update p.bitmap f b g = true ↔
      update p.refcount f n g ≠ 0 := by
  by_cases hgf : g = f
  · subst hgf
    simpa using hb
  · rw [update_of_ne hgf, update_of_ne hgf]
    exact h.bits g hg

lemma bits_refcount {n : ℕ} (hf : p.bitmap f = true) (hn : n ≠ 0) (g : ℕ)
    (hg : p.Pool g) : p.bitmap g = true ↔ update p.refcount f n g ≠ 0 := by
  have hb := h.bits_update (f := f) (b := true) (n := n) (by simpa using hn) g hg
  rwa [← hf, update_eq_self, hf] at hb

lemma low_update {b : Bool} (hf : p.Pool f) :
    ∀ g < pmmLowMemoryFrames, update p.bitmap f b g = true := by
  intro g hg
  have := hf.1
  rw [update_of_ne (by omega)]
  exact h.low g hg

lemma alloc_none (ha : pmmAllocFrame p = (none, p')) : p'.Holds sys usr := by
  rcases pmmAllocFrame_cases p with ⟨l, heq⟩ | ⟨f, l, -, -, heq⟩ <;> cases ha.symm.trans heq
  exact h.setHint l

section

variable (ha : pmmAllocFrame p = (some f, p'))
include ha

lemma alloc_some :
    p.Pool f ∧ p.refcount f = 0 ∧ ∃ l u, p' = { p with
      bitmap := update p.bitmap f true
      refcount := update p.refcount f 1
      lowestFreeIdx := l
      usedMemory := u } := by
  rcases pmmAllocFrame_cases p with ⟨l, heq⟩ | ⟨f, l, hlt, hf, heq⟩ <;> cases ha.symm.trans heq
  obtain ⟨hp, hz⟩ := h.pool_of_free hlt hf
  exact ⟨hp, hz, _, _, rfl⟩

lemma alloc_fresh : f ∉ sys + usr :=
  h.ledger.notMem_of_zero (h.alloc_some ha).2.1

lemma alloc_sys : p'.Holds (f ::ₘ sys) usr := by
  obtain ⟨hp, hz, l, u, rfl⟩ := h.alloc_some ha
  exact ⟨h.ledger.take_sole hp hz, h.bits_update (by simp), h.low_update hp⟩

lemma alloc_usr : p'.Holds sys (f ::ₘ usr) := by
  have hn := h.alloc_fresh ha
  obtain ⟨hp, hz, l, u, rfl⟩ := h.alloc_some ha
  have ht := h.ledger.take_shared hp fun hs => hn (mem_add.2 (.inl hs))
  rw [hz] at ht
  exact ⟨ht, h.bits_update (by simp), h.low_update hp⟩

end

lemma pool (hf : f ∈ sys + usr) : p.Pool f := h.ledger.mem_pool f hf

lemma allocated (hf : f ∈ sys + usr) : p.bitmap f = true := by
  refine (h.bits f (h.pool hf)).2 ?_
  rw [h.ledger.count f (h.pool hf)]
  have := count_pos.2 hf
  omega

lemma ref (hf : f ∈ usr) (hr : usr.count f < 0xFF) :
    (pmmRefFrame p f).Holds sys (f ::ₘ usr) := by
  have hmem : f ∈ sys + usr := mem_add.2 (.inr hf)
  obtain ⟨hl, hlt⟩ := h.pool hmem
  have hc := h.ledger.refs_shared hf
  have hp := count_pos.2 hf
  have ht := h.ledger.take_shared (h.pool hmem) fun hs => h.ledger.apart f hs hf
  unfold pmmRefFrame
  rw [if_neg (by omega), if_neg (by omega), if_neg (by simp [h.allocated hmem]), if_neg (by omega)]
  rw [if_neg (by omega)]
  exact ⟨ht, h.bits_refcount (h.allocated hmem) (by omega), h.low⟩

end

lemma pmmFreeFrame_last (hp : p.Pool f) (hb : p.bitmap f = true) (ho : p.refcount f ≤ 1) :
    ∃ l u, pmmFreeFrame p f = { p with
      refcount := update p.refcount f 0
      bitmap := update p.bitmap f false
      usedMemory := u
      lowestFreeIdx := l } := by
  obtain ⟨hl, hlt⟩ := hp
  unfold pmmFreeFrame
  rw [if_neg (by omega), if_neg (by omega), if_neg (by simp [hb]), if_neg (by omega)]
  exact ⟨_, _, rfl⟩

lemma free_sys (h : p.Holds (f ::ₘ sys) usr) : (pmmFreeFrame p f).Holds sys usr := by
  have hmem : f ∈ f ::ₘ sys + usr := mem_add.2 (.inl (mem_cons_self f sys))
  have ho := h.ledger.refs_sole (mem_cons_self f sys)
  obtain ⟨l, u, heq⟩ := pmmFreeFrame_last (h.pool hmem) (h.allocated hmem) ho.le
  rw [heq]
  exact ⟨h.ledger.drop_sole, h.bits_update (by simp), h.low_update (h.pool hmem)⟩

lemma free_usr (h : p.Holds sys (f ::ₘ usr)) : (pmmFreeFrame p f).Holds sys usr := by
  have hmem : f ∈ sys + f ::ₘ usr := mem_add.2 (.inr (mem_cons_self f usr))
  have hd := h.ledger.drop_shared
  have hb := h.allocated hmem
  by_cases ho : p.refcount f ≤ 1
  · obtain ⟨l, u, heq⟩ := pmmFreeFrame_last (h.pool hmem) hb ho
    rw [heq]
    rw [show p.refcount f - 1 = 0 by omega] at hd
    exact ⟨hd, h.bits_update (by simp), h.low_update (h.pool hmem)⟩
  · obtain ⟨hl, hlt⟩ := h.pool hmem
    unfold pmmFreeFrame
    rw [if_neg (by omega), if_neg (by omega), if_neg (by simp [hb]), if_pos (by omega)]
    exact ⟨hd, h.bits_refcount hb (by omega), h.low⟩

lemma refcount_usr (h : p.Holds sys usr) (hf : f ∈ usr) :
    pmmFrameRefcount p f = usr.count f := by
  have := (h.pool (mem_add.2 (.inr hf))).2
  unfold pmmFrameRefcount
  rw [if_neg (by omega), h.ledger.refs_shared hf]

end Pmm.Holds

end EsdumanOS
