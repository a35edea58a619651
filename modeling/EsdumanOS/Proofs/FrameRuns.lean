import EsdumanOS.Proofs.Pmm
import EsdumanOS.Proofs.BootMemory

/-!
# The frame allocator over whole runs

What every call keeps: the bit of a frame and its count say the same, `used_memory` counts the bits,
and the words below `lowest_free_idx` are full. As long as no count reaches what a byte can hold, it
is the number of references that are out.
-/

namespace EsdumanOS

open Lib Function List FrameSys Pmm

variable {frame g : ℕ}

section Calls

variable {p : Pmm} {f frame : ℕ}

structure FrameInv (p : Pmm) : Prop where
  count : p.framesCount < 2 ^ 20
  bits : ∀ f < p.framesCount, p.bitmap f = true ↔ 1 ≤ p.refcount f
  used : p.usedMemory = 4096 * p.setBits.card
  full : ∀ f, f / 32 < p.lowestFreeIdx → p.bitmap f = true
  low : ∀ f < pmmLowMemoryFrames, p.bitmap f = true
  top : ∀ f, p.framesCount ≤ f → p.bitmap f = true

lemma card_setBits_le (p : Pmm) : p.setBits.card ≤ p.framesCount :=
  (Finset.card_filter_le _ _).trans (Finset.card_range _).le

lemma card_setBits_update {b : Bool} (p : Pmm) (hf : frame < p.framesCount)
    (hb : p.bitmap frame = !b) :
    if b then ({ p with bitmap := update p.bitmap frame b } : Pmm).setBits.card =
        p.setBits.card + 1
    else ({ p with bitmap := update p.bitmap frame b } : Pmm).setBits.card + 1 =
        p.setBits.card := by
  cases b with
  | true =>
    have hn : frame ∉ p.setBits := by simp [setBits, hb]
    have hs : ({ p with bitmap := update p.bitmap frame true } : Pmm).setBits =
        insert frame p.setBits := by
      ext g
      by_cases hg : g = frame
      · simp [setBits, hg, hf]
      · simp [setBits, hg]
    simp [hs, Finset.card_insert_of_notMem hn]
  | false =>
    have hmem : frame ∈ p.setBits := by simp [setBits, hb, hf]
    have hs : ({ p with bitmap := update p.bitmap frame false } : Pmm).setBits =
        p.setBits.erase frame := by
      ext g
      by_cases hg : g = frame
      · simp [setBits, hg]
      · simp [setBits, hg]
    simp [hs, Finset.card_erase_add_one hmem]

section

variable (h : FrameInv p)
include h

lemma pmmAllocFrame_lowest :
    (pmmAllocFrame p = (none, p) ∧ ∀ f < p.framesCount, p.bitmap f = true) ∨
    ∃ f < p.framesCount, p.bitmap f = false ∧ (∀ g < f, p.bitmap g = true) ∧
      pmmAllocFrame p = (some f, { p with
        bitmap := update p.bitmap f true
        refcount := update p.refcount f 1
        lowestFreeIdx := f / 32
        usedMemory := u32 (p.usedMemory + pageSize) }) := by
  have hh : ∀ g, p.bitmap g = false → p.lowestFreeIdx ≤ g / 32 := by
    intro g hg
    by_contra hlt
    rw [h.full g (by omega)] at hg
    exact absurd hg (by decide)
  unfold pmmAllocFrame pmmFindFirstFree
  cases hfi : firstIdx (fun f => decide (p.lowestFreeIdx ≤ f / 32) && !p.bitmap f)
      (p.bitmapSizeWords * 32) with
  | none =>
    refine .inl ⟨rfl, fun f hf => ?_⟩
    have hn := firstIdx_eq_none.1 hfi f (by unfold bitmapSizeWords; omega)
    by_contra hbit
    rw [Bool.not_eq_true] at hbit
    simp [hbit, hh f hbit] at hn
  | some f =>
    obtain ⟨hfr, -, hl⟩ := firstIdx_eq_some.1 hfi
    simp only [Bool.and_eq_true, decide_eq_true_eq, Bool.not_eq_true'] at hfr
    have hlt : f < p.framesCount := by
      by_contra hge
      rw [h.top f (by omega)] at hfr
      exact absurd hfr.2 (by decide)
    refine .inr ⟨f, hlt, hfr.2, fun g hg => ?_, ?_⟩
    · by_contra hbit
      rw [Bool.not_eq_true] at hbit
      have := hl g hg
      simp [hbit, hh g hbit] at this
    · dsimp only
      rw [if_neg (by omega)]

lemma FrameInv.sound : FrameSound p := by
  refine ⟨h.bits, h.used, h.full, ?_, fun f hf => ?_⟩
  · rcases pmmAllocFrame_lowest h with ⟨heq, ha⟩ | ⟨f, hlt, hfr, -, heq⟩
    · simp only [heq, true_iff]
      exact ha
    · simp only [heq, reduceCtorEq, false_iff]
      intro ha
      rw [ha f hlt] at hfr
      exact absurd hfr (by decide)
  · rcases pmmAllocFrame_lowest h with ⟨heq, -⟩ | ⟨f', hlt, hfr, hl, heq⟩
    · simp [heq] at hf
    · obtain rfl : f' = f := by simpa [heq] using hf
      refine ⟨hlt, hfr, ?_, hl⟩
      by_contra hne
      rw [(h.bits f' hlt).2 (by omega)] at hfr
      exact absurd hfr (by decide)

lemma FrameInv.alloc : FrameInv (pmmAllocFrame p).2 := by
  rcases pmmAllocFrame_lowest h with ⟨heq, -⟩ | ⟨f, hlt, hf, hl, heq⟩
  · rw [heq]
    exact h
  · have hc := card_setBits_update p hlt (b := true) hf
    have hle := card_setBits_le ({ p with bitmap := update p.bitmap f true } : Pmm)
    have hco := h.count
    simp only [if_true] at hc hle
    rw [heq]
    refine ⟨h.count, fun g hg => ?_, ?_, fun g hg => ?_, fun g hg => ?_, fun g hg => ?_⟩
    · by_cases hgf : g = f
      · simp [hgf]
      · simpa [hgf] using h.bits g hg
    · simp only [h.used, pageSize]
      rw [u32_of_lt (by omega)]
      exact (by omega : 4096 * p.setBits.card + 4096 = 4096 * (p.setBits.card + 1)).trans
        (congrArg (4096 * ·) hc.symm)
    · by_cases hgf : g = f
      · simp [hgf]
      · simp only [ne_eq, hgf, not_false_eq_true, update_of_ne]
        refine hl g ?_
        simp only at hg
        omega
    · by_cases hgf : g = f
      · simp [hgf]
      · simpa [hgf] using h.low g hg
    · by_cases hgf : g = f
      · simp [hgf]
      · simpa [hgf] using h.top g hg

lemma FrameInv.recount {n : ℕ} (hb : p.bitmap frame = true) (hn : 1 ≤ n) :
    FrameInv { p with refcount := update p.refcount frame n } := by
  refine ⟨h.count, fun g hg => ?_, h.used, h.full, h.low, h.top⟩
  by_cases hgf : g = frame
  · simp [hgf, hb, hn]
  · simpa [hgf] using h.bits g hg

lemma FrameInv.ref (frame : ℕ) : FrameInv (pmmRefFrame p frame) := by
  unfold pmmRefFrame
  split
  · exact h
  split
  · exact h
  split
  · exact h
  split
  · exact h
  · rename_i hb _
    exact h.recount (by simpa using hb) (by omega)

lemma FrameInv.free (frame : ℕ) : FrameInv (pmmFreeFrame p frame) := by
  unfold pmmFreeFrame
  split
  · exact h
  split
  · exact h
  split
  · exact h
  split
  · rename_i hb hco
    exact h.recount (by simpa using hb) (by omega)
  · rename_i hl hlt hb hco
    simp only [Bool.not_eq_false] at hb
    have hca := card_setBits_update p (by omega) (b := false) hb
    have hle := card_setBits_le p
    have hc := h.count
    simp only [Bool.false_eq_true, if_false] at hca
    refine ⟨h.count, fun g hg => ?_, ?_, fun g hg => ?_, fun g hg => ?_, fun g hg => ?_⟩
    · by_cases hgf : g = frame
      · simp [hgf]
      · simpa [hgf] using h.bits g hg
    · simp only [h.used, pageSize]
      have hv : u32 (4096 * p.setBits.card + 2 ^ 32 - 4096) = 4096 * (p.setBits.card - 1) := by
        unfold u32
        omega
      rw [hv, ← hca, Nat.add_sub_cancel]
      rfl
    · by_cases hgf : g = frame
      · simp only at hg
        split at hg <;> omega
      · simp only [ne_eq, hgf, not_false_eq_true, update_of_ne]
        refine h.full g ?_
        simp only at hg
        split at hg <;> omega
    · simp only
      rw [update_of_ne (show g ≠ frame by omega)]
      exact h.low g hg
    · simp only at hg ⊢
      rw [update_of_ne (show g ≠ frame by omega)]
      exact h.top g hg

end

end Calls

section Boot

variable {fuel : ℕ} {image : KernelImage} {p : Pmm}

lemma usedMemory_fold (bitmap : ℕ → Bool) : ∀ {n : ℕ}, n < 2 ^ 20 →
    (range n).foldl (fun used f => if bitmap f then u32 (used + pageSize) else used) 0 =
      4096 * ({f ∈ Finset.range n | bitmap f = true} : Finset ℕ).card
  | 0, _ => rfl
  | n + 1, h => by
    have hle : ({f ∈ Finset.range n | bitmap f = true} : Finset ℕ).card ≤ n :=
      (Finset.card_filter_le _ _).trans (Finset.card_range n).le
    rw [range_succ, foldl_append, usedMemory_fold bitmap (by omega), foldl_cons,
      foldl_nil, Finset.range_add_one, Finset.filter_insert]
    split_ifs with hb
    · rw [Finset.card_insert_of_notMem (by simp), u32_of_lt (by unfold pageSize; omega)]
      rfl
    · rfl

lemma Booted.frameInv {info : MultibootInfo} (h : Booted image info p) : FrameInv p := by
  have hc : p.framesCount < 2 ^ 20 := by
    rw [h.framesCount]
    exact framesCount_lt _
  have hs : ∀ f, (f < kernelEndFrame image p.framesCount ∨ p.framesCount ≤ f) →
      p.bitmap f = true := by
    intro f hf
    rw [← Bool.not_eq_false, h.bitmap]
    omega
  refine ⟨hc, fun f hf => ?_, ?_, fun f hf => hs f (.inl ?_), fun f hf => hs f (.inl ?_),
    fun f hf => hs f (.inr hf)⟩
  · rw [h.refcount]
    by_cases hb : p.bitmap f = true <;> simp [hb, hf]
  · rw [h.usedMemory, usedMemory_fold _ hc]
    rfl
  · rw [h.lowestFreeIdx] at hf
    omega
  · exact lt_of_lt_of_le hf (low_le_kernelEndFrame image hc)

lemma initPmm_exists_booted {info : Option MultibootInfo} (h : initPmm fuel image info = some p) :
    ∃ info, Booted image info p := by
  rcases info with _ | info
  · exact ⟨⟨none, none⟩, @initPmm_booted fuel image ⟨none, none⟩ p h⟩
  · exact ⟨info, initPmm_booted h⟩

end Boot

section Runs

variable {s : FrameSys} {f : ℕ}

structure OwnersInv (s : FrameSys) : Prop where
  frames : FrameInv s.pmm
  owners : ∀ f, pmmLowMemoryFrames ≤ f → f < s.pmm.framesCount → s.pmm.refcount f = s.owners f

lemma frameStep_frameInv (h : FrameInv s.pmm) (c : FrameCall) : FrameInv (frameStep s c).pmm := by
  cases c with
  | alloc =>
    have halloc := h.alloc
    unfold frameStep
    rcases hres : pmmAllocFrame s.pmm with ⟨_ | f, p⟩ <;> rw [hres] at halloc <;> exact halloc
  | ref addr => exact h.ref _
  | free addr => exact h.free _

lemma OwnersInv.alloc (h : OwnersInv s) : OwnersInv (frameStep s .alloc) := by
  refine ⟨frameStep_frameInv h.frames _, ?_⟩
  unfold frameStep
  rcases pmmAllocFrame_lowest h.frames with ⟨heq, -⟩ | ⟨f, -, -, -, heq⟩
  · rw [heq]
    exact h.owners
  · rw [heq]
    intro g hl hlt
    by_cases hg : g = f
    · simp [hg]
    · simpa [hg] using h.owners g hl hlt

lemma pmmRefFrame_refcount (p : Pmm) (hg : g ≠ frame) :
    (pmmRefFrame p frame).refcount g = p.refcount g := by
  unfold pmmRefFrame
  split_ifs <;> simp [hg]

lemma pmmFreeFrame_refcount (p : Pmm) (hg : g ≠ frame) :
    (pmmFreeFrame p frame).refcount g = p.refcount g := by
  unfold pmmFreeFrame
  split_ifs <;> simp [hg]

lemma pmmRefFrame_framesCount (p : Pmm) (frame : ℕ) :
    (pmmRefFrame p frame).framesCount = p.framesCount := by
  unfold pmmRefFrame
  split_ifs <;> rfl

lemma pmmFreeFrame_framesCount (p : Pmm) (frame : ℕ) :
    (pmmFreeFrame p frame).framesCount = p.framesCount := by
  unfold pmmFreeFrame
  split_ifs <;> rfl

lemma pmmRefFrame_bitmap (p : Pmm) (frame : ℕ) : (pmmRefFrame p frame).bitmap = p.bitmap := by
  unfold pmmRefFrame
  split_ifs <;> rfl

lemma pmmRefFrame_self {p : Pmm} (h : FrameInv p) (hl : pmmLowMemoryFrames ≤ f)
    (hlt : f < p.framesCount) (hm : p.refcount f < 0xFF) :
    (pmmRefFrame p f).refcount f = if 0 < p.refcount f then p.refcount f + 1 else 0 := by
  have hb := h.bits f hlt
  unfold pmmRefFrame
  rw [if_neg (by omega), if_neg (by omega)]
  by_cases hp : 0 < p.refcount f
  · have hs := hb.2 hp
    rw [if_neg (by simp [hs]), if_neg (by omega), if_pos hp]
    simp [hp.ne']
  · have hc : p.bitmap f = false := by
      rw [← Bool.not_eq_true, hb]
      omega
    rw [if_pos hc, if_neg hp]
    omega

lemma pmmFreeFrame_self {p : Pmm} (h : FrameInv p) (hl : pmmLowMemoryFrames ≤ f)
    (hlt : f < p.framesCount) : (pmmFreeFrame p f).refcount f = p.refcount f - 1 ∧
      ((pmmFreeFrame p f).bitmap f = true ↔ 1 < p.refcount f) := by
  have hb := h.bits f hlt
  unfold pmmFreeFrame
  rw [if_neg (by omega), if_neg (by omega)]
  by_cases hs : p.bitmap f = true
  · rw [if_neg (by simp [hs])]
    by_cases hm : 1 < p.refcount f
    · simp [hs, hm]
    · rw [if_neg hm]
      simp only [update_self, Bool.false_eq_true, false_iff]
      omega
  · rw [Bool.not_eq_true] at hs
    rw [if_pos hs]
    have hz : ¬ 1 ≤ p.refcount f := by
      rw [← hb, hs]
      decide
    simp only [hs, Bool.false_eq_true, false_iff]
    omega

lemma owners_step {n : ℕ → ℕ} {frame : ℕ} (hl : pmmLowMemoryFrames ≤ f)
    (hlt : f < s.pmm.framesCount) :
    (if s.counts frame then update s.owners frame (n (s.owners frame)) else s.owners) f =
      if f = frame ∧ 0 < s.owners f then n (s.owners f) else s.owners f := by
  unfold counts
  by_cases hf : f = frame
  · subst hf
    by_cases hp : 0 < s.owners f <;> simp [hl, hlt, hp]
  · split_ifs <;> simp_all

lemma OwnersInv.ref (h : OwnersInv s) {addr : ℕ} (hm : s.owners (addr / pageSize) < 0xFF) :
    OwnersInv (frameStep s (.ref addr)) := by
  refine ⟨frameStep_frameInv h.frames _, fun f hl hlt => ?_⟩
  simp only [frameStep, pmmRefFrame_framesCount] at hlt ⊢
  rw [owners_step (n := (· + 1)) hl hlt]
  by_cases hf : f = addr / pageSize
  · subst hf
    have ho := h.owners _ hl hlt
    rw [pmmRefFrame_self h.frames hl hlt (by omega), ho]
    split_ifs <;> simp_all
  · rw [pmmRefFrame_refcount _ hf, if_neg (by simp [hf])]
    exact h.owners f hl hlt

lemma OwnersInv.free (h : OwnersInv s) (addr : ℕ) : OwnersInv (frameStep s (.free addr)) := by
  refine ⟨frameStep_frameInv h.frames _, fun f hl hlt => ?_⟩
  simp only [frameStep, pmmFreeFrame_framesCount] at hlt ⊢
  rw [owners_step (n := (· - 1)) hl hlt]
  by_cases hf : f = addr / pageSize
  · subst hf
    rw [(pmmFreeFrame_self h.frames hl hlt).1, h.owners _ hl hlt]
    split_ifs <;> simp_all
  · rw [pmmFreeFrame_refcount _ hf, if_neg (by simp [hf])]
    exact h.owners f hl hlt

lemma pmmFreeFrame_bitmap (p : Pmm) (hg : g ≠ frame) :
    (pmmFreeFrame p frame).bitmap g = p.bitmap g := by
  unfold pmmFreeFrame
  split_ifs <;> simp [hg]

lemma OwnersInv.countsOwners (h : OwnersInv s) : CountsOwners s := by
  refine ⟨fun f hl hlt => ?_, fun f hl hlt hse call => ?_⟩
  · rw [h.frames.bits f hlt, h.owners f hl hlt]
    exact Iff.rfl
  · have hp : 1 ≤ s.owners f := by
      rw [← h.owners f hl hlt]
      exact (h.frames.bits f hlt).1 hse
    cases call with
    | alloc =>
      have hk : (frameStep s .alloc).pmm.bitmap f = true := by
        unfold frameStep
        rcases pmmAllocFrame_lowest h.frames with ⟨heq, -⟩ | ⟨g, -, -, -, heq⟩ <;> rw [heq]
        · exact hse
        · by_cases hg : f = g
          · simp [hg]
          · simpa [hg] using hse
      simp [hk]
    | ref addr =>
      simp [frameStep, pmmRefFrame_bitmap, hse]
    | free addr =>
      simp only [frameStep, FrameCall.free.injEq, exists_eq_left']
      by_cases hf : addr / pageSize = f
      · subst hf
        have hs := (pmmFreeFrame_self h.frames hl hlt).2
        rw [h.owners _ hl hlt] at hs
        rw [← Bool.not_eq_true, hs]
        omega
      · rw [pmmFreeFrame_bitmap _ (Ne.symm hf), hse]
        simp [hf]

/-- From any state that `init_pmm` produces, and for all calls. -/
theorem frameRun_sound (fuel : ℕ) (image : KernelImage) (info : Option MultibootInfo) (p : Pmm)
    (h : initPmm fuel image info = some p) (calls : List FrameCall) :
    FrameSound (frameRun (init p) calls).pmm ∧
      (StepsMeet frameStep BelowMax (init p) calls →
        CountsOwners (frameRun (init p) calls)) := by
  obtain ⟨info, hboot⟩ := initPmm_exists_booted h
  have hinv := hboot.frameInv
  refine ⟨?_, fun hmax => ?_⟩
  · have hrun : FrameInv (frameRun (init p) calls).pmm :=
      @foldl_invariant _ _ frameStep (fun s => FrameInv s.pmm)
        (fun s c hs => frameStep_frameInv hs c)
        calls _ hinv
    exact hrun.sound
  · have hinit : OwnersInv (init p) := by
      refine ⟨hinv, fun f _ hlt => ?_⟩
      simp only [init] at hlt ⊢
      rw [hboot.refcount]
      simp [hlt]
    refine (foldl_induction (fun s c hs hc => ?_) calls hinit hmax).countsOwners
    cases c with
    | alloc => exact hs.alloc
    | ref addr => exact hs.ref hc
    | free addr => exact hs.free addr

def plainImage : KernelImage := ⟨0x400000, by decide, by decide⟩

def plainFrameCalls : List FrameCall := [.ref 0x200000, .alloc, .free 0x200000]

/-- A machine whose bootloader says nothing. -/
theorem frameRun_sound_fallback : ∃ p, initPmm 0 plainImage none = some p ∧
    FrameSound (frameRun (init p) plainFrameCalls).pmm ∧
    CountsOwners (frameRun (init p) plainFrameCalls) := by
  obtain ⟨p, hp⟩ : ∃ p, initPmm 0 plainImage none = some p := ⟨_, rfl⟩
  obtain ⟨hsound, hcounts⟩ := frameRun_sound 0 plainImage none p hp plainFrameCalls
  refine ⟨p, hp, hsound, hcounts ⟨?_, trivial, trivial, trivial⟩⟩
  simp only [BelowMax, init]
  split <;> decide

end Runs

end EsdumanOS
