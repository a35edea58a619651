import EsdumanOS.BootMemory

/-!
# The frames that are free after boot

`init_pmm` ends exactly if no usable region has a length whose low word is in the last page of the
32-bit range, and then it leaves free the frames that the low words name. Whether it hands out
usable memory only is a question about the map.
-/

namespace EsdumanOS

open List MultibootInfo

section Region

variable {framesCount start length fuel : ℕ} {bitmap bitmap' : ℕ → Bool} {f : ℕ}

lemma clearRegion_none (hle : 2 ^ 32 - pageSize < length) : ∀ {fuel k : ℕ} {bitmap : ℕ → Bool},
    k < 2 ^ 20 → clearRegion framesCount start length fuel (k * pageSize) bitmap = none
  | 0, _, _, _ => rfl
  | fuel + 1, k, bitmap, hk => by
    unfold pageSize at hle
    have hlt : k * pageSize < length := by
      unfold pageSize
      omega
    rw [clearRegion, if_pos hlt]
    by_cases hl : k + 1 < 2 ^ 20
    · have hn : u32 (k * pageSize + pageSize) = (k + 1) * pageSize := by
        unfold u32 pageSize
        omega
      rw [hn]
      exact clearRegion_none hle hl
    · -- the counter wraps, and the loop starts over
      have hn : u32 (k * pageSize + pageSize) = 0 * pageSize := by
        unfold u32 pageSize
        omega
      rw [hn]
      exact clearRegion_none hle (by omega)

lemma next_offset {k : ℕ} (hl : length ≤ 2 ^ 32 - pageSize) (hlt : k * pageSize < length) :
    u32 (k * pageSize + pageSize) = (k + 1) * pageSize := by
  unfold u32 pageSize at *
  omega

lemma clearRegion_some (hl : length ≤ 2 ^ 32 - pageSize) :
    ∀ {fuel k : ℕ} {bitmap : ℕ → Bool},
      clearRegion framesCount start length fuel (k * pageSize) bitmap = some bitmap' →
      (bitmap' f = false ↔ bitmap f = false ∨ f < framesCount ∧
        ∃ i, k ≤ i ∧ i * pageSize < length ∧ f = u32 (start + i * pageSize) / pageSize)
  | 0, _, _, h => by simp [clearRegion] at h
  | fuel + 1, k, bitmap, h => by
    rw [clearRegion] at h
    split_ifs at h with hlt
    · rw [next_offset hl hlt] at h
      rw [clearRegion_some hl h]
      have hs : (if u32 (start + k * pageSize) / pageSize < framesCount
            then Function.update bitmap (u32 (start + k * pageSize) / pageSize) false
            else bitmap) f = false ↔ bitmap f = false ∨
          f < framesCount ∧ f = u32 (start + k * pageSize) / pageSize := by
        split_ifs with hfr
        · by_cases hf : f = u32 (start + k * pageSize) / pageSize
          · simp [hf, hfr]
          · simp [hf]
        · constructor
          · exact .inl
          · rintro (h | ⟨hlt, rfl⟩)
            · exact h
            · exact absurd hlt hfr
      rw [hs, or_assoc, ← and_or_left]
      refine or_congr Iff.rfl (and_congr Iff.rfl ⟨?_, ?_⟩)
      · rintro (hf | ⟨i, hi, hr⟩)
        · exact ⟨k, le_rfl, hlt, hf⟩
        · exact ⟨i, by omega, hr⟩
      · rintro ⟨i, hi, hil, hf⟩
        rcases hi.eq_or_lt with rfl | hi
        · exact .inl hf
        · exact .inr ⟨i, hi, hil, hf⟩
    · obtain rfl : bitmap = bitmap' := by simpa using h
      refine ⟨.inl, ?_⟩
      rintro (h | ⟨-, i, hi, hil, -⟩)
      · exact h
      · have := Nat.mul_le_mul_right pageSize hi
        omega

lemma clearRegion_ends (hl : length ≤ 2 ^ 32 - pageSize) {k : ℕ}
    (h : length ≤ (k + fuel) * pageSize) :
    ∃ bitmap', clearRegion framesCount start length (fuel + 1) (k * pageSize) bitmap =
      some bitmap' := by
  induction fuel generalizing k bitmap with
  | zero =>
    rw [clearRegion, if_neg (by simpa using h)]
    exact ⟨_, rfl⟩
  | succ fuel ih =>
    rw [clearRegion]
    split_ifs with hlt
    · rw [next_offset hl hlt]
      refine ih ?_
      rw [Nat.add_assoc, Nat.add_comm 1]
      exact h
    · exact ⟨_, rfl⟩

end Region

section Map

variable {framesCount fuel : ℕ} {bitmap' : ℕ → Bool} {f : ℕ}

lemma clearMap_some : ∀ {entries : List MmapEntry} {bitmap : ℕ → Bool},
    clearMap framesCount fuel entries bitmap = some bitmap' →
    (∀ e ∈ entries, e.type = 1 → e.lenLow ≤ 2 ^ 32 - pageSize) ∧
    (bitmap' f = false ↔ bitmap f = false ∨ f < framesCount ∧
      ∃ e ∈ entries, e.type = 1 ∧ e.Names f)
  | [], bitmap, h => by
    obtain rfl : bitmap = bitmap' := by simpa [clearMap] using h
    simp
  | e :: es, bitmap, h => by
    rw [clearMap] at h
    split_ifs at h with ht
    · rcases hr : clearRegion framesCount e.addrLow e.lenLow fuel 0 bitmap with _ | bitmap1
      · rw [hr] at h
        simp at h
      · rw [hr] at h
        have hle : e.lenLow ≤ 2 ^ 32 - pageSize := by
          by_contra hle
          rw [← Nat.zero_mul pageSize, clearRegion_none (by omega) (by omega)] at hr
          simp at hr
        rw [← Nat.zero_mul pageSize] at hr
        obtain ⟨hl, hf⟩ := clearMap_some h
        refine ⟨?_, ?_⟩
        · exact forall_mem_cons.2 ⟨fun _ => hle, hl⟩
        · rw [hf, clearRegion_some hle hr]
          simp [MmapEntry.Names, ht, or_assoc, ← and_or_left]
    · obtain ⟨hl, hf⟩ := clearMap_some h
      refine ⟨?_, ?_⟩
      · exact forall_mem_cons.2 ⟨fun h => absurd h ht, hl⟩
      · rw [hf]
        simp [ht]

lemma clearMap_ends : ∀ {entries : List MmapEntry} {bitmap : ℕ → Bool},
    (∀ e ∈ entries, e.type = 1 → e.lenLow ≤ 2 ^ 32 - pageSize) →
    ∃ bitmap', clearMap framesCount (2 ^ 20 + 1) entries bitmap = some bitmap'
  | [], bitmap, _ => ⟨bitmap, rfl⟩
  | e :: es, bitmap, h => by
    rw [clearMap]
    have he : ∀ e ∈ es, e.type = 1 → e.lenLow ≤ 2 ^ 32 - pageSize :=
      fun e' he' => h e' (mem_cons_of_mem _ he')
    split_ifs with ht
    · have hl := h e mem_cons_self ht
      obtain ⟨bitmap1, hr⟩ := @clearRegion_ends framesCount e.addrLow e.lenLow (2 ^ 20) bitmap hl 0
        (by unfold pageSize at *; omega)
      rw [Nat.zero_mul] at hr
      rw [hr]
      exact clearMap_ends he
    · exact clearMap_ends he

end Map

section Boot

variable {fuel : ℕ} {image : KernelImage} {info : MultibootInfo} {p : Pmm} {f : ℕ}

lemma u32_lt (n : ℕ) : u32 n < 2 ^ 32 := Nat.mod_lt _ (by decide)

lemma highestAddr_lt (entries : List MmapEntry) : highestAddr entries < 2 ^ 32 := by
  refine @Lib.foldl_invariant _ _ _ (· < 2 ^ 32) (fun h e hh => ?_) entries 0 (by decide)
  split_ifs
  · exact u32_lt _
  · exact hh
  · exact hh

section

variable (info)

lemma mapHighest_lt : mapHighest info < 2 ^ 32 := by
  unfold mapHighest
  split
  · exact highestAddr_lt _
  · decide

lemma foundMemory_lt : (foundMemory info).1 < 2 ^ 32 := by
  unfold foundMemory
  split
  · exact mapHighest_lt info
  · split
    · exact u32_lt _
    · decide

lemma totalMemory_lt : (totalMemory info).1 < 2 ^ 32 := by
  unfold totalMemory
  split
  · exact (by decide : pmmFallbackMemory < 2 ^ 32)
  · exact foundMemory_lt info

lemma framesCount_lt : (totalMemory info).1 / pageSize < 2 ^ 20 := by
  have := totalMemory_lt info
  unfold pageSize
  omega

end

lemma kernelEndFrame_eq (image : KernelImage) {framesCount : ℕ} (h : framesCount < 2 ^ 20) :
    kernelEndFrame image framesCount =
      (image.kernelEnd + 0x100000 + (framesCount + 31) / 32 * 4 + framesCount + 4095) / 4096 := by
  have hi := image.high
  have he : u32 (image.kernelEnd + 0x100000 + (framesCount + 31) / 32 * 4 + framesCount) =
      image.kernelEnd + 0x100000 + (framesCount + 31) / 32 * 4 + framesCount := u32_of_lt (by omega)
  simp only [kernelEndFrame, he, pageSize]
  rw [u32_of_lt (by omega)]
  omega

lemma kernelEndFrame_le {framesCount : ℕ} (h : framesCount < 2 ^ 20)
    (hf : kernelEndFrame image framesCount ≤ f) :
    image.kernelEnd + 0x100000 + (framesCount + 31) / 32 * 4 + framesCount ≤ f * pageSize := by
  rw [kernelEndFrame_eq image h] at hf
  unfold pageSize
  omega

lemma low_le_kernelEndFrame (image : KernelImage) {framesCount : ℕ} (h : framesCount < 2 ^ 20) :
    pmmLowMemoryFrames ≤ kernelEndFrame image framesCount := by
  rw [kernelEndFrame_eq image h]
  simp only [pmmLowMemoryFrames, pageSize]
  omega

lemma freeBitmap_some {framesCount : ℕ} {bitmap : ℕ → Bool}
    (h : freeBitmap fuel framesCount (totalMemory info).2 info = some bitmap) :
    info.LoopsEnd ∧ ∀ f, bitmap f = false ↔ f < framesCount ∧ info.Names f := by
  unfold LoopsEnd Names
  rcases info with ⟨upper, _ | entries⟩
  · rcases hf : (totalMemory (some ⟨upper, none⟩)).2 <;> rw [hf] at h <;>
      simp only [freeBitmap, Option.some.injEq] at h <;> subst h <;> simp
  · rcases hf : (totalMemory (some ⟨upper, some entries⟩)).2 <;> rw [hf] at h
    · simp only [freeBitmap, Option.some.injEq] at h
      subst h
      simp
    · refine ⟨(@clearMap_some _ _ _ 0 _ _ h).1, fun f => ?_⟩
      rw [(clearMap_some h).2]
      simp

lemma freeBitmap_ends {framesCount : ℕ} (h : info.LoopsEnd) :
    ∃ bitmap, freeBitmap (2 ^ 20 + 1) framesCount (totalMemory info).2 info = some bitmap := by
  unfold LoopsEnd at h
  rcases info with ⟨upper, _ | entries⟩
  · rcases hf : (totalMemory (some ⟨upper, none⟩)).2 <;> exact ⟨_, rfl⟩
  · rcases hf : (totalMemory (some ⟨upper, some entries⟩)).2
    · exact ⟨_, rfl⟩
    · rw [hf] at h
      exact clearMap_ends h

structure Booted (image : KernelImage) (info : MultibootInfo) (p : Pmm) : Prop where
  ends : info.LoopsEnd
  framesCount : p.framesCount = (totalMemory info).1 / pageSize
  bitmap : ∀ f, p.bitmap f = false ↔
    kernelEndFrame image p.framesCount ≤ f ∧ f < p.framesCount ∧ info.Names f
  refcount : ∀ f, p.refcount f = if f < p.framesCount ∧ p.bitmap f = true then 1 else 0
  lowestFreeIdx : p.lowestFreeIdx = kernelEndFrame image p.framesCount / 32
  usedMemory : p.usedMemory = (List.range p.framesCount).foldl
    (fun used f => if p.bitmap f then u32 (used + pageSize) else used) 0

lemma initPmm_booted (h : initPmm fuel image (some info) = some p) : Booted image info p := by
  rcases hf : freeBitmap fuel ((totalMemory info).1 / pageSize) (totalMemory info).2 info with
    _ | bitmap <;> simp only [initPmm, hf] at h
  · simp at h
  · obtain ⟨he, hn⟩ := freeBitmap_some hf
    simp only [Option.some.injEq] at h
    subst h
    refine ⟨he, rfl, fun f => ?_, fun f => rfl, rfl, rfl⟩
    simp [hn]

lemma initPmm_ends (image : KernelImage) (h : info.LoopsEnd) :
    ∃ fuel p, initPmm fuel image (some info) = some p := by
  obtain ⟨bitmap, hf⟩ := @freeBitmap_ends info ((totalMemory info).1 / pageSize) h
  exact ⟨2 ^ 20 + 1, _, by simp only [initPmm, hf]; rfl⟩

/-- `init_pmm` ends and leaves only usable memory free exactly if the map is honest. -/
theorem initSafe_iff (image : KernelImage) (boot : Multiboot) (memUpper : Option ℕ)
    (entries : List MmapEntry) :
    InitSafe image boot memUpper entries ↔ MapHonest image boot memUpper entries := by
  constructor
  · rintro ⟨fuel, p, hinit, hsafe⟩
    have hboot := initPmm_booted hinit
    refine ⟨hboot.ends, fun f hend hlt hnames => ?_⟩
    have hfree : p.bitmap f = false := by
      rw [hboot.bitmap f, hboot.framesCount]
      exact ⟨hend, hlt, hnames⟩
    exact ⟨hsafe.usable f hfree, hsafe.clear f hfree⟩
  · rintro ⟨hends, hhonest⟩
    obtain ⟨fuel, p, hinit⟩ := initPmm_ends image hends
    have hboot := initPmm_booted hinit
    have hnames := hboot.bitmap
    rw [hboot.framesCount] at hnames
    refine ⟨fuel, p, hinit, ⟨fun f hf => ?_, fun f hf => ?_, fun f hf => ?_⟩⟩
    · obtain ⟨hend, hlt, hn⟩ := (hnames f).1 hf
      exact (hhonest f hend hlt hn).1
    · obtain ⟨hend, hlt, hn⟩ := (hnames f).1 hf
      exact (hhonest f hend hlt hn).2
    · unfold Pmm.bitmapSizeWords
      rw [hboot.framesCount]
      exact kernelEndFrame_le (framesCount_lt _) ((hnames f).1 hf).1

def highMap : List MmapEntry := [⟨0, 0x80000000, 1⟩, ⟨0x100000000, 0xC0000000, 1⟩]

/-- The low words of the second region name the addresses of the devices. -/
theorem highMap_unsafe :
    ¬ InitSafe ⟨0x400000, by decide, by decide⟩ .one none highMap := by
  rintro ⟨fuel, p, hinit, hsafe⟩
  have hboot := initPmm_booted hinit
  have hfree : p.bitmap 0x90000 = false := by
    rw [hboot.bitmap, hboot.framesCount]
    refine ⟨by decide, by decide, ?_⟩
    exact ⟨⟨0x100000000, 0xC0000000, 1⟩, by decide, rfl, 0x90000, by decide, by decide⟩
  obtain ⟨e, he, -, hlow, htop⟩ :=
    hsafe.usable 0x90000 hfree (0x90000 * pageSize) le_rfl (by decide)
  simp only [highMap, mem_cons, not_mem_nil, or_false] at he
  rcases he with rfl | rfl
  · exact absurd htop (by decide)
  · exact absurd hlow (by decide)

end Boot

end EsdumanOS
