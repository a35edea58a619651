import EsdumanOS.Mount

/-!
# The regions an accepted superblock describes

`load_superblock` compares where the regions start, not where they end, and computes the end of the
last one in 32 bits. So the regions of an accepted superblock are apart just when each one also ends
before the next, in whole numbers.
-/

namespace EsdumanOS

open List

variable {sb : Superblock} {d : Partition} {start count s : ℕ}

lemma mem_region : s ∈ region start count ↔ ∃ i < count, u32 (start + i) = s := by
  simp [region]

lemma mem_region_of_le (h : start + count ≤ 2 ^ 32) :
    s ∈ region start count ↔ start ≤ s ∧ s < start + count := by
  rw [mem_region]
  constructor
  · rintro ⟨i, hi, rfl⟩
    rw [u32_of_lt (by omega)]
    omega
  · intro hs
    exact ⟨s - start, by omega, by rw [u32_of_lt (by omega)]; omega⟩

lemma start_mem_region (hp : 0 < count) (hlt : start < 2 ^ 32) : start ∈ region start count :=
  mem_region.2 ⟨0, hp, u32_of_lt hlt⟩

lemma le_of_disjoint {start' count' : ℕ} (hlt : start < start') (hl' : start' < 2 ^ 32)
    (hp : 0 < count') (h : Disjoint (region start count) (region start' count')) :
    start + count ≤ start' := by
  by_contra hover
  refine Finset.disjoint_left.1 h (mem_region.2 ⟨start' - start, by omega, ?_⟩)
    (start_mem_region hp hl')
  rw [show start + (start' - start) = start' by omega, u32_of_lt hl']

lemma region_end_le {n : ℕ} (hn : n < 2 ^ 32) (hs : start < 2 ^ 32)
    (h : ∀ s ∈ region start count, s < n) : start + count ≤ n ∨ count = 0 := by
  by_contra hne
  by_cases hw : start + count ≤ 2 ^ 32
  · have := h (start + count - 1) ((mem_region_of_le hw).2 ⟨by omega, by omega⟩)
    omega
  · have := h (2 ^ 32 - 1) (mem_region.2 ⟨2 ^ 32 - 1 - start, by omega, by
      rw [u32_of_lt (by omega)]
      omega⟩)
    omega

lemma loadSuperblock_spec (h : loadSuperblock d sb = true) :
    sb.clusterSectors = fsClusterSectors ∧ 0 < sb.totalClusters ∧ 0 < sb.dirStart ∧
      sb.dirStart < sb.fatStart ∧ sb.fatStart < sb.dataStart := by
  simp only [loadSuperblock, Bool.and_eq_true, decide_eq_true_eq, Bool.not_eq_true',
    Bool.or_eq_false_iff, decide_eq_false_iff_not] at h
  omega

lemma parseSuperblock_lt (b : Buf) :
    (parseSuperblock b).fatStart < 2 ^ 32 ∧ (parseSuperblock b).dataStart < 2 ^ 32 :=
  ⟨leField_lt b 28 4, leField_lt b 32 4⟩

lemma RegionsFit.apart {n : ℕ} (hn : n < 2 ^ 32) (ha : loadSuperblock d sb = true)
    (h : RegionsFit sb n) : RegionsApart sb n := by
  obtain ⟨hcs, ht, hdir, hf, hd⟩ := loadSuperblock_spec ha
  obtain ⟨hdf, hfd, he⟩ := h
  have hD : ∀ s, s ∈ dirRegion sb ↔ _ := fun s => mem_region_of_le (by omega)
  have hF : ∀ s, s ∈ fatRegion sb ↔ _ := fun s => mem_region_of_le (by omega)
  have hA : ∀ s, s ∈ dataRegion sb ↔ _ := fun s => mem_region_of_le (by omega)
  refine ⟨?_, ?_, ?_⟩
  · simp only [pairwise_cons, mem_cons, not_mem_nil, or_false, forall_eq_or_imp,
      forall_eq, Finset.disjoint_left, Finset.mem_singleton, List.Pairwise.nil, fsSuperSector, hD,
      hF, hA]
    refine ⟨⟨by omega, by omega, by omega⟩, ⟨?_, ?_⟩, ?_, by simp⟩
    · exact fun s hs hs' => by omega
    · exact fun s hs hs' => by omega
    · exact fun s hs hs' => by omega
  · simp only [mem_cons, not_mem_nil, or_false, forall_eq_or_imp, forall_eq,
      Finset.mem_singleton, fsSuperSector, hD, hF, hA]
    exact ⟨by omega, fun s hs => by omega, fun s hs => by omega, fun s hs => by omega⟩
  · intro c _ hc k hk
    have hl : c * sb.clusterSectors + k < sb.totalClusters * sb.clusterSectors := by
      have := Nat.mul_le_mul_right sb.clusterSectors (Nat.succ_le_of_lt hc)
      rw [Nat.succ_mul] at this
      omega
    unfold clusterToSector
    rw [u32_of_lt (n := c * sb.clusterSectors) (by omega), u32_of_lt (n := sb.dataStart + _)
      (by omega), u32_of_lt (by omega), hA]
    omega

/-- An accepted superblock describes disjoint regions inside the partition iff each ends where the
next may start. -/
theorem regionsApart_iff (b : Buf) (partStart sectorCount : ℕ) (maxSectors : UInt32)
    (h : loadSuperblock ⟨partStart, maxSectors.toNat, sectorCount⟩ (parseSuperblock b) = true) :
    RegionsApart (parseSuperblock b) maxSectors.toNat ↔
      RegionsFit (parseSuperblock b) maxSectors.toNat := by
  have hn : maxSectors.toNat < 2 ^ 32 := maxSectors.toNat_lt
  refine ⟨fun hapart => ?_, fun hfit => hfit.apart hn h⟩
  obtain ⟨hfatlt, hdatalt⟩ := parseSuperblock_lt b
  obtain ⟨hcs, htot, hdir, hfat, hdata⟩ := loadSuperblock_spec h
  have hpair := hapart.disjoint
  simp only [pairwise_cons, mem_cons, not_mem_nil, or_false, forall_eq_or_imp,
    forall_eq] at hpair
  obtain ⟨-, ⟨hDF, -⟩, hFA, -⟩ := hpair
  have hpos : 0 < (parseSuperblock b).totalClusters * (parseSuperblock b).clusterSectors := by
    rw [hcs]
    exact Nat.mul_pos htot (by decide)
  have hfatpos : 0 < fatSectorsFor (parseSuperblock b).totalClusters := by
    unfold fatSectorsFor
    omega
  refine ⟨le_of_disjoint hfat hfatlt hfatpos hDF, le_of_disjoint hdata hdatalt hpos hFA, ?_⟩
  have hinside := hapart.inside (dataRegion (parseSuperblock b)) (by simp)
  exact (region_end_le hn hdatalt hinside).resolve_right (by omega)

def crowdedSuperblock : Superblock :=
  ⟨fsSuperMagic, fsFormatVersion, 512, 2000, 1, 96, 512, 96, 8, 2, 3, 100, 0⟩

/-- It is accepted, and sector 2 belongs to both tables. -/
theorem crowdedSuperblock_overlaps :
    loadSuperblock ⟨64, 2000, 2064⟩ (parseSuperblock crowdedSuperblock.byte) = true ∧
      ¬ RegionsApart (parseSuperblock crowdedSuperblock.byte) 2000 := by
  refine ⟨by decide, fun h => ?_⟩
  have hpair := h.disjoint
  simp only [pairwise_cons, mem_cons, not_mem_nil, or_false, forall_eq_or_imp,
    forall_eq] at hpair
  refine Finset.disjoint_left.1 hpair.2.1.1 (mem_region.2 ⟨1, by decide, rfl⟩)
    (mem_region.2 ⟨0, by decide, rfl⟩)

/-- The superblock of a fresh disk of 4096 sectors. -/
theorem regionsApart_fresh :
    RegionsApart (parseSuperblock (formatSuperblock 4032 479).byte) 4032 :=
  (regionsApart_iff (formatSuperblock 4032 479).byte 64 4096 4032 (by decide)).2
    (by unfold RegionsFit; decide)

end EsdumanOS
