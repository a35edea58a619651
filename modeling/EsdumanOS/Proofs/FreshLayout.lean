import EsdumanOS.Remount
import EsdumanOS.Proofs.Regions
import EsdumanOS.Proofs.Tables

/-!
# The layout of a fresh disk

The second pass of `format_disk` changes nothing: with fewer clusters the allocation table only
shrinks, so what fitted before it fits behind it (`formatPass_settles`). The fields are then small
enough to be read back as they were written.
-/

namespace EsdumanOS

open Lib List Sector

variable {n : ℕ}

lemma growEntries_fits (m : ℕ) : ∀ fuel entries, growEntries m fuel entries = entries ∨
    dirSectorsFor (growEntries m fuel entries) * 20 ≤ m
  | 0, _ => .inl rfl
  | fuel + 1, entries => by
    rw [growEntries]
    split_ifs with hc
    · rcases growEntries_fits m fuel (entries * 2) with heq | hf
      · rw [heq]
        exact .inr hc.2
      · exact .inr hf
    · exact .inl rfl

/-- The clusters that are left after a pass fit behind the smaller table they need. -/
lemma formatPass_settles {m f c : ℕ} (hc : 3 ≤ c) (hfi : f + fatSectorsFor c + 24 ≤ m) :
    3 ≤ (formatPass m f c).1 ∧ (formatPass m f c).1 ≤ c ∧
      formatPass m f (formatPass m f c).1 =
        ((formatPass m f c).1, f + fatSectorsFor (formatPass m f c).1) ∧
      f + fatSectorsFor (formatPass m f c).1 + (formatPass m f c).1 * fsClusterSectors ≤ m := by
  have hf : (formatPass m f c).1 = min ((m - (f + fatSectorsFor c)) / 8) c := by
    simp only [formatPass, fsClusterSectors]
    split_ifs <;> omega
  obtain ⟨c1, hc1⟩ : ∃ c1, c1 = (formatPass m f c).1 := ⟨_, rfl⟩
  rw [← hc1] at hf ⊢
  have hle : c1 ≤ c := by omega
  have hs : fatSectorsFor c1 ≤ fatSectorsFor c := by
    unfold fatSectorsFor
    omega
  have hr : f + fatSectorsFor c1 + c1 * 8 ≤ m := by omega
  simp only [formatPass, fsClusterSectors, Prod.mk.injEq, and_true]
  split_ifs <;> omega

abbrev freshDirSectors (n : ℕ) : ℕ := dirSectorsFor (freshSuperblock n).maxEntries

abbrev freshFatSectors (n : ℕ) : ℕ := fatSectorsFor (freshSuperblock n).totalClusters

structure FreshFigures (n : ℕ) : Prop where
  maxSectors : (UInt32.ofNat (n - fsPartStartLba)).toNat = n - fsPartStartLba
  entries : 512 ≤ (freshSuperblock n).maxEntries ∧ (freshSuperblock n).maxEntries ≤ fsMaxEntriesCap
  clusters : 3 ≤ (freshSuperblock n).totalClusters ∧
    (freshSuperblock n).totalClusters ≤ fsMaxClustersCap
  fatStart : (freshSuperblock n).fatStart = 1 + freshDirSectors n
  dataStart : (freshSuperblock n).dataStart = (freshSuperblock n).fatStart + freshFatSectors n
  ends : (freshSuperblock n).dataStart + (freshSuperblock n).totalClusters * fsClusterSectors ≤
    n - fsPartStartLba

lemma freshFigures (hn : n < 2 ^ 32) (h : ReachesFormat n) : FreshFigures n := by
  obtain ⟨m, hm⟩ : ∃ m, m = n - fsPartStartLba := ⟨_, rfl⟩
  obtain ⟨c, hc⟩ : ∃ c, c = estimateClusters m := ⟨_, rfl⟩
  have hma : (UInt32.ofNat m).toNat = m := by
    exact Nat.mod_eq_of_lt (by omega)
  obtain ⟨e, he⟩ : ∃ e, e = formatEntries (UInt32.ofNat m) := ⟨_, rfl⟩
  have hb := formatEntries_bounds (UInt32.ofNat m)
  have hg : e = 512 ∨ dirSectorsFor e * 20 ≤ m := by
    have := growEntries_fits m 4 512
    rwa [he, formatEntries, hma]
  obtain ⟨hsi, hes⟩ := h
  rw [← hm, ← hc] at hes
  rw [← he] at hb
  have hcl : c ≤ fsMaxClustersCap ∧ c * 8 + 200 ≤ m := by
    simp only [estimateClusters, fsDataStartSector, fsClusterSectors, fsMaxClustersCap,
      fsFirstDataCluster] at hc hes ⊢
    omega
  have hf : formatFatStart (UInt32.ofNat m) + fatSectorsFor c + 24 ≤ m := by
    rw [formatFatStart, ← he]
    simp only [fsDirStartSector, fatSectorsFor, dirSectorsFor, entrySize, fsFirstDataCluster] at *
    rcases hg with heq | hg
    · omega
    · omega
  obtain ⟨ht, hle, hp, hen⟩ := formatPass_settles hes hf
  have hs : formatClusters (UInt32.ofNat m) c =
      ((formatPass m (formatFatStart (UInt32.ofNat m)) c).1, formatFatStart (UInt32.ofNat m) +
        fatSectorsFor (formatPass m (formatFatStart (UInt32.ofNat m)) c).1) := by
    simp only [formatClusters]
    rw [if_neg (by omega), hma, hp]
  have hsb : freshSuperblock n = formatSuperblock (UInt32.ofNat m) c := by
    rw [freshSuperblock, ← hm, ← hc]
  refine ⟨by rw [← hm]; exact hma, ?_, ?_, ?_, ?_, ?_⟩ <;>
    simp only [freshDirSectors, freshFatSectors, hsb, formatSuperblock, hs, ← he]
  · exact hb
  · exact ⟨ht, by omega⟩
  · rw [formatFatStart, ← he]
    rfl
  · rw [← hm]
    exact hen

lemma leField_leByte (v : ℕ) : ∀ (w : ℕ) {b : Buf} {off k : ℕ},
    (∀ j < w, b (off + j) = leByte v (k + j)) → leField b off w = v / 256 ^ k % 256 ^ w
  | 0, _, _, _, _ => by simp [leField, Nat.mod_one]
  | w + 1, b, off, k, h => by
    have hh := h 0 (by omega)
    have ih := @leField_leByte v w b (off + 1) (k + 1) fun j hj => by
      rw [show off + 1 + j = off + (j + 1) by omega, h (j + 1) (by omega),
        show k + (j + 1) = k + 1 + j by omega]
    rw [add_zero, add_zero] at hh
    rw [leField, hh, ih, leByte, UInt8.toNat_ofNat', pow_succ 256 k, ← Nat.div_div_eq_div_mul,
      pow_succ' 256 w, Nat.mod_mul]

lemma leField_eq {b : Buf} {off w v : ℕ} (hv : v < 256 ^ w)
    (h : ∀ j < w, b (off + j) = leByte v j) : leField b off w = v := by
  rw [leField_leByte v w (k := 0) fun j hj => by rw [h j hj, zero_add], pow_zero, Nat.div_one,
    Nat.mod_eq_of_lt hv]

lemma Sector.bytes_ofBuf {b : Buf} {k : ℕ} (hk : k < 512) :
    bytes (ofBuf b) k = b k := by
  simp [bytes, ofBuf, hk]

lemma parseSuperblock_byte {sb : Superblock} (h32 : ∀ v ∈ [sb.magic, sb.totalSectors, sb.dirStart,
      sb.dirSectors, sb.maxEntries, sb.fatStart, sb.dataStart, sb.totalClusters, sb.flags],
      v < 256 ^ 4)
    (h16 : ∀ v ∈ [sb.formatVersion, sb.sectorSize, sb.entrySize, sb.clusterSectors], v < 256 ^ 2) :
    parseSuperblock (bytes (ofBuf fun k => sb.byte k)) = sb := by
  simp only [forall_mem_cons, not_mem_nil, false_implies, implies_true,
    and_true] at h32 h16
  obtain ⟨h1, h2, h3, h4, h5, h6, h7, h8, h9⟩ := h32
  obtain ⟨h10, h11, h12, h13⟩ := h16
  obtain ⟨magic, version, size, total, dirStart, dirSectors, maxEntries, entrySize, clusterSectors,
    fatStart, dataStart, totalClusters, flags⟩ := sb
  simp only [parseSuperblock, Superblock.mk.injEq]
  refine ⟨leField_eq h1 ?_, leField_eq h10 ?_, leField_eq h11 ?_, leField_eq h2 ?_,
    leField_eq h3 ?_, leField_eq h4 ?_, leField_eq h5 ?_, leField_eq h12 ?_, leField_eq h13 ?_,
    leField_eq h6 ?_, leField_eq h7 ?_, leField_eq h8 ?_, leField_eq h9 ?_⟩
  all_goals
    intro j hj
    interval_cases j <;> rfl

section

variable (hn : n < 2 ^ 32)
include hn

lemma freshPartition_lba {rel : ℕ} (h : rel < n - fsPartStartLba) :
    (freshPartition n).lba rel = fsPartStartLba + rel := by
  unfold Partition.lba freshPartition
  dsimp only
  rw [u32_of_lt (n := rel) (by omega), u32_of_lt (by omega)]

lemma loadPartition_mbrSector (h : fsPartStartLba + fsDataStartSector < n) :
    loadPartition n (bytes (mbrSector n)) = some (freshPartition n) := by
  have h264 : 264 < n := h
  have hsig : leField (bytes (mbrSector n)) 510 2 = mbrSignature :=
    leField_eq (by decide) fun j hj => by
      interval_cases j <;> rfl
  have ht : mbrType (bytes (mbrSector n)) 0 = fsPartType := by
    rfl
  have hf : mbrFirst (bytes (mbrSector n)) 0 = fsPartStartLba :=
    leField_eq (by decide) fun j hj => by
      interval_cases j <;> rfl
  have hc : mbrCount (bytes (mbrSector n)) 0 = n - fsPartStartLba :=
    leField_eq (by omega) fun j hj => by
      interval_cases j <;> rfl
  have hu : firstIdx (usablePartition n (bytes (mbrSector n))) mbrPartCount =
      some 0 := by
    refine firstIdx_eq_some.2 ⟨?_, by decide, by simp⟩
    simp only [usablePartition, ht, hf, hc, fsPartStartLba, fsDataStartSector]
    simp
    omega
  rw [loadPartition, if_neg (not_not.2 hsig), hu, Option.map_some, hf, hc]
  rfl

lemma freshSuperblock_accepted (h : ReachesFormat n) :
    loadSuperblock (freshPartition n) (freshSuperblock n) = true := by
  obtain ⟨-, ⟨he, he'⟩, ⟨hc, hc'⟩, hf, hd, hen⟩ := freshFigures hn h
  have hcs : (freshSuperblock n).clusterSectors = fsClusterSectors := rfl
  have hdir : (freshSuperblock n).dirStart = 1 := rfl
  have hp : 0 < freshDirSectors n ∧ 0 < freshFatSectors n := by
    simp only [dirSectorsFor, fatSectorsFor, entrySize]
    omega
  have hl : u32 ((freshSuperblock n).dataStart + u32 ((freshSuperblock n).totalClusters *
      (freshSuperblock n).clusterSectors)) ≤ (freshPartition n).maxSectors := by
    rw [hcs, u32_of_lt (n := (freshSuperblock n).totalClusters * _) (by omega),
      u32_of_lt (by omega)]
    exact hen
  have hco : (freshSuperblock n).magic = fsSuperMagic ∧
      (freshSuperblock n).formatVersion = fsFormatVersion ∧ (freshSuperblock n).sectorSize = 512 ∧
      (freshSuperblock n).entrySize = entrySize := ⟨rfl, rfl, rfl, rfl⟩
  simp only [loadSuperblock, hco, hcs, hdir, Bool.and_eq_true, Bool.not_eq_true',
    Bool.or_eq_false_iff, decide_eq_true_eq, decide_eq_false_iff_not]
  refine ⟨⟨⟨trivial, trivial⟩, ?_⟩, hl⟩
  omega

lemma freshSuperblock_parsed (h : ReachesFormat n) :
    parseSuperblock (bytes (ofBuf fun k => (freshSuperblock n).byte k)) =
      freshSuperblock n := by
  obtain ⟨hm, ⟨-, he⟩, ⟨-, hc⟩, hf, hd, hen⟩ := freshFigures hn h
  have hdi : (freshSuperblock n).dirSectors = freshDirSectors n := rfl
  have ht : (freshSuperblock n).totalSectors = n - fsPartStartLba := hm
  have h32 : (256 : ℕ) ^ 4 = 2 ^ 32 := by norm_num
  refine parseSuperblock_byte ?_ ?_
  · simp only [forall_mem_cons, not_mem_nil, false_implies, implies_true, and_true, h32]
    simp only [fsMaxEntriesCap, fsMaxClustersCap] at he hc
    refine ⟨?_, ?_, ?_, ?_, ?_, ?_, ?_, ?_, ?_⟩
    · exact (by decide : fsSuperMagic < 2 ^ 32)
    · omega
    · exact (by decide : fsDirStartSector < 2 ^ 32)
    · omega
    · omega
    · omega
    · omega
    · omega
    · exact (by decide : 0 < 2 ^ 32)
  · simp only [forall_mem_cons, not_mem_nil, false_implies, implies_true, and_true]
    exact (by decide : fsFormatVersion < 256 ^ 2 ∧ 512 < 256 ^ 2 ∧ entrySize < 256 ^ 2 ∧
      fsClusterSectors < 256 ^ 2)

lemma freshSuperblock_sound (h : ReachesFormat n) : SoundLayout n := by
  have ha := freshSuperblock_accepted hn h
  obtain ⟨-, -, ⟨hc, -⟩, hf, hd, he⟩ := freshFigures hn h
  refine ⟨RegionsFit.apart (d := freshPartition n) ?_ ha ⟨?_, ?_, ?_⟩, ?_, ?_⟩
  · show n - fsPartStartLba < 2 ^ 32
    omega
  · exact hf.ge
  · exact hd.ge
  · exact he
  · rw [hd, Nat.add_sub_cancel_left]
    unfold freshFatSectors fatSectorsFor
    omega
  · exact hc

end

end EsdumanOS
