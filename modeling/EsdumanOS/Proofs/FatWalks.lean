import EsdumanOS.FatWalks
import EsdumanOS.Proofs.Read

/-!
# Damaged chains

Whatever the allocation table holds, `fs_delete` ends because a cluster met again has been freed,
and `fs_read_raw` because every turn copies a byte. A request whose offset and size wrap is not
clipped (`walks_contained_iff`).
-/

namespace EsdumanOS

open Lib List Touched

section Touched

variable {g : Geometry} {a b : Touched}

lemma Touched.within_empty : empty.Within g := ⟨by simp [empty], by simp [empty]⟩

lemma Touched.Within.append (ha : a.Within g) (hb : b.Within g) : (a.append b).Within g := by
  refine ⟨fun c hc => ?_, fun x hx => ?_⟩
  · rcases mem_append.1 hc with h | h
    · exact ha.fat c h
    · exact hb.fat c h
  · rcases mem_append.1 hx with h | h
    · exact ha.sectors x h
    · exact hb.sectors x h

lemma Touched.within_fat {l : List ℕ} (h : ∀ c ∈ l, c < g.totalClusters) :
    (⟨l, []⟩ : Touched).Within g := ⟨h, by simp⟩

end Touched

section Delete

variable {e : Env} {s : Fs} {name : Name} {parentId : ℕ}

lemma delete_ends (fat : ℕ → ℕ) (c : ℕ) :
    ∃ r, releaseLog (fun c => c == fatEof || c == fatFree || decide (s.geo.totalClusters ≤ c))
      fatFree (s.geo.totalClusters + 1) fat c = some r := by
  rcases Nat.eq_zero_or_pos s.geo.totalClusters with h0 | hp
  · -- with no cluster at all the first test ends the walk
    exact ⟨(fat, []), by simp [releaseLog, h0]⟩
  · refine releaseLog_ends (by simp) (S := (Finset.range s.geo.totalClusters).erase fatFree)
      (fun x hx => ?_) ?_
    · simp only [Bool.or_eq_false_iff, beq_eq_false_iff_ne, decide_eq_false_iff_not, not_le] at hx
      simp [hx.1.2, hx.2]
    · have hle := Finset.card_filter_le ((Finset.range s.geo.totalClusters).erase fatFree)
        fun x => fat x ≠ fatFree
      have hc : ((Finset.range s.geo.totalClusters).erase fatFree).card =
          s.geo.totalClusters - 1 := by
        rw [Finset.card_erase_of_mem (by simpa [fatFree] using hp), Finset.card_range]
      omega

lemma fsDelete_contained (e : Env) (s : Fs) (name : Name) (parentId : ℕ) :
    DeleteContained e s name parentId := by
  unfold DeleteContained fsDeleteLog fsDelete
  split_ifs with hm hl
  · exact ⟨_, rfl, within_empty, rfl⟩
  · exact ⟨_, rfl, within_empty, rfl⟩
  rcases firstIdx (fun i => (s.dirTable i).named1 parentId name) s.geo.maxEntries with _ | i
  · exact ⟨_, rfl, within_empty, rfl⟩
  dsimp only
  split_ifs with hc
  · exact ⟨_, rfl, within_empty, rfl⟩
  obtain ⟨⟨fat, log⟩, hr⟩ := delete_ends (s := s) s.fat (s.dirTable i).startCluster
  obtain ⟨heq, hlo⟩ := releaseLog_eq hr
  rw [hr, ← heq]
  refine ⟨_, rfl, within_fat fun c hc => ?_, rfl⟩
  have := hlo c hc
  simp only [Bool.or_eq_false_iff, decide_eq_false_iff_not, not_le] at this
  exact this.2

end Delete

section Read

variable {e : Env} {s : Fs} {size : ℕ}

lemma sector_turn (e : Env) (s : Fs) (base : ℕ) {out : List UInt8} {off : ℕ}
    (hg : off < clusterBytes ∧ out.length < size) :
    ∃ chunk : List UInt8, 0 < chunk.length ∧ out.length + chunk.length ≤ size ∧
      (out.length + chunk.length = size ∨ (off + chunk.length) / 512 = off / 512 + 1) ∧
      (∀ n, readSectors e s base size (n + 1) (out, off) =
        readSectors e s base size n (out ++ chunk, off + chunk.length)) ∧
      ∀ n, sectorLoop e s base size (n + 1) (out, off) =
        match sectorLoop e s base size n (out ++ chunk, off + chunk.length) with
        | none => none
        | some (st, r) => some (st, .append ⟨[], [base + off / 512]⟩ r) := by
  obtain ⟨m, hm⟩ : ∃ m, m = (if 512 - off % 512 > size - out.length then size - out.length
      else 512 - off % 512) := ⟨_, rfl⟩
  have hf : 0 < m ∧ out.length + m ≤ size ∧
      (out.length + m = size ∨ (off + m) / 512 = off / 512 + 1) := by
    split_ifs at hm <;> omega
  refine ⟨(range m).map fun i => (fsReadSector e s (base + off / 512)).2 (off % 512 + i), ?_⟩
  simp only [length_map, length_range]
  refine ⟨hf.1, hf.2.1, hf.2.2, fun n => ?_, fun n => ?_⟩
  · rw [readSectors, if_pos hg]
    simp only [← hm]
  · subst hm
    exact if_pos hg

lemma sectorLoop_eq {current : ℕ} (hc : current < s.geo.totalClusters) :
    ∀ (n : ℕ) (out : List UInt8) (off : ℕ), fsClusterSectors ≤ n + off / 512 ∨ size ≤ out.length →
      ∃ r, sectorLoop e s (fsClusterToSector s.geo current) size (n + 1) (out, off) =
          some (readSectors e s (fsClusterToSector s.geo current) size n (out, off), r) ∧
        r.Within s.geo
  | 0, out, off, h => by
    have hs : ¬ (off < clusterBytes ∧ out.length < size) := by
      simp only [clusterBytes, fsClusterSectors] at *
      omega
    rw [sectorLoop, if_neg hs]
    exact ⟨_, rfl, within_empty⟩
  | n + 1, out, off, h => by
    by_cases hg : off < clusterBytes ∧ out.length < size
    · obtain ⟨chunk, -, -, he, hre, hl⟩ :=
        sector_turn e s (fsClusterToSector s.geo current) hg
      obtain ⟨r, hr, hw⟩ := sectorLoop_eq hc n (out ++ chunk) (off + chunk.length)
        (by rw [length_append]; omega)
      rw [hl, hre, hr]
      refine ⟨_, rfl, .append ⟨by simp, fun x hx => ?_⟩ hw⟩
      refine ⟨current, hc, off / 512, ?_, mem_singleton.1 hx⟩
      simp only [clusterBytes, fsClusterSectors] at *
      omega
    · rw [sectorLoop, readSectors, if_neg hg, if_neg hg]
      exact ⟨_, rfl, within_empty⟩

lemma clusterLoop_eq : ∀ (n current : ℕ) (out : List UInt8) (off : ℕ), off < clusterBytes →
    out.length ≤ size → size ≤ n + out.length →
      ∃ r, clusterLoop e s size (n + 1) current (out, off) =
          some (readClusters e s size n current (out, off), r) ∧ r.Within s.geo
  | 0, current, out, off, _, _, h => by
    rw [clusterLoop, if_neg (by omega)]
    exact ⟨_, rfl, within_empty⟩
  | n + 1, current, out, off, ho, hou, h => by
    rw [clusterLoop, readClusters]
    split_ifs with hg hc
    · exact ⟨_, rfl, within_empty⟩
    · rw [not_le] at hc
      obtain ⟨r, hr, hw⟩ := @sectorLoop_eq e s size current hc fsClusterSectors out off
        (by omega)
      rw [hr]
      have hl : (readSectors e s (fsClusterToSector s.geo current) size fsClusterSectors
          (out, off)).1.length = out.length + min (clusterBytes - off) (size - out.length) := by
        rw [readSectors_bytes hg.2 hc _ _ _ ho.le hou (by omega)]
        simp
      obtain ⟨r', hr', hw'⟩ := clusterLoop_eq n (s.fat current) (readSectors e s
        (fsClusterToSector s.geo current) size fsClusterSectors (out, off)).1 0 (by decide)
        (by omega) (by omega)
      simp only [hr']
      refine ⟨_, rfl, hw.append (.append (within_fat ?_) hw')⟩
      simpa using hc
    · exact ⟨_, rfl, within_empty⟩

lemma skipLoop_eq : ∀ (n current : ℕ), (skipLoop s n current).1 = skipClusters s n current ∧
    ∀ c ∈ (skipLoop s n current).2, c < s.geo.totalClusters
  | 0, current => ⟨rfl, by simp [skipLoop]⟩
  | n + 1, current => by
    rw [skipLoop, skipClusters]
    split_ifs with hc
    · exact ⟨rfl, by simp⟩
    · obtain ⟨heq, hl⟩ := skipLoop_eq n (s.fat current)
      rw [not_or, not_le] at hc
      exact ⟨heq, fun c hmem => by
        rcases mem_cons.1 hmem with rfl | hmem
        · exact hc.2
        · exact hl c hmem⟩

lemma fsReadRaw_within (e : Env) (s : Fs) (file : VfsFile) (size : ℕ) :
    ∃ r, fsReadRawLog e s file size = some (fsReadRaw e s file size, r) ∧ r.Within s.geo := by
  unfold fsReadRawLog fsReadRaw
  by_cases ho : file.fileSize ≤ file.currentOffset
  · rw [if_pos ho, if_pos ho]
    exact ⟨_, rfl, within_empty⟩
  rw [if_neg ho, if_neg ho]
  rw [show (if u32 (file.currentOffset + size) > file.fileSize then
    file.fileSize - file.currentOffset else size) = clipSize file size from rfl]
  obtain ⟨hs, hl⟩ := @skipLoop_eq s (file.currentOffset / clusterBytes) file.startCluster
  rw [← hs]
  rcases hf : skipLoop s (file.currentOffset / clusterBytes) file.startCluster with
    ⟨_ | current, log⟩
  · rw [hf] at hl
    exact ⟨_, rfl, within_fat hl⟩
  · rw [hf] at hl
    obtain ⟨r, hr, hw⟩ := @clusterLoop_eq e s (clipSize file size) (clipSize file size) current
      [] (file.currentOffset % clusterBytes) (Nat.mod_lt _ (by decide)) (by simp) (by simp)
    dsimp only
    rw [hr]
    exact ⟨_, rfl, (within_fat hl).append hw⟩

lemma fsReadRaw_length (e : Env) (s : Fs) (file : VfsFile) (size : ℕ) :
    (fsReadRaw e s file size).1.length ≤ clipSize file size ∧
      (file.fileSize ≤ file.currentOffset ∨ file.startCluster = fatEof ∨
        s.geo.totalClusters ≤ file.startCluster → (fsReadRaw e s file size).1 = []) := by
  by_cases ho : file.fileSize ≤ file.currentOffset
  · rw [fsReadRaw, if_pos ho]
    exact ⟨by simp, fun _ => rfl⟩
  obtain ⟨n, h⟩ := @fsReadRaw_copies e s file size (by omega)
  refine ⟨h.length.trans_le h.within, fun hb => length_eq_zero_iff.1 (h.length.trans ?_)⟩
  by_contra h0
  exact h.reached 0 (by omega) (sectorAt_eq_none.2 (clusterAt_dead (hb.resolve_left ho) _))

lemma fsReadRaw_length_le {file : VfsFile} (h : ClipsRequest s file size) :
    (fsReadRaw e s file size).1.length ≤ min size (file.fileSize - file.currentOffset) := by
  obtain ⟨hle, hn⟩ := fsReadRaw_length e s file size
  by_cases hr : file.currentOffset < file.fileSize ∧ file.startCluster < s.geo.totalClusters ∧
      file.startCluster ≠ fatEof
  · have hc : clipSize file size ≤ min size (file.fileSize - file.currentOffset) := by
      unfold clipSize
      rcases h hr.1 hr.2.1 hr.2.2 with hlt | hgt
      · rw [u32_of_lt hlt]
        split_ifs <;> omega
      · have hm : u32 (file.currentOffset + size) ≤ file.currentOffset + size := Nat.mod_le _ _
        rw [if_pos hgt]
        omega
    exact hle.trans hc
  · rw [hn (by omega)]
    simp

lemma clusterAt_loop {c : ℕ} (hf : s.fat c = c) (hc : c < s.geo.totalClusters) (hne : c ≠ fatEof) :
    ∀ n, clusterAt s n c = some c
  | 0 => if_neg (by omega)
  | n + 1 => by rw [clusterAt, if_neg (by omega), hf, clusterAt_loop hf hc hne n]

lemma clipsRequest_of_contained {file : VfsFile} (hfile : file.fileSize < 2 ^ 32)
    (h : ∀ fat, ReadContained e (s.setFat fat) file size) : ClipsRequest s file size := by
  intro ho hs hne
  by_contra hwrap
  rw [not_or, not_lt, not_lt] at hwrap
  -- the chain that never ends
  obtain ⟨-, -, -, hl⟩ := h id
  obtain ⟨n, hn⟩ := @fsReadRaw_copies e (s.setFat id) file size ho
  have hclip : clipSize file size = size := if_neg (by omega)
  have hsize : n = size := by
    refine (hclip ▸ hn.within).eq_of_not_lt fun hlt => ?_
    have hno := hn.stopped (hclip.symm ▸ hlt)
    rw [sectorAt_eq_none, @clusterAt_loop (s.setFat id) _ rfl hs hne] at hno
    cases hno
  rw [hn.length] at hl
  omega

end Read

/-- For every table, both calls end and stay within it, and the read returns no more than it may
unless the end of the request wraps. -/
theorem walks_contained_iff (e : Env) (s : Fs) (name : Name) (parentId : ℕ) (file : VfsFile)
    (size : ℕ) (hfile : file.fileSize < 2 ^ 32) :
    (∀ fat, DeleteContained e (s.setFat fat) name parentId) ∧
      ((∀ fat, ReadContained e (s.setFat fat) file size) ↔ ClipsRequest s file size) := by
  refine ⟨fun fat => fsDelete_contained _ _ _ _, clipsRequest_of_contained hfile, fun h fat => ?_⟩
  obtain ⟨r, hr, hwithin⟩ := fsReadRaw_within e (s.setFat fat) file size
  exact ⟨r, hr, hwithin, fsReadRaw_length_le h⟩

def nearEnd : VfsFile := ⟨nameA, 4091, 4090, 2, 1, 1, fun _ => 0, 0, 0, false⟩

theorem walks_contained_nearEnd :
    (∀ fat, DeleteContained .plain (oneFile.setFat fat) nameA 0) ∧
      ((∀ fat, ReadContained .plain (oneFile.setFat fat) nearEnd 512) ↔
        ClipsRequest oneFile nearEnd 512) :=
  walks_contained_iff .plain oneFile nameA 0 nearEnd 512 (by decide)

/-- The largest request gets the rest of the cluster. -/
theorem fsReadRaw_past_end : (fsReadRaw .plain oneFile nearEnd 0xFFFFFFFF).1.length = 6 ∧
    nearEnd.fileSize - nearEnd.currentOffset = 1 ∧
    ¬ ReadContained .plain oneFile nearEnd 0xFFFFFFFF := by
  have hlen : (fsReadRaw .plain oneFile nearEnd 0xFFFFFFFF).1.length = 6 := by decide +kernel
  refine ⟨hlen, rfl, ?_⟩
  rintro ⟨-, -, -, hle⟩
  exact absurd hle (by decide)

end EsdumanOS
