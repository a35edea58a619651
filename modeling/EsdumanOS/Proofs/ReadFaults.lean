import EsdumanOS.Proofs.Encrypted
import EsdumanOS.Proofs.FatWalks
import EsdumanOS.ReadFaults

/-!
# When a read is honest

`fs_read_raw` drops every status, so an answer is honest just when no sector it needs fails and the
chain reaches far enough.
-/

namespace EsdumanOS

open Lib List

variable {plaintext : Buf}

section Honest

variable {k : FileKey} {e : Env} {s : Fs} {file : VfsFile} {size : ℕ}

lemma gotByte_readable {start p : ℕ} (h : ReadableAt e s start p) :
    gotByte e s start p = storedByte s start p := by
  obtain ⟨sector, hs, hf⟩ := h
  simp only [gotByte, storedByte, hs, fsReadSector, hf]

lemma clipSize_cases (hlt : file.currentOffset < file.fileSize) (hfile : file.fileSize < 2 ^ 32)
    (hs : size < 2 ^ 32) :
    file.currentOffset + size < 2 ^ 32 ∧
        clipSize file size = min size (file.fileSize - file.currentOffset) ∨
      2 ^ 32 ≤ file.currentOffset + size ∧ clipSize file size = size := by
  unfold clipSize u32
  split_ifs <;> omega

lemma fsReadRaw_at_end (h : file.fileSize ≤ file.currentOffset) :
    (fsReadRaw e s file size).1 = [] := by
  unfold fsReadRaw
  rw [if_pos h]

lemma honestRaw_iff (hfile : file.fileSize < 2 ^ 32) (hsi : size < 2 ^ 32)
    (hlt : file.currentOffset < file.fileSize) :
    ((fsReadRaw e s file size).1 ≠ [] ∧ DeliversRaw e s file (fsReadRaw e s file size).1) ↔
      RawReadable e s file size := by
  obtain ⟨n, h⟩ := @fsReadRaw_copies e s file size hlt
  have hca := clipSize_cases hlt hfile hsi
  have hn := h.within
  have hl := h.length
  rw [← length_pos_iff, DeliversRaw, hl]
  constructor
  · rintro ⟨h0, he, hbytes⟩
    refine ⟨by omega, Option.isSome_iff_ne_none.2 (h.reached 0 h0), fun p hp hrq hi sector hse =>
      ?_, fun hw => sectorAt_none_mono (h.stopped (by omega)) he⟩
    -- A byte of the request that the chain has was copied.
    have hc : p - file.currentOffset < n := by
      by_contra hout
      have hno := sectorAt_none_mono (h.stopped (by omega))
        (show file.currentOffset + n ≤ p by omega)
      rw [hno] at hse
      cases hse
    obtain ⟨⟨sector', hs', hf⟩, -⟩ := hbytes _ hc
    rw [Nat.add_sub_of_le hp, hse, Option.some.injEq] at hs'
    rwa [hs']
  · rintro ⟨hwa, hr, hs, hw⟩
    have he : file.currentOffset + n ≤ file.fileSize := by
      rcases hca with ⟨-, hm⟩ | ⟨hb, -⟩
      · omega
      · by_contra hover
        refine h.reached (file.fileSize - file.currentOffset) (by omega) ?_
        rw [Nat.add_sub_of_le hlt.le]
        exact hw hb
    refine ⟨?_, he, fun j hj => ?_⟩
    · by_contra hz
      have hno := h.stopped (by omega)
      rw [show file.currentOffset + n = file.currentOffset by omega] at hno
      rw [hno] at hr
      cases hr
    obtain ⟨sector, hse⟩ := Option.ne_none_iff_exists'.1 (h.reached j hj)
    have hre : ReadableAt e s file.startCluster (file.currentOffset + j) :=
      ⟨sector, hse, hs _ (by omega) (by omega) (by omega) _ hse⟩
    refine ⟨hre, ?_⟩
    rw [h.bytes, ← gotByte_readable hre]
    simp [hj]

lemma Authentic.fsReadRaw {n origLen : ℕ}
    (h : Authentic k e s file n plaintext origLen) (hfile : file.fileSize < 2 ^ 32)
    (hpo : 0 < file.fileSize) :
    (fsReadRaw e s { file with currentOffset := 0 } file.fileSize).1 =
      (range n).map (storedByte s file.startCluster) := by
  obtain ⟨m, hm⟩ := @fsReadRaw_copies e s { file with currentOffset := 0 } file.fileSize hpo
  simp only [clipSize, Nat.zero_add, u32_of_lt hfile, gt_iff_lt, lt_irrefl, if_false] at hm
  have hs := hm.stopped
  have hr := hm.reached
  have hbytes := hm.bytes
  simp only [Nat.zero_add] at hs hr hbytes
  have hle := hm.within
  have hl' := h.within
  have hmn : m = n := by
    rcases lt_trichotomy m n with hlt | heq | hlt
    · obtain ⟨sector, hse, -⟩ := h.readable m hlt
      rw [hs (by omega)] at hse
      cases hse
    · exact heq
    · exact absurd (h.complete (by omega)) (hr n hlt)
  rw [hbytes, hmn]
  exact map_congr_left fun p hp => gotByte_readable (h.readable p (mem_range.1 hp))

lemma openBlob_length {buf : Buf} {len origLen : ℕ}
    (h : cryptoFsOpenBlob k buf len = .ok (plaintext, origLen)) :
    56 < len ∧ origLen ≤ len - 56 := by
  unfold cryptoFsOpenBlob at h
  dsimp only at h
  split_ifs at h with h1 h2 h3 h4
  rw [Except.ok.injEq, Prod.mk.injEq] at h
  omega

lemma Authentic.fsReadEncrypted {n origLen : ℕ}
    (h : Authentic k e s file n plaintext origLen) (hfile : file.fileSize < 2 ^ 32)
    (hb : 56 < file.fileSize) (hmem : e.kmallocOk = true) :
    (fsReadEncrypted k e s file size).1 =
      if 2 ^ 31 ≤ n then [] else
        (range (bytesToCopy file.currentOffset size origLen)).map fun i =>
          plaintext (file.currentOffset + i) := by
  have hl := openBlob_length h.opens
  have hr := h.fsReadRaw hfile (by omega)
  unfold EsdumanOS.fsReadEncrypted
  rw [if_neg (by omega), if_neg (by simp [hmem])]
  simp only [hr, length_map, length_range]
  by_cases hi : 2 ^ 31 ≤ n
  · rw [if_pos hi, if_pos (.inr hi)]
  · rw [if_neg hi, if_neg (by omega), h.opens]

lemma bytesToCopy_cases {offset origLen : ℕ} (size : ℕ) (h : offset < origLen) :
    origLen < u32 (offset + size) ∧ bytesToCopy offset size origLen = origLen - offset ∨
      u32 (offset + size) ≤ origLen ∧ bytesToCopy offset size origLen = size := by
  rw [bytesToCopy, if_neg (by omega)]
  split_ifs <;> omega

lemma fsReadEncrypted_memory (h : (fsReadEncrypted k e s file size).1 ≠ []) :
    e.kmallocOk = true := by
  by_contra hmem
  refine h ?_
  unfold fsReadEncrypted
  split_ifs with h1 h2
  · rfl
  · rfl
  · simp [hmem] at h2

lemma honestPlain_iff (hfile : file.fileSize < 2 ^ 32) (hsi : size < 2 ^ 32)
    (hb : 56 < file.fileSize) :
    (((fsReadEncrypted k e s file size).1 ≠ [] →
        DeliversPlain k e s file (fsReadEncrypted k e s file size).1) ∧
      ((fsReadEncrypted k e s file size).1 = [] → PlainEnds k e s file)) ↔
      PlainReadable k e s file size := by
  constructor
  · rintro ⟨hd, he⟩
    by_cases hou : (fsReadEncrypted k e s file size).1 = []
    · obtain hs | ⟨hmem, n, plaintext, origLen, ha, hle⟩ := he hou
      · omega
      · exact ⟨hmem, n, plaintext, origLen, ha, fun h => absurd h (not_lt.2 hle)⟩
    · obtain ⟨n, plaintext, origLen, ha, hl, -⟩ := hd hou
      have hmem := fsReadEncrypted_memory hou
      have ho := openBlob_length ha.opens
      rw [ha.fsReadEncrypted hfile hb hmem] at hou hl
      split_ifs at hou hl with hi
      · exact absurd rfl hou
      replace hou := length_pos_iff.2 hou
      simp only [length_map, length_range] at hou hl
      refine ⟨hmem, n, plaintext, origLen, ha, fun hof => ?_⟩
      have hc := bytesToCopy_cases size hof
      simp only [u32] at hc
      omega
  · rintro ⟨hmem, n, plaintext, origLen, ha, hr⟩
    rw [ha.fsReadEncrypted hfile hb hmem]
    by_cases hof : file.currentOffset < origLen
    · obtain ⟨hw, hi, hf⟩ := hr hof
      have hc : bytesToCopy file.currentOffset size origLen =
          min size (origLen - file.currentOffset) := by
        have hc := bytesToCopy_cases size hof
        rw [u32_of_lt hf] at hc
        omega
      rw [if_neg (by omega), hc]
      refine ⟨fun _ => ⟨n, plaintext, origLen, ha, ?_, fun j hj => ?_⟩, fun hn => ?_⟩
      · simp only [length_map, length_range]
        omega
      · simp only [length_map, length_range] at hj
        simp [hj]
      · have hl := congrArg length hn
        simp only [length_map, length_range, length_nil] at hl
        omega
    · have hn : (if 2 ^ 31 ≤ n then [] else
          (range (bytesToCopy file.currentOffset size origLen)).map fun i =>
            plaintext (file.currentOffset + i)) = [] := by
        simp [bytesToCopy, not_lt.1 hof]
      rw [hn]
      exact ⟨fun h => absurd rfl h, fun _ => .inr ⟨hmem, n, plaintext, origLen, ha, by omega⟩⟩

/-- An answer of `fs_read` says what happened just when nothing that it needs fails. -/
theorem fsRead_honest_iff (k : FileKey) (e : Env) (s : Fs) (file : VfsFile) (size : ℕ)
    (hfile : file.fileSize < 2 ^ 32) (hsize : size < 2 ^ 32) :
    HonestRead k e s file size ↔ Readable k e s file size := by
  unfold HonestRead fsRead Readable
  by_cases hlevel : .cryptoEnforced ≤ e.secLevel
  · simp only [if_pos hlevel]
    by_cases hkey : e.keyUsable = true
    · simp only [hkey, Bool.not_true, Bool.false_eq_true, if_false, true_implies]
      by_cases hbig : 56 < file.fileSize
      · simp only [hbig, true_implies]
        exact honestPlain_iff hfile hsize hbig
      · have hnil : (fsReadEncrypted k e s file size).1 = [] := by
          unfold fsReadEncrypted
          rw [if_pos (by omega)]
        simp [hbig, hnil, PlainEnds, not_lt.1 hbig]
    · simp [hkey]
  · simp only [if_neg hlevel]
    by_cases hlt : file.currentOffset < file.fileSize
    · rw [← honestRaw_iff hfile hsize hlt]
      have hend : ¬ file.fileSize ≤ file.currentOffset := by omega
      simp only [hlt, hend, true_implies, imp_false]
      exact ⟨fun h => ⟨h.2, h.1 h.2⟩, fun h => ⟨fun _ => h.2, h.1⟩⟩
    · simp [fsReadRaw_at_end (not_lt.1 hlt), hlt, not_lt.1 hlt]

end Honest

def sampleFile (size : ℕ) : VfsFile where
  filename := nameA
  fileSize := size
  currentOffset := 0
  startCluster := 2
  refCount := 1
  inodeIdx := 0
  writeBuf := fun _ => 0
  writeLen := 0
  writeCap := 0
  dirty := false

theorem fsRead_honest_plain : HonestRead openKey .plain tinyFs (sampleFile 1) 1 := by
  refine (fsRead_honest_iff openKey .plain tinyFs (sampleFile 1) 1 (by decide) (by decide)).2 ?_
  intro _
  exact ⟨by decide, by decide, fun _ _ _ _ _ _ => rfl, fun h => absurd h (by decide)⟩

/-- A byte that no sector gave, and an end of file for want of memory. -/
theorem fsRead_dishonest :
    ¬ HonestRead openKey { Env.plain with readFault := fun _ => some fun _ => 0xEE } tinyFs
        (sampleFile 1) 1 ∧
      ¬ HonestRead openKey { Env.plain with secLevel := .cryptoEnforced, kmallocOk := false }
        tinyFs (sampleFile 57) 1 := by
  constructor
  · intro h
    obtain ⟨-, hbytes⟩ := h.1 (by decide +kernel)
    obtain ⟨⟨_, -, hfault⟩, -⟩ := hbytes 0 (by decide +kernel)
    cases hfault
  · intro h
    rcases h.2 rfl with hsmall | ⟨hmem, -⟩
    · exact absurd hsmall (by decide)
    · cases hmem

end EsdumanOS
