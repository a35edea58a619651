import EsdumanOS.OpenFile
import EsdumanOS.Proofs.Replace

/-!
# Reading along a chain

Whatever the allocation table holds and whichever sectors fail, `fs_read_raw` copies the bytes of
the chain (`fsReadRaw_copies`). When every read is served and the chain is long enough for the
recorded size, they are the bytes of the file (`fsReadRaw_eq`).
-/

namespace EsdumanOS

open Lib List

def slice (s : Fs) (l : List ℕ) (off n : ℕ) : List UInt8 :=
  (List.range n).map fun k => dataByte s l (off + k)

section Loops

variable {e : Env} {s : Fs} {l : List ℕ} {off size : ℕ}

lemma readSectors_done {base fuel : ℕ} {out : List UInt8} {o : ℕ} (h : size ≤ out.length) :
    readSectors e s base size fuel (out, o) = (out, o) := by
  cases fuel with
  | zero => rfl
  | succ fuel => rw [readSectors, if_neg (by omega)]

lemma readClusters_done {fuel c o : ℕ} {out : List UInt8} (h : size ≤ out.length) :
    readClusters e s size fuel c (out, o) = out := by
  cases fuel with
  | zero => rfl
  | succ fuel => rw [readClusters, if_neg (by omega)]

end Loops

def clipSize (file : VfsFile) (size : ℕ) : ℕ :=
  if u32 (file.currentOffset + size) > file.fileSize then file.fileSize - file.currentOffset
  else size

section Places

variable {e : Env} {s : Fs}

lemma clusterAt_dead {current : ℕ} (h : current = fatEof ∨ s.geo.totalClusters ≤ current) :
    ∀ n, clusterAt s n current = none
  | 0 => if_pos h
  | _ + 1 => if_pos h

lemma clusterAt_none_add {n : ℕ} :
    ∀ {m current : ℕ}, clusterAt s m current = none → clusterAt s (m + n) current = none
  | 0, current, h => by
    refine clusterAt_dead ?_ _
    by_contra hlive
    rw [clusterAt, if_neg hlive] at h
    cases h
  | m + 1, current, h => by
    rw [Nat.succ_add]
    unfold clusterAt at h ⊢
    split_ifs at h ⊢
    · rfl
    · exact clusterAt_none_add h

lemma sectorAt_eq_none {start p : ℕ} :
    sectorAt s start p = none ↔ clusterAt s (p / clusterBytes) start = none :=
  Option.map_eq_none_iff

lemma sectorAt_none_mono {start p q : ℕ} (h : sectorAt s start p = none) (hp : p ≤ q) :
    sectorAt s start q = none := by
  rw [sectorAt_eq_none] at h ⊢
  obtain ⟨n, hn⟩ := Nat.exists_eq_add_of_le (Nat.div_le_div_right (c := clusterBytes) hp)
  rw [hn]
  exact clusterAt_none_add h

lemma sectorAt_in_cluster {current o : ℕ} (ho : o < clusterBytes) (hne : current ≠ fatEof)
    (hlt : current < s.geo.totalClusters) :
    sectorAt s current o = some (fsClusterToSector s.geo current + o / 512) := by
  rw [sectorAt, Nat.div_eq_of_lt ho, Nat.mod_eq_of_lt ho, clusterAt, if_neg (by omega)]
  rfl

lemma sectorAt_next {current p : ℕ} (hne : current ≠ fatEof) (hlt : current < s.geo.totalClusters) :
    sectorAt s current (clusterBytes + p) = sectorAt s (s.fat current) p := by
  have hd : (clusterBytes + p) / clusterBytes = p / clusterBytes + 1 := by
    rw [Nat.add_comm, Nat.add_div_right _ (by decide)]
  rw [sectorAt, hd, Nat.add_mod_left, clusterAt, if_neg (by omega)]
  rfl

lemma skipClusters_sectorAt :
    ∀ {n current c : ℕ}, skipClusters s n current = some c →
      ∀ p, sectorAt s current (n * clusterBytes + p) = sectorAt s c p
  | 0, current, c, h => by
    rw [skipClusters, Option.some.injEq] at h
    intro p
    rw [h, Nat.zero_mul, Nat.zero_add]
  | n + 1, current, c, h => by
    intro p
    unfold skipClusters at h
    split_ifs at h with hd
    rw [Nat.succ_mul, Nat.add_assoc, Nat.add_left_comm, sectorAt_next (by omega) (by omega)]
    exact skipClusters_sectorAt h p

lemma skipClusters_none :
    ∀ {n current : ℕ}, skipClusters s n current = none → ∀ p, n * clusterBytes ≤ p →
      sectorAt s current p = none
  | n + 1, current, h => by
    intro p hp
    unfold skipClusters at h
    split_ifs at h with hd
    · exact sectorAt_eq_none.2 (clusterAt_dead hd _)
    · rw [Nat.succ_mul] at hp
      obtain ⟨q, rfl⟩ := Nat.exists_eq_add_of_le (show clusterBytes ≤ p by omega)
      rw [sectorAt_next (by omega) (by omega)]
      exact skipClusters_none h q (by omega)

def gotByte (e : Env) (s : Fs) (start p : ℕ) : UInt8 :=
  match sectorAt s start p with
  | none => 0
  | some sector => (fsReadSector e s sector).2 (p % 512)

end Places

section Copies

variable {e : Env} {s : Fs}

structure Copies (e : Env) (s : Fs) (start off size n : ℕ) (out : List UInt8) : Prop where
  bytes : out = (range n).map fun j => gotByte e s start (off + j)
  within : n ≤ size
  reached : ∀ j < n, sectorAt s start (off + j) ≠ none
  stopped : n < size → sectorAt s start (off + n) = none

lemma Copies.length {start off size n : ℕ} {out : List UInt8}
    (h : Copies e s start off size n out) : out.length = n := by
  simp [h.bytes]

lemma readSectors_bytes {size current : ℕ} (hne : current ≠ fatEof)
    (hlt : current < s.geo.totalClusters) :
    ∀ (fuel o : ℕ) (out : List UInt8), o ≤ clusterBytes → out.length ≤ size →
      fsClusterSectors ≤ fuel + o / 512 →
      (readSectors e s (fsClusterToSector s.geo current) size fuel (out, o)).1 =
        out ++ (range (min (clusterBytes - o) (size - out.length))).map fun j =>
          gotByte e s current (o + j)
  | 0, o, out, ho, ha, hf => by
    have hz : clusterBytes - o = 0 := by
      simp only [clusterBytes, fsClusterSectors] at *
      omega
    simp [readSectors, hz]
  | fuel + 1, o, out, ho, ha, hf => by
    by_cases hg : o < clusterBytes ∧ out.length < size
    · obtain ⟨m, hm⟩ : ∃ m, m = (if 512 - o % 512 > size - out.length then size - out.length
        else 512 - o % 512) := ⟨_, rfl⟩
      have hfi : m ≤ 512 - o % 512 ∧ out.length + m ≤ size ∧
          (out.length + m = size ∨ (o + m) / 512 = o / 512 + 1) ∧ o + m ≤ clusterBytes := by
        simp only [clusterBytes, fsClusterSectors] at *
        split_ifs at hm <;> omega
      have hc : ((range m).map fun i =>
          (fsReadSector e s (fsClusterToSector s.geo current + o / 512)).2 (o % 512 + i)) =
          (range m).map fun j => gotByte e s current (o + j) := by
        refine map_congr_left fun i hi => ?_
        have hi := mem_range.1 hi
        have hs : (o + i) / 512 = o / 512 ∧ (o + i) % 512 = o % 512 + i := by omega
        rw [gotByte, sectorAt_in_cluster (by omega) hne hlt, hs.1, hs.2]
      have hl : (out ++ (range m).map fun j => gotByte e s current (o + j)).length =
          out.length + m := by simp
      rw [readSectors, if_pos hg]
      simp only [← hm, hc]
      rcases hfi.2.2.1 with he | hn
      · have hmi : min (clusterBytes - o) (size - out.length) = m := by omega
        rw [readSectors_done (by omega), hmi]
      · rw [readSectors_bytes hne hlt fuel (o + m) _ hfi.2.2.2 (by omega) (by omega), hl]
        have hmi : min (clusterBytes - o) (size - out.length) =
            m + min (clusterBytes - (o + m)) (size - (out.length + m)) := by omega
        rw [hmi, range_add, map_append, map_map, append_assoc]
        simp only [Function.comp_def, Nat.add_assoc]
    · have hz : min (clusterBytes - o) (size - out.length) = 0 := by omega
      rw [readSectors, if_neg hg, hz]
      simp

/-- The read loops copy bytes along the chain until one is missing. -/
lemma readClusters_copies {size : ℕ} :
    ∀ (fuel current o : ℕ) (out : List UInt8), o < clusterBytes → out.length ≤ size →
      size ≤ fuel + out.length →
      ∃ n more, readClusters e s size fuel current (out, o) = out ++ more ∧
        Copies e s current o (size - out.length) n more
  | 0, current, o, out, ho, ha, hf =>
    ⟨0, [], by simp [readClusters], rfl, Nat.zero_le _, by simp, by omega⟩
  | fuel + 1, current, o, out, ho, ha, hf => by
    by_cases hfu : size ≤ out.length
    · exact ⟨0, [], by rw [readClusters_done hfu, append_nil], rfl, Nat.zero_le _, by simp,
        by omega⟩
    by_cases hd : current = fatEof ∨ s.geo.totalClusters ≤ current
    · have hn : ∀ p, sectorAt s current p = none := fun p =>
        sectorAt_eq_none.2 (clusterAt_dead hd _)
      refine ⟨0, [], ?_, rfl, Nat.zero_le _, by simp, fun _ => hn _⟩
      rw [readClusters, append_nil]
      split_ifs <;> first | rfl | omega
    obtain ⟨hne, hlt⟩ : current ≠ fatEof ∧ current < s.geo.totalClusters := by omega
    have hi : ∀ p < clusterBytes, sectorAt s current p ≠ none := fun p hp => by
      rw [sectorAt_in_cluster hp hne hlt]
      exact Option.some_ne_none _
    rw [readClusters, if_pos ⟨by omega, hne⟩, if_neg (by omega)]
    simp only [readSectors_bytes hne hlt fsClusterSectors o out ho.le ha (by omega)]
    by_cases he : size - out.length ≤ clusterBytes - o
    · -- The request ends in this cluster.
      rw [min_eq_right he, readClusters_done (by simp; omega)]
      refine ⟨size - out.length, _, rfl, rfl, le_rfl, fun j hj => hi _ (by omega), by omega⟩
    · rw [min_eq_left (by omega)]
      have hl : (out ++ (range (clusterBytes - o)).map fun j =>
          gotByte e s current (o + j)).length = out.length + (clusterBytes - o) := by simp
      obtain ⟨n, more, hr, hm⟩ := @readClusters_copies size fuel (s.fat current) 0
        (out ++ (range (clusterBytes - o)).map fun j => gotByte e s current (o + j))
        (by decide) (by omega) (by omega)
      have hs : ∀ j, sectorAt s current (o + (clusterBytes - o + j)) =
          sectorAt s (s.fat current) (0 + j) := fun j => by
        rw [← sectorAt_next hne hlt, Nat.zero_add, ← Nat.add_assoc, Nat.add_sub_of_le ho.le]
      have hb : ∀ j, gotByte e s current (o + (clusterBytes - o + j)) =
          gotByte e s (s.fat current) (0 + j) := fun j => by
        have hmo : (o + (clusterBytes - o + j)) % 512 = (0 + j) % 512 := by
          simp only [clusterBytes, fsClusterSectors] at *
          omega
        rw [gotByte, hs, hmo]
        rfl
      refine ⟨clusterBytes - o + n, (range (clusterBytes - o)).map
        (fun j => gotByte e s current (o + j)) ++ more, ?_, ?_, ?_, ?_, ?_⟩
      · rw [hr, append_assoc]
      · rw [range_add, map_append, map_map, hm.bytes]
        simp only [Function.comp_def, hb]
      · have := hm.within
        omega
      · intro j hj
        by_cases hfi : o + j < clusterBytes
        · exact hi _ hfi
        · obtain ⟨i, rfl⟩ := Nat.exists_eq_add_of_le (show clusterBytes - o ≤ j by omega)
          rw [hs]
          exact hm.reached i (by omega)
      · intro hst
        rw [hs]
        exact hm.stopped (by omega)

lemma fsReadRaw_copies {file : VfsFile} {size : ℕ} (hlt : file.currentOffset < file.fileSize) :
    ∃ n, Copies e s file.startCluster file.currentOffset (clipSize file size) n
      (fsReadRaw e s file size).1 := by
  obtain ⟨clip, hc⟩ : ∃ clip, clip = clipSize file size := ⟨_, rfl⟩
  unfold fsReadRaw
  simp only [if_neg (show ¬ file.fileSize ≤ file.currentOffset by omega)]
  rw [← hc]
  unfold clipSize at hc
  simp only [← hc]
  have hsp : file.currentOffset / clusterBytes * clusterBytes +
      file.currentOffset % clusterBytes = file.currentOffset := Nat.div_add_mod' _ _
  rcases hs : skipClusters s (file.currentOffset / clusterBytes) file.startCluster with _ | c
  · exact ⟨0, rfl, Nat.zero_le _, by simp, fun _ => skipClusters_none hs _ (by omega)⟩
  · obtain ⟨n, out, hr, ho⟩ := @readClusters_copies e s clip clip c
      (file.currentOffset % clusterBytes) [] (Nat.mod_lt _ (by decide)) (Nat.zero_le _) le_rfl
    have hp : ∀ j, sectorAt s file.startCluster (file.currentOffset + j) =
        sectorAt s c (file.currentOffset % clusterBytes + j) := fun j => by
      rw [← skipClusters_sectorAt hs, ← Nat.add_assoc, hsp]
    refine ⟨n, ?_, ho.within, fun j hj => ?_, fun hn => ?_⟩
    · simp only [hr, nil_append, ho.bytes]
      refine map_congr_left fun j _ => ?_
      have hm : (file.currentOffset % clusterBytes + j) % 512 =
          (file.currentOffset + j) % 512 := by
        simp only [clusterBytes, fsClusterSectors]
        omega
      rw [gotByte, gotByte, hp, hm]
    · rw [hp]
      exact ho.reached j hj
    · rw [hp]
      exact ho.stopped hn

end Copies

section Chains

variable {e : Env} {s : Fs} {l : List ℕ}

lemma clusterAt_eq : ∀ {l : List ℕ} {n c : ℕ}, Linked s.fat fatEof c l →
    (∀ x ∈ l, x < s.geo.totalClusters) → clusterAt s n c = l[n]?
  | [], n, _, h, _ => clusterAt_dead (.inl h) n
  | x :: l, n, c, ⟨hx, hne, h⟩, hl => by
    have hc := hl x mem_cons_self
    cases n with
    | zero => rw [clusterAt, if_neg (by omega), hx]; rfl
    | succ n =>
      rw [clusterAt, if_neg (by omega), hx, clusterAt_eq h fun y hy => hl y (mem_cons_of_mem _ hy)]
      rfl

lemma gotByte_eq {c : ℕ} (he : ∀ r, e.readFault r = none) (h : Linked s.fat fatEof c l)
    (hl : ∀ x ∈ l, x < s.geo.totalClusters) (p : ℕ) : gotByte e s c p = dataByte s l p := by
  rw [gotByte, dataByte, sectorAt, clusterAt_eq h hl]
  cases l[p / clusterBytes]? <;> simp [fsReadSector, he]

end Chains

lemma fsReadRaw_eq {e : Env} {s : Fs} {file : VfsFile} {l : List ℕ} {size : ℕ}
    (he : ∀ r, e.readFault r = none) (hc : ValidChain s file.startCluster l)
    (hle : file.fileSize ≤ l.length * clusterBytes) (hlt : file.currentOffset < file.fileSize)
    (hw : file.currentOffset + size < 2 ^ 32) :
    (fsReadRaw e s file size).1 =
      slice s l file.currentOffset (min size (file.fileSize - file.currentOffset)) := by
  have hl : ∀ x ∈ l, x < s.geo.totalClusters := fun x hx => (hc.2 x hx).2
  have hsi : clipSize file size = min size (file.fileSize - file.currentOffset) := by
    rw [clipSize, u32_of_lt hw]
    split_ifs <;> omega
  obtain ⟨n, h⟩ := @fsReadRaw_copies e s file size hlt
  rw [hsi] at h
  -- the chain reaches as far as the file
  have hn : n = min size (file.fileSize - file.currentOffset) := by
    refine h.within.eq_of_not_lt fun hn => ?_
    have hno := h.stopped hn
    rw [sectorAt_eq_none, clusterAt_eq hc.1 hl, getElem?_eq_none_iff] at hno
    have := Nat.mul_le_of_le_div _ _ _ hno
    omega
  simp only [h.bytes, gotByte_eq he hc.1 hl, ← hn]
  rfl

end EsdumanOS
