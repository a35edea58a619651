import EsdumanOS.Encrypted
import EsdumanOS.Proofs.ReadBack

/-!
# Encrypted files are read back

A stored blob opens to what it was made from (`openBlob_encBuffer`), and its first block gives the
length. A read returns the slice at the offset, provided the end of the request does not wrap: a sum
of offset and size that wraps is not clipped (`fsReadEncrypted_reads_back`).
-/

namespace EsdumanOS

open Lib List Content Stored

section Cipher

variable {c : BlockCipher AesBlock} {iv : AesBlock} {buf p : Buf} {m n : ℕ}

lemma xorBlock_cancel (a b : AesBlock) : xorBlock (xorBlock a b) b = a := by
  funext k
  simp only [xorBlock]
  rw [UInt8.xor_assoc, UInt8.xor_self, UInt8.xor_zero]

lemma blockAt_byte (blocks : ℕ → AesBlock) (j : ℕ) (k : Fin 16) :
    blockByte blocks (16 * j + k) = blocks j k := by
  have hd : (16 * j + k) / 16 = j := by omega
  have hm : (16 * j + (k : ℕ)) % 16 = k := by omega
  simp only [blockByte, hd, hm]

lemma blockByte_blockAt (i : ℕ) : blockByte (blockAt p) i = p i := by
  simp only [blockByte, blockAt]
  congr 1
  omega

lemma aesCbcDecryptBuffer_encrypted (hm : m ≤ n) (hbu : ∀ i, i / 16 < (m + 15) / 16 →
      buf i = aesCbcEncryptBuffer c iv p n i) {i : ℕ} (hi : i < m) :
    aesCbcDecryptBuffer c iv buf m i = p i := by
  have hb : ∀ j ≤ i / 16, blockAt buf j = cbcEncrypt xorBlock c iv (blockAt p) j := by
    intro j hj
    funext k
    have hlt : (16 * j + k) / 16 < (m + 15) / 16 := by omega
    rw [blockAt, hbu _ hlt, aesCbcEncryptBuffer, if_pos (by omega), blockAt_byte]
  rw [aesCbcDecryptBuffer, if_pos (by omega), ← blockByte_blockAt (p := p) i]
  simp only [blockByte]
  rw [cbcDecrypt_cbcEncrypt xorBlock_cancel hb]

end Cipher

section Blob

variable {k : FileKey} {e : Env} {iv data buf : Buf} {len : ℕ}

lemma load32_leByte {m : Buf} {a v : ℕ} (hv : v < 2 ^ 32) (h : ∀ j < 4, m (a + j) = leByte v j) :
    load32 m a = v := by
  have h0 := h 0 (by omega)
  have h1 := h 1 (by omega)
  have h2 := h 2 (by omega)
  have h3 := h 3 (by omega)
  rw [Nat.add_zero] at h0
  simp only [load32, h0, h1, h2, h3, leByte]
  simp
  omega

lemma encTotalLen_eq (h : len ≤ 65536) : encTotalLen len = 16 + (55 + len) / 16 * 16 := by
  simp only [encTotalLen, u32]
  omega

lemma encHeader_magic {j : ℕ} (hj : j < 4) :
    encHeader e data len (0 + j) = leByte safeMagic j := by
  rw [encHeader, Nat.zero_add, if_pos hj]
  rfl

lemma encHeader_length {j : ℕ} (hj : j < 4) : encHeader e data len (4 + j) = leByte len j := by
  rw [encHeader, if_neg (by omega), if_pos (by omega), Nat.add_sub_cancel_left]

lemma encHeader_tag {j : ℕ} (hj : j < 32) :
    encHeader e data len (8 + j) = e.crypto.hmacSha256 data len j := by
  rw [encHeader, if_neg (by omega), if_neg (by omega), if_pos (by omega), Nat.add_sub_cancel_left]

lemma encHeader_data {i : ℕ} (hi : i < len) : encHeader e data len (40 + i) = data i := by
  rw [encHeader, if_neg (by omega), if_neg (by omega), if_neg (by omega), if_pos (by omega),
    Nat.add_sub_cancel_left]

lemma decrypt_encBuffer (iv : Buf) (he : e.crypto = k.crypto) {m : ℕ} (hm : 16 ∣ m)
    (hf : 16 + m ≤ encTotalLen len) (hb : ∀ i < 16 + m, buf i = encBuffer e iv data len i)
    {i : ℕ} (hi : i < m) :
    aesCbcDecryptBuffer k.cipher (blockAt buf 0) (fun i => buf (16 + i)) m i =
      encHeader e data len i := by
  have hiv : blockAt buf 0 = blockAt iv 0 := by
    funext j
    simp only [blockAt, Nat.mul_zero, Nat.zero_add]
    rw [hb _ (by omega), encBuffer, if_pos j.2]
  rw [hiv]
  refine aesCbcDecryptBuffer_encrypted (n := encTotalLen len - 16) (by omega) (fun i hi => ?_) hi
  rw [hb _ (by omega), encBuffer, if_neg (by omega), Nat.add_sub_cancel_left, he]
  rfl

lemma bufOf_map {f : ℕ → UInt8} {n i : ℕ} (hi : i < n) :
    bufOf ((range n).map f) i = f i := by
  simp [bufOf, hi]

/-- The tag, the length and the data come out as they went in, so that every check passes. -/
lemma openBlob_encBuffer (he : e.crypto = k.crypto) (hl : len ≤ 65536)
    (hb : ∀ i < encTotalLen len, buf i = encBuffer e iv data len i) :
    ∃ plaintext, cryptoFsOpenBlob k buf (encTotalLen len) = .ok (plaintext, len) ∧
      ∀ i < len, plaintext i = data i := by
  have ht := encTotalLen_eq hl
  have hd : ∀ i < encTotalLen len - 16, aesCbcDecryptBuffer k.cipher (blockAt buf 0)
      (fun i => buf (16 + i)) (encTotalLen len - 16) i = encHeader e data len i := by
    intro i hi
    refine decrypt_encBuffer iv he ?_ (by omega) (fun j hj => hb j (by omega)) hi
    exact ⟨(55 + len) / 16, by omega⟩
  obtain ⟨h, hh⟩ : ∃ h, h = aesCbcDecryptBuffer k.cipher (blockAt buf 0) (fun i => buf (16 + i))
    (encTotalLen len - 16) := ⟨_, rfl⟩
  rw [← hh] at hd
  have hm : load32 h 0 = safeMagic := load32_leByte (by decide) fun j hj =>
    (hd _ (by omega)).trans (encHeader_magic hj)
  have ho : load32 h 4 = len := load32_leByte (by omega) fun j hj =>
    (hd _ (by omega)).trans (encHeader_length hj)
  have hp : ∀ i < len, h (40 + i) = data i := fun i hi =>
    (hd _ (by omega)).trans (encHeader_data hi)
  have hta : cryptoCtCmpBytes (k.hmac (bytesOf (fun i => h (40 + i)) len)) (fun j => h (8 + j))
      32 = true := by
    have hsame : bytesOf (fun i => h (40 + i)) len = bytesOf data len :=
      map_congr_left fun i hi => hp i (mem_range.1 hi)
    simp only [cryptoCtCmpBytes, all_eq_true, mem_range, beq_iff_eq]
    intro j hj
    rw [hd _ (by omega), encHeader_tag hj, he, hsame]
    rfl
  refine ⟨fun i => h (40 + i), ?_, hp⟩
  unfold cryptoFsOpenBlob
  rw [if_neg (by omega)]
  simp only [← hh, hm, ho, hta]
  rw [if_neg (by simp), if_neg (by omega), if_neg (by simp)]

end Blob

section Files

variable {k : FileKey} {e e' : Env} {s : Fs} {i : ℕ} {d : DirEntry} {c : Content} {iv : Buf}

def Content.encrypted (c : Content) (e : Env) (iv : Buf) (h : c.size ≤ 65536) : Content :=
  ⟨encBuffer e iv c.bytes c.size, encTotalLen c.size, by rw [encTotalLen_eq h]; omega⟩

@[simp] lemma Content.encrypted_size {h : c.size ≤ 65536} :
    (c.encrypted e iv h).size = encTotalLen c.size := rfl

lemma Stored.firstSector (h : Stored s i d c) {p : ℕ} (hp : p < c.size) (hlt : p < 512) :
    s.disk (fsClusterToSector s.geo d.startCluster) p = c.bytes p := by
  have hc := h.wellFormed.chain i h.used (h.entry ▸ h.start)
  rw [h.entry] at hc
  have hb := h.bytes p hp
  rcases hl : chainOf s i with _ | ⟨x, l⟩
  · -- an empty chain would start at the end mark
    have hle := h.wellFormed.size i h.used (h.entry ▸ h.start)
    have hpo := clustersFor_pos (s.dirTable i).fileSize
    rw [hl, length_nil] at hle
    omega
  · rw [hl] at hc
    have hx : d.startCluster = x := hc.1.1
    have hd : p / clusterBytes = 0 := by
      simp only [clusterBytes, fsClusterSectors]
      omega
    have hm : p % clusterBytes / 512 = 0 := by
      simp only [clusterBytes, fsClusterSectors]
      omega
    rw [fileByte, hl, dataByte, hd, hm, Nat.mod_eq_of_lt hlt] at hb
    rw [hx]
    exact hb

lemma bytesToCopy_eq {offset size : ℕ} (h : c.EndFits offset size) :
    bytesToCopy offset size c.size = (c.slice offset size).length := by
  rw [slice_length, bytesToCopy]
  split_ifs with hp hc
  · omega
  · rw [u32_of_lt (h (by omega))] at hc
    omega
  · rw [u32_of_lt (h (by omega))] at hc
    omega

lemma Content.slice_end {offset : ℕ} (hc : c.size ≤ 65536) (ho : offset < 2 ^ 32) (size : ℕ) :
    offset + (c.slice offset size).length < 2 ^ 32 := by
  rw [slice_length]
  omega

section Read

variable (he : e.crypto = k.crypto) (hc : c.size ≤ 65536)
  (h : Stored s i d (c.encrypted e iv hc)) (he' : e'.Serves) (file : VfsFile)
  (hst : file.startCluster = d.startCluster) (hfile : file.fileSize = encTotalLen c.size)
include he h he' hst hfile

lemma Stored.fsSizeEncrypted : fsSizeEncrypted k e' s file = .ok c.size := by
  have ht := encTotalLen_eq hc
  have hse : ∀ p < 32, s.disk (fsClusterToSector s.geo d.startCluster) p =
      encBuffer e iv c.bytes c.size p := fun p hp =>
    h.firstSector (show p < encTotalLen c.size by omega) (by omega)
  obtain ⟨sector, hs⟩ : ∃ sector, sector = s.disk (fsClusterToSector s.geo d.startCluster) :=
    ⟨_, rfl⟩
  rw [← hs] at hse
  have hd : ∀ i < 16, aesCbcDecryptBuffer k.cipher (blockAt sector 0) (fun i => sector (16 + i)) 16
      i = encHeader e c.bytes c.size i := fun i hi =>
    decrypt_encBuffer iv he ⟨1, rfl⟩ (by omega) (fun j hj => hse j (by omega)) hi
  obtain ⟨block, hb⟩ : ∃ block, block = aesCbcDecryptBuffer k.cipher (blockAt sector 0)
    (fun i => sector (16 + i)) 16 := ⟨_, rfl⟩
  rw [← hb] at hd
  have hm : load32 block 0 = safeMagic := load32_leByte (by decide) fun j hj =>
    (hd _ (by omega)).trans (encHeader_magic hj)
  have ho : load32 block 4 = c.size := load32_leByte (by omega) fun j hj =>
    (hd _ (by omega)).trans (encHeader_length hj)
  unfold EsdumanOS.fsSizeEncrypted
  rw [if_neg (by omega), hst]
  simp only [fsReadSector, he'.reads, ← hs, ← hb, hm, ho]
  rw [if_neg (by simp), if_neg (by simp), if_neg (by omega)]

/-- A read decrypts the whole blob, of which it copies what `bytes_to_copy` says. -/
lemma Stored.fsReadEncrypted_eq (size : ℕ) :
    ∃ plaintext : Buf, (∀ i < c.size, plaintext i = c.bytes i) ∧
      fsReadEncrypted k e' s file size =
        ((range (bytesToCopy file.currentOffset size c.size)).map fun i =>
          plaintext (file.currentOffset + i), { file with
            currentOffset := u32 (file.currentOffset +
              bytesToCopy file.currentOffset size c.size) }) := by
  have ht := encTotalLen_eq hc
  have hr : fsReadRaw e' s { file with currentOffset := 0 } file.fileSize =
      ((c.encrypted e iv hc).slice 0 file.fileSize, { file with
        currentOffset := 0 + ((c.encrypted e iv hc).slice 0 file.fileSize).length }) :=
    @read e' s i d _ h he'.reads { file with currentOffset := 0 } hst hfile _ (by omega)
  have hra : ((c.encrypted e iv hc).slice 0 file.fileSize).length = encTotalLen c.size := by
    rw [slice_length, hfile]
    exact Nat.min_self _
  have hb : ∀ i < encTotalLen c.size, bufOf ((c.encrypted e iv hc).slice 0 file.fileSize) i =
      encBuffer e iv c.bytes c.size i := by
    intro i hi
    have hlt : i < min file.fileSize ((c.encrypted e iv hc).size - 0) := by
      rw [encrypted_size]
      omega
    rw [Content.slice, bufOf_map hlt, Nat.zero_add]
    rfl
  obtain ⟨plaintext, ho, hp⟩ := openBlob_encBuffer he hc hb
  refine ⟨plaintext, hp, ?_⟩
  unfold fsReadEncrypted
  rw [if_neg (by omega), he'.memory, if_neg (by simp), hr]
  simp only [hra, ho]
  rw [if_neg (by omega)]

lemma Stored.fsReadEncrypted_fits {size : ℕ} (ho : file.currentOffset < 2 ^ 32)
    (hf : c.EndFits file.currentOffset size) :
    fsReadEncrypted k e' s file size = (c.slice file.currentOffset size, { file with
      currentOffset := file.currentOffset + (c.slice file.currentOffset size).length }) := by
  obtain ⟨plaintext, hp, hr⟩ := h.fsReadEncrypted_eq he hc he' file hst hfile size
  rw [hr, bytesToCopy_eq hf, u32_of_lt (slice_end hc ho size)]
  refine Prod.ext ?_ rfl
  simp only [Content.slice, length_map, length_range]
  refine map_congr_left fun i hi => hp _ ?_
  rw [mem_range] at hi
  omega

lemma Stored.fsReadEncrypted_wraps {size : ℕ} (hsi : size < 2 ^ 32)
    (hf : ¬ c.EndFits file.currentOffset size) :
    (fsReadEncrypted k e' s file size).1.length = size ∧
      (c.slice file.currentOffset size).length < size := by
  obtain ⟨plaintext, -, hr⟩ := h.fsReadEncrypted_eq he hc he' file hst hfile size
  simp only [EndFits, not_forall, not_lt] at hf
  obtain ⟨hlt, hw⟩ := hf
  have hco : bytesToCopy file.currentOffset size c.size = size := by
    rw [bytesToCopy, if_neg (by omega), if_neg]
    unfold u32
    omega
  constructor
  · rw [hr, hco, length_map, length_range]
  · rw [slice_length]
    omega

end Read

lemma Stored.encryptedSession (he : e.crypto = k.crypto) (hc : c.size ≤ 65536) :
    ∀ (events : List ReadEvent) {s : Fs} {file : VfsFile}, Stored s i d (c.encrypted e iv hc) →
      file.startCluster = d.startCluster → file.fileSize = encTotalLen c.size →
      file.currentOffset < 2 ^ 32 →
      c.SessionFits d.filename d.parentId file.currentOffset events →
        readSession (fsReadEncrypted k) s file events = c.session file.currentOffset events
  | [], _, _, _, _, _, _, _ => rfl
  | .other e' op :: events, s, file, h, hs, hfile, ho, hf =>
    encryptedSession he hc events (h.step hf.1 e') hs hfile ho hf.2
  | .read e' size :: events, s, file, h, hs, hfile, ho, hf => by
    obtain ⟨hse, hen, hr⟩ := hf
    rw [readSession, Content.session, h.fsReadEncrypted_fits he hc hse file hs hfile ho hen]
    exact congrArg _ (encryptedSession he hc events h hs hfile
      (slice_end hc ho size) hr)
  | .seek offset :: events, s, file, h, hs, hfile, ho, hf =>
    encryptedSession he hc events h hs hfile hf.1 hf.2

lemma fsCreateEncrypted_stored {name : Name} {parentId : ℕ} (hw : WellFormed s)
    (hd : ∀ r b, e.writeStatus r b = .ok) (hc : c.size ≤ 65536)
    (hok : (fsCreateEncrypted e s name c.bytes c.size parentId).1 = .ok) :
    ∃ iv i start, Stored (fsCreateEncrypted e s name c.bytes c.size parentId).2 i
      (newFileEntry e i name start (encTotalLen c.size) parentId) (c.encrypted e iv hc) := by
  unfold fsCreateEncrypted at hok ⊢
  split_ifs at hok ⊢ with hmem
  rcases hi : e.iv with _ | iv
  · simp [hi] at hok
  · simp only [hi] at hok ⊢
    obtain ⟨i, start, h⟩ :=
      @fsCreateFileRaw_stored e s (c.encrypted e iv hc) name parentId hw hd hok
    exact ⟨iv, i, start, h⟩

/-- `fs_read_encrypted` at an offset returns the slice of the content there and moves on. -/
def ReadsSlice (k : FileKey) (e : Env) (s : Fs) (file : VfsFile) (c : Content) (size : ℕ) : Prop :=
  fsReadEncrypted k e s file size = (c.slice file.currentOffset size, { file with
    currentOffset := file.currentOffset + (c.slice file.currentOffset size).length })

/-- An encrypted file reports its length; a read of it is right iff the end of the request does not
wrap. -/
theorem fsReadEncrypted_reads_back (k : FileKey) (e : Env) (he : e.crypto = k.crypto) (s : Fs)
    (hw : WellFormed s) (hdev : ∀ r b, e.writeStatus r b = .ok) (name : Name) (c : Content)
    (hc : c.size ≤ 65536) (parentId : ℕ)
    (hok : (fsCreateEncrypted e s name c.bytes c.size parentId).1 = .ok) :
    ∃ file, fsOpen (fsCreateEncrypted e s name c.bytes c.size parentId).2 name parentId =
        (.ok, some file) ∧
      (∀ e' : Env, e'.Serves → fsSizeEncrypted k e'
        (fsCreateEncrypted e s name c.bytes c.size parentId).2 file = .ok c.size) ∧
      (∀ (e' : Env) (offset size : ℕ), e'.Serves → offset < 2 ^ 32 → size < 2 ^ 32 →
        (ReadsSlice k e' (fsCreateEncrypted e s name c.bytes c.size parentId).2
          { file with currentOffset := offset } c size ↔ c.EndFits offset size)) ∧
      ∀ events, c.SessionFits name parentId 0 events →
        readSession (fsReadEncrypted k) (fsCreateEncrypted e s name c.bytes c.size parentId).2 file
          events = c.session 0 events := by
  obtain ⟨iv, i, start, h⟩ := fsCreateEncrypted_stored hw hdev hc hok
  obtain ⟨file, hopen, hstart, hsize, hzero⟩ := h.fsOpen rfl
  refine ⟨file, hopen, fun e' hserves => h.fsSizeEncrypted he hc hserves file hstart hsize, ?_, ?_⟩
  · intro e' offset size hserves hoff hlt
    constructor
    · intro hread
      by_contra hfits
      obtain ⟨hall, hless⟩ := h.fsReadEncrypted_wraps he hc hserves
        { file with currentOffset := offset } hstart hsize hlt hfits
      rw [hread] at hall
      exact absurd hall hless.ne
    · intro hfits
      exact h.fsReadEncrypted_fits he hc hserves { file with currentOffset := offset } hstart hsize
        hoff hfits
  · intro events hfits
    rw [← hzero] at hfits ⊢
    exact encryptedSession he hc events h hstart hsize (by omega) hfits

end Files

def openKey : FileKey := ⟨⟨id, id, fun _ => rfl⟩, fun _ _ => 0⟩

def openKeyEnv : Env := { Env.plain with crypto := openKey.crypto, iv := some fun _ => 0 }

def twoBytes : Content := ⟨fun i => if i = 0 then 7 else 9, 2, by decide⟩

/-- The second byte is asked for with room to spare. -/
theorem fsReadEncrypted_reads_back_sample :
    ∃ file, fsOpen (fsCreateEncrypted openKeyEnv tinyFs nameA twoBytes.bytes 2 0).2 nameA 0 =
        (.ok, some file) ∧
      readSession (fsReadEncrypted openKey)
        (fsCreateEncrypted openKeyEnv tinyFs nameA twoBytes.bytes 2 0).2 file
        [.seek 1, .read openKeyEnv 10] = [([9], 2)] := by
  obtain ⟨file, hopen, -, -, hsession⟩ := fsReadEncrypted_reads_back openKey openKeyEnv rfl tinyFs
    (freshFs_wellFormed _ _ _) (fun _ _ => rfl) nameA twoBytes (by decide) 0 (by decide +kernel)
  refine ⟨file, hopen, hsession _ ⟨by decide, ⟨fun _ => rfl, rfl⟩, ?_, trivial⟩⟩
  intro _
  decide

/-- A request of the largest size at the second byte. -/
theorem fsReadEncrypted_overruns :
    ∃ file, fsOpen (fsCreateEncrypted openKeyEnv tinyFs nameA twoBytes.bytes 2 0).2 nameA 0 =
        (.ok, some file) ∧
      (fsReadEncrypted openKey openKeyEnv
        (fsCreateEncrypted openKeyEnv tinyFs nameA twoBytes.bytes 2 0).2
        { file with currentOffset := 1 } 0xFFFFFFFF).1.length = 0xFFFFFFFF ∧
      (twoBytes.slice 1 0xFFFFFFFF).length = 1 := by
  obtain ⟨iv, i, start, h⟩ := @fsCreateEncrypted_stored openKeyEnv tinyFs twoBytes nameA 0
    (freshFs_wellFormed _ _ _) (fun _ _ => rfl) (by decide) (by decide +kernel)
  obtain ⟨file, hopen, hstart, hsize, -⟩ := h.fsOpen rfl
  refine ⟨file, hopen, ?_, by decide⟩
  have hwraps : ¬ twoBytes.EndFits 1 0xFFFFFFFF := fun hfits =>
    absurd (hfits (by decide)) (by decide)
  exact (h.fsReadEncrypted_wraps rfl (by decide) ⟨fun _ => rfl, rfl⟩
    { file with currentOffset := 1 } hstart hsize (by decide) hwraps).1

end EsdumanOS
