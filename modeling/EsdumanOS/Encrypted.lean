import EsdumanOS.Lib.Cbc
import EsdumanOS.Lib.Words
import EsdumanOS.ReadBack

/-!
# Encrypted files

The readers of `crypto_fs.c`: `fs_size_encrypted` decrypts the first block of a file,
`fs_read_encrypted` all of it, and copies a part out. The AES block function and HMAC are
parameters.
-/

namespace EsdumanOS

open Lib

abbrev AesBlock := Fin 16 → UInt8

/-- `XorWithIv`. -/
def xorBlock (a b : AesBlock) : AesBlock := fun k => a k ^^^ b k

def blockAt (buf : Buf) (j : ℕ) : AesBlock := fun k => buf (16 * j + k)

def blockByte (blocks : ℕ → AesBlock) (i : ℕ) : UInt8 :=
  blocks (i / 16) ⟨i % 16, Nat.mod_lt _ (by decide)⟩

/-- `AES_CBC_encrypt_buffer`, which works in whole blocks. -/
def aesCbcEncryptBuffer (c : BlockCipher AesBlock) (iv : AesBlock) (buf : Buf) (len : ℕ) : Buf :=
  fun i => if i / 16 < (len + 15) / 16 then blockByte (cbcEncrypt xorBlock c iv (blockAt buf)) i
    else buf i

def aesCbcDecryptBuffer (c : BlockCipher AesBlock) (iv : AesBlock) (buf : Buf) (len : ℕ) : Buf :=
  fun i => if i / 16 < (len + 15) / 16 then blockByte (cbcDecrypt xorBlock c iv (blockAt buf)) i
    else buf i

def bytesOf (buf : Buf) (n : ℕ) : List UInt8 := (List.range n).map buf

structure FileKey where
  cipher : BlockCipher AesBlock
  hmac : List UInt8 → ℕ → UInt8

/-- What `crypto_fs.c` calls when it writes. -/
def FileKey.crypto (k : FileKey) : Crypto where
  hmacSha256 buf n := k.hmac (bytesOf buf n)
  aesCbcEncrypt iv buf len := aesCbcEncryptBuffer k.cipher (blockAt iv 0) buf len

section Read

variable (k : FileKey)

def safeMagic : ℕ := 0x53414645

def bufOf (bytes : List UInt8) : Buf := fun i => bytes.getD i 0

/-- `crypto_ct_cmp_bytes` finds no difference. -/
def cryptoCtCmpBytes (a b : Buf) (len : ℕ) : Bool := (List.range len).all fun i => a i == b i

/-- `crypto_fs_open_blob`: the plaintext and its length. -/
def cryptoFsOpenBlob (buf : Buf) (len : ℕ) : Except Errno (Buf × ℕ) :=
  if len ≤ 56 then .error .inval
  else
    let cipherLen := len - 16
    let hdr := aesCbcDecryptBuffer k.cipher (blockAt buf 0) (fun i => buf (16 + i)) cipherLen
    let origLen := load32 hdr 4
    let plaintext : Buf := fun i => hdr (40 + i)
    if load32 hdr 0 ≠ safeMagic then .error .acces
    else if cipherLen - 40 < origLen then .error .inval
    else if !cryptoCtCmpBytes (k.hmac (bytesOf plaintext origLen)) (fun j => hdr (8 + j)) 32 then
      .error .io
    else .ok (plaintext, origLen)

def fsSizeEncrypted (e : Env) (s : Fs) (file : VfsFile) : Except Errno ℕ :=
  if file.fileSize ≤ 56 then .ok 0
  else
    let (res, sector) := fsReadSector e s (fsClusterToSector s.geo file.startCluster)
    if res ≠ .ok then .error .io
    else
      let block := aesCbcDecryptBuffer k.cipher (blockAt sector 0) (fun i => sector (16 + i)) 16
      let origLen := load32 block 4
      if load32 block 0 ≠ safeMagic then .error .io
      else if file.fileSize - 16 - 40 < origLen then .error .io
      else .ok origLen

/-- How many bytes `fs_read_encrypted` copies out of a plaintext of `origLen`. -/
def bytesToCopy (offset size origLen : ℕ) : ℕ :=
  if origLen ≤ offset then 0
  else if origLen < u32 (offset + size) then origLen - offset
  else size

/-- `fs_read_encrypted`: the bytes copied out and the file. The number of bytes read is an `int`. -/
def fsReadEncrypted (e : Env) (s : Fs) (file : VfsFile) (size : ℕ) : List UInt8 × VfsFile :=
  if file.fileSize ≤ 56 then ([], file)
  else if !e.kmallocOk then ([], file)
  else
    let (temp, moved) := fsReadRaw e s { file with currentOffset := 0 } file.fileSize
    let kept := { moved with currentOffset := file.currentOffset }
    if temp.length ≤ 56 ∨ 2 ^ 31 ≤ temp.length then ([], kept)
    else
      match cryptoFsOpenBlob k (bufOf temp) temp.length with
      | .error _ => ([], kept)
      | .ok (plaintext, origLen) =>
        let n := bytesToCopy file.currentOffset size origLen
        ((List.range n).map fun i => plaintext (file.currentOffset + i),
          { moved with currentOffset := u32 (file.currentOffset + n) })

def fsRead (e : Env) (s : Fs) (file : VfsFile) (size : ℕ) :
    Except Errno (List UInt8 × VfsFile) :=
  if .cryptoEnforced ≤ e.secLevel then
    if !e.keyUsable then .error .acces
    else .ok (fsReadEncrypted k e s file size)
  else .ok (fsReadRaw e s file size)

end Read

structure Env.Serves (e : Env) : Prop where
  reads : ∀ r, e.readFault r = none
  memory : e.kmallocOk = true

/-- The end of the request fits 32 bits, unless the offset is behind the end anyway. -/
def Content.EndFits (c : Content) (offset size : ℕ) : Prop :=
  offset < c.size → offset + size < 2 ^ 32

def Content.SessionFits (c : Content) (name : Name) (parentId : ℕ) : ℕ → List ReadEvent → Prop
  | _, [] => True
  | off, .other _ op :: events =>
      op.Elsewhere name parentId ∧ c.SessionFits name parentId off events
  | off, .read e size :: events => e.Serves ∧ c.EndFits off size ∧
      c.SessionFits name parentId (off + (c.slice off size).length) events
  | _, .seek offset :: events => offset < 2 ^ 32 ∧ c.SessionFits name parentId offset events

end EsdumanOS
