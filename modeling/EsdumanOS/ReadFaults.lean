import EsdumanOS.Encrypted

/-!
# Reads that may fail

What an honest answer of `fs_read` is when the block layer refuses sectors, the allocation table is
damaged, memory is short or a file was tampered with: a positive count for bytes really read, zero
at the end of the file only, a negative number for everything else.
-/

namespace EsdumanOS

open Lib

/-- Byte `p` of the chain as the device has it. -/
def storedByte (s : Fs) (start p : ℕ) : UInt8 :=
  match sectorAt s start p with
  | none => 0
  | some sector => s.disk sector (p % 512)

/-- The chain has a byte `p` and the block layer serves its sector. -/
def ReadableAt (e : Env) (s : Fs) (start p : ℕ) : Prop :=
  ∃ sector, sectorAt s start p = some sector ∧ e.readFault sector = none

section Honest

variable (k : FileKey) (e : Env) (s : Fs) (file : VfsFile)

/-- The first `n` bytes of the chain are the whole file, can be read, and open under the key. -/
structure Authentic (n : ℕ) (plaintext : Buf) (origLen : ℕ) : Prop where
  within : n ≤ file.fileSize
  complete : n < file.fileSize → sectorAt s file.startCluster n = none
  readable : ∀ p < n, ReadableAt e s file.startCluster p
  opens : cryptoFsOpenBlob k (bufOf ((List.range n).map (storedByte s file.startCluster))) n =
    .ok (plaintext, origLen)

/-- The bytes are those of the file from its offset on, as they were read from the device. -/
def DeliversRaw (out : List UInt8) : Prop :=
  file.currentOffset + out.length ≤ file.fileSize ∧
    ∀ j < out.length, ReadableAt e s file.startCluster (file.currentOffset + j) ∧
      out[j]? = some (storedByte s file.startCluster (file.currentOffset + j))

def DeliversPlain (out : List UInt8) : Prop :=
  ∃ n plaintext origLen, Authentic k e s file n plaintext origLen ∧
    file.currentOffset + out.length ≤ origLen ∧
      ∀ j < out.length, out[j]? = some (plaintext (file.currentOffset + j))

/-- Nothing failed, and the offset is at the end of the plaintext or behind it. -/
def PlainEnds : Prop :=
  file.fileSize ≤ 56 ∨ e.kmallocOk = true ∧
    ∃ n plaintext origLen, Authentic k e s file n plaintext origLen ∧
      origLen ≤ file.currentOffset

/-- The answer of `fs_read` says what happened: bytes are bytes of the file, none are its end. -/
def HonestRead (size : ℕ) : Prop :=
  match fsRead k e s file size with
  | .error _ => True
  | .ok (out, _) =>
    if .cryptoEnforced ≤ e.secLevel then
      (out ≠ [] → DeliversPlain k e s file out) ∧ (out = [] → PlainEnds k e s file)
    else
      (out ≠ [] → DeliversRaw e s file out) ∧ (out = [] → file.fileSize ≤ file.currentOffset)

end Honest

section Conditions

variable (k : FileKey) (e : Env) (s : Fs) (file : VfsFile) (size : ℕ)

/-- Before the end of the file the request is not empty, the chain reaches the offset, the device
serves it, and one that wraps finds no byte behind the end. -/
structure RawReadable : Prop where
  wanted : 0 < size
  reaches : (sectorAt s file.startCluster file.currentOffset).isSome
  served : ∀ p, file.currentOffset ≤ p → p < file.currentOffset + size → p < file.fileSize →
    ∀ sector, sectorAt s file.startCluster p = some sector → e.readFault sector = none
  ends : 2 ^ 32 ≤ file.currentOffset + size → sectorAt s file.startCluster file.fileSize = none

/-- There is memory, the file opens under the key, and the request is not empty and does not
wrap. -/
def PlainReadable : Prop :=
  e.kmallocOk = true ∧ ∃ n plaintext origLen, Authentic k e s file n plaintext origLen ∧
    (file.currentOffset < origLen →
      0 < size ∧ n < 2 ^ 31 ∧ file.currentOffset + size < 2 ^ 32)

/-- What `fs_read` needs to be honest. -/
def Readable : Prop :=
  if .cryptoEnforced ≤ e.secLevel then
    e.keyUsable = true → 56 < file.fileSize → PlainReadable k e s file size
  else file.currentOffset < file.fileSize → RawReadable e s file size

end Conditions

end EsdumanOS
