import EsdumanOS.Volume

/-!
# File operations

The operations of `vfs.c` on the directory table, and the open-file side (`fs_open`, `fs_read_raw`,
`fs_write_buffered`, `fs_commit_writes`). The locks are left out: the kernel is not preemptible, so
each operation runs to its end.
-/

namespace EsdumanOS

open Lib

/-- `dir_table[i]` is in use under that parent and name. -/
def DirEntry.named (d : DirEntry) (parentId : ℕ) (name : Name) : Bool :=
  d.isUsed != 0 && d.parentId == parentId && d.filename == name

/-- The same test as `fs_open`, `fs_delete` and `fs_rename` write it, with `is_used == 1`. -/
def DirEntry.named1 (d : DirEntry) (parentId : ℕ) (name : Name) : Bool :=
  d.isUsed == 1 && d.parentId == parentId && d.filename == name

def fsDirExists (s : Fs) (parentId : ℕ) : Bool :=
  if parentId = 0 then true
  else (firstIdx (fun i => (s.dirTable i).isUsed != 0 && (s.dirTable i).fileType == ftDir &&
    (s.dirTable i).entryId == parentId) s.geo.maxEntries).isSome

def freeSlot (s : Fs) : Option ℕ :=
  firstIdx (fun i => decide (0 < i) && (s.dirTable i).isUsed == 0) s.geo.maxEntries

def clusterBytes : ℕ := 512 * fsClusterSectors

/-- Clusters `fs_create_file_raw` asks for, in `uint32_t` arithmetic. -/
def clustersNeeded (size : ℕ) : ℕ :=
  if size = 0 then 1 else u32 (size + clusterBytes - 1) / clusterBytes

def newChain (s : Fs) (size : ℕ) : List ℕ :=
  (freeClusters s).take (clustersNeeded size)

/-- One pass of the inner loop: the next chunk, zero padded, goes to sector `base + k`. -/
def writeChunk (e : Env) (content : Buf) (size base : ℕ) (st : Fs × ℕ) (k : ℕ) : Fs × ℕ :=
  let chunkSize := if st.2 < size then (if size - st.2 > 512 then 512 else size - st.2) else 0
  ((fsWriteSector e st.1 (base + k) fun i => if i < chunkSize then content (st.2 + i) else 0).2,
    st.2 + chunkSize)

def writeClusters (e : Env) (content : Buf) (size : ℕ) : ℕ → ℕ → Fs × ℕ → Fs × ℕ
  | 0, _, st => st
  | c + 1, current, st =>
    if current = fatEof ∨ st.1.geo.totalClusters ≤ current then st
    else
      let base := fsClusterToSector st.1.geo current
      writeClusters e content size c (st.1.fat current)
        ((List.range fsClusterSectors).foldl (writeChunk e content size base) st)

/-- The entry `fs_create_file_raw` fills in. -/
def newFileEntry (e : Env) (slot : ℕ) (name : Name) (cluster size parentId : ℕ) : DirEntry where
  filename := name
  fileSize := size
  startCluster := cluster
  ownerUid := e.uid
  ownerGid := e.gid
  mtime := e.now
  ctime := e.now
  entryId := slot
  parentId := parentId
  mode := 0o644
  fileType := ftRegular
  isUsed := 1

def fsCreateFileRaw (e : Env) (s : Fs) (name : Name) (content : Buf) (size parentId : ℕ) :
    Errno × Fs :=
  if !s.mounted then (.nodev, s)
  else if maxFilename ≤ name.length then (.inval, s)
  else if !fsDirExists s parentId then (.noent, s)
  else if (lastIdx (fun i => (s.dirTable i).named parentId name) s.geo.maxEntries).isSome then
    (.exist, s)
  else
    match freeSlot s with
    | none => (.nfile, s)
    | some freeIdx =>
      let needed := clustersNeeded size
      let (newCluster, s) := allocateFatChain e s needed
      if newCluster = fatFree then (.nospc, s)
      else
        let s := (writeClusters e content size needed newCluster (s, 0)).1
        (.ok, saveDirectoryToDisk e
          (s.setEntry freeIdx (newFileEntry e freeIdx name newCluster size parentId)))

/-- The plaintext of `fs_create_encrypted` behind the IV: magic, length, HMAC, data, padding. -/
def encHeader (e : Env) (data : Buf) (len : ℕ) : Buf := fun i =>
  if i < 4 then leByte 0x53414645 i
  else if i < 8 then leByte len (i - 4)
  else if i < 40 then e.crypto.hmacSha256 data len (i - 8)
  else if i < 40 + len then data (i - 40)
  else 0

/-- The length of the stored form of `len` bytes, in `uint32_t` arithmetic. -/
def encTotalLen (len : ℕ) : ℕ :=
  u32 (16 + u32 (u32 (40 + len) + 15) / 16 * 16)

def encBuffer (e : Env) (iv data : Buf) (len : ℕ) : Buf := fun i =>
  if i < 16 then iv i
  else e.crypto.aesCbcEncrypt iv (encHeader e data len) (encTotalLen len - 16) (i - 16)

def fsCreateEncrypted (e : Env) (s : Fs) (name : Name) (data : Buf) (len parentId : ℕ) :
    Errno × Fs :=
  if !e.kmallocOk then (.nomem, s)
  else
    match e.iv with
    | none => (.io, s)
    | some iv => fsCreateFileRaw e s name (encBuffer e iv data len) (encTotalLen len) parentId

def fsCreateFile (e : Env) (s : Fs) (name : Name) (content : Buf) (size parentId : ℕ) :
    Errno × Fs :=
  if .immutable ≤ e.secLevel then (.rofs, s)
  else if .cryptoEnforced ≤ e.secLevel then
    if !e.keyUsable then (.acces, s)
    else fsCreateEncrypted e s name content size parentId
  else fsCreateFileRaw e s name content size parentId

def storedForm (e : Env) (content : Buf) (size : ℕ) : Option (Buf × ℕ) :=
  if .immutable ≤ e.secLevel then none
  else if .cryptoEnforced ≤ e.secLevel then
    if e.keyUsable && e.kmallocOk then
      e.iv.map fun iv => (encBuffer e iv content size, encTotalLen size)
    else none
  else some (content, size)

def fsDelete (e : Env) (s : Fs) (name : Name) (parentId : ℕ) : Errno × Fs :=
  if !s.mounted then (.nodev, s)
  else if .immutable ≤ e.secLevel then (.rofs, s)
  else
    match firstIdx (fun i => (s.dirTable i).named1 parentId name) s.geo.maxEntries with
    | none => (.noent, s)
    | some i =>
      if (s.dirTable i).fileType = ftDir ∧ (firstIdx (fun c => (s.dirTable c).isUsed == 1 &&
          (s.dirTable c).parentId == (s.dirTable i).entryId) s.geo.maxEntries).isSome then
        (.notempty, s)
      else
        let fat := release (fun c => c == fatEof || c == fatFree || s.geo.totalClusters ≤ c)
          fatFree (s.geo.totalClusters + 1) s.fat (s.dirTable i).startCluster
        let s := saveFatToDisk e (s.setFat fat)
        (.ok, saveDirectoryToDisk e (s.setEntry i (s.dirTable i).freed))

def fsRename (e : Env) (s : Fs) (oldName newName : Name) (parentId : ℕ) : Errno × Fs :=
  if !s.mounted then (.nodev, s)
  else if maxFilename ≤ newName.length then (.inval, s)
  else if .immutable ≤ e.secLevel then (.rofs, s)
  else if (firstIdx (fun i => (s.dirTable i).named1 parentId newName) s.geo.maxEntries).isSome then
    (.exist, s)
  else
    match firstIdx (fun i => (s.dirTable i).named1 parentId oldName) s.geo.maxEntries with
    | none => (.noent, s)
    | some i =>
      (.ok, saveDirectoryToDisk e
        (s.setEntry i { s.dirTable i with filename := newName, ctime := e.now }))

/-- The temporary name `fs_atomic_update` derives: 59 characters of the name and `.tmp`. -/
def tmpName (name : Name) : Name :=
  name.take 59 ++ ['.', 't', 'm', 'p']

/-- The exchange in the middle of `fs_atomic_update`: start cluster and size change places. -/
def swapData (e : Env) (s : Fs) (orig tmp : ℕ) : ℕ → DirEntry :=
  let o := s.dirTable orig
  let table := Function.update s.dirTable orig { o with
    startCluster := (s.dirTable tmp).startCluster
    fileSize := (s.dirTable tmp).fileSize
    mtime := e.now }
  Function.update table tmp { table tmp with
    startCluster := o.startCluster
    fileSize := o.fileSize }

def fsAtomicUpdate (e : Env) (s : Fs) (name : Name) (content : Buf) (size parentId : ℕ) :
    Errno × Fs :=
  if !s.mounted then (.nodev, s)
  else if .immutable ≤ e.secLevel then (.rofs, s)
  else if (firstIdx (fun i => (s.dirTable i).named parentId name) s.geo.maxEntries).isNone then
    fsCreateFile e s name content size parentId
  else
    let s := (fsDelete e s (tmpName name) parentId).2
    match fsCreateFile e s (tmpName name) content size parentId with
    | (.ok, s) =>
      match lastIdx (fun i => (s.dirTable i).named parentId name) s.geo.maxEntries,
          lastIdx (fun i => (s.dirTable i).named parentId (tmpName name)) s.geo.maxEntries with
      | some orig, some tmp =>
        let s := saveDirectoryToDisk e (s.setDir (swapData e s orig tmp))
        (.ok, (fsDelete e s (tmpName name) parentId).2)
      | _, _ => (.noent, (fsDelete e s (tmpName name) parentId).2)
    | (err, s) => (err, s)

def fsSlotOf (s : Fs) (entryId : ℕ) : Option ℕ :=
  firstIdx (fun i => (s.dirTable i).isUsed != 0 && (s.dirTable i).entryId == entryId)
    s.geo.maxEntries

/-- The common body of `fs_chmod` and `fs_chown`: the entry is changed and its `ctime` set. -/
def changeEntry (e : Env) (s : Fs) (entryId : ℕ) (change : DirEntry → DirEntry) : Errno × Fs :=
  if !s.mounted then (.nodev, s)
  else if .immutable ≤ e.secLevel then (.rofs, s)
  else
    match fsSlotOf s entryId with
    | none => (.noent, s)
    | some i =>
      (.ok, saveDirectoryToDisk e (s.setEntry i { change (s.dirTable i) with ctime := e.now }))

def fsChmod (e : Env) (s : Fs) (entryId mode : ℕ) : Errno × Fs :=
  changeEntry e s entryId fun d => { d with mode := mode % 0o10000 }

def fsChown (e : Env) (s : Fs) (entryId uid gid : ℕ) : Errno × Fs :=
  changeEntry e s entryId fun d => { d with ownerUid := uid, ownerGid := gid }

/-- The entry `fs_mkdir` fills in. -/
def newDirEntry (e : Env) (slot : ℕ) (name : Name) (parentId : ℕ) : DirEntry where
  filename := name
  fileSize := 0
  startCluster := 0
  ownerUid := e.uid
  ownerGid := e.gid
  mtime := e.now
  ctime := e.now
  entryId := slot
  parentId := parentId
  mode := 0o755
  fileType := ftDir
  isUsed := 1

def fsMkdir (e : Env) (s : Fs) (name : Name) (parentId : ℕ) : Errno × Fs :=
  if !s.mounted then (.nodev, s)
  else if .immutable ≤ e.secLevel then (.rofs, s)
  else if maxFilename ≤ name.length then (.inval, s)
  else if !fsDirExists s parentId then (.noent, s)
  else if (firstIdx (fun i => (s.dirTable i).named parentId name) s.geo.maxEntries).isSome then
    (.exist, s)
  else
    match freeSlot s with
    | none => (.nfile, s)
    | some freeIdx =>
      (.ok, saveDirectoryToDisk e (s.setEntry freeIdx (newDirEntry e freeIdx name parentId)))

end EsdumanOS
