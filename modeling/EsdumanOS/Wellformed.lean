import EsdumanOS.Vfs

/-!
# The shape of a volume

Entry ids equal slots, names are unique in their directory, every parent chain reaches the root, and
the chains of the used entries are disjoint and account for every cluster that is not free. `FsOp`
collects the operations.
-/

namespace EsdumanOS

open Lib

def Used (s : Fs) (i : ℕ) : Prop :=
  i < s.geo.maxEntries ∧ (s.dirTable i).isUsed ≠ 0

instance (s : Fs) (i : ℕ) : Decidable (Used s i) := inferInstanceAs (Decidable (_ ∧ _))

def chainOf (s : Fs) (i : ℕ) : List ℕ :=
  if (s.dirTable i).startCluster = 0 then []
  else follow s.fat fatEof s.geo.totalClusters (s.dirTable i).startCluster

/-- From `c` the table leads through the data clusters of `l` to `fatEof`. -/
def ValidChain (s : Fs) (c : ℕ) (l : List ℕ) : Prop :=
  Linked s.fat fatEof c l ∧ ∀ x ∈ l, fsFirstDataCluster ≤ x ∧ x < s.geo.totalClusters

/-- The parent id leads to the root through used directories. -/
inductive ReachesRoot (s : Fs) : ℕ → Prop
  | root : ReachesRoot s 0
  | up {p j : ℕ} : Used s j → (s.dirTable j).fileType = ftDir → (s.dirTable j).entryId = p →
      ReachesRoot s (s.dirTable j).parentId → ReachesRoot s p

/-- The directory-table invariant: ids, names and chains. -/
structure TableInv (s : Fs) : Prop where
  entryId : ∀ i, Used s i → (s.dirTable i).entryId = i
  unique : ∀ i j, Used s i → Used s j → (s.dirTable i).parentId = (s.dirTable j).parentId →
    (s.dirTable i).filename = (s.dirTable j).filename → i = j
  chain : ∀ i, Used s i → (s.dirTable i).startCluster ≠ 0 →
    ValidChain s (s.dirTable i).startCluster (chainOf s i)
  disjoint : ∀ i j, Used s i → Used s j → i ≠ j → (chainOf s i).Disjoint (chainOf s j)

/-- Clusters a file of `size` bytes occupies; an empty file has one. -/
def clustersFor (size : ℕ) : ℕ :=
  max 1 ((size + clusterBytes - 1) / clusterBytes)

/-- Everything the operations keep true of the tables, the count of regular files apart. -/
structure TreeInv (s : Fs) : Prop extends TableInv s where
  slotZero : (s.dirTable 0).isUsed = 0
  flags : ∀ i < s.geo.maxEntries, (s.dirTable i).isUsed ≤ 1
  parents : ∀ i, Used s i → ReachesRoot s (s.dirTable i).parentId
  size : ∀ i, Used s i → (s.dirTable i).startCluster ≠ 0 →
    (chainOf s i).length = clustersFor (s.dirTable i).fileSize
  noData : ∀ i, Used s i → (s.dirTable i).startCluster = 0 → (s.dirTable i).fileSize = 0
  noLeak : ∀ c, fsFirstDataCluster ≤ c → c < s.geo.totalClusters → s.fat c ≠ fatFree →
    ∃ i, Used s i ∧ c ∈ chainOf s i

/-- A regular file owns as many clusters as its size asks for, and a used cluster has exactly one
owner. -/
structure WellFormed (s : Fs) : Prop extends TreeInv s where
  regular : ∀ i, Used s i → (s.dirTable i).fileType = ftRegular →
    (chainOf s i).length = clustersFor (s.dirTable i).fileSize
  owner : ∀ c, fsFirstDataCluster ≤ c → c < s.geo.totalClusters → s.fat c ≠ fatFree →
    ∃! i, Used s i ∧ c ∈ chainOf s i

/-- Byte `p` of the data stored in a chain. -/
def dataByte (s : Fs) (l : List ℕ) (p : ℕ) : UInt8 :=
  match l[p / clusterBytes]? with
  | some c => s.disk (fsClusterToSector s.geo c + p % clusterBytes / 512) (p % 512)
  | none => 0

/-- Byte `p` of the file in slot `i`. -/
def fileByte (s : Fs) (i p : ℕ) : UInt8 :=
  dataByte s (chainOf s i) p

/-- A buffer handed to the file system. The kernel half is 1 GiB, so no buffer exceeds `2 ^ 31`. -/
structure Content where
  bytes : Buf
  size : ℕ
  size_le : size ≤ 2 ^ 31

/-- The operations that change the tables. -/
inductive FsOp
  | createRaw (name : Name) (content : Content) (parentId : ℕ)
  | create (name : Name) (content : Content) (parentId : ℕ)
  | mkdir (name : Name) (parentId : ℕ)
  | delete (name : Name) (parentId : ℕ)
  | rename (oldName newName : Name) (parentId : ℕ)
  | update (name : Name) (content : Content) (parentId : ℕ)
  | chmod (entryId mode : ℕ)
  | chown (entryId uid gid : ℕ)

def FsOp.run (e : Env) (s : Fs) : FsOp → Errno × Fs
  | createRaw name content parentId => fsCreateFileRaw e s name content.bytes content.size parentId
  | create name content parentId => fsCreateFile e s name content.bytes content.size parentId
  | mkdir name parentId => fsMkdir e s name parentId
  | delete name parentId => fsDelete e s name parentId
  | rename oldName newName parentId => fsRename e s oldName newName parentId
  | update name content parentId => fsAtomicUpdate e s name content.bytes content.size parentId
  | chmod entryId mode => fsChmod e s entryId mode
  | chown entryId uid gid => fsChown e s entryId uid gid

def fsStep (s : Fs) (call : Env × FsOp) : Fs :=
  (call.2.run call.1 s).2

def fsRun (s : Fs) (calls : List (Env × FsOp)) : Fs :=
  calls.foldl fsStep s

end EsdumanOS
