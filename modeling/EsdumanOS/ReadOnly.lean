import EsdumanOS.Keyslot
import EsdumanOS.Mount
import EsdumanOS.Wellformed

/-!
# The security level and the devices

The system calls that can reach a block device, over the block cache and `init_fs`. Each operation
of `vfs.c` that writes tests `current_sec_level`; what it hands to the cache past the test is left
open. `sys_mount` and `sys_umount` carry no such test.
-/

namespace EsdumanOS

open Lib SecLevel

/-- The operations of `vfs.c` that write and can be reached from a system call. -/
inductive Mutation
  | createFile
  | delete
  | rename (newName : Name)
  | atomicUpdate
  | chmod
  | chown
  | mkdir
  | keyslotRewrap
  deriving DecidableEq

def Mutation.gate (mounted : Bool) (level : ℕ) : Mutation → Errno
  | createFile => if immutable.toNat ≤ level then .rofs else .ok
  | rename newName =>
    if !mounted then .nodev
    else if maxFilename ≤ newName.length then .inval
    else if immutable.toNat ≤ level then .rofs
    else .ok
  | _ =>
    if !mounted then .nodev else if immutable.toNat ≤ level then .rofs else .ok

/-- Which of them a call of the volume is. `fs_create_file_raw` is reached only through the
others. -/
def FsOp.mutation : FsOp → Option Mutation
  | createRaw _ _ _ => none
  | create _ _ _ => some .createFile
  | mkdir _ _ => some .mkdir
  | delete _ _ => some .delete
  | rename _ newName _ => some (.rename newName)
  | update _ _ _ => some .atomicUpdate
  | chmod _ _ => some .chmod
  | chown _ _ _ => some .chown

/-- `cache` keeps the log of the whole run; `level` is `current_sec_level`, `root` is `root_dev`. -/
structure MountState where
  cache : Bcache
  level : ℕ
  root : ℕ
  fs : FsGlobals

/-- The kernel before the first `init_fs`, over devices that hold `disk`. -/
def MountState.boot (disk : ℕ → ℕ → Sector) : MountState :=
  ⟨bcacheInit disk, cryptoEnforced.toNat, 0, ⟨false, ⟨0, 0, 0⟩, none⟩⟩

def setSecurityLevel (level : ℕ) (k : MountState) : MountState :=
  if level < k.level then k else { k with level := level }

/-- An operation of the file system; `body` is what it does with the cache. -/
def MountState.mutate (io : Io) (k : MountState) (call : Mutation × List CacheOp) : MountState :=
  if call.1.gate k.fs.mounted k.level ≠ .ok then k
  else { k with cache := bcacheRun k.cache (call.2.map fun op => (io, op)) }

/-- `device_is_usable`, for a device that has a name. -/
def deviceIsUsable (io : Io) (dev : ℕ) : Bool :=
  decide (dev ≠ 0) && (io.dev dev).hasRead && decide ((io.dev dev).sectorSize ≠ 0) &&
    decide ((io.dev dev).sectorCount ≠ 0)

/-- `blockdev_set_root`: a device that cannot be read from leaves the root as it was. -/
def MountState.setRoot (io : Io) (dev : ℕ) (k : MountState) : MountState :=
  { k with root := if dev = 0 then 0 else if deviceIsUsable io dev then dev else k.root }

/-- What `init_fs` finds: the devices, where `kmalloc` puts the tables, and kernel memory. -/
structure InitEnv where
  io : Io
  alloc : ∀ sb : Superblock, Option (TableBlocks sb)
  mem : ℕ → UInt8

/-- `init_fs` on the root of the kernel. -/
def MountState.initFs (e : InitEnv) (k : MountState) : MountState :=
  let r := EsdumanOS.initFs e.io k.root e.alloc k.cache e.mem
  { k with fs := r.1, cache := { r.2.cache with log := r.2.cache.log ++ k.cache.log } }

/-- `blockdev_set_root` and `init_fs`. -/
def MountState.moveTo (e : InitEnv) (dev : ℕ) (k : MountState) : MountState :=
  (k.setRoot e.io dev).initFs e

/-- `bcache_flush`, and `bcache_flush_dev` on the root if there is one. -/
def MountState.flushAll (io : Io) (k : MountState) : Errno × MountState :=
  let r := bcacheFlush io k.cache
  if r.1 ≠ .ok ∨ k.root = 0 then (r.1, { k with cache := r.2 })
  else
    let r := bcacheFlushDev io r.2 k.root
    (r.1, { k with cache := r.2 })

/-- `sys_mount` of what `blockdev_find` returns. The environments are those of this mount and of the
previous device's. -/
def sysMount (e e' : InitEnv) (uid : ℕ) (target : Option ℕ) (fileOpen : Bool) (k : MountState) :
    Errno × MountState :=
  if uid ≠ 0 then (.perm, k)
  else
    match target with
    | none => (.nodev, k)
    | some dev =>
      if dev = k.root then (.ok, k)
      else if fileOpen then (.busy, k)
      else
        let r := k.flushAll e.io
        if r.1 ≠ .ok then r
        else
          let k' := r.2.moveTo e dev
          if !k'.fs.mounted then (.inval, k'.moveTo e' k.root) else (.ok, k')

def sysUmount (e : InitEnv) (uid : ℕ) (fileOpen : Bool) (k : MountState) : Errno × MountState :=
  if uid ≠ 0 then (.perm, k)
  else if k.root = 0 then (.nodev, k)
  else if fileOpen then (.busy, k)
  else
    let r := k.flushAll e.io
    if r.1 ≠ .ok then r else (.ok, r.2.moveTo e 0)

/-- `persist` is what `klog_persist` and `entropy_persist_seed` ask of the file system. -/
inductive KernelCall
  | file (op : Mutation) (body : List CacheOp)
  | read (sectors : List ℕ)
  | sync (persist : List (Mutation × List CacheOp))
  | reboot (persist : List (Mutation × List CacheOp))
  | yield
  | setSecLevel (level : ℕ)
  | lockdown
  | mount (target : Option ℕ) (fileOpen : Bool)
  | umount (fileOpen : Bool)

/-- One system call of a user. -/
structure KernelStep where
  env : InitEnv
  back : InitEnv
  uid : ℕ
  call : KernelCall

def sysSync (io : Io) (persist : List (Mutation × List CacheOp)) (k : MountState) : MountState :=
  let k := persist.foldl (MountState.mutate io) k
  { k with cache := (bcacheFlush io k.cache).2 }

def kernelStep (k : MountState) (a : KernelStep) : MountState :=
  match a.call with
  | .file op body => k.mutate a.env.io (op, body)
  | .read sectors => { k with
      cache := bcacheRun k.cache (sectors.map fun s =>
        (a.env.io, .read k.root s (some fun _ => 0))) }
  | .sync persist => sysSync a.env.io persist k
  | .reboot persist => if a.uid ≠ 0 then k else sysSync a.env.io persist k
  | .yield => { k with cache := bcacheFlushIfDue a.env.io k.cache }
  | .setSecLevel level => if a.uid ≠ 0 then k else setSecurityLevel level k
  | .lockdown =>
    if a.uid ≠ 0 then k
    else if lockdown.toNat ≤ k.level then k
    else setSecurityLevel lockdown.toNat k
  | .mount target fileOpen => (sysMount a.env a.back a.uid target fileOpen k).2
  | .umount fileOpen => (sysUmount a.env a.uid fileOpen k).2

def kernelRun (k : MountState) (calls : List KernelStep) : MountState :=
  calls.foldl kernelStep k

/-- The level has not fallen, and the devices and the cache have been handed only what was dirty. -/
structure ReadOnly (k k' : MountState) : Prop where
  level : k.level ≤ k'.level
  log : ∃ l, k'.cache.log = l ++ k.cache.log ∧ ∀ ev ∈ l, ∃ i st,
    (k.cache.cache i).isDirty = true ∧
      ev = .devWrite (k.cache.cache i).dev (k.cache.cache i).sector (k.cache.cache i).data st

/-- The operations that write are refused and leave the volume and the key slot. -/
structure OpsRefused (level : SecLevel) : Prop where
  file : ∀ e s op m, FsOp.mutation op = some m → e.secLevel = level →
    (op.run e s).1 ≠ .ok ∧ (op.run e s).2 = s
  rewrap : ∀ c s oldPass newPass e, e.secLevel = level →
    (fsKeyslotRewrap c s oldPass newPass e).1 ≠ .ok ∧ (fsKeyslotRewrap c s oldPass newPass e).2 = s

/-- `init_fs` mounts the root or formats it, and the root has a driver that writes. -/
def InitWrites (e : InitEnv) (k : MountState) : Prop :=
  let r := EsdumanOS.initFs e.io k.root e.alloc k.cache e.mem
  (e.io.dev k.root).hasWrite = true ∧
    (r.1.mounted = true ∨ (DiskBlank (k.cache.disk k.root) r.2.reads ∧
      fsFirstDataCluster + 1 ≤ estimateClusters (diskSectors e.io k.root - fsPartStartLba)))

/-- A mount finds neither a disk to mount nor one to format, and neither does the mount of the
previous device after it. -/
def MountSpares (k : MountState) (a : KernelStep) : Prop :=
  match a.call with
  | .mount (some dev) false =>
    let r := k.flushAll a.env.io
    let moved := r.2.moveTo a.env dev
    a.uid = 0 → dev ≠ k.root → r.1 = .ok →
      ¬ InitWrites a.env (r.2.setRoot a.env.io dev) ∧
        (moved.fs.mounted = false → ¬ InitWrites a.back (moved.setRoot a.back.io k.root))
  | _ => True

end EsdumanOS
