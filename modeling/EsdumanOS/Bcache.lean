import EsdumanOS.Base
import EsdumanOS.Lib.Runs

/-!
# The block cache

`bcache.c`: a write-back cache of 64 sectors over any number of block devices. Whether a driver
serves a request is left open; a failed write leaves the device as it was. `log` records, newest
first, the sectors accepted and the writes that reach a driver.
-/

namespace EsdumanOS

open Lib Function

abbrev Sector := Fin 512 → UInt8

def bcacheSize : ℕ := 64
def bcacheDirtyHighWater : ℕ := bcacheSize / 2
def timerHz : ℕ := 100
def bcacheFlushIntervalTicks : ℕ := timerHz * 5

/-- What the cache asks of a `blockdev_t`. -/
structure Blockdev where
  sectorSize : ℕ
  sectorCount : ℕ
  hasRead : Bool
  hasWrite : Bool

/-- The devices, the drivers' answers by number of the request, what a failed read leaves behind,
and the clock. -/
structure Io where
  dev : ℕ → Blockdev
  status : ℕ → Errno
  junk : ℕ → Sector
  now : ℕ

/-- `bcache_node_t`. Device 0 is the null pointer. -/
structure CacheNode where
  dev : ℕ
  sector : ℕ
  data : Sector
  lastAccess : ℕ
  isValid : Bool
  isDirty : Bool

inductive CacheEvent
  | accept (dev sector : ℕ) (data : Sector)
  | devWrite (dev sector : ℕ) (data : Sector) (status : Errno)

structure Bcache where
  cache : ℕ → CacheNode
  ticks : ℕ
  dirtyCount : ℕ
  oldestDirtyTick : ℕ
  disk : ℕ → ℕ → Sector
  reqs : ℕ
  log : List CacheEvent

@[simps -fullyApplied cache disk log]
def Bcache.setNode (b : Bcache) (i : ℕ) (n : CacheNode) : Bcache :=
  { b with cache := update b.cache i n }

def markDirty (io : Io) (b : Bcache) (i : ℕ) : Bcache :=
  if (b.cache i).isDirty then b
  else
    { b.setNode i { b.cache i with isDirty := true } with
      oldestDirtyTick := if b.dirtyCount = 0 then io.now else b.oldestDirtyTick
      dirtyCount := u32 (b.dirtyCount + 1) }

def markClean (b : Bcache) (i : ℕ) : Bcache :=
  if !(b.cache i).isDirty then b
  else
    { b.setNode i { b.cache i with isDirty := false } with dirtyCount := b.dirtyCount - 1 }

/-- `bcache_init`, on devices that hold `disk`. -/
def bcacheInit (disk : ℕ → ℕ → Sector) : Bcache where
  cache := fun _ => ⟨0, 0, fun _ => 0, 0, false, false⟩
  ticks := 0
  dirtyCount := 0
  oldestDirtyTick := 0
  disk := disk
  reqs := 0
  log := []

def findSlot (b : Bcache) (dev sector : ℕ) : Option ℕ :=
  firstIdx (fun i => (b.cache i).isValid && decide ((b.cache i).dev = dev) &&
    decide ((b.cache i).sector = sector)) bcacheSize

def blockdevCheck (io : Io) (dev lba : ℕ) : Errno :=
  if dev = 0 then .nodev else if (io.dev dev).sectorCount ≤ lba then .inval else .ok

/-- `blockdev_check_read`; `bufOk` says that the buffer is not null. -/
def blockdevCheckRead (io : Io) (dev lba : ℕ) (bufOk : Bool) : Errno :=
  if blockdevCheck io dev lba ≠ .ok then blockdevCheck io dev lba
  else if !bufOk then .inval
  else if !(io.dev dev).hasRead then .nodev
  else .ok

def blockdevCheckWrite (io : Io) (dev lba : ℕ) (bufOk : Bool) : Errno :=
  if blockdevCheck io dev lba ≠ .ok then blockdevCheck io dev lba
  else if !bufOk then .inval
  else if !(io.dev dev).hasWrite then .rofs
  else .ok

/-- `blockdev_read`, with what it leaves in the buffer. -/
def blockdevRead (io : Io) (b : Bcache) (dev lba : ℕ) (buf : Sector) : Errno × Sector × Bcache :=
  let check := blockdevCheckRead io dev lba true
  if check ≠ .ok then (check, buf, b)
  else
    let st := io.status b.reqs
    (st, if st = .ok then b.disk dev lba else io.junk b.reqs, { b with reqs := b.reqs + 1 })

def blockdevWrite (io : Io) (b : Bcache) (dev lba : ℕ) (data : Sector) : Errno × Bcache :=
  let check := blockdevCheckWrite io dev lba true
  if check ≠ .ok then (check, b)
  else
    let st := io.status b.reqs
    (st, { b with
      disk := if st = .ok then update b.disk dev (update (b.disk dev) lba data)
        else b.disk
      reqs := b.reqs + 1
      log := .devWrite dev lba data st :: b.log })

/-- The write-back of slot `i`, marked clean when the device takes it. -/
def writeBack (io : Io) (b : Bcache) (i : ℕ) : Errno × Bcache :=
  let r := blockdevWrite io b (b.cache i).dev (b.cache i).sector (b.cache i).data
  if r.1 = .ok then (r.1, markClean r.2 i) else r

/-- How long ago slot `i` was used, in 32 bits. -/
def slotAge (b : Bcache) (i : ℕ) : ℕ :=
  u32 (b.ticks + 2 ^ 32 - (b.cache i).lastAccess)

/-- The second loop of `bcache_get_lru_slot`: each dirty slot once, oldest first. -/
def evictDirty (io : Io) : ℕ → (ℕ → Bool) → Bcache → Option ℕ × Bcache
  | 0, _, b => (none, b)
  | attempts + 1, tried, b =>
    match bestIdx (fun i => !tried i) (slotAge b) bcacheSize with
    | none => (none, b)
    | some oldest =>
      let r := writeBack io b oldest
      if r.1 = .ok then (some oldest, r.2)
      else evictDirty io attempts (update tried oldest true) r.2

/-- `bcache_get_lru_slot`: an empty slot, the oldest clean one, or a dirty one once written. -/
def bcacheGetLruSlot (io : Io) (b : Bcache) : Option ℕ × Bcache :=
  match firstIdx (fun i => !(b.cache i).isValid) bcacheSize with
  | some i => (some i, b)
  | none =>
    match bestIdx (fun i => !(b.cache i).isDirty) (slotAge b) bcacheSize with
    | some i => (some i, b)
    | none => evictDirty io bcacheSize (fun _ => false) b

/-- `bcache_ticks++`. -/
def Bcache.tick (b : Bcache) : Bcache :=
  { b with ticks := u32 (b.ticks + 1) }

/-- `bcache_read_sector`, with what it leaves in the caller's buffer, if there is one. -/
def bcacheReadSector (io : Io) (b : Bcache) (dev sector : ℕ) (buf : Option Sector) :
    Errno × Option Sector × Bcache :=
  let check := blockdevCheckRead io dev sector buf.isSome
  if check ≠ .ok then (check, buf, b)
  else if (io.dev dev).sectorSize ≠ 512 then (.inval, buf, b)
  else
    let b := b.tick
    match findSlot b dev sector with
    | some i =>
      (.ok, some (b.cache i).data, b.setNode i { b.cache i with lastAccess := b.ticks })
    | none =>
      match bcacheGetLruSlot io b with
      | (none, b) => (.io, buf, b)
      | (some slot, b) =>
        let (res, data, b) := blockdevRead io b dev sector (b.cache slot).data
        if res ≠ .ok then
          (res, some fun _ => 0,
            b.setNode slot { b.cache slot with data := data, isValid := false })
        else
          (.ok, some data, markClean (b.setNode slot { b.cache slot with
            dev := dev, sector := sector, data := data, isValid := true, lastAccess := b.ticks })
            slot)

/-- One round of `bcache_flush_reporting`; the number of failures is carried along. -/
def flushSlot (io : Io) (st : ℕ × Bcache) (i : ℕ) : ℕ × Bcache :=
  if (st.2.cache i).isValid && (st.2.cache i).isDirty then
    let r := writeBack io st.2 i
    (if r.1 = .ok then st.1 else st.1 + 1, r.2)
  else st

/-- `bcache_flush_reporting`, and `bcache_flush`. -/
def bcacheFlush (io : Io) (b : Bcache) : Errno × Bcache :=
  let r := (List.range bcacheSize).foldl (flushSlot io) (0, b)
  (if r.1 > 0 then .io else .ok, r.2)

/-- The slot is filled with the caller's data: the end of `bcache_write_sector`. -/
def acceptSector (io : Io) (b : Bcache) (slot dev sector : ℕ) (data : Sector) : Bcache :=
  let b := b.setNode slot { b.cache slot with
    dev := dev, sector := sector, data := data, isValid := true, lastAccess := b.ticks }
  let b := { markDirty io b slot with log := .accept dev sector data :: b.log }
  if b.dirtyCount ≥ bcacheDirtyHighWater then (bcacheFlush io b).2 else b

def bcacheWriteSector (io : Io) (b : Bcache) (dev sector : ℕ) (buf : Option Sector) :
    Errno × Bcache :=
  match buf with
  | none => (blockdevCheckWrite io dev sector false, b)
  | some data =>
    let check := blockdevCheckWrite io dev sector true
    if check ≠ .ok then (check, b)
    else if (io.dev dev).sectorSize ≠ 512 then (.inval, b)
    else
      let b := b.tick
      match findSlot b dev sector with
      | some slot => (.ok, acceptSector io b slot dev sector data)
      | none =>
        match bcacheGetLruSlot io b with
        | (none, b) => (.io, b)
        | (some slot, b) => (.ok, acceptSector io b slot dev sector data)

/-- One round of `bcache_flush_dev`. -/
def flushDevSlot (io : Io) (dev : ℕ) (st : ℕ × Bcache) (i : ℕ) : ℕ × Bcache :=
  if !(st.2.cache i).isValid || decide ((st.2.cache i).dev ≠ dev) then st
  else
    let r := if (st.2.cache i).isDirty then writeBack io st.2 i else (.ok, st.2)
    if r.1 ≠ .ok then (st.1 + 1, r.2)
    else (st.1, r.2.setNode i { r.2.cache i with isValid := false, dev := 0 })

def bcacheFlushDev (io : Io) (b : Bcache) (dev : ℕ) : Errno × Bcache :=
  if dev = 0 then (.nodev, b)
  else
    let r := (List.range bcacheSize).foldl (flushDevSlot io dev) (0, b)
    (if r.1 > 0 then .io else .ok, r.2)

def bcacheFlushIsDue (io : Io) (b : Bcache) : Bool :=
  decide (b.dirtyCount ≠ 0) &&
    decide (u32 (io.now + 2 ^ 32 - b.oldestDirtyTick) ≥ bcacheFlushIntervalTicks)

def bcacheFlushIfDue (io : Io) (b : Bcache) : Bcache :=
  if bcacheFlushIsDue io b then (bcacheFlush io b).2 else b

inductive CacheOp
  | read (dev sector : ℕ) (buf : Option Sector)
  | write (dev sector : ℕ) (buf : Option Sector)
  | flush
  | flushDev (dev : ℕ)
  | flushIfDue

def bcacheStep (b : Bcache) : Io × CacheOp → Bcache
  | (io, .read dev sector buf) => (bcacheReadSector io b dev sector buf).2.2
  | (io, .write dev sector buf) => (bcacheWriteSector io b dev sector buf).2
  | (io, .flush) => (bcacheFlush io b).2
  | (io, .flushDev dev) => (bcacheFlushDev io b dev).2
  | (io, .flushIfDue) => bcacheFlushIfDue io b

def bcacheRun (b : Bcache) (calls : List (Io × CacheOp)) : Bcache :=
  calls.foldl bcacheStep b

def latest : List CacheEvent → ℕ → ℕ → Option Sector
  | [], _, _ => none
  | .accept d s v :: l, dev, sector => if d = dev ∧ s = sector then some v else latest l dev sector
  | .devWrite _ _ _ _ :: l, dev, sector => latest l dev sector

/-- The data accepted for the sector that no device write has carried out yet. -/
def pending : List CacheEvent → ℕ → ℕ → Option Sector
  | [], _, _ => none
  | .accept d s v :: l, dev, sector => if d = dev ∧ s = sector then some v else pending l dev sector
  | .devWrite d s v st :: l, dev, sector =>
    if st = .ok ∧ d = dev ∧ s = sector ∧ pending l dev sector = some v then none
    else pending l dev sector

/-- A plain map of sectors takes the writes that `bcache_write_sector` accepts. -/
def plainStep (m : ℕ → ℕ → Sector) (b : Bcache) : Io × CacheOp → ℕ → ℕ → Sector
  | (io, .write dev sector (some data)) =>
    if (bcacheWriteSector io b dev sector (some data)).1 = .ok then
      update m dev (update (m dev) sector data)
    else m
  | _ => m

/-- The plain map after a run of the cache from `b`. -/
def plainRun : (ℕ → ℕ → Sector) → Bcache → List (Io × CacheOp) → ℕ → ℕ → Sector
  | m, _, [] => m
  | m, b, call :: calls => plainRun (plainStep m b call) (bcacheStep b call) calls

end EsdumanOS
