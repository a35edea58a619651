import EsdumanOS.Paging

/-!
# The memory of the programs

The calls of `sys_mem.c`, the loader as far as pages go, `fork`, page faults, `exit` and the reaper.
Tasks are kept in the order of their creation; the place of one that is gone stays empty. The first
is the idle task.
-/

namespace EsdumanOS

open Function

def userStackTop : ℕ := 0xB0000000 / pageSize
def userStackPages : ℕ := 32
def userStackGuard : ℕ := userStackTop - (userStackPages + 1)
def userMmapTop : ℕ := userStackGuard
def userMmapFloor : ℕ := 0xA0000000 / pageSize

def pageIsFree (d : PageDir) (page : ℕ) : Bool :=
  !d.present page

def mapZeroedPage (copyOk : Bool) (m : Vm) (page : ℕ) : Errno × Vm :=
  match pmmAllocFrame m.pmm with
  | (none, p) => (.nomem, { m with pmm := p })
  | (some frame, p) =>
    let r := mapPage { m with pmm := p } page frame pageUserAccess
    if r.1 ≠ .ok then (.nomem, { r.2 with pmm := pmmFreeFrame r.2.pmm frame })
    else if copyOk then (.ok, { r.2 with mem := update r.2.mem frame fun _ => 0 })
    else (.fault, unmapPage { r.2 with pmm := pmmFreeFrame r.2.pmm frame } page)

/-- One page of `release_user_range`. -/
def releasePage (m : Vm) (page : ℕ) : Vm :=
  match m.dir.tables (page / 1024) with
  | none => m
  | some _ =>
    if m.dir.present page then
      unmapPage { m with pmm := pmmFreeFrame m.pmm (m.dir.lookup page).frame } page
    else unmapPage m page

/-- `release_user_range`, from page `first` up to page `last`. -/
def releaseUserRange (m : Vm) (first last : ℕ) : Vm :=
  (List.range' first (last - first)).foldl releasePage m

/-- The loop of `sys_brk` and `sys_mmap` over `n` pages; the page it stopped at. -/
def growRange (e : VmEnv) : ℕ → ℕ → Vm → Option ℕ × Vm
  | 0, _, m => (none, m)
  | n + 1, page, m =>
    let r := mapZeroedPage (e.copyOk page) m page
    if r.1 = .ok then growRange e n (page + 1) r.2 else (some page, r.2)

def mapRange (e : VmEnv) (m : Vm) (first n : ℕ) : Bool × Vm :=
  let r := growRange e n first m
  match r.1 with
  | none => (true, r.2)
  | some page => (false, releaseUserRange r.2 first page)

/-- `find_free_run`, below page `top`. -/
def findFreeRun (d : PageDir) (pages top : ℕ) : Option ℕ :=
  if userMmapFloor + pages ≤ top then
    match _h : Lib.firstIdx (fun p => !pageIsFree d (top - pages + p)) pages with
    | none => some (top - pages)
    | some p => findFreeRun d pages (top - pages + p)
  else none
termination_by top
decreasing_by
  have := (Lib.firstIdx_eq_some.1 _h).2.1
  omega

/-- From page `base` of the region on, so many pages below `top` are free. -/
def FreeRun (d : PageDir) (pages top base : ℕ) : Prop :=
  userMmapFloor ≤ base ∧ base + pages ≤ top ∧ ∀ p < pages, pageIsFree d (base + p) = true

/-- `sys_brk`, with the break of the task in bytes: what it returns, and the new break. -/
def sysBrk (e : VmEnv) (m : Vm) (brkStart brkCurrent ebx : ℕ) : ℕ × ℕ × Vm :=
  let target := u32 (ebx + pageSize - 1) / pageSize * pageSize
  if brkStart = 0 then (0, brkCurrent, m)
  else if ebx < brkStart ∨ target < brkStart ∨ userMmapFloor * pageSize < target then
    (brkCurrent, brkCurrent, m)
  else if target = brkCurrent then (brkCurrent, brkCurrent, m)
  else if target < brkCurrent then
    (target, target, releaseUserRange m (target / pageSize) (brkCurrent / pageSize))
  else
    let r := mapRange e m (brkCurrent / pageSize) ((target - brkCurrent) / pageSize)
    if r.1 then (target, target, r.2) else (brkCurrent, brkCurrent, r.2)

/-- `sys_mmap`: the base of the mapping. -/
def sysMmap (e : VmEnv) (m : Vm) (length reserved : ℕ) : ℕ × Vm :=
  if length = 0 then (0xFFFFFFFF, m)
  else if reserved ≠ 0 then (0xFFFFFFFF, m)
  else if (userMmapTop - userMmapFloor) * pageSize < length then (0xFFFFFFFF, m)
  else
    let pages := (length + pageSize - 1) / pageSize
    match findFreeRun m.dir pages userMmapTop with
    | none => (0xFFFFFFFF, m)
    | some base =>
      let r := mapRange e m base pages
      if r.1 then (base * pageSize, r.2) else (0xFFFFFFFF, r.2)

def sysMunmap (m : Vm) (addr length : ℕ) : Errno × Vm :=
  if length = 0 ∨ addr % pageSize ≠ 0 then (.inval, m)
  else
    let span := u32 (length + pageSize - 1) / pageSize * pageSize
    let last := u32 (addr + span)
    if last ≤ addr then (.inval, m)
    else if addr < userMmapFloor * pageSize ∨ userMmapTop * pageSize < last then (.inval, m)
    else (.ok, releaseUserRange m (addr / pageSize) (last / pageSize))

/-- A loadable segment: its place, whether it is writable, and its bytes by address. -/
structure Segment where
  vaddr : ℕ
  memsz : ℕ
  writable : Bool
  bytes : Buf
  memsz_lt : memsz < 2 ^ 32

def Segment.allowed (g : Segment) : Bool :=
  let last := u32 (g.vaddr + g.memsz)
  !(decide (g.vaddr < 0x400000) || decide (0xC0000000 < last) || decide (last < g.vaddr))

def Segment.pages (g : Segment) : List ℕ :=
  let first := g.vaddr / pageSize
  List.range' first ((g.vaddr + g.memsz + pageSize - 1) / pageSize - first)

/-- One page of the loader: a fresh zeroed one, which stays mapped when it cannot be cleared. -/
def loadFreshPage (copyOk : Bool) (m : Vm) (page : ℕ) : Bool × Vm :=
  match pmmAllocFrame m.pmm with
  | (none, p) => (false, { m with pmm := p })
  | (some frame, p) =>
    let r := mapPage { m with pmm := p } page frame pageUserAccess
    if r.1 ≠ .ok then (false, { r.2 with pmm := pmmFreeFrame r.2.pmm frame })
    else if copyOk then (true, { r.2 with mem := update r.2.mem frame fun _ => 0 })
    else (false, r.2)

def setWritable (w : Bool) (m : Vm) (page : ℕ) : Vm :=
  if m.dir.present page then
    let e := m.dir.lookup page
    { m with dir := m.dir.setEntry page ⟨e.frame, { e.flags with writable := w }⟩ }
  else m

/-- A page of a segment; one that another segment has mapped is opened for writing. -/
def loadSegmentPage (copyOk : Bool) (m : Vm) (page : ℕ) : Bool × Vm :=
  if m.dir.present page then (true, setWritable true m page) else loadFreshPage copyOk m page

def loadLoop (load : Vm → ℕ → Bool × Vm) : List ℕ → Vm → Bool × Vm
  | [], m => (true, m)
  | page :: pages, m =>
    let r := load m page
    if r.1 then loadLoop load pages r.2 else (false, r.2)

def fillPage (g : Segment) (m : Vm) (page : ℕ) : Vm :=
  let frame := (m.dir.lookup page).frame
  { m with mem := update m.mem frame fun j =>
      if g.vaddr ≤ page * pageSize + j ∧ page * pageSize + j < g.vaddr + g.memsz then
        g.bytes (page * pageSize + j)
      else m.mem frame j }

/-- The loop of `load_and_exec_elf` over the segments; `fillOk` is the outcome of the copies. -/
def loadSegments (e : VmEnv) (fillOk : ℕ → Bool) : List Segment → Vm → Bool × Vm
  | [], m => (true, m)
  | g :: gs, m =>
    if !g.allowed then (false, m)
    else
      let r := loadLoop (fun m page => loadSegmentPage (e.copyOk page) m page) g.pages m
      if !r.1 then r
      else if fillOk g.vaddr then loadSegments e fillOk gs (g.pages.foldl (fillPage g) r.2)
      else (false, r.2)

def applyPermissions (gs : List Segment) (m : Vm) : Vm :=
  let pass (w : Bool) (m : Vm) : Vm :=
    (gs.filter fun g => decide (g.memsz ≠ 0) && (g.writable == w)).foldl
      (fun m g => g.pages.foldl (setWritable w) m) m
  pass true (pass false m)

/-- The address space of `load_and_exec_elf`: segments, permissions, stack and guard page. -/
def loadImage (e : VmEnv) (fillOk : ℕ → Bool) (gs : List Segment) (m : Vm) : Bool × Vm :=
  let r := loadSegments e fillOk gs m
  if !r.1 then r
  else
    let r := loadLoop (fun m page => loadFreshPage (e.copyOk page) m page)
      ((List.range userStackPages).map fun j => userStackTop - (j + 1)) (applyPermissions gs r.2)
    if !r.1 then r else (true, (mapPage r.2 userStackGuard 0 pageAbsent).2)

def imageBreak (gs : List Segment) : ℕ :=
  let highest := gs.foldl (fun h g => max h (u32 (g.vaddr + g.memsz))) 0
  u32 (highest + pageSize - 1) / pageSize * pageSize

structure Task where
  dir : PageDir
  brkStart : ℕ
  brkCurrent : ℕ

structure Machine extends Phys where
  tasks : List (Option Task)
  zombies : List PageDir

namespace Machine

variable (s : Machine) (i : ℕ)

def task? : Option Task := (s.tasks[i]?).join

/-- Memory as task `t` sees it. -/
def vm (t : Task) : Vm := { s.toPhys with dir := t.dir }

/-- Task `i` continues with what is in CR3. -/
def put (m : Vm) (t : Task) : Machine :=
  { s with toPhys := m.toPhys, tasks := s.tasks.set i (some { t with dir := m.dir }) }

def kernelDir : ℕ :=
  match s.task? 0 with
  | some t => t.dir.frame
  | none => 0

def checkFreeTaskSlot : Bool :=
  decide (s.tasks.countP Option.isSome < maxTasks)

/-- `create_process` appends the task. -/
def append (ph : Phys) (t : Task) : Machine :=
  { s with toPhys := ph, tasks := s.tasks ++ [some t] }

end Machine

inductive ForkResult
  | forked | again | failed
  deriving DecidableEq, Repr

/-- The rest of `sys_fork`, with what `copy_user_space` has returned. -/
def finishFork (e : VmEnv) (s : Machine) (i : ℕ) (t : Task) (r : Errno × Vm × PageDir) :
    ForkResult × Machine :=
  let parent := s.put i r.2.1 t
  let cleaned (ph : Phys) : Machine :=
    { parent with
      toPhys := { ph with
        pmm := cleanupProcessMemory r.2.1.dir.frame s.kernelDir ph.pmm r.2.2 } }
  if r.1 ≠ .ok then (.failed, cleaned parent.toPhys)
  else
    -- `create_process` needs two blocks of the kernel heap
    let k := kmalloc e.task parent.toPhys
    if !k.1 then (.failed, cleaned k.2)
    else (.forked, parent.append k.2 ⟨r.2.2, t.brkStart, t.brkCurrent⟩)

/-- `sys_fork` by task `i`. -/
def Machine.sysFork (e : VmEnv) (s : Machine) (i : ℕ) (t : Task) : ForkResult × Machine :=
  if !s.checkFreeTaskSlot then (.again, s)
  else
    match clonePageDirectory e s.toPhys with
    | (none, ph) => (.failed, { s with toPhys := ph })
    | (some child, ph) => finishFork e s i t (copyUserSpace e { ph with dir := t.dir } child)

inductive WriteResult
  | written | violation | outOfMemory
  deriving DecidableEq, Repr

def storeByte (m : Vm) (addr : ℕ) (byte : UInt8) : WriteResult × Vm :=
  let entry := m.dir.lookup (addr / pageSize)
  if m.dir.accessible (addr / pageSize) = true ∧ entry.flags.writable = true then
    let bytes := update (m.mem entry.frame) (addr % pageSize) byte
    (.written, { m with mem := update m.mem entry.frame bytes })
  else (.violation, m)

/-- A store by the running task: a page that is not writable faults into `cow_handle_fault`. -/
def userWrite (e : VmEnv) (m : Vm) (addr : ℕ) (byte : UInt8) : WriteResult × Vm :=
  let page := addr / pageSize
  if m.dir.accessible page = true ∧ (m.dir.lookup page).flags.writable = true then
    storeByte m addr byte
  else if m.dir.present page then
    match cowHandleFault e m addr with
    | (.resolved, m) => storeByte m addr byte
    | (.notCow, m) => (.violation, m)
    | (.failed, m) => (.outOfMemory, m)
  else (.violation, m)

/-- The reaper in `schedule`, on the directory `curr`: every zombie but the one whose stack is in
use. -/
def reapZombies (curr : ℕ) (s : Machine) : Pmm :=
  s.zombies.foldl (cleanupProcessMemory curr s.kernelDir) s.pmm

/-- `exit_current_process`: the running task reaps itself and enters `schedule`. The idle task is not
reaped; a task that another one kills is not modelled. -/
def exitTask (e : VmEnv) (s : Machine) (i : ℕ) (t : Task) : Machine :=
  if i = 0 then s
  else
    { s with
      toPhys := kfree e.released { s.toPhys with pmm := reapZombies t.dir.frame s }
      tasks := s.tasks.set i none
      zombies := [t.dir] }

/-- `schedule` entered by a task that goes on living. -/
def scheduleOn (e : VmEnv) (s : Machine) (t : Task) : Machine :=
  { s with
    toPhys := kfree e.released { s.toPhys with pmm := reapZombies t.dir.frame s }
    zombies := [] }

/-- A store that cannot be resolved ends the program; one the kernel makes for a call is given
up. -/
def doWrite (e : VmEnv) (s : Machine) (i : ℕ) (t : Task) (kernelMode : Bool) (addr : ℕ)
    (byte : UInt8) : WriteResult × Machine :=
  let r := userWrite e (s.vm t) addr byte
  let s := s.put i r.2 t
  if r.1 = .written ∨ kernelMode = true then (r.1, s)
  else (r.1, exitTask e s i { t with dir := r.2.dir })

/-- A program is loaded by task `i`. `create_process` is taken to have memory. -/
def startProgram (e : VmEnv) (fillOk : ℕ → Bool) (gs : List Segment) (s : Machine) (t : Task) :
    Machine :=
  if !s.checkFreeTaskSlot then s
  else
    match clonePageDirectory e s.toPhys with
    | (none, ph) => { s with toPhys := ph }
    | (some child, ph) =>
      let r := loadImage e fillOk gs { ph with dir := child }
      if r.1 then
        s.append (kmalloc e.task r.2.toPhys).2 ⟨r.2.dir, imageBreak gs, imageBreak gs⟩
      else
        { s with
          toPhys := { r.2.toPhys with
            pmm := cleanupProcessMemory t.dir.frame s.kernelDir r.2.pmm r.2.dir } }

/-- What the running task does; `kernelHeap` is any other call that moves frames of the heap. -/
inductive MemOp
  | start (fillOk : ℕ → Bool) (image : List Segment)
  | fork
  | write (kernelMode : Bool) (addr : ℕ) (byte : UInt8)
  | brk (ebx : ℕ)
  | mmap (length reserved : ℕ)
  | munmap (addr length : ℕ)
  | exit
  | schedule
  | kernelHeap (taken released : ℕ)

structure MemStep where
  env : VmEnv
  task : ℕ
  op : MemOp

def memStep (s : Machine) (a : MemStep) : Machine :=
  match s.task? a.task with
  | none => s
  | some t =>
    match a.op with
    | .start fillOk gs => startProgram a.env fillOk gs s t
    | .fork => (Machine.sysFork a.env s a.task t).2
    | .write kernelMode addr byte => (doWrite a.env s a.task t kernelMode addr byte).2
    | .brk ebx =>
      let r := sysBrk a.env (s.vm t) t.brkStart t.brkCurrent ebx
      s.put a.task r.2.2 { t with brkCurrent := r.2.1 }
    | .mmap length reserved => s.put a.task (sysMmap a.env (s.vm t) length reserved).2 t
    | .munmap addr length => s.put a.task (sysMunmap (s.vm t) addr length).2 t
    | .exit => exitTask a.env s a.task t
    | .schedule => scheduleOn a.env s t
    | .kernelHeap taken released =>
      { s with toPhys := kfree released (kmalloc ⟨true, taken⟩ s.toPhys).2 }

def memRun (s : Machine) (as : List MemStep) : Machine :=
  as.foldl memStep s

section Boot

/-- Memory when `init_multitasking` has created the idle task: the kernel's frames and directory,
and the idle page. -/
structure Boot where
  framesCount : ℕ
  kernel : List ℕ
  dirFrame : ℕ
  tableFrame : ℕ
  idleFrame : ℕ
  mem : ℕ → Buf
  usedMemory : ℕ
  nodup : (idleFrame :: tableFrame :: dirFrame :: kernel).Nodup
  range : ∀ f ∈ idleFrame :: tableFrame :: dirFrame :: kernel,
    pmmLowMemoryFrames ≤ f ∧ f < framesCount

variable (b : Boot)

def idlePage : ℕ := 0x80000000 / pageSize

def Boot.used : List ℕ := b.idleFrame :: b.tableFrame :: b.dirFrame :: b.kernel

def Boot.pmm : Pmm where
  framesCount := b.framesCount
  bitmap f := decide (f < pmmLowMemoryFrames) || decide (f ∈ b.used)
  refcount f := if f < pmmLowMemoryFrames ∨ f ∈ b.used then 1 else 0
  lowestFreeIdx := 0
  usedMemory := b.usedMemory

def Boot.dir : PageDir where
  frame := b.dirFrame
  tables i :=
    if i = idlePage / 1024 then
      some ⟨b.tableFrame, true, fun j =>
        if j = idlePage % 1024 then ⟨b.idleFrame, pageUserAccess⟩ else Pte.zero⟩
    else none

def bootMachine : Machine where
  pmm := b.pmm
  mem := b.mem
  heap := b.kernel
  tasks := [some ⟨b.dir, 0, 0⟩]
  zombies := []

end Boot

/-- The present entries that map frame `f`, over all directories not yet torn down. -/
def Machine.pteCount (s : Machine) (f : ℕ) : ℕ :=
  (((s.tasks.filterMap (Option.map Task.dir)) ++ s.zombies).map fun d =>
    userVpns.countP fun v => d.present v && decide ((d.lookup v).frame = f)).sum

/-- Frame `f` is the directory's own, one of its tables, or mapped by it. -/
def PageDir.Uses (d : PageDir) (f : ℕ) : Prop :=
  d.frame = f ∨ (∃ i < userTables, ∃ t, d.tables i = some t ∧ t.frame = f) ∨
    ∃ v < userPages, d.present v = true ∧ (d.lookup v).frame = f

/-- A mapped frame has as many references as entries, and when the idle task is alone, what is
allocated is its own or the kernel's. -/
structure FramesExact (s : Machine) : Prop where
  counted : ∀ f, 0 < s.pteCount f → pmmFrameRefcount s.pmm f = s.pteCount f
  allocated : ∀ f, 0 < s.pteCount f → s.pmm.bitmap f = true
  released : ∀ t, s.task? 0 = some t → (∀ i, i ≠ 0 → s.task? i = none) → s.zombies = [] →
    ∀ f, pmmLowMemoryFrames ≤ f → f < s.pmm.framesCount → s.pmm.bitmap f = true →
      f ∈ s.heap ∨ t.dir.Uses f

end EsdumanOS
