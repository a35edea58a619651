import EsdumanOS.AddressSpace
import EsdumanOS.Descriptors
import EsdumanOS.Process
import EsdumanOS.Lib.Words

/-!
# Executables

`elf_validate_image` and `load_and_exec_elf`. A read outside the file buffer has no result. Around
the loader stand the frames, the blocks of the heap, the tasks and their objects; how the heap's
calls go is a parameter.
-/

namespace EsdumanOS

open Lib (load32)

section Headers

variable (image : List UInt8)

def fileBytes : Buf := fun i => image.getD i 0

/-- A `uint32_t` of the buffer. -/
def readWord (off : ℕ) : Option {v : ℕ // v < 2 ^ 32} :=
  if off + 4 ≤ image.length then
    some ⟨load32 (fileBytes image) off, Lib.load32_lt (fileBytes image) off⟩
  else none

/-- A `uint16_t` of the buffer. -/
def readHalf (off : ℕ) : Option ℕ :=
  if off + 2 ≤ image.length then
    some ((fileBytes image off).toNat + 256 * (fileBytes image (off + 1)).toNat)
  else none

/-- `elf32_ehdr_t`, as far as it is read. -/
structure Ehdr where
  ident : List UInt8
  type : ℕ
  machine : ℕ
  version : ℕ
  entry : ℕ
  phoff : ℕ
  ehsize : ℕ
  phentsize : ℕ
  phnum : ℕ
  deriving DecidableEq, Repr

/-- `elf32_phdr_t`, as far as it is read. -/
structure Phdr where
  type : ℕ
  offset : ℕ
  vaddr : ℕ
  filesz : ℕ
  memsz : ℕ
  flags : ℕ
  memsz_lt : memsz < 2 ^ 32
  deriving DecidableEq, Repr

def sizeofEhdr : ℕ := 52
def sizeofPhdr : ℕ := 32

def readEhdr : Option Ehdr := do
  let type ← readHalf image 16
  let machine ← readHalf image 18
  let version ← readWord image 20
  let entry ← readWord image 24
  let phoff ← readWord image 28
  let ehsize ← readHalf image 40
  let phentsize ← readHalf image 42
  let phnum ← readHalf image 44
  pure ⟨image.take 16, type, machine, version, entry, phoff, ehsize, phentsize, phnum⟩

def readPhdr (off : ℕ) : Option Phdr := do
  let type ← readWord image off
  let offset ← readWord image (off + 4)
  let vaddr ← readWord image (off + 8)
  let filesz ← readWord image (off + 16)
  let memsz ← readWord image (off + 20)
  let flags ← readWord image (off + 24)
  pure ⟨type, offset, vaddr, filesz, memsz, flags, memsz.2⟩

/-- `PT_LOAD`. -/
def Phdr.isLoad (ph : Phdr) : Bool := decide (ph.type = 1)

/-- The flags `PF_X` and `PF_W`. -/
def Phdr.executable (ph : Phdr) : Bool := decide (ph.flags % 2 = 1)
def Phdr.writable (ph : Phdr) : Bool := decide (ph.flags / 2 % 2 = 1)

def Phdr.segmentEnd (ph : Phdr) : ℕ := u32 (ph.vaddr + ph.memsz)

end Headers

section Validate

variable (image : List UInt8)

/-- The first bytes of `e_ident`: the magic number, `ELFCLASS32`, `ELFDATA2LSB`, `EV_CURRENT`. -/
def elfIdent : List UInt8 := [0x7F, 0x45, 0x4C, 0x46, 1, 1, 1]

def Ehdr.supported (h : Ehdr) : Bool :=
  decide (h.ident.take 7 = elfIdent) && decide (h.type = 2) && decide (h.machine = 3) &&
    decide (h.version = 1) && decide (h.ehsize = sizeofEhdr) &&
    decide (h.phentsize = sizeofPhdr) && decide (h.phnum ≠ 0)

def Phdr.inFile (ph : Phdr) (len : ℕ) : Bool :=
  !(decide (ph.memsz < ph.filesz) || decide (len < ph.offset) ||
    decide (len - ph.offset < ph.filesz))

def Phdr.inUser (ph : Phdr) : Bool :=
  !(decide (ph.memsz = 0) || decide (ph.segmentEnd < ph.vaddr) || decide (ph.vaddr < 0x400000) ||
    decide (0xC0000000 < ph.segmentEnd))

/-- The loop of `elf_validate_image` over the headers from `i` on, with `entry_is_executable`. -/
def validatePhdrs (h : Ehdr) : ℕ → ℕ → Bool → Option Errno
  | 0, _, entryIsExecutable => some (if entryIsExecutable then .ok else .noexec)
  | n + 1, i, entryIsExecutable => do
    let ph ← readPhdr image (h.phoff + i * sizeofPhdr)
    if !ph.isLoad then validatePhdrs h n (i + 1) entryIsExecutable
    else if !ph.inFile image.length then some .noexec
    else if !ph.inUser then some .noexec
    else
      validatePhdrs h n (i + 1) (entryIsExecutable || ph.executable &&
        decide (ph.vaddr ≤ h.entry ∧ h.entry < ph.segmentEnd))

def elfValidateImage : Option Errno :=
  if image.length < sizeofEhdr then some .noexec
  else do
    let h ← readEhdr image
    if !h.supported then some .noexec
    else if image.length < h.phoff ∨ (image.length - h.phoff) / sizeofPhdr < h.phnum then
      some .noexec
    else validatePhdrs image h h.phnum 0 false

end Validate

section Segments

variable (image : List UInt8)

/-- The program header table. The loader checks the range of every header once more. -/
def programHeaders : Option (List Phdr) := do
  let h ← readEhdr image
  (List.range h.phnum).mapM fun i => readPhdr image (h.phoff + i * sizeofPhdr)

/-- A segment with its bytes: those of the file up to `p_filesz`, and zeroes. -/
def Phdr.toSegment (ph : Phdr) : Segment where
  vaddr := ph.vaddr
  memsz := ph.memsz
  writable := ph.writable
  bytes := fun a =>
    if a < ph.vaddr + ph.filesz then fileBytes image (ph.offset + (a - ph.vaddr)) else 0
  memsz_lt := ph.memsz_lt

/-- The copies of a segment read `p_filesz` bytes of the buffer from `p_offset` on. -/
def Phdr.segment (ph : Phdr) : Option Segment :=
  if ph.filesz = 0 ∨ ph.offset + ph.filesz ≤ image.length then some (ph.toSegment image) else none

def imageSegments : Option (List Segment) := do
  let phs ← programHeaders image
  (phs.filter Phdr.isLoad).mapM (Phdr.segment image)

end Segments

/-- A task of the list: its life, its address space and its descriptors. -/
structure ExecTask where
  proc : Proc
  space : Task
  fds : List Fd

/-- The kernel as `load_and_exec_elf` finds it: `current` is the place of `current_task`, `blocks`
are the blocks of the heap, `cr3` and `kernelDir` two directories. -/
structure ExecSys extends Phys where
  secLevel : SecLevel
  tasks : List ExecTask
  zombies : List ℤ
  nextPid : ℤ
  current : Option ℕ
  cr3 : ℕ
  kernelDir : ℕ
  objs : Objects
  blocks : List ℕ

/-- How a `kmalloc` goes, and the address it returns. -/
structure BlockUse extends HeapUse where
  addr : ℕ

/-- What `fs_read` delivers, none for an error, and the pages the heap takes and gives back
meanwhile. -/
structure FileRead where
  bytes : Option (List UInt8)
  taken : ℕ
  released : ℕ

/-- How the calls inside one `load_and_exec_elf` go: the copies, and the pages the heap gives back.
-/
structure ExecEnv where
  vm : VmEnv
  fillOk : ℕ → Bool
  buffer : BlockUse
  read : FileRead
  bufferReleased : ℕ
  pcb : BlockUse
  table : BlockUse
  pcbReleased : ℕ

namespace ExecSys

variable (s : ExecSys)

def checkFreeTaskSlot : Bool :=
  decide (s.tasks.countP (fun t =>
    decide (t.proc.state ≠ .empty ∧ t.proc.state ≠ .dead)) < maxTasks)

/-- `kmalloc`, for a size other than 0. -/
def kmalloc (u : BlockUse) : Bool × ExecSys :=
  let k := EsdumanOS.kmalloc u.toHeapUse s.toPhys
  (k.1, { s with toPhys := k.2, blocks := if k.1 then u.addr :: s.blocks else s.blocks })

/-- `kfree` of the block at an address. -/
def kfree (addr pages : ℕ) : ExecSys :=
  { s with toPhys := EsdumanOS.kfree pages s.toPhys, blocks := s.blocks.erase addr }

/-- What `fs_read` does to the heap. -/
def readFile (r : FileRead) : ExecSys :=
  { s with toPhys := EsdumanOS.kfree r.released (EsdumanOS.kmalloc ⟨true, r.taken⟩ s.toPhys).2 }

def firstProc (pid : ℤ) : Proc where
  pid := pid
  parentPid := -1
  uid := 0
  pgid := pid
  state := .running
  waitReason := .none
  stoppedWaitReason := .none
  execChildPid := 0
  exitCode := 0
  eax := 0
  status := 0
  pending := fun _ => false
  handlers := fun _ => .default
  signalInterrupted := false
  savedEax := none

def currentTask? : Option ExecTask := s.current.bind (s.tasks[·]?)

/-- The task `create_process` links into the list. -/
def newTask (pid : ℤ) (d : PageDir) : ExecTask where
  proc := match s.currentTask? with
    | some t => ProcTable.newProc pid t.proc
    | none => firstProc pid
  space := ⟨d, 0, 0⟩
  fds := List.replicate maxFdPerTask .unused

/-- The pids `allocate_pid` passes over. -/
def heldPids : List ℤ := s.tasks.map (fun t => t.proc.pid) ++ s.zombies

/-- `create_process`. There is no result when every pid is taken. -/
def createProcess (e : ExecEnv) (d : PageDir) : Option ((Errno ⊕ ℤ) × ExecSys) :=
  let k := s.kmalloc e.pcb
  if !k.1 then some (.inl .nomem, k.2)
  else
    match ProcTable.allocatePid s.heldPids (s.heldPids.length + 1) s.nextPid with
    | none => none
    | some (pid, next) =>
      let f := { k.2 with nextPid := next }.kmalloc e.table
      -- a task without a descriptor table is not published
      if !f.1 then some (.inl .nomem, f.2.kfree e.pcb.addr e.pcbReleased)
      else
        some (.inr pid,
          { f.2 with
            tasks := s.tasks ++ [s.newTask pid d]
            current := if s.current.isNone then some s.tasks.length else s.current })

/-- The break is planted, and the descriptors of the current task are inherited. -/
def settleTask (i : ℕ) (t creator : ExecTask) (gs : List Segment) : ExecSys :=
  let r := inheritFdTable s.objs creator.fds
  { s with
    tasks := s.tasks.set i
      { t with
        space := { t.space with brkStart := imageBreak gs, brkCurrent := imageBreak gs }
        fds := standardFds r.1 }
    objs := r.2 }

/-- The end of `load_and_exec_elf`, from the call of `create_process` on. -/
def startTask (e : ExecEnv) (d : PageDir) (gs : List Segment) :
    Option ((Errno ⊕ ℤ) × ExecSys) := do
  let c ← s.createProcess e d
  match c.1 with
  | .inl _ => some (.inl .fault, c.2)
  | .inr pid =>
    match c.2.tasks.findIdx? (fun t => decide (t.proc.pid = pid ∧ t.proc.state ≠ .empty)) with
    | none => some (.inl .fault, c.2)
    | some i =>
      match c.2.tasks[i]?, c.2.currentTask? with
      | some t, some creator => some (.inr pid, c.2.settleTask i t creator gs)
      | _, _ => some (.inl .fault, c.2)

/-- The middle of `load_and_exec_elf`: the image is in the buffer, and was accepted. -/
def loadBuffer (e : ExecEnv) (image : List UInt8) : Option ((Errno ⊕ ℤ) × ExecSys) :=
  match clonePageDirectory e.vm s.toPhys with
  | (none, ph) =>
    some (.inl .nomem, { s with toPhys := ph }.kfree e.buffer.addr e.bufferReleased)
  | (some newPd, ph) => do
    let gs ← imageSegments image
    let r := loadImage e.vm e.fillOk gs { ph with dir := newPd }
    let s := { s with toPhys := r.2.toPhys }.kfree e.buffer.addr e.bufferReleased
    if !r.1 then
      -- `cleanup_and_fail`
      some (.inl .noexec,
        { s with pmm := cleanupProcessMemory s.cr3 s.kernelDir s.pmm r.2.dir })
    else s.startTask e r.2.dir gs

/-- The checks before anything is taken: the level, the task limit, the file. -/
def fileFor (filename : Name) (parentId : ℕ) : Except Errno VfsFile :=
  if .lockdown ≤ s.secLevel then .error .acces
  else if !s.checkFreeTaskSlot then .error .again
  else
    match fsOpen s.objs.fs filename parentId with
    | (.ok, some file) => .ok file
    | _ => .error .noent

def buffered (e : ExecEnv) : ExecSys := (s.kmalloc e.buffer).2.readFile e.read

/-- `load_and_exec_elf`: an error, or the pid of the new task. -/
def loadAndExecElf (e : ExecEnv) (filename : Name) (parentId : ℕ) :
    Option ((Errno ⊕ ℤ) × ExecSys) :=
  match s.fileFor filename parentId with
  | .error err => some (.inl err, s)
  | .ok file =>
    -- `kmalloc` has no block of size 0
    if file.fileSize = 0 then some (.inl .nomem, s)
    else if !(s.kmalloc e.buffer).1 then some (.inl .nomem, (s.kmalloc e.buffer).2)
    else
      let failed (err : Errno) : (Errno ⊕ ℤ) × ExecSys :=
        (.inl err, (s.buffered e).kfree e.buffer.addr e.bufferReleased)
      match e.read.bytes with
      | none => some (failed .io)
      | some image =>
        if image.length < sizeofEhdr then some (failed .io)
        else do
          let verdict ← elfValidateImage image
          if verdict ≠ .ok then some (failed .noexec) else (s.buffered e).loadBuffer e image

end ExecSys

def Segment.covers (g : Segment) (addr : ℕ) : Bool :=
  decide (g.vaddr ≤ addr) && decide (addr < g.vaddr + g.memsz)

def Phdr.covers (ph : Phdr) (addr : ℕ) : Bool :=
  decide (ph.vaddr ≤ addr) && decide (addr < ph.vaddr + ph.memsz)

def lastSegment (gs : List Segment) (addr : ℕ) : Option Segment :=
  gs.reverse.find? (·.covers addr)

def lastCovering (phs : List Phdr) (addr : ℕ) : Option Phdr :=
  phs.reverse.find? (·.covers addr)

def Vm.byteAt (m : Vm) (addr : ℕ) : Option UInt8 :=
  (m.page (addr / pageSize)).map fun p => p.2 (addr % pageSize)

def WritableAt (phs : List Phdr) (page : ℕ) : Prop :=
  ∃ ph ∈ phs, ph.writable = true ∧ ∃ addr, ph.covers addr = true ∧ addr / pageSize = page

/-- The address space is the image: a byte is that of the last segment that covers it, and a page is
writable where a segment says so. -/
structure LoadedAs (image : List UInt8) (phs : List Phdr) (m : Vm) : Prop where
  bytes : ∀ addr ph, lastCovering phs addr = some ph → m.byteAt addr =
    if addr < ph.vaddr + ph.filesz then image[ph.offset + (addr - ph.vaddr)]? else some 0
  access : ∀ ph ∈ phs, ∀ addr, ph.covers addr = true → m.dir.accessible (addr / pageSize) = true
  writable : ∀ ph ∈ phs, ∀ addr, ph.covers addr = true →
    ((m.dir.lookup (addr / pageSize)).flags.writable = true ↔ WritableAt phs (addr / pageSize))

/-- A failed call has given back the frames, the blocks, the tasks, and the references of the
descriptors. -/
structure GivenBack (s s' : ExecSys) : Prop where
  frames : s'.pmm.bitmap = s.pmm.bitmap
  pages : ∀ f, f ∈ s'.heap ↔ f ∈ s.heap
  blocks : s'.blocks = s.blocks
  tasks : s'.tasks = s.tasks
  objs : s'.objs = s.objs

namespace ExecSys

variable (s : ExecSys) (e : ExecEnv) (filename : Name) (parentId : ℕ)

/-- What the file buffer does to the heap, from its `kmalloc` to its `kfree`. -/
def bufferHeap : Phys :=
  if e.buffer.ok then EsdumanOS.kfree e.bufferReleased (s.buffered e).toPhys
  else (s.kmalloc e.buffer).2.toPhys

/-- The heap gives back the pages it takes for the file buffer, and no others. -/
def HeapEven : Prop :=
  match s.fileFor filename parentId with
  | .error _ => True
  | .ok file => file.fileSize ≠ 0 → ∀ f, f ∈ (s.bufferHeap e).heap ↔ f ∈ s.heap

def loadsBuffer (image : List UInt8) : Bool :=
  match clonePageDirectory e.vm s.toPhys, imageSegments image with
  | (some newPd, ph), some gs => (loadImage e.vm e.fillOk gs { ph with dir := newPd }).1
  | _, _ => false

/-- The call gets as far as `create_process`. -/
def loadsImage : Bool :=
  match s.fileFor filename parentId, e.read.bytes with
  | .ok file, some image =>
    decide (file.fileSize ≠ 0) && e.buffer.ok && decide (elfValidateImage image = some .ok) &&
      (s.buffered e).loadsBuffer e image
  | _, _ => false

end ExecSys

end EsdumanOS
