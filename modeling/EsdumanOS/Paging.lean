import EsdumanOS.Pmm

/-!
# Page tables

The user half of the address spaces of `paging.c`. A page is named by its number. The frames of the
kernel heap are part of the state; how `kmalloc` and `kfree` move them is a parameter of each call.
-/

namespace EsdumanOS

/-- The bits of an entry the kernel reads and writes. -/
structure PteFlags where
  present : Bool
  writable : Bool
  user : Bool
  cow : Bool
  deriving DecidableEq, Repr

def pageUserAccess : PteFlags := ⟨true, true, true, false⟩
def pageAbsent : PteFlags := ⟨false, false, false, false⟩

structure Pte where
  frame : ℕ
  flags : PteFlags
  deriving DecidableEq, Repr

def Pte.zero : Pte := ⟨0, pageAbsent⟩

structure PageTable where
  frame : ℕ
  user : Bool
  entries : ℕ → Pte

structure PageDir where
  frame : ℕ
  tables : ℕ → Option PageTable

/-- The directory entries below the kernel split, and the pages they cover. -/
@[irreducible] def userTables : ℕ := 768
@[irreducible] def userPages : ℕ := userTables * 1024

/-- The pages in the order of the two loops over directory and table indices. -/
@[irreducible] def userVpns : List ℕ := List.range userPages

namespace PageDir

variable (d : PageDir) (v : ℕ)

/-- The entry for page `v`. -/
def lookup : Pte :=
  match d.tables (v / 1024) with
  | some t => t.entries (v % 1024)
  | none => Pte.zero

def setTable (i : ℕ) (t : PageTable) : PageDir :=
  { d with tables := Function.update d.tables i (some t) }

def setEntry (e : Pte) : PageDir :=
  match d.tables (v / 1024) with
  | some t => d.setTable (v / 1024) { t with entries := Function.update t.entries (v % 1024) e }
  | none => d

def present : Bool := (d.lookup v).flags.present

def opened : Bool :=
  match d.tables (v / 1024) with
  | some t => t.user
  | none => false

def accessible : Bool :=
  decide (v < userPages) && d.opened v && d.present v && (d.lookup v).flags.user

end PageDir

/-- Physical memory: the allocator, the contents of the frames, and the frames of the kernel
heap. -/
structure Phys where
  pmm : Pmm
  mem : ℕ → Buf
  heap : List ℕ

structure Vm extends Phys where
  dir : PageDir

/-- `heap_grow`, for `n` pages or as many as there are. -/
def heapGrow : ℕ → Phys → Phys
  | 0, m => m
  | n + 1, m =>
    match pmmAllocFrame m.pmm with
    | (none, p) => { m with pmm := p }
    | (some f, p) => heapGrow n { m with pmm := p, heap := f :: m.heap }

/-- What `kfree` and `heap_rollback` give back from the end of the heap. -/
def heapShrink : ℕ → Phys → Phys
  | 0, m => m
  | n + 1, m =>
    match m.heap with
    | [] => m
    | f :: heap => heapShrink n { m with pmm := pmmFreeFrame m.pmm f, heap := heap }

/-- How one `kmalloc` goes. -/
structure HeapUse where
  ok : Bool
  pages : ℕ

def kmalloc (h : HeapUse) (m : Phys) : Bool × Phys :=
  (h.ok, heapGrow h.pages m)

def kfree (pages : ℕ) (m : Phys) : Phys :=
  heapShrink pages m

section Map

variable (m : Vm) (v frame : ℕ) (fl : PteFlags)

/-- The first half of `map_page`: the page table for the page. -/
def ensureTable : Bool × Vm :=
  match m.dir.tables (v / 1024) with
  | none =>
    match pmmAllocFrame m.pmm with
    | (none, p) => (false, { m with pmm := p })
    | (some f, p) =>
      (true, { m with
        pmm := p
        dir := m.dir.setTable (v / 1024) ⟨f, fl.user, fun _ => Pte.zero⟩ })
  | some t =>
    if fl.user && !t.user then
      (true, { m with dir := m.dir.setTable (v / 1024) { t with user := true } })
    else (true, m)

def mapPage : Errno × Vm :=
  match ensureTable m v fl with
  | (false, m) => (.nomem, m)
  | (true, m) =>
    if m.dir.present v = true ∧ (m.dir.lookup v).frame ≠ frame then (.busy, m)
    else (.ok, { m with dir := m.dir.setEntry v ⟨frame, fl⟩ })

def unmapPage : Vm :=
  { m with dir := m.dir.setEntry v Pte.zero }

end Map

/-- How the calls inside one fork or fault go. -/
structure VmEnv where
  tempMap : Bool
  copyOk : ℕ → Bool
  records : HeapUse
  task : HeapUse
  released : ℕ

def clonePageDirectory (e : VmEnv) (m : Phys) : Option PageDir × Phys :=
  match pmmAllocFrame m.pmm with
  | (none, p) => (none, { m with pmm := p })
  | (some f, p) =>
    if e.tempMap then (some ⟨f, fun _ => none⟩, { m with pmm := p })
    else (none, { m with pmm := pmmFreeFrame p f })

def countUserPages (d : PageDir) : ℕ :=
  userVpns.countP d.present

structure CopiedPage where
  vaddr : ℕ
  frame : ℕ
  flags : PteFlags

def sharedFlags (fl : PteFlags) : PteFlags :=
  if fl.writable then { fl with writable := false, cow := true } else fl

/-- The first pass of `copy_user_space`, over the pages that are left. -/
def sharePages (pageCount : ℕ) :
    List ℕ → Pmm × PageDir × List CopiedPage → Pmm × PageDir × List CopiedPage
  | [], s => s
  | v :: vs, (p, d, pages) =>
    let e := d.lookup v
    if e.flags.present = false then sharePages pageCount vs (p, d, pages)
    else if pageCount ≤ pages.length then (p, d, pages)
    else
      sharePages pageCount vs (pmmRefFrame p e.frame,
        if e.flags.writable then d.setEntry v ⟨e.frame, sharedFlags e.flags⟩ else d,
        pages ++ [⟨v, e.frame, sharedFlags e.flags⟩])

/-- The second pass, on the clone: the records that could not be installed. -/
def installPages : List CopiedPage → Vm → List CopiedPage × Vm
  | [], m => ([], m)
  | c :: cs, m =>
    match mapPage m c.vaddr c.frame c.flags with
    | (.ok, m) => installPages cs m
    | (_, m) => (c :: cs, m)

def dropRecords (p : Pmm) (pages : List CopiedPage) : Pmm :=
  pages.foldl (fun p c => pmmFreeFrame p c.frame) p

/-- Both passes of `copy_user_space`: the directory shared from, and the clone with its status. -/
def sharePass (pageCount : ℕ) (vs : List ℕ) (m : Vm) (dst : PageDir) : Errno × Vm × PageDir :=
  let s := sharePages pageCount vs (m.pmm, m.dir, [])
  let r := installPages s.2.2 { m with pmm := s.1, dir := dst }
  (if r.1.isEmpty then .ok else .nomem,
    { r.2 with pmm := dropRecords r.2.pmm r.1, dir := s.2.1 }, r.2.dir)

/-- `copy_user_space`; the result has the caller's directory in place again. -/
def copyUserSpace (e : VmEnv) (m : Vm) (dst : PageDir) : Errno × Vm × PageDir :=
  let pageCount := countUserPages m.dir
  if pageCount = 0 then (.ok, m, dst)
  else
    let k := kmalloc e.records m.toPhys
    if !k.1 then (.nomem, { k.2 with dir := m.dir }, dst)
    else
      let r := sharePass pageCount userVpns { k.2 with dir := m.dir } dst
      (r.1, { kfree e.released r.2.1.toPhys with dir := r.2.1.dir }, r.2.2)

inductive CowResult
  | resolved | notCow | failed
  deriving DecidableEq, Repr

def cowHandleFault (e : VmEnv) (m : Vm) (addr : ℕ) : CowResult × Vm :=
  let v := addr / pageSize
  let entry := m.dir.lookup v
  if addr < 0x400000 ∨ 0xC0000000 ≤ addr then (.notCow, m)
  else if entry.flags.present = false then (.notCow, m)
  else if entry.flags.cow = false then (.notCow, m)
  else
    let flags := { entry.flags with cow := false, writable := true }
    if pmmFrameRefcount m.pmm entry.frame ≤ 1 then
      (.resolved, { m with dir := m.dir.setEntry v ⟨entry.frame, flags⟩ })
    else
      match pmmAllocFrame m.pmm with
      | (none, p) => (.failed, { m with pmm := p })
      | (some fresh, p) =>
        if e.tempMap && e.copyOk v then
          (.resolved, { m with
            pmm := pmmFreeFrame p entry.frame
            mem := Function.update m.mem fresh (m.mem entry.frame)
            dir := m.dir.setEntry v ⟨fresh, flags⟩ })
        else (.failed, { m with pmm := pmmFreeFrame p fresh })

/-- The inner loop of `cleanup_process_memory`, over the entries of a table. -/
def freeEntries (t : PageTable) (js : List ℕ) (p : Pmm) : Pmm :=
  js.foldl (fun p j =>
    if (t.entries j).flags.present then pmmFreeFrame p (t.entries j).frame else p) p

def freeTables (d : PageDir) (is : List ℕ) (p : Pmm) : Pmm :=
  is.foldl
    (fun p i =>
      match d.tables i with
      | none => p
      | some t => pmmFreeFrame (freeEntries t (List.range 1024) p) t.frame) p

/-- `cleanup_process_memory`, with the directory in CR3 and that of the kernel. -/
def cleanupProcessMemory (curr kernelDir : ℕ) (p : Pmm) (d : PageDir) : Pmm :=
  if d.frame = curr then p
  else if d.frame = kernelDir then p
  else pmmFreeFrame (freeTables d (List.range userTables) p) d.frame

end EsdumanOS
