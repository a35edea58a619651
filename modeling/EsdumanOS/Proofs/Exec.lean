import EsdumanOS.Proofs.Elf
import EsdumanOS.Proofs.AddressSpace
import EsdumanOS.Proofs.Process
import EsdumanOS.Proofs.Replace

/-!
# Starting a program

Every frame belongs to the heap or to an address space, so the frames are as before a failed call
when the heap has its pages and the new address space is torn down. That is done on every exit but
one: when `create_process` has no memory for the task.
-/

namespace EsdumanOS

open Lib List ExecSys

variable {heap heap' : List ℕ}

section Top

variable {p p' p'' : Pmm} {m : Vm} {e : VmEnv}

structure Pmm.SameTop (p p' : Pmm) : Prop where
  count : p'.framesCount = p.framesCount
  top : ∀ f, p.framesCount ≤ f → p'.bitmap f = p.bitmap f

namespace Pmm.SameTop

lemma refl (p : Pmm) : p.SameTop p := ⟨rfl, fun _ _ => rfl⟩

lemma trans (h : p.SameTop p') (h' : p'.SameTop p'') : p.SameTop p'' where
  count := h'.count.trans h.count
  top f hf := (h'.top f (h.count ▸ hf)).trans (h.top f hf)

lemma alloc (p : Pmm) : p.SameTop (pmmAllocFrame p).2 := by
  rcases pmmAllocFrame_cases p with ⟨l, heq⟩ | ⟨f, l, hlt, -, heq⟩
  · rw [heq]
    exact ⟨rfl, fun _ _ => rfl⟩
  · rw [heq]
    exact ⟨rfl, fun g hg => Function.update_of_ne (by omega) _ _⟩

lemma of_alloc {r : Option ℕ} (ha : pmmAllocFrame p = (r, p')) : p.SameTop p' := by
  have h := alloc p
  rwa [ha] at h

lemma free (p : Pmm) (f : ℕ) : p.SameTop (pmmFreeFrame p f) := by
  unfold pmmFreeFrame
  split_ifs with hl htop hb hr
  · exact refl p
  · exact refl p
  · exact refl p
  · exact ⟨rfl, fun _ _ => rfl⟩
  all_goals exact ⟨rfl, fun g hg => Function.update_of_ne (by omega) _ _⟩

end Pmm.SameTop

open Pmm (SameTop)

lemma heapGrow_top : ∀ (n : ℕ) (m : Phys), m.pmm.SameTop (heapGrow n m).pmm
  | 0, m => SameTop.refl m.pmm
  | n + 1, m => by
    unfold heapGrow
    rcases ha : pmmAllocFrame m.pmm with ⟨_ | f, p⟩
    · exact .of_alloc ha
    · exact (SameTop.of_alloc ha).trans (heapGrow_top n { m with pmm := p, heap := f :: m.heap })

lemma heapShrink_top : ∀ (n : ℕ) (m : Phys), m.pmm.SameTop (heapShrink n m).pmm
  | 0, m => SameTop.refl m.pmm
  | n + 1, m => by
    unfold heapShrink
    cases m.heap with
    | nil => exact SameTop.refl m.pmm
    | cons f heap =>
      exact (SameTop.free m.pmm f).trans
        (heapShrink_top n { m with pmm := pmmFreeFrame m.pmm f, heap := heap })

structure Phys.SameHeap (m m' : Phys) : Prop where
  heap : m'.heap = m.heap
  top : m.pmm.SameTop m'.pmm

namespace Phys.SameHeap

variable {m m' m'' : Phys}

lemma refl (m : Phys) : m.SameHeap m := ⟨rfl, .refl m.pmm⟩

lemma trans (h : m.SameHeap m') (h' : m'.SameHeap m'') : m.SameHeap m'' :=
  ⟨h'.heap.trans h.heap, h.top.trans h'.top⟩

end Phys.SameHeap

open Phys (SameHeap)

lemma ensureTable_heap (m : Vm) (v : ℕ) (fl : PteFlags) :
    m.toPhys.SameHeap (ensureTable m v fl).2.toPhys := by
  unfold ensureTable
  cases m.dir.tables (v / 1024) with
  | none =>
    rcases ha : pmmAllocFrame m.pmm with ⟨_ | f, p⟩
    · exact ⟨rfl, .of_alloc ha⟩
    · exact ⟨rfl, .of_alloc ha⟩
  | some t =>
    dsimp only
    split_ifs
    · exact ⟨rfl, .refl m.pmm⟩
    · exact .refl m.toPhys

lemma mapPage_heap (m : Vm) (v frame : ℕ) (fl : PteFlags) :
    m.toPhys.SameHeap (mapPage m v frame fl).2.toPhys := by
  have he := ensureTable_heap m v fl
  unfold mapPage
  rcases heq : ensureTable m v fl with ⟨_ | _, m'⟩
  · rwa [heq] at he
  · rw [heq] at he
    dsimp only
    split_ifs
    · exact he
    · exact ⟨he.heap, he.top⟩

lemma loadFreshPage_heap (copyOk : Bool) (m : Vm) (v : ℕ) :
    m.toPhys.SameHeap (loadFreshPage copyOk m v).2.toPhys := by
  unfold loadFreshPage
  rcases ha : pmmAllocFrame m.pmm with ⟨_ | frame, p⟩
  · exact ⟨rfl, .of_alloc ha⟩
  · have hm := mapPage_heap { m with pmm := p } v frame pageUserAccess
    have htop := (SameTop.of_alloc ha).trans hm.top
    dsimp only
    split_ifs
    · exact ⟨hm.heap, htop.trans (SameTop.free _ frame)⟩
    · exact ⟨hm.heap, htop⟩
    · exact ⟨hm.heap, htop⟩

lemma setWritable_phys (w : Bool) (m : Vm) (v : ℕ) :
    (setWritable w m v).toPhys = m.toPhys := by
  unfold setWritable
  split_ifs <;> rfl

lemma sameHeap_steps (m0 : Phys) : LoadSteps (fun _ => True) (m0.SameHeap ·.toPhys) where
  fresh copyOk _ hm := hm.trans (loadFreshPage_heap copyOk _ _)
  mark w _ hm := (setWritable_phys w _ _).symm ▸ hm
  fill _ _ hm := ⟨hm.heap, hm.top⟩
  guard hm := hm.trans (mapPage_heap _ _ _ _)

lemma loadImage_heap (fillOk : ℕ → Bool) (gs : List Segment) (m : Vm) :
    m.toPhys.SameHeap (loadImage e fillOk gs m).2.toPhys :=
  (sameHeap_steps m.toPhys).image fillOk (fun _ _ _ _ _ => trivial) (fun _ _ => trivial) (.refl _)

lemma clonePageDirectory_heap (m : Phys) : m.SameHeap (clonePageDirectory e m).2 := by
  unfold clonePageDirectory
  rcases ha : pmmAllocFrame m.pmm with ⟨_ | f, p⟩
  · exact ⟨rfl, .of_alloc ha⟩
  · split_ifs
    · exact ⟨rfl, .of_alloc ha⟩
    · exact ⟨rfl, (SameTop.of_alloc ha).trans (SameTop.free p f)⟩

lemma cleanup_top (curr kernelDir : ℕ) (p : Pmm) (d : PageDir) :
    p.SameTop (cleanupProcessMemory curr kernelDir p d) := by
  have he : ∀ (t : PageTable) (p' : Pmm), p.SameTop p' →
      p.SameTop (freeEntries t (range 1024) p') := by
    intro t p' hp'
    refine foldl_invariant (fun q j hq => ?_) _ hp'
    split_ifs
    · exact hq.trans (SameTop.free q _)
    · exact hq
  have ht : p.SameTop (freeTables d (range userTables) p) := by
    refine foldl_invariant (fun q i hq => ?_) _ (SameTop.refl p)
    cases d.tables i with
    | none => exact hq
    | some t => exact (he t q hq).trans (SameTop.free _ _)
  unfold cleanupProcessMemory
  split_ifs
  · exact SameTop.refl p
  · exact SameTop.refl p
  · exact ht.trans (SameTop.free _ _)

end Top

section HeapOnly

variable {m m' m'' : Phys} {ds : List PageDir}

/-- Frames have moved between the allocator and the heap, and nothing else has changed. -/
structure Phys.HeapOnly (m m' : Phys) : Prop where
  inv : ∀ ds, FramesInv m.pmm m.heap ds → FramesInv m'.pmm m'.heap ds
  mem : m'.mem = m.mem
  top : m.pmm.SameTop m'.pmm

namespace Phys.HeapOnly

lemma trans (h : m.HeapOnly m') (h' : m'.HeapOnly m'') : m.HeapOnly m'' where
  inv ds hm := h'.inv ds (h.inv ds hm)
  mem := h'.mem.trans h.mem
  top := h.top.trans h'.top

lemma kmalloc (u : HeapUse) (m : Phys) : m.HeapOnly (EsdumanOS.kmalloc u m).2 where
  inv _ h := { h with holds := heapGrow_holds u.pages h.holds }
  mem := heapGrow_mem u.pages m
  top := heapGrow_top u.pages m

lemma kfree (n : ℕ) (m : Phys) : m.HeapOnly (EsdumanOS.kfree n m) where
  inv _ h := { h with holds := heapShrink_holds n h.holds }
  mem := heapShrink_mem n m
  top := heapShrink_top n m

end Phys.HeapOnly

lemma heapShrink_heap : ∀ (n : ℕ) (m : Phys), (heapShrink n m).heap = m.heap.drop n
  | 0, _ => rfl
  | n + 1, m => by
    unfold heapShrink
    cases hm : m.heap with
    | nil => simp [hm]
    | cons f heap => simp [heapShrink_heap n]

lemma kfree_heap {n : ℕ} (h : m'.heap = m.heap) :
    (kfree n m').heap = (kfree n m).heap := by
  unfold kfree
  rw [heapShrink_heap, heapShrink_heap, h]

end HeapOnly

section Tasks

variable {s s' : ExecSys} {e : ExecEnv} {d : PageDir} {gs : List Segment}
  {r : (Errno ⊕ ℤ) × ExecSys}

@[simp] lemma ExecSys.kmalloc_ok (s : ExecSys) (u : BlockUse) : (s.kmalloc u).1 = u.ok := rfl

structure ExecSys.SameTasks (s s' : ExecSys) : Prop where
  tasks : s'.tasks = s.tasks
  objs : s'.objs = s.objs

inductive TaskCreated (s : ExecSys) (e : ExecEnv) (d : PageDir) : (Errno ⊕ ℤ) × ExecSys → Prop
  | failed (s' : ExecSys) (hmem : ¬ (e.pcb.ok = true ∧ e.table.ok = true))
      (heap : s.toPhys.HeapOnly s'.toPhys) (hblocks : s'.blocks = s.blocks)
      (hsame : s.SameTasks s') : TaskCreated s e d (.inl .nomem, s')
  | made (pid : ℤ) (s' : ExecSys) (hpcb : e.pcb.ok = true) (htable : e.table.ok = true)
      (hpid : pid ∉ s.heldPids) (heap : s.toPhys.HeapOnly s'.toPhys) (hobjs : s'.objs = s.objs)
      (htasks : s'.tasks = s.tasks ++ [s.newTask pid d])
      (hcurrent : s'.current = if s.current.isNone then some s.tasks.length else s.current) :
      TaskCreated s e d (.inr pid, s')

lemma createProcess_created (hr : s.createProcess e d = some r) : TaskCreated s e d r := by
  unfold createProcess at hr
  have hf : s.toPhys.HeapOnly (s.kmalloc e.pcb).2.toPhys := .kmalloc _ _
  cases hpcb : e.pcb.ok with
  | false =>
    rw [if_pos (by simp [hpcb])] at hr
    obtain rfl := Option.some.inj hr
    refine .failed _ (fun hmem => by simp [hpcb] at hmem) hf ?_ ⟨rfl, rfl⟩
    simp [ExecSys.kmalloc, kmalloc, hpcb]
  | true =>
    rw [if_neg (by simp [hpcb])] at hr
    cases ha : ProcTable.allocatePid s.heldPids (s.heldPids.length + 1) s.nextPid with
    | none => simp [ha] at hr
    | some a =>
      obtain ⟨pid, next⟩ := a
      rw [ha] at hr
      dsimp only at hr
      have hfresh := ProcTable.allocatePid_fresh ha
      have hs : s.toPhys.HeapOnly
          (ExecSys.kmalloc { (s.kmalloc e.pcb).2 with nextPid := next } e.table).2.toPhys :=
        hf.trans (.kmalloc _ _)
      cases htable : e.table.ok with
      | false =>
        rw [if_pos (by simp [htable])] at hr
        obtain rfl := Option.some.inj hr
        refine .failed _ (fun hmem => by simp [htable] at hmem) (hs.trans (.kfree _ _)) ?_
          ⟨rfl, rfl⟩
        simp [ExecSys.kfree, ExecSys.kmalloc, kmalloc, hpcb, htable]
      | true =>
        rw [if_neg (by simp [htable])] at hr
        obtain rfl := Option.some.inj hr
        exact .made pid _ hpcb htable hfresh.2 hs rfl rfl rfl

/-- The process table of the machine; what the loader does not touch is that of `t`. -/
def ExecSys.procs (s : ExecSys) (t : ProcTable) : ProcTable :=
  { t with tasks := s.tasks.map ExecTask.proc, zombies := s.zombies, nextPid := s.nextPid }

lemma procs_checkFreeTaskSlot (t : ProcTable) :
    (s.procs t).checkFreeTaskSlot = s.checkFreeTaskSlot := by
  rw [ProcTable.checkFreeTaskSlot, procs, countP_map]
  rfl

/-- With memory for the task, `create_process` is that of the process table. -/
lemma createProcess_procs (t : ProcTable) {creator : ExecTask}
    (hc : s.currentTask? = some creator) (hpcb : e.pcb.ok = true)
    (hr : s.createProcess e d = some r) :
    (s.procs t).createProcess (if e.table.ok then .all else .task) creator.proc =
      (r.1.getRight?, r.2.procs t) := by
  have hh : (s.procs t).held = s.heldPids := by
    simp [ProcTable.held, ProcTable.pids, heldPids, procs]
  unfold ExecSys.createProcess at hr
  unfold ProcTable.createProcess
  rw [hh, show (s.procs t).nextPid = s.nextPid from rfl]
  rw [if_neg (by simp [hpcb])] at hr
  rcases ha : ProcTable.allocatePid s.heldPids (s.heldPids.length + 1) s.nextPid with
    _ | ⟨pid, next⟩ <;> rw [ha] at hr
  · simp at hr
  dsimp only at hr ⊢
  cases htable : e.table.ok with
  | false =>
    rw [if_pos (by simp [htable])] at hr
    obtain rfl := Option.some.inj hr
    rfl
  | true =>
    rw [if_neg (by simp [htable])] at hr
    obtain rfl := Option.some.inj hr
    simp [procs, newTask, hc, ExecSys.kmalloc]

def ExecSys.kernel (s : ExecSys) : Kernel := ⟨s.objs, s.tasks.map ExecTask.fds⟩

/-- The task that `create_process` has linked gets the descriptors of an exec by its creator. -/
lemma settleTask_kernel {env : Env} {i : ℕ} {t creator : ExecTask}
    (hc : s.tasks[i]? = some creator) (hl : ¬ .lockdown ≤ env.secLevel)
    (hslot : EsdumanOS.checkFreeTaskSlot s.kernel = true) :
    (settleTask { s with tasks := s.tasks ++ [t] } s.tasks.length t creator gs).kernel =
      (EsdumanOS.loadAndExecElf env s.kernel i .ok).2 := by
  have hk : s.kernel.tasks[i]? = some creator.fds := by simp [ExecSys.kernel, hc]
  unfold EsdumanOS.loadAndExecElf
  simp only [hk, if_neg hl, hslot]
  simp [settleTask, ExecSys.kernel]

lemma newTask_pid (s : ExecSys) (pid : ℤ) (d : PageDir) :
    (s.newTask pid d).proc.pid = pid ∧ (s.newTask pid d).proc.state ≠ .empty := by
  unfold newTask
  cases s.currentTask? with
  | none => exact ⟨rfl, by simp [firstProc]⟩
  | some t => exact ⟨rfl, by simp [ProcTable.newProc]⟩

lemma findIdx_newTask {pid : ℤ} (hpid : pid ∉ s.heldPids) (d : PageDir) :
    (s.tasks ++ [s.newTask pid d]).findIdx?
      (fun t => decide (t.proc.pid = pid ∧ t.proc.state ≠ .empty)) = some s.tasks.length := by
  have hn : s.tasks.findIdx? (fun t => decide (t.proc.pid = pid ∧ t.proc.state ≠ .empty)) =
      none := by
    rw [findIdx?_eq_none_iff]
    intro t ht
    have hne : t.proc.pid ≠ pid := fun heq =>
      hpid (mem_append_left _ (heq ▸ mem_map_of_mem ht))
    simp [hne]
  rw [findIdx?_append, hn]
  simp [newTask_pid s pid d]

inductive TaskStarted (s : ExecSys) (e : ExecEnv) (d : PageDir) : (Errno ⊕ ℤ) × ExecSys → Prop
  | failed (s' : ExecSys) (hmem : ¬ (e.pcb.ok = true ∧ e.table.ok = true))
      (heap : s.toPhys.HeapOnly s'.toPhys) : TaskStarted s e d (.inl .fault, s')
  | made (pid : ℤ) (t : ExecTask) (s' : ExecSys) (heap : s.toPhys.HeapOnly s'.toPhys)
      (htasks : s'.tasks = s.tasks ++ [t]) (hpid : t.proc.pid = pid) (hdir : t.space.dir = d) :
      TaskStarted s e d (.inr pid, s')

lemma startTask_started (hcurrent : ∀ i, s.current = some i → i < s.tasks.length)
    (hr : s.startTask e d gs = some r) : TaskStarted s e d r := by
  unfold startTask at hr
  cases hc : s.createProcess e d with
  | none => simp [hc] at hr
  | some c =>
    rw [hc] at hr
    dsimp only [Option.bind_eq_bind, Option.bind_some] at hr
    rcases createProcess_created hc with ⟨s', hmem, heap, hblocks, hsame⟩ |
      ⟨pid, s', hpcb, htable, hpid, heap, hobjs, htasks, hcu⟩
    · obtain rfl := Option.some.inj hr
      exact .failed s' hmem heap
    · have hcr : ∃ creator, s'.currentTask? = some creator := by
        unfold currentTask?
        rw [hcu, htasks]
        cases hi : s.current with
        | none => simp
        | some i =>
          have hlt := hcurrent i hi
          simp [getElem?_append_left hlt, getElem?_eq_getElem hlt]
      obtain ⟨creator, hcr⟩ := hcr
      dsimp only at hr
      have hl : (s.tasks ++ [s.newTask pid d])[s.tasks.length]? = some (s.newTask pid d) := by
        simp
      rw [htasks, findIdx_newTask hpid d] at hr
      dsimp only at hr
      rw [hl, hcr] at hr
      obtain rfl := Option.some.inj hr
      refine .made pid
        { s.newTask pid d with
          space := ⟨d, imageBreak gs, imageBreak gs⟩
          fds := standardFds (inheritFdTable s'.objs creator.fds).1 } _ heap ?_
        (newTask_pid s pid d).1 rfl
      unfold settleTask
      dsimp only
      rw [htasks, set_append_right _ _ le_rfl, Nat.sub_self, set_cons_zero]
      rfl

end Tasks

section Outcome

variable {s s' : ExecSys} {e : ExecEnv} {ds : List PageDir} {image : List UInt8} {filename : Name}
  {parentId : ℕ} {r : (Errno ⊕ ℤ) × ExecSys}

/-- Every frame is the heap's, or held or mapped by one of the directories `ds`, among them that in
CR3, the kernel's, and perhaps one nobody knows any more. -/
structure ExecSys.Accounts (s : ExecSys) (ds : List PageDir) : Prop where
  frames : FramesInv s.pmm s.heap ds
  cr3 : ∃ d ∈ ds, d.frame = s.cr3
  kernel : ∃ d ∈ ds, d.frame = s.kernelDir
  current : ∀ i, s.current = some i → i < s.tasks.length

lemma LoadedAs.congr {phs : List Phdr} {m m' : Vm} (h : LoadedAs image phs m)
    (hmem : m'.mem = m.mem) (hdir : m'.dir = m.dir) : LoadedAs image phs m' := by
  have hb : ∀ addr, m'.byteAt addr = m.byteAt addr := by
    intro addr
    unfold Vm.byteAt Vm.page
    rw [hmem, hdir]
  refine ⟨fun addr ph hl => ?_, ?_, ?_⟩
  · rw [hb]
    exact h.bytes addr ph hl
  · rw [hdir]
    exact h.access
  · rw [hdir]
    exact h.writable

/-- A task has been made of the image, in an address space of its own. -/
structure Started (s s' : ExecSys) (ds : List PageDir) (image : List UInt8) (pid : ℤ)
    (t : ExecTask) : Prop where
  inv : FramesInv s'.pmm s'.heap (t.space.dir :: ds)
  top : s.pmm.SameTop s'.pmm
  tasks : s'.tasks = s.tasks ++ [t]
  pid : t.proc.pid = pid
  loaded : ∀ phs, programHeaders image = some phs →
    LoadedAs image (phs.filter Phdr.isLoad) { s'.toPhys with dir := t.space.dir }

/-- How the call goes on with an accepted image: the address space is torn down, lost, or a
task's. -/
inductive BufferOutcome (s : ExecSys) (e : ExecEnv) (ds : List PageDir) (image : List UInt8) :
    (Errno ⊕ ℤ) × ExecSys → Prop
  | cleaned (err : Errno) (s' : ExecSys) (hload : s.loadsBuffer e image = false)
      (hinv : FramesInv s'.pmm s'.heap ds) (htop : s.pmm.SameTop s'.pmm)
      (hheap : s'.heap = (kfree e.bufferReleased s.toPhys).heap)
      (hblocks : s'.blocks = s.blocks.erase e.buffer.addr) (hsame : s.SameTasks s') :
      BufferOutcome s e ds image (.inl err, s')
  | lost (d : PageDir) (s' : ExecSys) (hload : s.loadsBuffer e image = true)
      (hmem : ¬ (e.pcb.ok = true ∧ e.table.ok = true))
      (hinv : FramesInv s'.pmm s'.heap (d :: ds)) (htop : s.pmm.SameTop s'.pmm) :
      BufferOutcome s e ds image (.inl .fault, s')
  | started (pid : ℤ) (t : ExecTask) (s' : ExecSys) (h : Started s s' ds image pid t) :
      BufferOutcome s e ds image (.inr pid, s')

lemma loadBuffer_outcome (h : s.Accounts ds) (hok : elfValidateImage image = some .ok)
    (hr : s.loadBuffer e image = some r) : BufferOutcome s e ds image r := by
  have hcl := clonePageDirectory_inv (e := e.vm) (m := s.toPhys) h.frames
  have hch := clonePageDirectory_heap (e := e.vm) s.toPhys
  unfold loadBuffer at hr
  rcases hc : clonePageDirectory e.vm s.toPhys with ⟨_ | newPd, ph⟩
  · rw [hc] at hr hcl hch
    obtain rfl := Option.some.inj hr
    refine .cleaned .nomem _ (by simp [loadsBuffer, hc]) (.kfree hcl.1 _)
      (hch.top.trans (heapShrink_top _ _)) (kfree_heap hch.heap) rfl ⟨rfl, rfl⟩
  obtain ⟨phs, hps, ha⟩ := programHeaders_ok hok
  have hg := imageSegments_ok hok hps
  obtain ⟨gs, hgs⟩ : ∃ gs, gs = (phs.filter Phdr.isLoad).map (Phdr.toSegment image) := ⟨_, rfl⟩
  rw [← hgs] at hg
  rw [hc] at hr hcl hch
  rw [hg] at hr
  dsimp only [Option.bind_eq_bind, Option.bind_some] at hr
  have hl : s.loadsBuffer e image = (loadImage e.vm e.fillOk gs { ph with dir := newPd }).1 := by
    unfold loadsBuffer
    rw [hc, hg]
  have hs : LoadInv { ph with dir := newPd } ds :=
    ⟨hcl.1, fun f hf => absurd hf (by simp [hcl.2.2.2])⟩
  have hinv := (loadImage_inv e.vm e.fillOk gs hs).1
  have hheap := hch.trans (loadImage_heap (e := e.vm) e.fillOk gs { ph with dir := newPd })
  have hi : (loadImage e.vm e.fillOk gs _).1 = true → ImageLoaded gs _ :=
    loadImage_loaded e.fillOk hs
  generalize loadImage e.vm e.fillOk gs { ph with dir := newPd } = load at hr hl hinv hheap hi
  have hk := FramesInv.kfree (m := load.2.toPhys) hinv.inv e.bufferReleased
  by_cases hload : load.1 = true
  · rw [if_neg (by simp [hload])] at hr
    obtain ⟨s2, hs2⟩ : ∃ s2, s2 = ExecSys.kfree { s with toPhys := load.2.toPhys } e.buffer.addr
      e.bufferReleased := ⟨_, rfl⟩
    have hp : s2.toPhys = kfree e.bufferReleased load.2.toPhys := by rw [hs2]; rfl
    have ht : s.pmm.SameTop s2.pmm := by
      rw [hp]
      exact hheap.top.trans (heapShrink_top _ _)
    have hta : s2.tasks = s.tasks := by rw [hs2]; rfl
    have hcurrent : ∀ i, s2.current = some i → i < s2.tasks.length := by
      rw [hs2]
      exact h.current
    rw [← hs2] at hr
    rw [← hp] at hk
    rcases startTask_started hcurrent hr with ⟨s', hmem, heap⟩ |
      ⟨pid, t, s', heap, htasks, hpid, hdir⟩
    · exact .lost load.2.dir s' (hl.trans hload) hmem (heap.inv _ hk)
        (ht.trans heap.top)
    · have hmem := heap.mem
      rw [hp] at hmem
      refine .started pid t s' ⟨hdir ▸ heap.inv _ hk, ht.trans heap.top, hta ▸ htasks, hpid,
        fun phs' hp' => ?_⟩
      obtain rfl : phs = phs' := Option.some.inj (hps.symm.trans hp')
      subst hgs
      refine ((hi hload).loadedAs fun ph hph => ?_).congr ?_ hdir
      · obtain ⟨hmem, his⟩ := mem_filter.1 hph
        exact ha ph hmem his
      · exact hmem.trans (heapShrink_mem e.bufferReleased load.2.toPhys)
  · rw [if_pos (by simpa using hload)] at hr
    obtain rfl := Option.some.inj hr
    obtain ⟨d1, hd, hcr⟩ := h.cr3
    obtain ⟨d2, hd2, hke⟩ := h.kernel
    refine .cleaned .noexec _ (hl.trans (by simpa using hload)) (hk.cleanup ?_ ?_)
      ((hheap.top.trans (heapShrink_top _ _)).trans (cleanup_top _ _ _ _))
      (kfree_heap hheap.heap) rfl ⟨rfl, rfl⟩
    · exact hcr ▸ hinv.inv.frame_ne hd
    · exact hke ▸ hinv.inv.frame_ne hd2

inductive ExecOutcome (s : ExecSys) (e : ExecEnv) (filename : Name) (parentId : ℕ)
    (ds : List PageDir) : (Errno ⊕ ℤ) × ExecSys → Prop
  | refused (err : Errno) (heven : s.HeapEven e filename parentId)
      (hload : s.loadsImage e filename parentId = false) :
      ExecOutcome s e filename parentId ds (.inl err, s)
  | cleaned (err : Errno) (s' : ExecSys) (hload : s.loadsImage e filename parentId = false)
      (hfile : ∃ file, s.fileFor filename parentId = .ok file ∧ file.fileSize ≠ 0)
      (hinv : FramesInv s'.pmm s'.heap ds) (htop : s.pmm.SameTop s'.pmm)
      (hheap : s'.heap = (s.bufferHeap e).heap) (hblocks : s'.blocks = s.blocks)
      (hsame : s.SameTasks s') : ExecOutcome s e filename parentId ds (.inl err, s')
  | lost (d : PageDir) (s' : ExecSys) (hload : s.loadsImage e filename parentId = true)
      (hmem : ¬ (e.pcb.ok = true ∧ e.table.ok = true))
      (hinv : FramesInv s'.pmm s'.heap (d :: ds)) (htop : s.pmm.SameTop s'.pmm) :
      ExecOutcome s e filename parentId ds (.inl .fault, s')
  | started (pid : ℤ) (t : ExecTask) (s' : ExecSys) (image : List UInt8)
      (hbytes : e.read.bytes = some image) (hok : elfValidateImage image = some .ok)
      (h : Started s s' ds image pid t) :
      ExecOutcome s e filename parentId ds (.inr pid, s')

lemma buffered_heapOnly (s : ExecSys) (e : ExecEnv) :
    s.toPhys.HeapOnly (s.buffered e).toPhys :=
  ((Phys.HeapOnly.kmalloc e.buffer.toHeapUse s.toPhys).trans
    (.kmalloc ⟨true, e.read.taken⟩ _)).trans (.kfree e.read.released _)

lemma buffered_accounts (h : s.Accounts ds) : (s.buffered e).Accounts ds :=
  ⟨(buffered_heapOnly s e).inv ds h.frames, h.cr3, h.kernel, h.current⟩

lemma buffered_blocks (hb : e.buffer.ok = true) :
    (s.buffered e).blocks.erase e.buffer.addr = s.blocks := by
  simp [ExecSys.buffered, ExecSys.readFile, ExecSys.kmalloc, kmalloc, hb]

lemma failed_outcome (h : s.Accounts ds) (err : Errno) {file : VfsFile}
    (hfile : s.fileFor filename parentId = .ok file) (hs : file.fileSize ≠ 0)
    (hb : e.buffer.ok = true) (hload : s.loadsImage e filename parentId = false) :
    ExecOutcome s e filename parentId ds
      (.inl err, (s.buffered e).kfree e.buffer.addr e.bufferReleased) := by
  have hheap := (buffered_heapOnly s e).trans (.kfree e.bufferReleased _)
  refine .cleaned err _ hload ⟨file, hfile, hs⟩ (hheap.inv ds h.frames) hheap.top ?_
    (buffered_blocks hb) ⟨rfl, rfl⟩
  unfold bufferHeap
  rw [if_pos hb]
  rfl

/-- Each way out of `load_and_exec_elf`, with the frames it leaves. -/
lemma loadAndExecElf_outcome (h : s.Accounts ds)
    (hr : s.loadAndExecElf e filename parentId = some r) :
    ExecOutcome s e filename parentId ds r := by
  unfold ExecSys.loadAndExecElf at hr
  cases hfile : s.fileFor filename parentId with
  | error err =>
    rw [hfile] at hr
    obtain rfl := Option.some.inj hr
    exact .refused err (by simp [HeapEven, hfile]) (by simp [loadsImage, hfile])
  | ok file =>
    rw [hfile] at hr
    dsimp only at hr
    by_cases hs : file.fileSize = 0
    · rw [if_pos hs] at hr
      obtain rfl := Option.some.inj hr
      refine .refused .nomem (by simp [HeapEven, hfile, hs]) ?_
      unfold loadsImage
      rw [hfile]
      cases e.read.bytes <;> simp [hs]
    rw [if_neg hs] at hr
    by_cases hb : e.buffer.ok = true
    swap
    · rw [if_pos (by simp [hb])] at hr
      obtain rfl := Option.some.inj hr
      have hheap := Phys.HeapOnly.kmalloc e.buffer.toHeapUse s.toPhys
      refine .cleaned .nomem _ ?_ ⟨file, hfile, hs⟩ (hheap.inv ds h.frames) hheap.top ?_ ?_
        ⟨rfl, rfl⟩
      · unfold loadsImage
        rw [hfile]
        cases e.read.bytes <;> simp [hb]
      · unfold bufferHeap
        rw [if_neg hb]
      · simp [ExecSys.kmalloc, kmalloc, hb]
    rw [if_neg (by simp [hb])] at hr
    cases hbytes : e.read.bytes with
    | none =>
      rw [hbytes] at hr
      obtain rfl := Option.some.inj hr
      exact failed_outcome h .io hfile hs hb (by simp [loadsImage, hfile, hbytes])
    | some image =>
      rw [hbytes] at hr
      dsimp only at hr
      have hl : s.loadsImage e filename parentId =
          (decide (elfValidateImage image = some .ok) && (s.buffered e).loadsBuffer e image) := by
        simp [loadsImage, hfile, hbytes, hs, hb]
      by_cases hok : elfValidateImage image = some .ok
      · have hlo : ¬ image.length < sizeofEhdr := by
          intro hsh
          unfold elfValidateImage at hok
          rw [if_pos hsh] at hok
          exact absurd hok (by simp)
        rw [if_neg hlo, hok] at hr
        dsimp only [Option.bind_eq_bind, Option.bind_some] at hr
        rw [decide_eq_true hok, Bool.true_and] at hl
        have hpages := buffered_heapOnly s e
        rcases loadBuffer_outcome (buffered_accounts h) hok hr with
          ⟨err, s', hload, hinv, htop, hheap, hblocks, hsame⟩ | ⟨d, s', hload, hmem, hinv, htop⟩ |
          ⟨pid, t, s', hst⟩
        · refine .cleaned err s' (hl.trans hload) ⟨file, hfile, hs⟩ hinv
            (hpages.top.trans htop) ?_ (hblocks.trans (buffered_blocks hb))
            ⟨hsame.tasks, hsame.objs⟩
          unfold bufferHeap
          rw [if_pos hb]
          exact hheap
        · exact .lost d s' (hl.trans hload) hmem hinv (hpages.top.trans htop)
        · exact .started pid t s' image hbytes hok { hst with top := hpages.top.trans hst.top }
      · rw [decide_eq_false hok, Bool.false_and] at hl
        split_ifs at hr with hsh
        · obtain rfl := Option.some.inj hr
          exact failed_outcome h .io hfile hs hb hl
        · obtain ⟨verdict, hv⟩ := Option.isSome_iff_exists.1 (elfValidateImage_isSome image)
          rw [hv] at hr hok
          dsimp only [Option.bind_eq_bind, Option.bind_some] at hr
          rw [if_pos fun heq => hok (by rw [heq])] at hr
          obtain rfl := Option.some.inj hr
          exact failed_outcome h .noexec hfile hs hb hl

lemma FramesInv.owner {p : Pmm} {heap : List ℕ} {f : ℕ} (h : FramesInv p heap ds)
    (hp : p.Pool f) (hb : p.bitmap f = true) : f ∈ sysAll ds ∨ f ∈ heap ∨ f ∈ usrAll ds := by
  have hc := (h.holds.bits f hp).1 hb
  rw [h.holds.ledger.count f hp] at hc
  have hmem := Multiset.count_pos.1 (Nat.pos_of_ne_zero hc)
  simpa only [Multiset.mem_add, Multiset.mem_coe, or_assoc] using hmem

lemma FramesInv.allocated_of {p : Pmm} {heap : List ℕ} {f : ℕ} (h : FramesInv p heap ds)
    (hf : f ∈ sysAll ds ∨ f ∈ heap ∨ f ∈ usrAll ds) : p.bitmap f = true := by
  refine h.holds.allocated ?_
  simpa only [Multiset.mem_add, Multiset.mem_coe, or_assoc] using hf

lemma bitmap_eq_of_heap {p p' : Pmm} (h : FramesInv p heap ds)
    (h' : FramesInv p' heap' ds) (htop : p.SameTop p')
    (hheap : ∀ f, f ∈ heap' ↔ f ∈ heap) : p'.bitmap = p.bitmap := by
  funext f
  by_cases hl : f < pmmLowMemoryFrames
  · rw [h.holds.low f hl, h'.holds.low f hl]
  by_cases hc : p.framesCount ≤ f
  · exact htop.top f hc
  have hp : p.Pool f := ⟨not_lt.1 hl, not_le.1 hc⟩
  have hp' : p'.Pool f := ⟨not_lt.1 hl, htop.count ▸ not_le.1 hc⟩
  rw [Bool.eq_iff_iff]
  constructor
  · intro hb
    refine h.allocated_of ?_
    rw [← hheap f]
    exact h'.owner hp' hb
  · intro hb
    refine h'.allocated_of ?_
    rw [hheap f]
    exact h.owner hp hb

lemma not_bitmap_eq_of_lost {p p' : Pmm} {d : PageDir}
    (h : FramesInv p heap ds) (h' : FramesInv p' heap' (d :: ds)) (htop : p.SameTop p')
    (hheap : ∀ f, f ∈ heap' ↔ f ∈ heap) : p'.bitmap ≠ p.bitmap := by
  intro hb
  have ho : d.frame ∈ d.sysFrames := Multiset.mem_cons_self _ _
  have hsy : d.frame ∈ sysAll (d :: ds) := mem_sysAll mem_cons_self ho
  have hp : p.Pool d.frame := by
    have hp' := h'.holds.pool (Multiset.mem_add.2 (.inl (Multiset.mem_add.2 (.inl hsy))))
    exact ⟨hp'.1, htop.count ▸ hp'.2⟩
  have hbi := h'.allocated_of (.inl hsy)
  have hn := h'.holds.ledger.nodup
  rw [sysAll_cons, add_assoc, Multiset.nodup_add] at hn
  have hs := Multiset.disjoint_left.1 hn.2.2 ho
  rw [Multiset.mem_add, Multiset.mem_coe, not_or] at hs
  rw [hb] at hbi
  rcases h.owner hp hbi with hmem | hmem | hmem
  · exact hs.1 hmem
  · exact hs.2 ((hheap _).2 hmem)
  · refine h'.apart hsy ?_
    exact Multiset.mem_add.2 (.inr hmem)

end Outcome

section Calls

variable {s s' : ExecSys} {e : ExecEnv} {ds : List PageDir} {filename : Name} {parentId : ℕ}

/-- A program that was started is its image, and every frame taken for it is in use. The reads stay
inside the file. -/
theorem loadAndExecElf_faithful {pid : ℤ} (h : s.Accounts ds)
    (hrun : s.loadAndExecElf e filename parentId = some (.inr pid, s')) :
    (∀ image, (elfValidateImage image).isSome = true ∧
      (elfValidateImage image = some .ok → (imageSegments image).isSome = true)) ∧
    ∃ image phs t, e.read.bytes = some image ∧ elfValidateImage image = some .ok ∧
      programHeaders image = some phs ∧ s'.tasks = s.tasks ++ [t] ∧ t.proc.pid = pid ∧
      LoadedAs image (phs.filter Phdr.isLoad) { s'.toPhys with dir := t.space.dir } ∧
      ∀ f, s.pmm.bitmap f = false → s'.pmm.bitmap f = true →
        f ∈ s'.heap ∨ t.space.dir.Uses f := by
  refine ⟨fun image => ⟨elfValidateImage_isSome image, fun hok => ?_⟩, ?_⟩
  · obtain ⟨phs, hphs, -⟩ := programHeaders_ok hok
    rw [imageSegments_ok hok hphs]
    rfl
  cases loadAndExecElf_outcome h hrun with
  | started pid t s' image hbytes hok hst =>
    obtain ⟨phs, hphs, -⟩ := programHeaders_ok hok
    refine ⟨image, phs, t, hbytes, hok, hphs, hst.tasks, hst.pid, hst.loaded phs hphs,
      fun f hfree hbit => ?_⟩
    have hlow : pmmLowMemoryFrames ≤ f := by
      by_contra hlow
      rw [h.frames.holds.low f (not_le.1 hlow)] at hfree
      exact absurd hfree (by simp)
    have hcount : f < s.pmm.framesCount := by
      by_contra hcount
      rw [hst.top.top f (not_lt.1 hcount), hfree] at hbit
      exact absurd hbit (by simp)
    have hold : ¬ (f ∈ sysAll ds ∨ f ∈ s.heap ∨ f ∈ usrAll ds) := fun hmem => by
      rw [h.frames.allocated_of hmem] at hfree
      exact absurd hfree (by simp)
    rw [PageDir.uses_iff]
    have hnew := hst.inv.owner ⟨hlow, hst.top.count ▸ hcount⟩ hbit
    rw [sysAll_cons, usrAll_cons, Multiset.mem_add, Multiset.mem_add] at hnew
    tauto

/-- A call that fails gives everything back exactly when the heap returns its pages and no address
space is loaded when `create_process` fails. -/
theorem loadAndExecElf_givesBack_iff {err : Errno} (h : s.Accounts ds)
    (hrun : s.loadAndExecElf e filename parentId = some (.inl err, s')) :
    GivenBack s s' ↔ s.HeapEven e filename parentId ∧
      (s.loadsImage e filename parentId = true → e.pcb.ok = true ∧ e.table.ok = true) := by
  cases loadAndExecElf_outcome h hrun with
  | refused err heven hload =>
    refine ⟨fun _ => ⟨heven, fun hyes => ?_⟩, fun _ => ⟨rfl, fun _ => Iff.rfl, rfl, rfl, rfl⟩⟩
    exact absurd hyes (by simp [hload])
  | cleaned err s' hload hfile hinv htop hheap hblocks hsame =>
    obtain ⟨file, hfile, hsize⟩ := hfile
    have heven : s.HeapEven e filename parentId ↔ ∀ f, f ∈ s'.heap ↔ f ∈ s.heap := by
      unfold HeapEven
      rw [hfile, hheap]
      exact ⟨fun hall => hall hsize, fun hall _ => hall⟩
    rw [heven]
    constructor
    · exact fun hback => ⟨hback.pages, fun hyes => absurd hyes (by simp [hload])⟩
    · rintro ⟨hpages, -⟩
      exact ⟨bitmap_eq_of_heap h.frames hinv htop hpages, hpages, hblocks, hsame.tasks, hsame.objs⟩
  | lost d s' hload hmem hinv htop =>
    constructor
    · intro hback
      exact absurd hback.frames (not_bitmap_eq_of_lost h.frames hinv htop hback.pages)
    · rintro ⟨-, hyes⟩
      exact absurd (hyes hload) hmem

end Calls

def sampleImage : List UInt8 :=
  [0x7F, 0x45, 0x4C, 0x46, 1, 1, 1, 0, 0, 0, 0, 0, 0, 0, 0, 0] ++
  [2, 0, 3, 0, 1, 0, 0, 0, 0, 0, 0x40, 0, 52, 0, 0, 0] ++
  [0, 0, 0, 0, 0, 0, 0, 0, 52, 0, 32, 0, 1, 0, 0, 0, 0, 0, 0, 0] ++
  [1, 0, 0, 0, 84, 0, 0, 0, 0, 0, 0x40, 0, 0, 0, 0, 0] ++
  [1, 0, 0, 0, 2, 0, 0, 0, 7, 0, 0, 0, 0, 0, 0, 0, 0xC3]

def sampleVolume : Fs :=
  tinyFs.setEntry 1 { DirEntry.zero with filename := nameA, fileSize := 85, isUsed := 1 }

def sampleExec : ExecSys where
  toPhys := (bootMachine sampleBoot).toPhys
  secLevel := .normal
  tasks := [⟨firstProc 0, ⟨sampleBoot.dir, 0, 0⟩, replicate maxFdPerTask .unused⟩]
  zombies := []
  nextPid := 1
  current := some 0
  cr3 := 256
  kernelDir := 256
  objs := ⟨fun _ => ⟨false, 0, 0⟩, fun _ => none, sampleVolume, []⟩
  blocks := []

def sampleExecEnv (bytes : List UInt8) (pcbOk : Bool) : ExecEnv where
  vm := sampleEnv
  fillOk := fun _ => true
  buffer := ⟨⟨true, 0⟩, 1⟩
  read := ⟨some bytes, 0, 0⟩
  bufferReleased := 0
  pcb := ⟨⟨pcbOk, 0⟩, 2⟩
  table := ⟨⟨true, 0⟩, 3⟩
  pcbReleased := 0

lemma sampleExec_accounts : sampleExec.Accounts [sampleBoot.dir] where
  frames := (bootMachine_inv sampleBoot).frames
  cr3 := ⟨sampleBoot.dir, mem_singleton_self _, rfl⟩
  kernel := ⟨sampleBoot.dir, mem_singleton_self _, rfl⟩
  current := by
    intro i hi
    obtain rfl : i = 0 := by simpa [sampleExec] using hi.symm
    exact Nat.zero_lt_one

set_option maxRecDepth 10000 in
theorem loadAndExecElf_faithful_sample : ∃ s' t,
    sampleExec.loadAndExecElf (sampleExecEnv sampleImage true) nameA 0 = some (.inr 1, s') ∧
      s'.tasks = sampleExec.tasks ++ [t] ∧
      ∃ phs, LoadedAs sampleImage phs { s'.toPhys with dir := t.space.dir } := by
  have hres : (sampleExec.loadAndExecElf (sampleExecEnv sampleImage true) nameA 0).map Prod.fst =
      some (.inr 1) := by decide +kernel
  obtain ⟨r, hr, hone⟩ := Option.map_eq_some_iff.1 hres
  obtain ⟨_, s'⟩ := r
  obtain rfl := hone
  obtain ⟨-, image, phs, t, hbytes, -, -, htasks, -, hloaded, -⟩ :=
    loadAndExecElf_faithful sampleExec_accounts hr
  obtain rfl : sampleImage = image := Option.some.inj hbytes
  exact ⟨s', t, hr, htasks, _, hloaded⟩

/-- A file that is no program is refused, and leaves nothing behind. -/
theorem loadAndExecElf_givesBack_sample : ∃ s',
    sampleExec.loadAndExecElf (sampleExecEnv [] true) nameA 0 = some (.inl .io, s') ∧
      GivenBack sampleExec s' := by
  have hres : (sampleExec.loadAndExecElf (sampleExecEnv [] true) nameA 0).map Prod.fst =
      some (.inl .io) := by decide +kernel
  obtain ⟨r, hr, hone⟩ := Option.map_eq_some_iff.1 hres
  obtain ⟨_, s'⟩ := r
  obtain rfl := hone
  refine ⟨s', hr, (loadAndExecElf_givesBack_iff sampleExec_accounts hr).2 ⟨?_, fun _ => ⟨rfl, rfl⟩⟩⟩
  unfold HeapEven
  split
  · trivial
  · exact fun _ _ => Iff.rfl

set_option maxRecDepth 10000 in
/-- The program is loaded, there is no memory for its task, and its directory stays allocated. -/
theorem loadAndExecElf_loses_space : ∃ s',
    sampleExec.loadAndExecElf (sampleExecEnv sampleImage false) nameA 0 = some (.inl .fault, s') ∧
      sampleExec.pmm.bitmap 259 = false ∧ s'.pmm.bitmap 259 = true ∧ ¬ GivenBack sampleExec s' := by
  have hres : (sampleExec.loadAndExecElf (sampleExecEnv sampleImage false) nameA 0).map
      (fun r => (r.1, r.2.pmm.bitmap 259)) = some (.inl .fault, true) := by decide +kernel
  have hfree : sampleExec.pmm.bitmap 259 = false := by decide
  obtain ⟨⟨_, s'⟩, hr, hpair⟩ := Option.map_eq_some_iff.1 hres
  obtain ⟨rfl, hbit⟩ := Prod.mk.inj hpair
  refine ⟨s', hr, hfree, hbit, fun hback => ?_⟩
  rw [hback.frames, hfree] at hbit
  exact absurd hbit (by simp)

end EsdumanOS
