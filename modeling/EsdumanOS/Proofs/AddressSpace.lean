import EsdumanOS.Proofs.Pages
import EsdumanOS.Proofs.Eager

/-!
# Exact address spaces over whole runs

A call of the program keeps its pages exactly what it has been granted; whatever else happens on the
machine leaves the same pages present. Both together carry `SpaceExact` through every run.
-/

namespace EsdumanOS

open Lib List Machine PageDir Finset CallExact

variable {op : MemOp} {length reserved : ℕ} {fillOk : ℕ → Bool}

section Call

variable {m m' : Vm} {ds : List PageDir} {t t₀ : Task} {maps : Finset ℕ} {e : VmEnv}
  {start first last n : ℕ}

lemma userMmapTop_le : userMmapTop ≤ userPages := by
  rw [userPages_eq]
  decide

lemma userMmapFloor_le : userMmapFloor ≤ userMmapTop := by
  decide

lemma CallExact.of_same {granted : Bool} (h : ∀ w < userPages, m'.page w = m.page w) :
    CallExact start granted m m' where
  outside v hv _ := h v hv
  refused _ := h
  zeroed v hv entry bytes hnone hsome := by
    rw [h v hv, hnone] at hsome
    exact absurd hsome (by simp)

lemma CallExact.of_adds (h : m.Adds m' first n) (hlo : start / pageSize ≤ first)
    (hhi : first + n ≤ userMmapTop) : CallExact start true m m' where
  outside v hv hout := h.kept v hv (by omega)
  refused hno := absurd hno (by simp)
  zeroed v hv entry bytes hnone hs := by
    by_cases hin : first ≤ v ∧ v < first + n
    · obtain ⟨frame, hp⟩ := h.added v hin.1 hin.2
      rw [hp, Option.some.injEq, Prod.mk.injEq] at hs
      exact fun j => (congrFun hs.2 j).symm
    · rw [h.kept v hv hin, hnone] at hs
      exact absurd hs (by simp)

lemma CallExact.of_drops (h : m.Drops m' first last) (hlo : start / pageSize ≤ first)
    (hhi : last ≤ userMmapTop) : CallExact start true m m' where
  outside v hv hout := by rw [h v, if_neg (by omega)]
  refused hno := absurd hno (by simp)
  zeroed v hv entry bytes hnone hsome := by
    rw [h v] at hsome
    rw [hnone] at hsome
    exact absurd hsome (by simp)

lemma Vm.Adds.present_iff (h : m.Adds m' first n) {v : ℕ} (hv : v < userPages) :
    m'.dir.present v = true ↔ (first ≤ v ∧ v < first + n) ∨ m.dir.present v = true := by
  by_cases hin : first ≤ v ∧ v < first + n
  · exact ⟨fun _ => .inl hin, fun _ => (h.added v hin.1 hin.2).present⟩
  · rw [present_of_page (h.kept v hv hin)]
    exact ⟨.inr, fun hp => hp.resolve_left hin⟩

lemma Vm.Drops.present_iff (h : m.Drops m' first last) {v : ℕ} :
    m'.dir.present v = true ↔ ¬ (first ≤ v ∧ v < last) ∧ m.dir.present v = true := by
  have hpa := h v
  by_cases hin : first ≤ v ∧ v < last
  · rw [if_pos hin, Vm.page_eq_none] at hpa
    simp [hpa, hin]
  · rw [if_neg hin] at hpa
    rw [present_of_page hpa]
    exact ⟨fun hp => ⟨hin, hp⟩, And.right⟩

lemma SpaceExact.of_present {t' : Task} (h : SpaceExact t₀ t maps)
    (hs : t'.brkStart = t.brkStart) (hcurrent : t'.brkCurrent = t.brkCurrent)
    (hp : ∀ v < userPages, t'.dir.present v = t.dir.present v) : SpaceExact t₀ t' maps := by
  have htop := userMmapTop_le
  have hf := userMmapFloor_le
  refine ⟨hs.trans h.start, ?_, ?_, ?_, fun v hlo hhi => ?_, h.region, fun v hlo hhi => ?_,
    fun v hv ho => ?_⟩
  · rw [hcurrent]
    exact h.aligned
  · rw [hs, hcurrent]
    exact h.lower
  · rw [hcurrent]
    exact h.upper
  · rw [hp v (by omega), hcurrent]
    exact h.heap v (hs ▸ hlo) hhi
  · rw [hp v (by omega)]
    exact h.maps v hlo hhi
  · rw [hp v hv]
    exact h.outside v hv (hs ▸ ho)

def Task.call (e : VmEnv) (m : Vm) (t : Task) : MemOp → ℕ × Vm
  | .brk ebx => (sysBrk e m t.brkStart t.brkCurrent ebx).2
  | .mmap length reserved => (t.brkCurrent, (sysMmap e m length reserved).2)
  | .munmap addr length => (t.brkCurrent, (sysMunmap m addr length).2)
  | _ => (t.brkCurrent, m)

def Task.after (e : VmEnv) (m : Vm) (t : Task) (op : MemOp) : Task :=
  { t with brkCurrent := (t.call e m op).1, dir := (t.call e m op).2.dir }

lemma mapsAfter_refused (h : t.granted e m op = false) :
    t.mapsAfter e m op maps = maps := by
  simp [Task.mapsAfter, h]

lemma mapsAfter_mmap (h : t.granted e m (.mmap length reserved) = true) :
    t.mapsAfter e m (.mmap length reserved) maps =
      maps ∪ Ico ((sysMmap e m length reserved).1 / pageSize)
        ((sysMmap e m length reserved).1 / pageSize + pagesFor length) := by
  simp [Task.mapsAfter, h]

lemma mapsAfter_munmap {addr length : ℕ} (h : t.granted e m (.munmap addr length) = true) :
    t.mapsAfter e m (.munmap addr length) maps =
      maps \ Ico (addr / pageSize) (addr / pageSize + pagesFor length) := by
  simp [Task.mapsAfter, h]

variable (h : m.Inv ds) (hdir : m.dir = t.dir) (hx : SpaceExact t₀ t maps)

include h hdir hx

lemma brk_exact {ebx : ℕ} (he : ebx < 2 ^ 32) (hlw : t.brkStart = 0 ∨ 0x400000 ≤ t.brkStart) :
    SpaceExact t₀ (t.after e m (.brk ebx)) maps ∧
      CallExact t.brkStart (t.granted e m (.brk ebx)) m (t.call e m (.brk ebx)).2 := by
  have htop := userMmapTop_le
  have hf := userMmapFloor_le
  have hheap := hx.heap
  rw [← hdir] at hheap
  have ha := hx.aligned
  have hl := hx.lower
  have hu := hx.upper
  have hbrk := sysBrk_spec e h he hlw ha hl fun w hlo hhi => by
    rw [Vm.page_eq_none, ← Bool.not_eq_true, hheap w (by unfold pageSize at *; omega) hhi]
    omega
  unfold Task.after Task.granted
  dsimp only [Task.call]
  generalize sysBrk e m t.brkStart t.brkCurrent ebx = r at hbrk ⊢
  obtain ⟨res, brk, m'⟩ := r
  cases hbrk with
  | stays hstays hpages =>
    refine ⟨hx.of_present rfl hstays fun v hv => ?_, of_same hpages⟩
    rw [← hdir]
    exact present_of_page (hpages v hv)
  | shrinks hres hmoved hlo hhi hpages =>
    subst hres hmoved
    have hd : pagesFor ebx * pageSize / pageSize = pagesFor ebx := Nat.mul_div_cancel _ (by decide)
    rw [decide_eq_true rfl]
    refine ⟨⟨hx.start, Nat.mul_mod_left _ _, hlo, hhi.le.trans hu, fun v hlv hh => ?_, hx.region,
      fun v hlv hh => ?_, fun v hv ho => ?_⟩, of_drops hpages ?_ ?_⟩
    · rw [hpages.present_iff, hheap v hlv hh, hd]
      unfold pageSize at *
      omega
    · rw [hpages.present_iff, hdir, hx.maps v hlv hh]
      refine ⟨And.right, fun hv => ⟨?_, hv⟩⟩
      unfold pageSize at *
      omega
    · dsimp only at ho ⊢
      rw [← hx.outside v hv ho, ← hdir]
      refine present_of_page ((hpages v).trans (if_neg ?_))
      unfold pageSize at *
      omega
    · unfold pageSize at *
      omega
    · unfold pageSize at *
      omega
  | grows hres hmoved hlo hhi hpages =>
    subst hres hmoved
    have hd : pagesFor ebx * pageSize / pageSize = pagesFor ebx := Nat.mul_div_cancel _ (by decide)
    have hsum : t.brkCurrent / pageSize + (pagesFor ebx - t.brkCurrent / pageSize) =
        pagesFor ebx := by
      unfold pageSize at *
      omega
    have hc : pagesFor ebx ≤ userMmapFloor := by
      unfold pageSize at *
      omega
    rw [decide_eq_true rfl]
    refine ⟨⟨hx.start, Nat.mul_mod_left _ _, hl.trans hlo.le, hhi, fun v hlv hh => ?_, hx.region,
      fun v hlv hh => ?_, fun v hv ho => ?_⟩, of_adds hpages ?_ (by omega)⟩
    · rw [hpages.present_iff (by omega), hheap v hlv hh, hd, hsum]
      omega
    · rw [hpages.present_iff (by omega), hdir, hx.maps v hlv hh, hsum]
      exact ⟨fun hv => hv.resolve_left (by omega), .inr⟩
    · dsimp only at ho ⊢
      rw [← hx.outside v hv ho, ← hdir]
      refine present_of_page (hpages.kept v hv ?_)
      unfold pageSize at *
      omega
    · unfold pageSize at *
      omega

lemma mmap_exact :
    SpaceExact t₀ (t.after e m (.mmap length reserved))
        (t.mapsAfter e m (.mmap length reserved) maps) ∧
      CallExact t.brkStart (t.granted e m (.mmap length reserved)) m
        (t.call e m (.mmap length reserved)).2 := by
  have htop := userMmapTop_le
  have hl := hx.lower
  have hu := hx.upper
  have hm : MmapSpec m length (sysMmap e m length reserved) := sysMmap_spec e h
  cases hm with
  | refused hres hpages =>
    have hn : t.granted e m (.mmap length reserved) = false := decide_eq_false (not_not.2 hres)
    rw [mapsAfter_refused hn]
    refine ⟨hx.of_present rfl rfl fun v hv => ?_, of_same hpages⟩
    rw [← hdir]
    exact present_of_page (hpages v hv)
  | mapped base hres hne hlo hhi hpages =>
    have hg : t.granted e m (.mmap length reserved) = true := decide_eq_true hne
    rw [mapsAfter_mmap hg, hg, hres, Nat.mul_div_cancel _ (by decide)]
    have hs : t.brkStart / pageSize ≤ userMmapFloor := by
      unfold pageSize at *
      omega
    refine ⟨⟨hx.start, hx.aligned, hl, hu, fun v hlv hh => ?_, ?_,
      fun v hlv hh => ?_, fun v hv ho => ?_⟩, of_adds hpages (by omega) hhi⟩
    · dsimp only [Task.after, Task.call] at hlv ⊢
      rw [hpages.present_iff (by omega), hdir, hx.heap v hlv hh]
      exact ⟨fun hv => hv.resolve_left (by omega), .inr⟩
    · refine union_subset hx.region fun v hv => ?_
      rw [mem_Ico] at hv ⊢
      omega
    · dsimp only [Task.after, Task.call]
      rw [hpages.present_iff (by omega), hdir, hx.maps v hlv hh, mem_union,
        mem_Ico, or_comm]
    · dsimp only [Task.after, Task.call] at ho ⊢
      rw [← hx.outside v hv ho, ← hdir]
      exact present_of_page (hpages.kept v hv (by omega))

omit h in
lemma munmap_exact {addr length : ℕ} (ha : addr < 2 ^ 32) (hl : length < 2 ^ 32) :
    SpaceExact t₀ (t.after e m (.munmap addr length))
        (t.mapsAfter e m (.munmap addr length) maps) ∧
      CallExact t.brkStart (t.granted e m (.munmap addr length)) m
        (t.call e m (.munmap addr length)).2 := by
  have hlw := hx.lower
  have hu := hx.upper
  have hm := sysMunmap_spec (m := m) ha hl
  cases hm with
  | refused hres hsame =>
    have hn : t.granted e m (.munmap addr length) = false := decide_eq_false hres
    rw [mapsAfter_refused hn]
    have hpages : ∀ w < userPages, (sysMunmap m addr length).2.page w = m.page w :=
      fun w _ => by rw [hsame]
    refine ⟨hx.of_present rfl rfl fun v hv => ?_, of_same hpages⟩
    rw [← hdir]
    exact present_of_page (hpages v hv)
  | unmapped hres hlo hhi hpages =>
    have hg : t.granted e m (.munmap addr length) = true := decide_eq_true hres
    rw [mapsAfter_munmap hg, hg]
    have hs : t.brkStart / pageSize ≤ userMmapFloor := by
      unfold pageSize at *
      omega
    refine ⟨⟨hx.start, hx.aligned, hlw, hu, fun v hlv hh => ?_, ?_,
      fun v hlv hh => ?_, fun v hv ho => ?_⟩, of_drops hpages (by omega) hhi⟩
    · dsimp only [Task.after, Task.call] at hlv ⊢
      rw [hpages.present_iff, hdir, hx.heap v hlv hh]
      exact ⟨And.right, fun hv => ⟨by omega, hv⟩⟩
    · exact sdiff_subset.trans hx.region
    · dsimp only [Task.after, Task.call]
      rw [hpages.present_iff, hdir, hx.maps v hlv hh, mem_sdiff, mem_Ico, and_comm]
    · dsimp only [Task.after, Task.call] at ho ⊢
      rw [← hx.outside v hv ho, ← hdir]
      exact present_of_page ((hpages v).trans (if_neg (by omega)))

/-- One case per call: the pages are exact after it, and it has done no more than it says. -/
lemma call_exact (hop : op.isSpaceCall = true) (hw : op.InWords)
    (hl : t.brkStart = 0 ∨ 0x400000 ≤ t.brkStart) :
    SpaceExact t₀ (t.after e m op) (t.mapsAfter e m op maps) ∧
      CallExact t.brkStart (t.granted e m op) m (t.call e m op).2 := by
  cases op with
  | brk ebx =>
    have hbrk := brk_exact (e := e) h hdir hx hw hl
    refine ⟨?_, hbrk.2⟩
    unfold Task.mapsAfter
    rw [ite_self]
    exact hbrk.1
  | mmap length reserved => exact mmap_exact h hdir hx
  | munmap addr length => exact munmap_exact hdir hx hw.1 hw.2
  | _ => exact absurd hop (by simp [MemOp.isSpaceCall])

end Call

section Machine

variable {s : Machine} {i j : ℕ} {t t' u : Task} {m : Vm} {ph : Phys} {e : VmEnv}

lemma Machine.put_task?_self (h : s.task? i = some t) :
    (s.put i m t').task? i = some { t' with dir := m.dir } := by
  obtain ⟨hi, -⟩ := List.getElem?_eq_some_iff.1 (task?_eq_some.1 h)
  exact task?_eq_some.2 (getElem?_set_self hi)

lemma Machine.put_task?_ne (h : j ≠ i) : (s.put j m t').task? i = s.task? i := by
  unfold task? put
  rw [getElem?_set_ne h]

lemma Machine.append_task? (h : i < s.tasks.length) : (s.append ph u).task? i = s.task? i := by
  unfold task? append
  rw [getElem?_append_left h]

lemma storeByte_dir (m : Vm) (addr : ℕ) (byte : UInt8) : (storeByte m addr byte).2.dir = m.dir := by
  unfold storeByte
  dsimp only
  split_ifs <;> rfl

lemma userWrite_present {ds : List PageDir} {addr : ℕ} {byte : UInt8} (h : m.Inv ds) (v : ℕ) :
    (userWrite e m addr byte).2.dir.present v = m.dir.present v := by
  unfold userWrite
  dsimp only
  split_ifs
  · rw [storeByte_dir]
  · have hs := cowHandleFault_spec e addr h
    generalize cowHandleFault e m addr = r at hs ⊢
    cases hs with
    | notCow _ => rfl
    | failed => rfl
    | resolved g _ hv hp _ _ hm =>
      rw [storeByte_dir]
      by_cases hw : v = addr / pageSize
      · rw [hw, hp, present, hm.sets.lookup_self]
        exact hp
      · rw [present, hm.sets.lookup_ne hw, present]
  · rfl

/-- A step of task `j` leaves task `i` the pages and the break it had, if it leaves it at all. -/
structure KeepsPages (i j : ℕ) (s s' : Machine) : Prop where
  slot : i < s'.tasks.length
  other : j ≠ i → s'.task? i = s.task? i
  same : ∀ t', s'.task? i = some t' → ∃ t, s.task? i = some t ∧ t'.brkStart = t.brkStart ∧
    t'.brkCurrent = t.brkCurrent ∧ ∀ v < userPages, t'.dir.present v = t.dir.present v

namespace KeepsPages

lemma of_eq {s' : Machine} (hi : i < s'.tasks.length) (h : s'.task? i = s.task? i) :
    KeepsPages i j s s' :=
  ⟨hi, fun _ => h, fun t' ht' => ⟨t', h ▸ ht', rfl, rfl, fun _ _ => rfl⟩⟩

lemma setPhys (hi : i < s.tasks.length) : KeepsPages i j s { s with toPhys := ph } :=
  of_eq hi rfl

lemma trans {s' s'' : Machine} (h : KeepsPages i j s s') (h' : KeepsPages i j s' s'') :
    KeepsPages i j s s'' := by
  refine ⟨h'.slot, fun hj => (h'.other hj).trans (h.other hj), fun t'' ht'' => ?_⟩
  obtain ⟨t', ht', hs', hc', hp'⟩ := h'.same t'' ht''
  obtain ⟨t, ht, hs, hcurrent, hp⟩ := h.same t' ht'
  exact ⟨t, ht, hs'.trans hs, hc'.trans hcurrent, fun v hv => (hp' v hv).trans (hp v hv)⟩

section

variable (hi : i < s.tasks.length)
include hi

lemma put (ht : s.task? j = some t)
    (hp : ∀ v < userPages, m.dir.present v = t.dir.present v) : KeepsPages i j s (s.put j m t) := by
  have hl : i < (s.put j m t).tasks.length := by
    unfold Machine.put
    simpa using hi
  by_cases hj : j = i
  · subst hj
    refine ⟨hl, fun hne => absurd rfl hne, fun t' ht' => ⟨t, ht, ?_⟩⟩
    rw [put_task?_self ht] at ht'
    obtain rfl := Option.some.inj ht'
    exact ⟨rfl, rfl, hp⟩
  · exact of_eq hl (put_task?_ne hj)

lemma append : KeepsPages i j s (s.append ph u) := by
  refine of_eq ?_ (append_task? hi)
  unfold Machine.append
  rw [length_append]
  omega

lemma exitTask : KeepsPages i j s (exitTask e s j t) := by
  unfold EsdumanOS.exitTask
  split_ifs with hj
  · exact of_eq hi rfl
  by_cases hji : j = i
  · refine ⟨by simpa using hi, fun hne => absurd hji hne, fun t' ht' => ?_⟩
    have hg := task?_eq_some.1 ht'
    rw [hji, getElem?_set_self hi] at hg
    exact absurd hg (by simp)
  · refine of_eq (by simpa using hi) ?_
    unfold task?
    rw [getElem?_set_ne hji]

lemma startProgram {gs : List Segment} :
    KeepsPages i j s (startProgram e fillOk gs s t) := by
  unfold EsdumanOS.startProgram
  split_ifs
  · exact of_eq hi rfl
  · rcases clonePageDirectory e s.toPhys with ⟨_ | child, ph⟩
    · exact setPhys hi
    · dsimp only
      split_ifs
      · exact append hi
      · exact setPhys hi

lemma finishFork {r : Errno × Vm × PageDir}
    (ht : s.task? j = some t) (hvi : ∀ v < userPages, r.2.1.dir.view v = t.dir.view v) :
    KeepsPages i j s (finishFork e s j t r).2 := by
  have hpu : KeepsPages i j s (s.put j r.2.1 t) := put hi ht fun v hv => by
    have hv := hvi v hv
    unfold PageDir.view at hv
    cases hp : t.dir.present v <;> cases hp' : r.2.1.dir.present v <;> simp [hp, hp'] at hv ⊢
  unfold EsdumanOS.finishFork
  dsimp only
  split_ifs
  · exact hpu.trans (setPhys hpu.slot)
  · exact hpu.trans (setPhys hpu.slot)
  · exact hpu.trans (append hpu.slot)

end

lemma sysFork (h : MemInv s) (hi : i < s.tasks.length) (ht : s.task? j = some t) :
    KeepsPages i j s (sysFork e s j t).2 := by
  rcases h.sysFork_cases (e := e) ht with
    ⟨res, ph, -, -, -, heq⟩ | ⟨-, m, child, r, -, hdir, hc, heq⟩ <;> rw [heq]
  · exact setPhys hi
  · exact finishFork hi ht fun v hv => hdir ▸ hc.view v hv

lemma doWrite {kernelMode : Bool} {addr : ℕ} {byte : UInt8} (h : MemInv s)
    (hi : i < s.tasks.length) (ht : s.task? j = some t) :
    KeepsPages i j s (doWrite e s j t kernelMode addr byte).2 := by
  have hp : KeepsPages i j s (s.put j (userWrite e (s.vm t) addr byte).2 t) :=
    put hi ht fun v _ => userWrite_present (h.vm ht) v
  unfold EsdumanOS.doWrite
  dsimp only
  split_ifs
  · exact hp
  · exact hp.trans (exitTask hp.slot)

end KeepsPages

lemma memStep_call (ht : s.task? i = some t) (hop : op.isSpaceCall = true) :
    memStep s ⟨e, i, op⟩ =
      s.put i (t.call e (s.vm t) op).2 { t with brkCurrent := (t.call e (s.vm t) op).1 } := by
  unfold memStep
  rw [ht]
  cases op with
  | brk ebx => rfl
  | mmap length reserved => rfl
  | munmap addr length => rfl
  | _ => exact absurd hop (by simp [MemOp.isSpaceCall])

/-- A step that is not a call of task `i` for its own pages leaves it those it had. -/
lemma memStep_keeps {a : MemStep} (h : MemInv s) (hi : i < s.tasks.length)
    (hn : ¬ (a.task = i ∧ a.op.isSpaceCall = true)) : KeepsPages i a.task s (memStep s a) := by
  obtain ⟨e, j, op⟩ := a
  cases ht : s.task? j with
  | none =>
    refine .of_eq ?_ ?_ <;> simp [memStep, ht, hi]
  | some t =>
    by_cases hop : op.isSpaceCall = true
    · have hj : j ≠ i := fun hj => hn ⟨hj, hop⟩
      rw [memStep_call ht hop]
      refine .of_eq ?_ (put_task?_ne hj)
      unfold put
      simpa using hi
    unfold memStep
    rw [ht]
    cases op with
    | start fillOk image => exact .startProgram hi
    | fork => exact .sysFork h hi ht
    | write kernelMode addr byte => exact .doWrite h hi ht
    | exit => exact .exitTask hi
    | schedule => exact .of_eq hi rfl
    | kernelHeap taken released => exact .setPhys hi
    | _ => exact absurd rfl hop

end Machine

section Loaded

variable {e : VmEnv} {gs : List Segment}

lemma memStep_start {s : Machine} {j : ℕ} {t : Task} (ht : s.task? j = some t) :
    memStep s ⟨e, j, .start fillOk gs⟩ = startProgram e fillOk gs s t := by
  simp [memStep, ht]

lemma startProgram_unused {s : Machine} {t t' : Task} (h : MemInv s)
    (ht' : (startProgram e fillOk gs s t).task? s.tasks.length = some t')
    (hb : imageBreak gs ≤ userMmapFloor * pageSize) : t'.Unused := by
  have hn : ∀ ph, task? { s with toPhys := ph } s.tasks.length = none := fun ph => by
    simp [task?]
  have hcl := clonePageDirectory_inv (e := e) (m := s.toPhys) h.frames
  unfold startProgram at ht'
  split_ifs at ht'
  · exact absurd ht' (by simp [task?])
  rcases hc : clonePageDirectory e s.toPhys with ⟨_ | child, ph⟩
  · rw [hc] at ht'
    exact absurd ht' (by simp [hn])
  rw [hc] at ht' hcl
  obtain ⟨hinv, -, hz, husr⟩ := hcl
  have hload : LoadInv { ph with dir := child } s.dirs :=
    ⟨hinv, fun f hf => absurd hf (by simp [husr])⟩
  have ha := (loadImage_inv e fillOk gs hload).2
  dsimp only at ht'
  split_ifs at ht' with hok
  · have hgs := ha hok
    have hwi : (loadImage e fillOk gs { ph with dir := child }).2.Within
        fun v => v < imageBreak gs / pageSize ∨ userMmapTop ≤ v := loadImage_within fillOk
      (fun w hw => absurd hw (by simp [present_of_zero hz w]))
      (fun g hg _ v hv => .inl (imageBreak_covers hgs g hg v hv)) fun v hv => .inr hv
    obtain rfl : ⟨(loadImage e fillOk gs { ph with dir := child }).2.dir, imageBreak gs,
        imageBreak gs⟩ = t' := by
      simpa [task?, append] using ht'
    refine ⟨Nat.mul_mod_left _ _, hb, rfl, fun v hlo hhi => ?_⟩
    by_contra hp
    have := hwi v (by simpa using hp)
    dsimp only at hlo this
    omega
  · exact absurd ht' (by simp [hn])

end Loaded

section Runs

variable {s : Machine} {i : ℕ} {t t₀ : Task} {maps : Finset ℕ} {a : MemStep}

/-- What a run carries: the machine is in order, and task `i`, if it is still there, is exact. -/
structure ExactInv (t₀ : Task) (i : ℕ) (s : Machine) (maps : Finset ℕ) : Prop where
  mem : MemInv s
  slot : i < s.tasks.length
  exact : ∀ t, s.task? i = some t → SpaceExact t₀ t maps

lemma ExactInv.call {e : VmEnv} (h : ExactInv t₀ i s maps) (ht : s.task? i = some t)
    (hop : op.isSpaceCall = true) (hw : op.InWords) :
    (memStep s ⟨e, i, op⟩).task? i = some (t.after e (s.vm t) op) ∧
      SpaceExact t₀ (t.after e (s.vm t) op) (t.mapsAfter e (s.vm t) op maps) ∧
      CallExact t₀.brkStart (t.granted e (s.vm t) op) (s.vm t)
        ((memStep s ⟨e, i, op⟩).vm (t.after e (s.vm t) op)) := by
  have hx := h.exact t ht
  have hl : t.brkStart = 0 ∨ 0x400000 ≤ t.brkStart := (h.mem.breakOk ht).imp_right And.left
  obtain ⟨hs, hc⟩ := call_exact (e := e) (h.mem.vm ht) rfl hx hop hw hl
  rw [memStep_call ht hop]
  refine ⟨put_task?_self ht, hs, ?_⟩
  rw [← hx.start]
  exact hc

lemma ExactInv.step (h : ExactInv t₀ i s maps) (hw : a.op.InWords) :
    ExactInv t₀ i (memStep s a) (mapsStep i s a maps) := by
  have hmem := memStep_inv a h.mem
  by_cases hc : a.task = i ∧ a.op.isSpaceCall = true
  · obtain ⟨e, j, op⟩ := a
    obtain ⟨rfl, hop⟩ := hc
    cases ht : s.task? j with
    | none =>
      have hse : memStep s ⟨e, j, op⟩ = s := by simp [memStep, ht]
      have hm : mapsStep j s ⟨e, j, op⟩ maps = maps := by simp [mapsStep, ht]
      rw [hse, hm]
      exact h
    | some t =>
      obtain ⟨hta, hs, -⟩ := h.call (e := e) ht hop hw
      refine ⟨hmem, ?_, fun t' ht' => ?_⟩
      · rw [memStep_call ht hop]
        unfold put
        simpa using h.slot
      · have hm : mapsStep j s ⟨e, j, op⟩ maps = t.mapsAfter e (s.vm t) op maps := by
          simp [mapsStep, ht]
        rw [hta] at ht'
        obtain rfl := Option.some.inj ht'
        rw [hm]
        exact hs
  · have hk := memStep_keeps h.mem h.slot hc
    have hm : mapsStep i s a maps = maps := by
      unfold mapsStep Task.mapsAfter
      cases s.task? i with
      | none => rfl
      | some t =>
        dsimp only
        split_ifs with hta hg
        · cases hop : a.op with
          | mmap length reserved => exact absurd ⟨hta, by rw [hop]; rfl⟩ hc
          | munmap addr length => exact absurd ⟨hta, by rw [hop]; rfl⟩ hc
          | _ => rfl
        · rfl
        · rfl
    refine ⟨hmem, hk.slot, fun t' ht' => ?_⟩
    obtain ⟨t, ht, hst, hcurrent, hp⟩ := hk.same t' ht'
    rw [hm]
    exact (h.exact t ht).of_present hst hcurrent hp

lemma ExactInv.run : ∀ (as : List MemStep) {s : Machine} {maps : Finset ℕ},
    ExactInv t₀ i s maps → (∀ a ∈ as, a.op.InWords) →
    ExactInv t₀ i (memRun s as) (mapsRun i s as maps)
  | [], _, _, h, _ => h
  | a :: as, _, _, h, hw =>
    .run as (h.step (hw a mem_cons_self)) fun a' ha' =>
      hw a' (mem_cons_of_mem a ha')

lemma Task.Unused.exact (h : t.Unused) : SpaceExact t t ∅ where
  start := rfl
  aligned := by
    rw [h.current]
    exact h.aligned
  lower := h.current.ge
  upper := by
    rw [h.current]
    exact h.below
  heap v hlo hhi := by
    rw [h.free v hlo (hhi.trans_le userMmapFloor_le), h.current]
    simp only [Bool.false_eq_true, false_iff]
    omega
  region := empty_subset _
  maps v hlo hhi := by
    have hb := h.below
    rw [h.free v (by unfold pageSize at *; omega) hhi]
    simp
  outside _ _ _ := rfl

lemma ExactInv.stays : ∀ (as : List MemStep) {s : Machine} {maps : Finset ℕ},
    ExactInv t₀ i s maps → (∀ a ∈ as, a.op.InWords) →
    (∀ a ∈ as, a.task = i → a.op.isSpaceCall = true) → (s.task? i).isSome →
    ((memRun s as).task? i).isSome
  | [], _, _, _, _, _, hs => hs
  | a :: as, _, _, h, hw, hc, hs => by
    have hwo := hw a mem_cons_self
    refine ExactInv.stays as (h.step hwo) (fun a' ha' => hw a' (mem_cons_of_mem a ha'))
      (fun a' ha' => hc a' (mem_cons_of_mem a ha')) ?_
    by_cases hj : a.task = i
    · obtain ⟨t, ht⟩ := Option.isSome_iff_exists.1 hs
      have hop := hc a mem_cons_self hj
      obtain ⟨e, j, op⟩ := a
      subst hj
      rw [(h.call ht hop hwo).1]
      rfl
    · rw [(memStep_keeps h.mem h.slot fun hn => hj hn.1).other hj]
      exact hs

/-- From a state in which task `i` is just loaded: its pages are what it has been granted, and a
call has its exact effect. -/
theorem memRun_spaceExact (b : Boot) (before as : List MemStep) (i : ℕ) (t₀ : Task)
    (ht₀ : (memRun (bootMachine b) before).task? i = some t₀) (hunused : t₀.Unused)
    (hwords : ∀ a ∈ as, a.op.InWords) :
    ((∀ a ∈ as, a.task = i → a.op.isSpaceCall = true) →
      ((memRun (memRun (bootMachine b) before) as).task? i).isSome) ∧
    ∀ t, (memRun (memRun (bootMachine b) before) as).task? i = some t →
      SpaceExact t₀ t (mapsRun i (memRun (bootMachine b) before) as ∅) ∧
      ∀ e op, op.isSpaceCall = true → op.InWords →
        ∃ t', (memStep (memRun (memRun (bootMachine b) before) as) ⟨e, i, op⟩).task? i = some t' ∧
          CallExact t₀.brkStart
            (t.granted e ((memRun (memRun (bootMachine b) before) as).vm t) op)
            ((memRun (memRun (bootMachine b) before) as).vm t)
            ((memStep (memRun (memRun (bootMachine b) before) as) ⟨e, i, op⟩).vm t') := by
  have hstart : ExactInv t₀ i (memRun (bootMachine b) before) ∅ := by
    refine ⟨memRun_inv before (bootMachine_inv b), ?_, fun t ht => ?_⟩
    · exact (List.getElem?_eq_some_iff.1 (task?_eq_some.1 ht₀)).1
    · rw [ht₀] at ht
      obtain rfl := Option.some.inj ht
      exact hunused.exact
  have hrun := hstart.run as hwords
  refine ⟨fun hcalls => hstart.stays as hwords hcalls (by rw [ht₀]; rfl), fun t ht =>
    ⟨hrun.exact t ht, fun e op hop hword => ?_⟩⟩
  obtain ⟨htask, -, hcall⟩ := hrun.call (e := e) ht hop hword
  exact ⟨_, htask, hcall⟩

def sampleCalls : List MemStep :=
  [⟨sampleEnv, 1, .brk 0x402800⟩, ⟨sampleEnv, 1, .mmap 5000 0⟩,
    ⟨sampleEnv, 1, .munmap (userMmapTop * pageSize - pageSize) 1⟩]

set_option maxRecDepth 10000 in
theorem memRun_spaceExact_sample : ∃ t₀ t,
    (memRun (bootMachine sampleBoot) sampleLoad).task? 1 = some t₀ ∧ t₀.Unused ∧
      (∀ a ∈ sampleCalls, a.op.InWords) ∧
      (memRun (memRun (bootMachine sampleBoot) sampleLoad) sampleCalls).task? 1 = some t ∧
      SpaceExact t₀ t (mapsRun 1 (memRun (bootMachine sampleBoot) sampleLoad) sampleCalls ∅) := by
  have hloaded : ((memRun (bootMachine sampleBoot) sampleLoad).task? 1).isSome = true := by
    decide +kernel
  obtain ⟨t₀, ht₀⟩ := Option.isSome_iff_exists.1 hloaded
  have hidle : (bootMachine sampleBoot).task? 0 = some ⟨sampleBoot.dir, 0, 0⟩ := rfl
  have hrun : memRun (bootMachine sampleBoot) sampleLoad = startProgram sampleEnv (fun _ => true)
      [sampleSegment] (bootMachine sampleBoot) ⟨sampleBoot.dir, 0, 0⟩ := by
    rw [← memStep_start hidle]
    simp only [memRun, sampleLoad, foldl_cons, foldl_nil]
  have hone : (bootMachine sampleBoot).tasks.length = 1 := rfl
  have hbreak : imageBreak [sampleSegment] ≤ userMmapFloor * pageSize := by decide
  have hstarted := ht₀
  rw [hrun, ← hone] at hstarted
  have hunused : t₀.Unused := startProgram_unused (bootMachine_inv sampleBoot) hstarted hbreak
  have hwords : ∀ a ∈ sampleCalls, a.op.InWords := by
    simp [sampleCalls, MemOp.InWords, userMmapTop, userStackGuard, userStackTop, userStackPages,
      pageSize]
  have hexact := memRun_spaceExact sampleBoot sampleLoad sampleCalls 1 t₀ ht₀ hunused hwords
  obtain ⟨t, ht⟩ := Option.isSome_iff_exists.1
    (hexact.1 (by simp [sampleCalls, MemOp.isSpaceCall]))
  exact ⟨t₀, t, ht₀, hunused, hwords, ht, (hexact.2 t ht).1⟩

end Runs

end EsdumanOS
