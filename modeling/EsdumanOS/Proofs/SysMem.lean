import EsdumanOS.UserMemory
import EsdumanOS.Proofs.Copy
import EsdumanOS.Proofs.Teardown

/-!
# Calls on one address space

`brk`, `mmap`, `munmap`, the fault handler and the loader work on the directory in CR3, beside the
directories `ds` of everybody else. Each keeps `FramesInv` for all of them.
-/

namespace EsdumanOS

open Lib Multiset PageDir

def Vm.Inv (m : Vm) (ds : List PageDir) : Prop :=
  FramesInv m.pmm m.heap (m.dir :: ds)

variable {m : Vm} {ds : List PageDir} {v frame : ℕ} {p : Pmm} {t : PageTable}

lemma FramesInv.relook {p p' : Pmm} {heap he' : List ℕ} {d d' : PageDir}
    (h : FramesInv p heap (d :: ds)) (hl : ∀ w, d'.lookup w = d.lookup w)
    (ho : ∀ w, d.opened w = true → d'.opened w = true)
    (hh : p'.Holds (sysAll (d' :: ds) + he') (usrAll (d :: ds))) :
    FramesInv p' he' (d' :: ds) := by
  have husr : d'.usrFrames = d.usrFrames := usr_congr fun w _ => hl w
  have hd := h.ok d List.mem_cons_self
  refine h.replace ?_ ⟨husr ▸ hd.once, fun w hw hp => ?_⟩ (fun f _ => by rw [husr])
    fun w hw hp hwr => ?_
  · rwa [usrAll_cons, husr, ← usrAll_cons]
  · rw [present, hl] at hp
    rw [hl]
    obtain ⟨hlo, hop, hu⟩ := hd.user w hw hp
    exact ⟨hlo, ho w hop, hu⟩
  · rw [present, hl] at hp
    rw [hl] at hwr ⊢
    rw [usrAll_cons, husr, ← usrAll_cons]
    exact h.sole d List.mem_cons_self w hw hp hwr

inductive FreshMap (m : Vm) (ds : List PageDir) (v frame : ℕ) (r : Errno × Vm) : Prop
  | refused (hne : r.1 ≠ .ok) (husr : r.2.dir.usrFrames = m.dir.usrFrames)
      (inv : FramesInv (pmmFreeFrame r.2.pmm frame) r.2.heap (r.2.dir :: ds))
  | mapped (hok : r.1 = .ok) (husr : r.2.dir.usrFrames = frame ::ₘ m.dir.usrFrames)
      (hfresh : frame ∉ usrAll ds) (inv : r.2.Inv ds)
      (sets : Sets m.dir v ⟨frame, pageUserAccess⟩ r.2.dir)

section

variable (h : m.Inv ds)
include h

section

variable (hv : v < userPages)
include hv

lemma mapPage_fresh (hlo : 1024 ≤ v)
    (ha : pmmAllocFrame m.pmm = (some frame, p)) :
    FreshMap m ds v frame (mapPage { m with pmm := p } v frame pageUserAccess) := by
  have hfresh := h.holds.alloc_fresh ha
  have hp := h.holds.alloc_usr ha
  rw [sysAll_cons, add_assoc] at hp
  have hm := mapPage_holds (m := { m with pmm := p }) frame pageUserAccess hv hp
  rw [← add_assoc, ← sysAll_cons] at hm
  obtain ⟨hsame, ⟨hne, hl⟩ | ⟨hok, hfr, hs, ho⟩⟩ :=
    mapPage_spec { m with pmm := p } v frame pageUserAccess
  · refine .refused hne (usr_congr fun w _ => hl w) (h.relook hl hsame.2.2.2 ?_)
    rw [show (mapPage { m with pmm := p } v frame pageUserAccess).2.heap = m.heap from hsame.2.1]
    exact hm.free_usr
  · have hn : frame ∉ usrAll (m.dir :: ds) := fun hf => hfresh (mem_add.2 (.inr hf))
    rw [usrAll_cons, mem_add, not_or] at hn
    have hab : m.dir.present v = false := by
      by_contra hpres
      rw [Bool.not_eq_false] at hpres
      exact hn.1 (hfr hpres ▸ mem_usrFrames hv hpres)
    have husr : (mapPage { m with pmm := p } v frame pageUserAccess).2.dir.usrFrames =
        frame ::ₘ m.dir.usrFrames := by
      rw [hs.usr_present hv rfl, usr_of_absent hab]
    have hof : frame ∉ heldOff userPages v m.dir.mapped := by
      rw [← usr_of_absent hab]
      exact hn.1
    refine .mapped hok husr hn.2 (h.setEntry hs hsame.2.2.2 hv ?_ fun _ => ?_) hs
    · rw [show (mapPage { m with pmm := p } v frame pageUserAccess).2.heap = m.heap from hsame.2.1,
        usrAll_cons, husr, cons_add, ← usrAll_cons]
      exact hm
    · refine ⟨hlo, ho rfl, rfl, hof, fun hf => absurd hf hn.2, fun _ => ?_⟩
      rw [usrAll_cons, husr, count_add, count_cons_self,
        count_eq_zero.2 hn.1, count_eq_zero.2 hn.2]

lemma Vm.Inv.cleared {p : Pmm} (ht : m.dir.tables (v / 1024) = some t)
    (hp : p.Holds (sysAll (m.dir :: ds) + m.heap) (heldOff userPages v m.dir.mapped + usrAll ds)) :
    (unmapPage { m with pmm := p } v).Inv ds := by
  have hs : Sets m.dir v .zero (m.dir.setEntry v .zero) := setEntry_sets ht
  refine .setEntry h hs (fun w hw => setEntry_opened.trans hw) hv ?_
    fun he => absurd he (by decide)
  show p.Holds (sysAll (m.dir.setEntry v .zero :: ds) + m.heap)
    (usrAll (m.dir.setEntry v .zero :: ds))
  rwa [sysAll_cons, setEntry_sysFrames, ← sysAll_cons, usrAll_cons, hs.usr_absent rfl]

lemma Vm.Inv.clear (hp : m.dir.present v = true) :
    (unmapPage { m with pmm := pmmFreeFrame m.pmm (m.dir.lookup v).frame } v).Inv ds := by
  obtain ⟨t, ht⟩ := table_of_present hp
  have hh := h.holds
  rw [usrAll_cons, usr_of_present hv hp, cons_add] at hh
  exact h.cleared hv ht hh.free_usr

lemma Vm.Inv.clear_absent (hp : m.dir.present v = false) :
    (unmapPage m v).Inv ds := by
  cases ht : m.dir.tables (v / 1024) with
  | none =>
    show FramesInv m.pmm m.heap (m.dir.setEntry v .zero :: ds)
    rw [setEntry_of_none ht]
    exact h
  | some t =>
    have hh := h.holds
    rw [usrAll_cons, usr_of_absent hp] at hh
    exact h.cleared hv ht hh

lemma releasePage_inv : (releasePage m v).Inv ds := by
  unfold releasePage
  split
  · exact h
  · split_ifs with hp
    · exact h.clear hv hp
    · exact h.clear_absent hv (by simpa using hp)

end

lemma releaseUserRange_inv {first last : ℕ} (hl : last ≤ userPages) :
    (releaseUserRange m first last).Inv ds := by
  have hs : ∀ m : Vm, ∀ w ∈ List.range' first (last - first), m.Inv ds →
      (releasePage m w).Inv ds := by
    intro m w hw hm
    obtain ⟨i, hi, rfl⟩ := List.mem_range'.1 hw
    exact releasePage_inv hm (by omega)
  exact foldl_invariant_mem _ hs h

end

section Grow

variable {e : VmEnv}

lemma Vm.Inv.alloc_none (h : m.Inv ds) (ha : pmmAllocFrame m.pmm = (none, p)) :
    Vm.Inv { m with pmm := p } ds :=
  { h with holds := h.holds.alloc_none ha }

lemma mapZeroedPage_inv (copyOk : Bool) (h : m.Inv ds) (hv : v < userPages) (hl : 1024 ≤ v) :
    (mapZeroedPage copyOk m v).2.Inv ds := by
  unfold mapZeroedPage
  rcases ha : pmmAllocFrame m.pmm with ⟨_ | frame, p⟩
  · exact h.alloc_none ha
  · dsimp only
    rcases mapPage_fresh h hv hl ha with ⟨hne, -, hinv⟩ | ⟨hok, -, -, hinv, hs⟩
    · rw [if_pos hne]
      exact hinv
    · rw [if_neg (not_not.2 hok)]
      split_ifs
      · exact hinv
      · have hp : (mapPage { m with pmm := p } v frame pageUserAccess).2.dir.present v = true := by
          rw [present, hs.lookup_self]
          rfl
        have hc := hinv.clear hv hp
        rwa [hs.lookup_self] at hc

lemma growRange_inv : ∀ (n : ℕ) {v : ℕ} {m : Vm}, m.Inv ds → 1024 ≤ v → v + n ≤ userPages →
    (growRange e n v m).2.Inv ds ∧ ∀ page, (growRange e n v m).1 = some page → page < v + n
  | 0, _, _, h, _, _ => ⟨h, by simp [growRange]⟩
  | n + 1, v, m, h, hl, hv => by
    have ho := mapZeroedPage_inv (e.copyOk v) h (by omega) hl
    unfold growRange
    dsimp only
    split_ifs
    · obtain ⟨hinv, hpa⟩ := growRange_inv n (v := v + 1) ho (by omega) (by omega)
      exact ⟨hinv, fun page hp => by have := hpa page hp; omega⟩
    · refine ⟨ho, fun page hp => ?_⟩
      obtain rfl : v = page := by simpa using hp
      omega

lemma mapRange_inv {n : ℕ} (h : m.Inv ds) (hl : 1024 ≤ v) (hv : v + n ≤ userPages) :
    (mapRange e m v n).2.Inv ds := by
  obtain ⟨hinv, hpa⟩ := growRange_inv (e := e) n h hl hv
  unfold mapRange
  dsimp only
  split
  · exact hinv
  next page hp =>
    have := hpa page hp
    exact releaseUserRange_inv hinv (by omega)

lemma userPages_eq : userPages = 0xC0000 := by
  unfold userPages userTables
  rfl

lemma findFreeRun_spec (d : PageDir) (pages top : ℕ) :
    match findFreeRun d pages top with
    | some base => IsGreatest {b | FreeRun d pages top b} base
    | none => ∀ b, ¬ FreeRun d pages top b := by
  fun_induction findFreeRun d pages top with
  | case1 top htop hn =>
    refine ⟨⟨by omega, by omega, fun p hp => ?_⟩, fun b hb => ?_⟩
    · simpa using firstIdx_eq_none.1 hn p hp
    · have := hb.2.1
      omega
  | case2 top htop p hp ih =>
    obtain ⟨hused, hlt, -⟩ := firstIdx_eq_some.1 hp
    -- a run cannot have the page that is in use
    have hrun : ∀ b, FreeRun d pages top b ↔ FreeRun d pages (top - pages + p) b := by
      refine fun b => ⟨fun ⟨hf, ht, hfree⟩ => ⟨hf, ?_, hfree⟩, fun ⟨hf, ht, h⟩ => ⟨hf, by omega, h⟩⟩
      by_contra hover
      have := hfree (top - pages + p - b) (by omega)
      rw [show b + (top - pages + p - b) = top - pages + p by omega] at this
      simp [this] at hused
    simpa only [hrun] using ih
  | case3 top htop => exact fun b hb => htop (by have := hb.1; have := hb.2.1; omega)

/-- `find_free_run` returns the highest base of a free run, and none just when there is none. -/
theorem findFreeRun_highest (d : PageDir) (pages : ℕ) :
    (∀ base, findFreeRun d pages userMmapTop = some base ↔
      IsGreatest {b | FreeRun d pages userMmapTop b} base) ∧
    (findFreeRun d pages userMmapTop = none ↔ ∀ b, ¬ FreeRun d pages userMmapTop b) := by
  have h := findFreeRun_spec d pages userMmapTop
  generalize findFreeRun d pages userMmapTop = r at h ⊢
  rcases r with _ | base
  · simp only [reduceCtorEq, false_iff]
    exact ⟨fun base hb => h base hb.1, by simpa using h⟩
  · simp only [Option.some.injEq, reduceCtorEq, false_iff, not_forall, not_not]
    exact ⟨fun b => ⟨fun hb => hb ▸ h, h.unique⟩, base, h.1⟩

lemma findFreeRun_run {d : PageDir} {pages base : ℕ}
    (h : findFreeRun d pages userMmapTop = some base) : FreeRun d pages userMmapTop base := by
  have hs := findFreeRun_spec d pages userMmapTop
  rw [h] at hs
  exact hs.1

lemma sysBrk_inv {brkStart brkCurrent : ℕ} (e : VmEnv) (ebx : ℕ) (h : m.Inv ds)
    (hbrk : brkStart = 0 ∨ 0x400000 ≤ brkStart ∧ brkStart ≤ brkCurrent ∧
      brkCurrent ≤ 0xC0000000) :
    (sysBrk e m brkStart brkCurrent ebx).2.2.Inv ds ∧
      (brkStart = 0 ∨ 0x400000 ≤ brkStart ∧ brkStart ≤ (sysBrk e m brkStart brkCurrent ebx).2.1 ∧
        (sysBrk e m brkStart brkCurrent ebx).2.1 ≤ 0xC0000000) := by
  have hpages := userPages_eq
  unfold sysBrk
  dsimp only
  split_ifs with hz hr hsame hs hg
  · exact ⟨h, .inl hz⟩
  · exact ⟨h, hbrk⟩
  · exact ⟨h, hbrk⟩
  · obtain ⟨hl, hle, htop⟩ := hbrk.resolve_left hz
    simp only [userMmapFloor, pageSize] at hr ⊢
    exact ⟨releaseUserRange_inv h (by omega), .inr ⟨hl, by omega, by omega⟩⟩
  · obtain ⟨hl, hle, htop⟩ := hbrk.resolve_left hz
    simp only [userMmapFloor, pageSize] at hr ⊢
    exact ⟨mapRange_inv h (by omega) (by omega), .inr ⟨hl, by omega, by omega⟩⟩
  · obtain ⟨hl, hle, htop⟩ := hbrk.resolve_left hz
    simp only [userMmapFloor, pageSize] at hr ⊢
    exact ⟨mapRange_inv h (by omega) (by omega), .inr ⟨hl, hle, htop⟩⟩

lemma sysMmap_inv {length reserved : ℕ} (h : m.Inv ds) :
    (sysMmap e m length reserved).2.Inv ds := by
  have hpages := userPages_eq
  unfold sysMmap
  dsimp only
  split_ifs with hz hres hl
  · exact h
  · exact h
  · exact h
  · cases hr : findFreeRun m.dir ((length + pageSize - 1) / pageSize) userMmapTop with
    | none => exact h
    | some base =>
      obtain ⟨hf, htop, -⟩ := findFreeRun_run hr
      have hinv : (mapRange e m base ((length + pageSize - 1) / pageSize)).2.Inv ds := by
        simp only [userMmapFloor, userMmapTop, userStackGuard, userStackTop, userStackPages,
          pageSize] at hf htop ⊢
        exact mapRange_inv h (by omega) (by omega)
      dsimp only
      split_ifs
      · exact hinv
      · exact hinv

lemma sysMunmap_inv {addr length : ℕ} (h : m.Inv ds) : (sysMunmap m addr length).2.Inv ds := by
  have hpages := userPages_eq
  unfold sysMunmap
  dsimp only
  split_ifs with hb hw hr
  · exact h
  · exact h
  · exact h
  · simp only [userMmapTop, userStackGuard, userStackTop, userStackPages, pageSize] at hr ⊢
    exact releaseUserRange_inv h (by omega)

end Grow

end EsdumanOS
