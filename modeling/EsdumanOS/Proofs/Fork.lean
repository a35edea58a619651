import EsdumanOS.Proofs.Frames

/-!
# Sharing and tearing down address spaces

`copy_user_space` takes a reference for every page, installs it in the clone, and gives back what it
could not place; `cleanup_process_memory` drops every entry and table. Both keep `FramesInv` for all
directories.
-/

namespace EsdumanOS

open Lib List PageDir

section Heap

variable {m : Phys} {sys usr : Multiset ℕ} {ds : List PageDir}

lemma heapGrow_mem : ∀ (n : ℕ) (ph : Phys), (heapGrow n ph).mem = ph.mem
  | 0, _ => rfl
  | n + 1, ph => by
    unfold heapGrow
    rcases pmmAllocFrame ph.pmm with ⟨_ | f, p⟩
    · rfl
    · exact heapGrow_mem n _

lemma heapShrink_mem : ∀ (n : ℕ) (ph : Phys), (heapShrink n ph).mem = ph.mem
  | 0, _ => rfl
  | n + 1, ph => by
    unfold heapShrink
    rcases ph.heap with _ | ⟨f, heap⟩
    · rfl
    · exact heapShrink_mem n _

lemma heapGrow_holds : ∀ (n : ℕ) {m : Phys}, m.pmm.Holds (sys + m.heap) usr →
    (heapGrow n m).pmm.Holds (sys + (heapGrow n m).heap) usr
  | 0, _, h => h
  | n + 1, m, h => by
    unfold heapGrow
    rcases halloc : pmmAllocFrame m.pmm with ⟨_ | f, p⟩
    · exact h.alloc_none halloc
    · have hp := h.alloc_sys halloc
      rw [← Multiset.add_cons, Multiset.cons_coe] at hp
      exact @heapGrow_holds n { m with pmm := p, heap := f :: m.heap } hp

lemma heapShrink_holds : ∀ (n : ℕ) {m : Phys}, m.pmm.Holds (sys + m.heap) usr →
    (heapShrink n m).pmm.Holds (sys + (heapShrink n m).heap) usr
  | 0, _, h => h
  | n + 1, m, h => by
    unfold heapShrink
    cases hheap : m.heap with
    | nil =>
      rw [hheap] at h
      rwa [hheap]
    | cons f heap =>
      rw [hheap, ← Multiset.cons_coe, Multiset.add_cons] at h
      exact @heapShrink_holds n { m with pmm := pmmFreeFrame m.pmm f, heap := heap } h.free_sys

lemma FramesInv.kmalloc (h : FramesInv m.pmm m.heap ds) (u : HeapUse) :
    FramesInv (kmalloc u m).2.pmm (kmalloc u m).2.heap ds :=
  { h with holds := heapGrow_holds u.pages h.holds }

lemma FramesInv.kfree (h : FramesInv m.pmm m.heap ds) (n : ℕ) :
    FramesInv (kfree n m).pmm (kfree n m).heap ds :=
  { h with holds := heapShrink_holds n h.holds }

end Heap

section Bulk

variable {p : Pmm} {sys usr : Multiset ℕ}

lemma Pmm.Holds.free_all : ∀ (fs : List ℕ) {p : Pmm}, p.Holds sys (fs + usr) →
    (fs.foldl pmmFreeFrame p).Holds sys usr
  | [], _, h => by simpa using h
  | f :: fs, p, h => by
    rw [← Multiset.cons_coe, Multiset.cons_add] at h
    exact free_all fs h.free_usr

lemma Pmm.Holds.ref_all : ∀ (fs : List ℕ) {p : Pmm} {usr : Multiset ℕ}, p.Holds sys usr →
    fs.Nodup → (∀ f ∈ fs, f ∈ usr ∧ usr.count f < 0xFF) →
    (fs.foldl pmmRefFrame p).Holds sys (fs + usr)
  | [], _, _, h, _, _ => by simpa using h
  | f :: fs, p, usr, h, hn, hi => by
    obtain ⟨hf, hn⟩ := nodup_cons.1 hn
    obtain ⟨hmem, hr⟩ := hi f mem_cons_self
    have hre := Pmm.Holds.ref_all fs (h.ref hmem hr) hn fun g hg => by
      obtain ⟨hg', hr'⟩ := hi g (mem_cons_of_mem f hg)
      have hne : g ≠ f := fun heq => hf (heq ▸ hg)
      exact ⟨Multiset.mem_cons_of_mem hg', by rwa [Multiset.count_cons_of_ne hne]⟩
    rwa [Multiset.add_cons, ← Multiset.cons_add, Multiset.cons_coe] at hre

end Bulk

section Share

variable {d : PageDir} {v w n : ℕ} {vs : List ℕ}

def sharedEntry (e : Pte) : Pte :=
  if e.flags.present then ⟨e.frame, sharedFlags e.flags⟩ else e

def PageDir.record (d : PageDir) (v : ℕ) : CopiedPage :=
  ⟨v, (d.lookup v).frame, sharedFlags (d.lookup v).flags⟩

def PageDir.shareOne (d : PageDir) (v : ℕ) : PageDir :=
  if (d.lookup v).flags.present = true ∧ (d.lookup v).flags.writable = true then
    d.setEntry v ⟨(d.lookup v).frame, sharedFlags (d.lookup v).flags⟩
  else d

lemma PageDir.shareOne_sets (d : PageDir) (v : ℕ) :
    Sets d v (sharedEntry (d.lookup v)) (d.shareOne v) := by
  unfold shareOne
  split_ifs with h
  · obtain ⟨t, ht⟩ := table_of_present h.1
    rw [sharedEntry, if_pos h.1]
    exact setEntry_sets ht
  · -- a page that is absent or read-only keeps its entry
    have hsame : sharedEntry (d.lookup v) = d.lookup v := by
      unfold sharedEntry
      split_ifs with hp
      · have hr : (d.lookup v).flags.writable = false := by
          by_contra hne
          exact h ⟨hp, by simpa using hne⟩
        simp [sharedFlags, hr]
      · rfl
    intro w
    rw [hsame]
    split_ifs with hw
    · rw [hw]
    · rfl

@[simp] lemma PageDir.shareOne_sysFrames : (d.shareOne v).sysFrames = d.sysFrames := by
  unfold shareOne
  split_ifs <;> simp

@[simp] lemma PageDir.shareOne_opened : (d.shareOne v).opened w = d.opened w := by
  unfold shareOne
  split_ifs <;> simp

lemma sharedEntry_present (e : Pte) : (sharedEntry e).flags.present = e.flags.present := by
  unfold sharedEntry sharedFlags
  split_ifs <;> rfl

lemma sharedEntry_frame (e : Pte) : (sharedEntry e).frame = e.frame := by
  unfold sharedEntry
  split_ifs <;> rfl

lemma sharePages_cons_present {p : Pmm} {pages : List CopiedPage} (hp : d.present v = true)
    (hn : pages.length < n) : sharePages n (v :: vs) (p, d, pages) =
      sharePages n vs (pmmRefFrame p (d.lookup v).frame, d.shareOne v, pages ++ [d.record v]) := by
  have hp' : (d.lookup v).flags.present = true := hp
  rw [sharePages, if_neg (by simp [hp']), if_neg (by omega)]
  simp [shareOne, record, hp']

/-- The first pass refers to every page that is present, and shares it. -/
lemma sharePages_eq : ∀ (vs : List ℕ) {p : Pmm} {d : PageDir} {pages : List CopiedPage},
    vs.Nodup → pages.length + vs.countP d.present ≤ n →
    sharePages n vs (p, d, pages) =
      (((vs.filter d.present).map fun v => (d.lookup v).frame).foldl pmmRefFrame p,
        vs.foldl shareOne d, pages ++ (vs.filter d.present).map d.record)
  | [], p, d, pages, _, _ => by simp [sharePages]
  | v :: vs, p, d, pages, hnd, hn => by
    obtain ⟨hv, hnd⟩ := nodup_cons.1 hnd
    have hsame : ∀ w ∈ vs, (d.shareOne v).lookup w = d.lookup w := fun w hw =>
      (d.shareOne_sets v).lookup_ne fun heq => hv (heq ▸ hw)
    have hpr : ∀ w ∈ vs, (d.shareOne v).present w = d.present w := fun w hw => by
      rw [present, hsame w hw, present]
    cases hp : d.present v with
    | false =>
      have ha : (d.lookup v).flags.present = false := hp
      have ho : d.shareOne v = d := by simp [shareOne, ha]
      rw [countP_cons_of_neg (by simp [hp])] at hn
      rw [sharePages, if_pos ha, sharePages_eq vs hnd hn, filter_cons_of_neg (by simp [hp]),
        foldl_cons, ho]
    | true =>
      rw [countP_cons_of_pos hp] at hn
      have hc : vs.countP (d.shareOne v).present = vs.countP d.present :=
        countP_congr fun w hw => by rw [hpr w hw]
      have hf : vs.filter (d.shareOne v).present = vs.filter d.present :=
        filter_congr fun w hw => hpr w hw
      rw [sharePages_cons_present hp (by omega), sharePages_eq vs hnd (by
          rw [hc, length_append, length_singleton]
          omega), hf, filter_cons_of_pos hp]
      have hmem : ∀ w ∈ vs.filter d.present, w ∈ vs := fun w hw => (mem_filter.1 hw).1
      rw [map_congr_left fun w hw => by rw [hsame w (hmem w hw)],
        map_congr_left (g := d.record) fun w hw => by
          rw [record, hsame w (hmem w hw), record]]
      simp

lemma shareAll_lookup : ∀ (vs : List ℕ) {d : PageDir}, vs.Nodup → ∀ w,
    (vs.foldl shareOne d).lookup w =
      if w ∈ vs then sharedEntry (d.lookup w) else d.lookup w
  | [], d, _, w => by simp
  | v :: vs, d, hn, w => by
    obtain ⟨hv, hn⟩ := nodup_cons.1 hn
    rw [foldl_cons, shareAll_lookup vs hn w, d.shareOne_sets v w]
    by_cases hw : w = v
    · subst hw
      simp [hv]
    · simp [hw]

lemma shareAll_same : ∀ (vs : List ℕ) {d : PageDir},
    (vs.foldl shareOne d).sysFrames = d.sysFrames ∧
      ∀ w, (vs.foldl shareOne d).opened w = d.opened w
  | [], _ => ⟨rfl, fun _ => rfl⟩
  | v :: vs, d => by
    obtain ⟨hs, ho⟩ := @shareAll_same vs (d.shareOne v)
    exact ⟨hs.trans shareOne_sysFrames, fun w => (ho w).trans shareOne_opened⟩

end Share

lemma Vm.SameElse.trans {m1 m2 m3 : Vm} (h : m1.SameElse m2) (h' : m2.SameElse m3) :
    m1.SameElse m3 :=
  ⟨h'.1.trans h.1, h'.2.1.trans h.2.1, h'.2.2.1.trans h.2.2.1,
    fun w hw => h'.2.2.2 w (h.2.2.2 w hw)⟩

def CopiedPage.Installable (d : PageDir) (c : CopiedPage) : Prop :=
  c.vaddr < userPages ∧ c.flags.present = true ∧ c.flags.user = true ∧ d.present c.vaddr = false

structure Installed (m : Vm) (done : List CopiedPage) (m' : Vm) : Prop where
  same : m.SameElse m'
  placed : ∀ c ∈ done, m'.dir.lookup c.vaddr = ⟨c.frame, c.flags⟩ ∧ m'.dir.opened c.vaddr = true
  kept : ∀ w, (∀ c ∈ done, c.vaddr ≠ w) → m'.dir.lookup w = m.dir.lookup w
  usr : m'.dir.usrFrames = (done.map CopiedPage.frame : List ℕ) + m.dir.usrFrames
  holds : ∀ {sys usr : Multiset ℕ}, m.pmm.Holds (m.dir.sysFrames + sys) usr →
    m'.pmm.Holds (m'.dir.sysFrames + sys) usr

lemma Installed.cons {m m1 m2 : Vm} {c : CopiedPage} {done : List CopiedPage}
    (h : Installed m [c] m1) (h' : Installed m1 done m2) (hne : ∀ c' ∈ done, c'.vaddr ≠ c.vaddr) :
    Installed m (c :: done) m2 where
  same := h.same.trans h'.same
  placed := by
    intro c' hc'
    rcases mem_cons.1 hc' with rfl | hc'
    · obtain ⟨hl, ho⟩ := h.placed c' mem_cons_self
      exact ⟨(h'.kept _ hne).trans hl, h'.same.2.2.2 _ ho⟩
    · exact h'.placed c' hc'
  kept := by
    intro w hw
    rw [h'.kept w fun c' hc' => hw c' (mem_cons_of_mem c hc')]
    exact h.kept w fun c' hc' => by
      rw [mem_singleton.1 hc']
      exact hw c mem_cons_self
  usr := by
    rw [h'.usr, h.usr, ← add_assoc, Multiset.coe_add]
    congr 1
    exact Multiset.coe_eq_coe.2 (perm_append_comm.trans (by simp))
  holds hh := h'.holds (h.holds hh)

lemma mapPage_installed {m : Vm} {c : CopiedPage} (hc : c.Installable m.dir)
    (hok : (mapPage m c.vaddr c.frame c.flags).1 = .ok) :
    Installed m [c] (mapPage m c.vaddr c.frame c.flags).2 := by
  obtain ⟨hv, hp, hu, ha⟩ := hc
  obtain ⟨hsame, ⟨hne, -⟩ | ⟨-, -, hs, ho⟩⟩ := mapPage_spec m c.vaddr c.frame c.flags
  · exact absurd hok hne
  · refine ⟨hsame, ?_, fun w hw => ?_, ?_, fun hh => mapPage_holds _ _ hv hh⟩
    · intro c' hc'
      rw [mem_singleton.1 hc']
      exact ⟨hs.lookup_self, ho hu⟩
    · exact hs.lookup_ne (Ne.symm (hw c mem_cons_self))
    · rw [hs.usr_present hv hp, usr_of_absent ha, map_singleton,
        Multiset.coe_singleton, Multiset.singleton_add]

/-- What is left over is what could not be mapped. -/
lemma installPages_spec : ∀ (cs : List CopiedPage) {m : Vm}, (cs.map CopiedPage.vaddr).Nodup →
    (∀ c ∈ cs, c.Installable m.dir) →
    ∃ done, cs = done ++ (installPages cs m).1 ∧ Installed m done (installPages cs m).2
  | [], m, _, _ => ⟨[], rfl, Vm.SameElse.refl m, by simp, fun _ _ => rfl, by simp [installPages],
      fun hh => hh⟩
  | c :: cs, m, hn, hcs => by
    obtain ⟨hc, hn⟩ := nodup_cons.1 hn
    have hne : ∀ c' ∈ cs, c'.vaddr ≠ c.vaddr := fun c' hc' heq =>
      hc (mem_map.2 ⟨c', hc', heq⟩)
    have hf := hcs c mem_cons_self
    by_cases hok : (mapPage m c.vaddr c.frame c.flags).1 = .ok
    · have ho := mapPage_installed hf hok
      obtain ⟨done, hs, hd⟩ := installPages_spec cs (m := (mapPage m c.vaddr c.frame
        c.flags).2) hn fun c' hc' => by
          obtain ⟨h1, h2, h3, h4⟩ := hcs c' (mem_cons_of_mem c hc')
          refine ⟨h1, h2, h3, ?_⟩
          rw [present, ho.kept _ fun c'' hc'' => by
            rw [mem_singleton.1 hc'']
            exact Ne.symm (hne c' hc')]
          exact h4
      have heq : installPages (c :: cs) m =
          installPages cs (mapPage m c.vaddr c.frame c.flags).2 := by
        rw [installPages]
        split
        next m' hm' => rw [hm']
        next r m' hno hm' => exact absurd (by rw [hm'] at hok; exact hok) hno
      rw [heq]
      refine ⟨c :: done, by rw [cons_append, ← hs], ho.cons hd fun c' hc' => ?_⟩
      exact hne c' (by rw [hs]; exact mem_append_left _ hc')
    · have heq : installPages (c :: cs) m =
          (c :: cs, (mapPage m c.vaddr c.frame c.flags).2) := by
        rw [installPages]
        split
        next m' hm' => exact absurd (by rw [hm']) hok
        next r m' hno hm' => rw [hm']
      obtain ⟨hsame, ⟨-, hl⟩ | ⟨hy, -⟩⟩ := mapPage_spec m c.vaddr c.frame c.flags
      · rw [heq]
        refine ⟨[], rfl, hsame, by simp, fun w _ => hl w, ?_, fun hh => mapPage_holds _ _ hf.1 hh⟩
        simp [usr_congr fun w _ => hl w]
      · exact absurd hy hok

end EsdumanOS
