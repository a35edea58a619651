import EsdumanOS.Elf
import EsdumanOS.Proofs.Loader
import EsdumanOS.Proofs.Pages

/-!
# The pages of a program that is loaded

Each stage of the loader by what it does to the pages that are there already. The segments are
written one over the other, so the last that covers an address has its byte there; the stack comes
after them and takes no page that is in use.
-/

namespace EsdumanOS

open Lib List Vm Segment PageDir

variable {m m' : Vm} {ds : List PageDir} {v u addr : ℕ} {e : VmEnv} {g : Segment}
  {gs : List Segment} {copyOk : Bool} {us : List ℕ}

def Vm.Keeps (m m' : Vm) : Prop :=
  ∀ u < userPages, m.dir.present u = true → m'.page u = m.page u

lemma Vm.Keeps.refl (m : Vm) : m.Keeps m := fun _ _ _ => rfl

lemma Vm.Keeps.trans {m'' : Vm} (h : m.Keeps m') (h' : m'.Keeps m'') : m.Keeps m'' := by
  intro u hu hp
  have hsame := h u hu hp
  have hp' : m'.dir.present u = true := (present_of_page hsame).trans hp
  exact (h' u hu hp').trans hsame

def Vm.KeepsBytes (m m' : Vm) : Prop :=
  ∀ addr, addr / pageSize < userPages → m.dir.present (addr / pageSize) = true →
    m'.byteAt addr = m.byteAt addr

lemma Vm.Keeps.bytes (h : m.Keeps m') : m.KeepsBytes m' := by
  intro addr hu hp
  unfold byteAt
  rw [h _ hu hp]

lemma Vm.byteAt_isSome : (m.byteAt addr).isSome = m.dir.present (addr / pageSize) := by
  unfold byteAt page
  split_ifs with hp
  · simp [hp]
  · simpa using hp

lemma Vm.KeepsBytes.present (h : m.KeepsBytes m') (hv : v < userPages)
    (hp : m.dir.present v = true) : m'.dir.present v = true := by
  have hd : v * pageSize / pageSize = v := Nat.mul_div_cancel v (by decide)
  have hsame := h (v * pageSize) (by rwa [hd]) (by rwa [hd])
  rw [← hd, ← byteAt_isSome, hsame, byteAt_isSome, hd]
  exact hp

lemma Vm.KeepsBytes.trans {m'' : Vm} (h : m.KeepsBytes m') (h' : m'.KeepsBytes m'') :
    m.KeepsBytes m'' := by
  intro addr hu hp
  exact (h' addr hu (h.present hu hp)).trans (h addr hu hp)

lemma mapZeroedPage_absent (copyOk : Bool) (h : m.Inv ds) (hv : v < userPages)
    (hok : (mapZeroedPage copyOk m v).1 = .ok) : m.page v = none := by
  unfold mapZeroedPage at hok
  rcases ha : pmmAllocFrame m.pmm with ⟨_ | frame, p⟩
  · simp [ha] at hok
  · rw [ha] at hok
    dsimp only at hok
    have hfresh := h.holds.alloc_fresh ha
    obtain ⟨-, ⟨hne, -⟩ | ⟨-, hf, -⟩⟩ := mapPage_spec { m with pmm := p } v frame pageUserAccess
    · rw [if_pos hne] at hok
      exact absurd hok (by simp)
    · rw [page_eq_none]
      by_contra hp
      rw [Bool.not_eq_false] at hp
      refine hfresh (Multiset.mem_add.2 (.inr (mem_usrAll mem_cons_self ?_)))
      exact hf hp ▸ mem_usrFrames hv hp

lemma loadFreshPage_eq (hok : (loadFreshPage copyOk m v).1 = true) :
    mapZeroedPage true m v = (.ok, (loadFreshPage copyOk m v).2) := by
  unfold loadFreshPage at hok ⊢
  unfold mapZeroedPage
  rcases ha : pmmAllocFrame m.pmm with ⟨_ | frame, p⟩
  · simp [ha] at hok
  · rw [ha] at hok
    dsimp only at hok ⊢
    split_ifs at hok with hres hc
    rw [if_neg hres, if_neg hres, if_pos hc, if_pos rfl]

lemma loadFreshPage_keeps (h : LoadInv m ds) (hv : v < userPages)
    (hok : (loadFreshPage copyOk m v).1 = true) :
    m.Keeps (loadFreshPage copyOk m v).2 ∧ (loadFreshPage copyOk m v).2.dir.present v = true := by
  have heq := loadFreshPage_eq hok
  have ha := mapZeroedPage_absent true h.inv hv (by rw [heq])
  obtain ⟨hk, hz, -⟩ := mapZeroedPage_page true h.inv ha
  rw [heq] at hk hz
  refine ⟨fun u hu hp => hk u hu fun huv => ?_, (hz rfl).present⟩
  rw [page_eq_none, ← huv] at ha
  exact absurd hp (by simp [ha])

lemma loadLoop_keeps (copyOk : ℕ → Bool) : ∀ (pages : List ℕ) {m : Vm}, LoadInv m ds →
    (∀ v ∈ pages, 1024 ≤ v ∧ v < userPages) →
    (loadLoop (fun m page => loadFreshPage (copyOk page) m page) pages m).1 = true →
    m.Keeps (loadLoop (fun m page => loadFreshPage (copyOk page) m page) pages m).2
  | [], m, _, _, _ => .refl m
  | v :: pages, m, h, hpages, hok => by
    obtain ⟨hl, hv⟩ := hpages v mem_cons_self
    unfold loadLoop at hok ⊢
    dsimp only at hok ⊢
    split_ifs at hok ⊢ with ho
    exact (loadFreshPage_keeps h hv ho).1.trans (loadLoop_keeps copyOk pages
      (loadFreshPage_inv h hv hl) (fun w hw => hpages w (mem_cons_of_mem v hw)) hok)

lemma guardPage_keeps (h : LoadInv m ds) (hv : v < userPages) :
    m.Keeps (mapPage m v 0 pageAbsent).2 := by
  intro u hu hp
  obtain ⟨⟨hmem, -⟩, ⟨-, hl⟩ | ⟨-, hf, hs, -⟩⟩ := mapPage_spec m v 0 pageAbsent
  · exact page_congr (hl u) fun _ => congrFun hmem _
  · refine page_congr (hs.lookup_ne fun huv => ?_) fun _ => congrFun hmem _
    rw [huv, h.absent_of_zero hv hf] at hp
    exact absurd hp (by simp)

section Permissions

variable {w : Bool}

lemma setWritable_mem (w : Bool) (m : Vm) (v : ℕ) : (setWritable w m v).mem = m.mem := by
  unfold setWritable
  split_ifs <;> rfl

structure Vm.Marks (m m' : Vm) (w : Bool) (us : List ℕ) : Prop where
  mem : m'.mem = m.mem
  lookup : ∀ u, m'.dir.lookup u =
    if u ∈ us ∧ m.dir.present u = true then
      ⟨(m.dir.lookup u).frame, { (m.dir.lookup u).flags with writable := w }⟩
    else m.dir.lookup u

lemma Vm.Marks.present (h : m.Marks m' w us) (u : ℕ) :
    m'.dir.present u = m.dir.present u := by
  unfold PageDir.present
  rw [h.lookup]
  split_ifs <;> rfl

lemma Vm.Marks.frame (h : m.Marks m' w us) (u : ℕ) :
    (m'.dir.lookup u).frame = (m.dir.lookup u).frame := by
  rw [h.lookup]
  split_ifs <;> rfl

lemma Vm.Marks.bytes (h : m.Marks m' w us) : m'.byteAt addr = m.byteAt addr := by
  unfold byteAt page
  rw [h.present, h.frame, h.mem]
  split_ifs <;> rfl

lemma setWritable_marks (w : Bool) : ∀ (us : List ℕ) (m : Vm),
    m.Marks (us.foldl (setWritable w) m) w us
  | [], m => ⟨rfl, fun u => by rfl⟩
  | v :: us, m => by
    have hr := setWritable_marks w us (setWritable w m v)
    rw [foldl_cons]
    refine ⟨hr.mem.trans (setWritable_mem w m v), fun u => ?_⟩
    rw [hr.lookup, setWritable_present, setWritable_lookup]
    by_cases hp : m.dir.present u = true
    · split_ifs <;> simp_all
    · simp [hp]

def pagesWith (w : Bool) (gs : List Segment) : List ℕ :=
  (gs.filter fun g => decide (g.memsz ≠ 0) && (g.writable == w)).flatMap pages

lemma applyPermissions_marks (gs : List Segment) (m : Vm) :
    ∃ m1, m.Marks m1 false (pagesWith false gs) ∧
      m1.Marks (applyPermissions gs m) true (pagesWith true gs) := by
  have hp : ∀ (w : Bool) (m : Vm), m.Marks ((gs.filter fun g =>
      decide (g.memsz ≠ 0) && (g.writable == w)).foldl
        (fun m g => g.pages.foldl (setWritable w) m) m) w (pagesWith w gs) := by
    intro w m
    have hm := setWritable_marks w (pagesWith w gs) m
    unfold pagesWith at hm ⊢
    rwa [foldl_flatMap] at hm
  exact ⟨_, hp false m, hp true _⟩

lemma mem_pagesWith : u ∈ pagesWith w gs ↔
    ∃ g ∈ gs, g.memsz ≠ 0 ∧ g.writable = w ∧ u ∈ g.pages := by
  simp only [pagesWith, mem_flatMap, mem_filter, Bool.and_eq_true, decide_eq_true_eq, beq_iff_eq]
  constructor
  · rintro ⟨g, ⟨hg, hs, hw⟩, hu⟩
    exact ⟨g, hg, hs, hw, hu⟩
  · rintro ⟨g, hg, hs, hw, hu⟩
    exact ⟨g, ⟨hg, hs, hw⟩, hu⟩

lemma applyPermissions_bytes : (applyPermissions gs m).byteAt addr = m.byteAt addr := by
  obtain ⟨m1, hr, hw⟩ := applyPermissions_marks gs m
  exact hw.bytes.trans hr.bytes

lemma applyPermissions_present (gs : List Segment) (m : Vm) (u : ℕ) :
    (applyPermissions gs m).dir.present u = m.dir.present u := by
  obtain ⟨m1, hr, hw⟩ := applyPermissions_marks gs m
  exact (hw.present u).trans (hr.present u)

/-- A page is writable if one of the segments on it is. -/
lemma applyPermissions_writable (hp : m.dir.present u = true) (hg : g ∈ gs) (hs : g.memsz ≠ 0)
    (hu : u ∈ g.pages) : ((applyPermissions gs m).dir.lookup u).flags.writable = true ↔
      ∃ q ∈ gs, q.memsz ≠ 0 ∧ q.writable = true ∧ u ∈ q.pages := by
  obtain ⟨m1, hre, hwr⟩ := applyPermissions_marks gs m
  have hp1 : m1.dir.present u = true := (hre.present u).trans hp
  rw [hwr.lookup, ← mem_pagesWith]
  by_cases hw : u ∈ pagesWith true gs
  · simp [hw, hp1]
  · have hr : u ∈ pagesWith false gs := by
      refine mem_pagesWith.2 ⟨g, hg, hs, ?_, hu⟩
      by_contra hgw
      exact hw (mem_pagesWith.2 ⟨g, hg, hs, by simpa using hgw, hu⟩)
    simp only [hw, false_and, if_false, iff_false]
    rw [hre.lookup, if_pos ⟨hr, hp⟩]
    simp

end Permissions

lemma Segment.covers_iff : g.covers addr = true ↔ g.vaddr ≤ addr ∧ addr < g.vaddr + g.memsz := by
  simp [covers]

lemma Segment.mem_pages_of_covers (h : g.covers addr = true) : addr / pageSize ∈ g.pages := by
  obtain ⟨hlo, hhi⟩ := covers_iff.1 h
  unfold pages
  rw [mem_range'_1]
  unfold pageSize
  omega

lemma Segment.mem_pages (hs : g.memsz ≠ 0) :
    u ∈ g.pages ↔ ∃ addr, g.covers addr = true ∧ addr / pageSize = u := by
  constructor
  · intro hu
    unfold pages at hu
    rw [mem_range'_1] at hu
    refine ⟨max g.vaddr (u * pageSize), covers_iff.2 ⟨le_max_left _ _, ?_⟩, ?_⟩
    · unfold pageSize at *
      omega
    · unfold pageSize at *
      omega
  · rintro ⟨addr, hc, rfl⟩
    exact mem_pages_of_covers hc

lemma loadSegmentPage_keeps (h : LoadInv m ds) (hv : v < userPages)
    (hok : (loadSegmentPage copyOk m v).1 = true) :
    m.KeepsBytes (loadSegmentPage copyOk m v).2 ∧
      (loadSegmentPage copyOk m v).2.dir.present v = true := by
  unfold loadSegmentPage at hok ⊢
  split_ifs at hok ⊢ with hp
  · have hm := setWritable_marks true [v] m
    exact ⟨fun _ _ _ => hm.bytes, (hm.present v).trans hp⟩
  · obtain ⟨hk, hpr⟩ := loadFreshPage_keeps h hv hok
    exact ⟨hk.bytes, hpr⟩

lemma loadPages_keeps (copyOk : ℕ → Bool) : ∀ (pages : List ℕ) {m : Vm}, LoadInv m ds →
    (∀ v ∈ pages, 1024 ≤ v ∧ v < userPages) →
    (loadLoop (fun m page => loadSegmentPage (copyOk page) m page) pages m).1 = true →
    m.KeepsBytes (loadLoop (fun m page => loadSegmentPage (copyOk page) m page) pages m).2 ∧
      ∀ v ∈ pages, (loadLoop (fun m page => loadSegmentPage (copyOk page) m page) pages
        m).2.dir.present v = true
  | [], m, _, _, _ => ⟨fun _ _ _ => rfl, by simp⟩
  | v :: pages, m, h, hpages, hok => by
    obtain ⟨hl, hv⟩ := hpages v mem_cons_self
    unfold loadLoop at hok ⊢
    dsimp only at hok ⊢
    split_ifs at hok ⊢ with ho
    obtain ⟨hk, hp⟩ := loadSegmentPage_keeps h hv ho
    obtain ⟨hr, ha⟩ := loadPages_keeps copyOk pages ((loadInv_steps ds).segmentPage ⟨hl, hv⟩ h)
      (fun w hw => hpages w (mem_cons_of_mem v hw)) hok
    refine ⟨hk.trans hr, fun w hw => ?_⟩
    rcases mem_cons.1 hw with rfl | hw
    · exact hr.present hv hp
    · exact ha w hw

lemma PageDir.Ok.frame_inj {d : PageDir} (h : d.Ok) (hu : u < userPages) (hv : v < userPages)
    (hp : d.present u = true) (hpv : d.present v = true)
    (heq : (d.lookup u).frame = (d.lookup v).frame) : u = v := by
  refine held_nodup_inj h.once hu hv (mapped_of_present hp) ?_
  rw [mapped_of_present hpv, heq]

lemma fillPage_byteAt (h : m.dir.Ok) (hv : v < userPages) (hp : m.dir.present v = true)
    (ha : addr / pageSize < userPages) : (fillPage g m v).byteAt addr =
      if addr / pageSize = v ∧ g.covers addr = true then some (g.bytes addr)
      else m.byteAt addr := by
  have hpo : addr / pageSize * pageSize + addr % pageSize = addr := Nat.div_add_mod' addr pageSize
  unfold fillPage byteAt page
  by_cases hpa : m.dir.present (addr / pageSize) = true
  · rw [if_pos hpa, if_pos hpa]
    dsimp only [Option.map_some]
    by_cases hav : addr / pageSize = v
    · rw [hav, Function.update_self, ← hav, hpo]
      simp only [covers_iff, true_and]
      split_ifs <;> rfl
    · rw [Function.update_of_ne fun heq => hav (h.frame_inj ha hv hpa hp heq),
        if_neg fun hc => hav hc.1]
  · rw [if_neg hpa, if_neg hpa, if_neg]
    rintro ⟨rfl, -⟩
    exact hpa hp

lemma fillPages_byteAt (g : Segment) (ha : addr / pageSize < userPages) :
    ∀ (pages : List ℕ) {m : Vm}, m.dir.Ok →
    (∀ v ∈ pages, v < userPages ∧ m.dir.present v = true) →
    (pages.foldl (fillPage g) m).byteAt addr =
      if addr / pageSize ∈ pages ∧ g.covers addr = true then some (g.bytes addr)
      else m.byteAt addr
  | [], m, _, _ => by simp
  | v :: pages, m, h, hpages => by
    obtain ⟨hv, hp⟩ := hpages v mem_cons_self
    have hr := fillPages_byteAt g ha pages (m := fillPage g m v) h
      fun w hw => hpages w (mem_cons_of_mem v hw)
    rw [foldl_cons, hr, fillPage_byteAt h hv hp ha]
    simp only [mem_cons]
    split_ifs <;> first | rfl | tauto

lemma fillPages_dir (g : Segment) (pages : List ℕ) (m : Vm) :
    (pages.foldl (fillPage g) m).dir = m.dir := by
  have hs : ∀ (m' : Vm) (v : ℕ), m'.dir = m.dir → (fillPage g m' v).dir = m.dir := fun _ _ h => h
  exact foldl_invariant hs pages rfl

lemma lastSegment_cons (g : Segment) (gs : List Segment) (addr : ℕ) :
    lastSegment (g :: gs) addr =
      (lastSegment gs addr).or (if g.covers addr then some g else none) := by
  unfold lastSegment
  cases hc : g.covers addr <;> simp [hc]

lemma covers_of_lastSegment (h : lastSegment gs addr = some g) :
    g ∈ gs ∧ g.covers addr = true := by
  have hc := find?_some h
  exact ⟨mem_reverse.1 (mem_of_find?_eq_some h), hc⟩

/-- The last segment that covers an address has its byte there. -/
lemma loadSegments_loads (fillOk : ℕ → Bool) : ∀ (gs : List Segment) {m : Vm}, LoadInv m ds →
    (loadSegments e fillOk gs m).1 = true →
    (∀ g ∈ gs, ∀ v ∈ g.pages, (loadSegments e fillOk gs m).2.dir.present v = true) ∧
      ∀ addr, addr / pageSize < userPages →
        (m.dir.present (addr / pageSize) = true ∨ (lastSegment gs addr).isSome) →
        (loadSegments e fillOk gs m).2.byteAt addr =
          ((lastSegment gs addr).map (·.bytes addr)).or (m.byteAt addr)
  | [], m, _, _ => ⟨by simp, fun addr _ _ => by simp [loadSegments, lastSegment]⟩
  | g :: gs, m, h, hok => by
    unfold loadSegments at hok ⊢
    dsimp only at hok ⊢
    split_ifs at hok ⊢ with hg hpages hfi
    · exact absurd hok (by simpa using hpages)
    have hg : g.allowed = true := by simpa using hg
    have hb := pages_bounds hg
    obtain ⟨hk, hal⟩ := loadPages_keeps e.copyOk g.pages h hb (by simpa using hpages)
    have hlo := (loadInv_steps ds).pages (e := e) hb h
    generalize (loadLoop (fun m page => loadSegmentPage (e.copyOk page) m page) g.pages m).2 = m1
      at hk hal hlo hok ⊢
    have hf : ∀ addr, addr / pageSize < userPages →
        (g.pages.foldl (fillPage g) m1).byteAt addr =
          if addr / pageSize ∈ g.pages ∧ g.covers addr = true then some (g.bytes addr)
          else m1.byteAt addr := fun addr ha => fillPages_byteAt g ha g.pages
      (hlo.inv.ok m1.dir mem_cons_self) fun v hv => ⟨(hb v hv).2, hal v hv⟩
    have hdir := fillPages_dir g g.pages m1
    obtain ⟨hpr, hbytes⟩ := loadSegments_loads fillOk gs ((loadInv_steps ds).filled g hlo) hok
    generalize g.pages.foldl (fillPage g) m1 = m2 at hf hdir hpr hbytes ⊢
    have hco : ∀ addr, g.covers addr = true → m2.dir.present (addr / pageSize) = true :=
      fun addr hc => hdir ▸ hal _ (mem_pages_of_covers hc)
    refine ⟨fun q hq v hv => ?_, fun addr ha hi => ?_⟩
    · rcases mem_cons.1 hq with rfl | hq
      · -- a page of this segment: the ones after it keep it
        have hv' := (hb v hv).2
        have hd : v * pageSize / pageSize = v := Nat.mul_div_cancel v (by decide)
        have hp2 : m2.dir.present v = true := hdir ▸ hal v hv
        have hby := hbytes (v * pageSize) (by rwa [hd]) (.inl (by rwa [hd]))
        rw [← hd, ← byteAt_isSome, hby, Option.isSome_or, byteAt_isSome, hd, hp2]
        simp
      · exact hpr q hq v hv
    · rw [lastSegment_cons] at hi ⊢
      cases hl : lastSegment gs addr with
      | some q =>
        rw [hbytes addr ha (Or.inr (by rw [hl]; rfl)), hl]
        rfl
      | none =>
        rw [hl] at hi
        simp only [Option.none_or] at hi ⊢
        by_cases hc : g.covers addr = true
        · rw [hbytes addr ha (Or.inl (hco addr hc)), hl, hf addr ha,
            if_pos ⟨mem_pages_of_covers hc, hc⟩, if_pos hc]
          rfl
        · have hp : m.dir.present (addr / pageSize) = true := by simpa [hc] using hi
          have hp2 : m2.dir.present (addr / pageSize) = true := hdir ▸ hk.present ha hp
          rw [hbytes addr ha (Or.inl hp2), hl, hf addr ha, if_neg fun h => hc h.2,
            if_neg hc, hk addr ha hp]

lemma loadImage_stages (fillOk : ℕ → Bool) (h : LoadInv m ds)
    (hok : (loadImage e fillOk gs m).1 = true) :
    (loadSegments e fillOk gs m).1 = true ∧
      (applyPermissions gs (loadSegments e fillOk gs m).2).Keeps (loadImage e fillOk gs m).2 := by
  have hse := loadInv_steps ds
  unfold loadImage at hok ⊢
  dsimp only at hok ⊢
  split_ifs at hok ⊢ with hs hst
  · exact absurd hok (by simpa using hs)
  · exact absurd hok (by simpa using hst)
  have hs : (loadSegments e fillOk gs m).1 = true := by simpa using hs
  have hst : (loadLoop (fun m page => loadFreshPage (e.copyOk page) m page) stackPages
      (applyPermissions gs (loadSegments e fillOk gs m).2)).1 = true := by
    simpa [stackPages] using hst
  refine ⟨hs, ?_⟩
  have hp := hse.permissions (fun g hg => pages_bounds (loadSegments_allowed hs g hg))
    (hse.segments (e := e) fillOk gs (fun _ _ => pages_bounds) h)
  have hl := hse.stack (e := e) stackPages_bounds hp
  exact (loadLoop_keeps e.copyOk _ hp stackPages_bounds hst).trans
    (guardPage_keeps hl guardPage_lt)

structure ImageLoaded (gs : List Segment) (m : Vm) : Prop where
  bytes : ∀ addr g, lastSegment gs addr = some g → m.byteAt addr = some (g.bytes addr)
  access : ∀ g ∈ gs, ∀ v ∈ g.pages, m.dir.accessible v = true
  writable : ∀ g ∈ gs, g.memsz ≠ 0 → ∀ v ∈ g.pages, ((m.dir.lookup v).flags.writable = true ↔
    ∃ q ∈ gs, q.memsz ≠ 0 ∧ q.writable = true ∧ v ∈ q.pages)

/-- An image that loads has the bytes of its segments, and their permissions. -/
lemma loadImage_loaded (fillOk : ℕ → Bool) (h : LoadInv m ds)
    (hok : (loadImage e fillOk gs m).1 = true) : ImageLoaded gs (loadImage e fillOk gs m).2 := by
  obtain ⟨hs, hk⟩ := loadImage_stages fillOk h hok
  obtain ⟨hpr, hbytes⟩ := loadSegments_loads fillOk gs h hs
  obtain ⟨hinv, ha⟩ := loadImage_inv e fillOk gs h
  have ha := ha hok
  -- a page of a segment, after the last stage
  have hpa : ∀ g ∈ gs, ∀ v ∈ g.pages, v < userPages ∧
      (applyPermissions gs (loadSegments e fillOk gs m).2).dir.present v = true := fun g hg v hv =>
    ⟨(pages_bounds (ha g hg) v hv).2,
      (applyPermissions_present gs _ v).trans (hpr g hg v hv)⟩
  refine ⟨fun addr g hl => ?_, fun g hg v hv => ?_, fun g hg hsi v hv => ?_⟩
  · obtain ⟨hg, hc⟩ := covers_of_lastSegment hl
    obtain ⟨hv, hp⟩ := hpa g hg _ (mem_pages_of_covers hc)
    rw [hk.bytes addr hv hp, applyPermissions_bytes, hbytes addr hv (Or.inr (by rw [hl]; rfl)), hl]
    rfl
  · obtain ⟨hv', hp⟩ := hpa g hg v hv
    have hp' := (present_of_page (hk v hv' hp)).trans hp
    obtain ⟨-, ho, hu⟩ := (hinv.inv.ok _ mem_cons_self).user v hv' hp'
    simp [accessible, hv', ho, hp', hu]
  · obtain ⟨hv', hp⟩ := hpa g hg v hv
    have hsame := hk v hv' hp
    have hp' := (present_of_page hsame).trans hp
    unfold page at hsame
    rw [if_pos hp, if_pos hp'] at hsame
    rw [(Prod.mk.inj (Option.some.inj hsame)).1]
    exact applyPermissions_writable (hpr g hg v hv) hg hsi hv

end EsdumanOS
