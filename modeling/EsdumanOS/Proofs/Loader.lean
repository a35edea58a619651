import EsdumanOS.Proofs.SysMem

/-!
# Loading a program

The directory of a program that is being loaded shares no frame with anybody, which is why the
loader may set the writable bit of its pages as it likes.
-/

namespace EsdumanOS

open Lib List PageDir

variable {m : Vm} {ds : List PageDir} {v : ℕ} {e : VmEnv} {gs : List Segment} {fillOk : ℕ → Bool}

/-- A directory that is being filled: the frames it maps are in no other directory. -/
structure LoadInv (m : Vm) (ds : List PageDir) : Prop where
  inv : m.Inv ds
  own : ∀ f ∈ m.dir.usrFrames, f ∉ usrAll ds

lemma loadFreshPage_inv {copyOk : Bool} (h : LoadInv m ds) (hv : v < userPages)
    (hl : 1024 ≤ v) : LoadInv (loadFreshPage copyOk m v).2 ds := by
  unfold loadFreshPage
  rcases ha : pmmAllocFrame m.pmm with ⟨_ | frame, p⟩
  · exact ⟨h.inv.alloc_none ha, h.own⟩
  · dsimp only
    rcases mapPage_fresh h.inv hv hl ha with ⟨hne, husr, hinv⟩ | ⟨hok, husr, hfresh, hinv, -⟩
    · rw [if_pos hne]
      exact ⟨hinv, fun f hf => h.own f (husr ▸ hf)⟩
    · have ho : ∀ f ∈ (mapPage { m with pmm := p } v frame pageUserAccess).2.dir.usrFrames,
          f ∉ usrAll ds := by
        intro f hf
        rw [husr, Multiset.mem_cons] at hf
        rcases hf with rfl | hf
        · exact hfresh
        · exact h.own f hf
      rw [if_neg (not_not.2 hok)]
      split_ifs
      · exact ⟨hinv, ho⟩
      · exact ⟨hinv, ho⟩

lemma setWritable_lookup (w : Bool) (m : Vm) (v u : ℕ) : (setWritable w m v).dir.lookup u =
    if u = v ∧ m.dir.present u = true then
      ⟨(m.dir.lookup u).frame, { (m.dir.lookup u).flags with writable := w }⟩
    else m.dir.lookup u := by
  unfold setWritable
  by_cases hp : m.dir.present v = true
  · rw [if_pos hp]
    obtain ⟨t, ht⟩ := table_of_present hp
    have hs := setEntry_sets (d := m.dir) (v := v)
      (e := ⟨(m.dir.lookup v).frame, { (m.dir.lookup v).flags with writable := w }⟩) ht
    by_cases hu : u = v
    · subst hu
      rw [if_pos ⟨rfl, hp⟩]
      exact hs.lookup_self
    · rw [if_neg fun h => hu h.1]
      exact hs.lookup_ne hu
  · rw [if_neg hp, if_neg]
    rintro ⟨rfl, hu⟩
    exact hp hu

lemma setWritable_present (w : Bool) (m : Vm) (v u : ℕ) :
    (setWritable w m v).dir.present u = m.dir.present u := by
  unfold present
  rw [setWritable_lookup]
  split_ifs <;> rfl

lemma setWritable_inv (w : Bool) (h : LoadInv m ds) (hv : v < userPages) :
    LoadInv (setWritable w m v) ds := by
  unfold setWritable
  split_ifs with hp
  · obtain ⟨t, ht⟩ := table_of_present hp
    have hd := h.inv.ok m.dir mem_cons_self
    have hmem := mem_usrFrames hv hp
    have hs := setEntry_sets (d := m.dir) (v := v)
      (e := ⟨(m.dir.lookup v).frame, { (m.dir.lookup v).flags with writable := w }⟩) ht
    have husr := (hs.usr_present hv hp).trans (usr_of_present hv hp).symm
    refine ⟨.setEntry h.inv hs (fun w hw => setEntry_opened.trans hw) hv ?_
      fun _ => ?_, fun f hf => h.own f (husr ▸ hf)⟩
    · have hh := h.inv.holds
      rwa [sysAll_cons, ← setEntry_sysFrames (v := v), ← sysAll_cons, usrAll_cons, ← husr,
        ← usrAll_cons] at hh
    · obtain ⟨hl, ho, hu⟩ := hd.user v hv hp
      have hn := hd.once
      rw [usr_of_present hv hp, Multiset.nodup_cons] at hn
      refine ⟨hl, setEntry_opened.trans ho, hu, hn.1,
        fun _ => mapped_of_present hp, fun _ => ?_⟩
      rw [usrAll_cons, husr, Multiset.count_add, Multiset.count_eq_one_of_mem hd.once hmem,
        Multiset.count_eq_zero.2 (h.own _ hmem)]
  · exact h

lemma Segment.allowed_iff (g : Segment) : g.allowed = true ↔
    0x400000 ≤ g.vaddr ∧ u32 (g.vaddr + g.memsz) ≤ 0xC0000000 ∧
      g.vaddr ≤ u32 (g.vaddr + g.memsz) := by
  simp [Segment.allowed]
  omega

lemma Segment.pages_bounds {g : Segment} (hg : g.allowed = true) :
    ∀ v ∈ g.pages, 1024 ≤ v ∧ v < userPages := by
  intro v hv
  have hs := g.memsz_lt
  obtain ⟨hl, htop, hw⟩ := g.allowed_iff.1 hg
  obtain ⟨i, hi, rfl⟩ := mem_range'.1 hv
  rw [userPages_eq]
  unfold u32 at htop hw
  unfold pageSize at hi ⊢
  omega

/-- What every step of the loader keeps, on the pages that are `ok`. -/
structure LoadSteps (ok : ℕ → Prop) (P : Vm → Prop) : Prop where
  fresh : ∀ {m : Vm} {v : ℕ} (copyOk : Bool), ok v → P m → P (loadFreshPage copyOk m v).2
  mark : ∀ {m : Vm} {v : ℕ} (w : Bool), ok v → P m → P (setWritable w m v)
  fill : ∀ {m : Vm} (g : Segment) (v : ℕ), P m → P (fillPage g m v)
  guard : ∀ {m : Vm}, P m → P (mapPage m userStackGuard 0 pageAbsent).2

def stackPages : List ℕ := (range userStackPages).map fun j => userStackTop - (j + 1)

section Rule

variable {ok : ℕ → Prop} {P : Vm → Prop}

lemma loadLoop_invariant {load : Vm → ℕ → Bool × Vm} : ∀ (pages : List ℕ) {m : Vm},
    (∀ m, ∀ v ∈ pages, P m → P (load m v).2) → P m → P (loadLoop load pages m).2
  | [], _, _, h => h
  | v :: pages, m, hload, h => by
    have ho := hload m v mem_cons_self h
    unfold loadLoop
    dsimp only
    split_ifs
    · exact loadLoop_invariant pages (fun m w hw => hload m w (mem_cons_of_mem v hw)) ho
    · exact ho

lemma loadSegments_allowed : ∀ {gs : List Segment} {m : Vm},
    (loadSegments e fillOk gs m).1 = true → ∀ g ∈ gs, g.allowed = true
  | [], _, _ => by simp
  | g :: gs, m, hok => by
    unfold loadSegments at hok
    dsimp only at hok
    split_ifs at hok with hg hf hfi
    · exact absurd hok (by simpa using hf)
    · exact forall_mem_cons.2 ⟨by simpa using hg, loadSegments_allowed hok⟩

namespace LoadSteps

variable (h : LoadSteps ok P)

include h

lemma segmentPage {copyOk : Bool} (hv : ok v) (hm : P m) :
    P (loadSegmentPage copyOk m v).2 := by
  unfold loadSegmentPage
  split_ifs
  · exact h.mark true hv hm
  · exact h.fresh _ hv hm

lemma pages {g : Segment} (hg : ∀ v ∈ g.pages, ok v) (hm : P m) :
    P (loadLoop (fun m page => loadSegmentPage (e.copyOk page) m page) g.pages m).2 :=
  loadLoop_invariant g.pages (fun _ v hv => h.segmentPage (hg v hv)) hm

lemma filled (g : Segment) (hm : P m) : P (g.pages.foldl (fillPage g) m) :=
  foldl_invariant (fun _ v => h.fill g v) g.pages hm

lemma segments (fillOk : ℕ → Bool) : ∀ (gs : List Segment) {m : Vm},
    (∀ g ∈ gs, g.allowed = true → ∀ v ∈ g.pages, ok v) → P m → P (loadSegments e fillOk gs m).2
  | [], _, _, hm => hm
  | g :: gs, m, hgs, hm => by
    unfold loadSegments
    dsimp only
    split_ifs with hg hf hfi
    · exact hm
    all_goals have hl := h.pages (e := e) (hgs g mem_cons_self (by simpa using hg)) hm
    · exact hl
    · exact segments fillOk gs (fun g' hg' => hgs g' (mem_cons_of_mem g hg')) (h.filled g hl)
    · exact hl

lemma permissions (hgs : ∀ g ∈ gs, ∀ v ∈ g.pages, ok v) (hm : P m) :
    P (applyPermissions gs m) := by
  have hs : ∀ (w : Bool) (m : Vm), ∀ g ∈ gs.filter fun g =>
      decide (g.memsz ≠ 0) && (g.writable == w), P m → P (g.pages.foldl (setWritable w) m) :=
    fun w m g hg => foldl_invariant_mem _ fun _ v hv => h.mark w (hgs g (mem_of_mem_filter hg) v hv)
  exact foldl_invariant_mem _ (hs true) (foldl_invariant_mem _ (hs false) hm)

lemma stack (hs : ∀ v ∈ stackPages, ok v) (hm : P m) :
    P (loadLoop (fun m page => loadFreshPage (e.copyOk page) m page) stackPages m).2 :=
  loadLoop_invariant stackPages (fun _ v hv => h.fresh _ (hs v hv)) hm

/-- What the steps keep, the whole loader keeps. -/
lemma image (fillOk : ℕ → Bool) (hgs : ∀ g ∈ gs, g.allowed = true → ∀ v ∈ g.pages, ok v)
    (hst : ∀ v ∈ stackPages, ok v) (hm : P m) : P (loadImage e fillOk gs m).2 := by
  have hs := h.segments (e := e) fillOk gs hgs hm
  unfold loadImage
  dsimp only
  by_cases hok : (loadSegments e fillOk gs m).1 = true
  · rw [if_neg (by simp [hok])]
    have hl := h.stack (e := e) hst
      (h.permissions (fun g hg => hgs g hg (loadSegments_allowed hok g hg)) hs)
    split_ifs
    · exact hl
    · exact h.guard hl
  · rw [if_pos (by simpa using hok)]
    exact hs

end LoadSteps

end Rule

lemma stackPages_bounds : ∀ v ∈ stackPages, 1024 ≤ v ∧ v < userPages := by
  intro v hv
  obtain ⟨j, hj, rfl⟩ := mem_map.1 hv
  have hj := mem_range.1 hj
  have hpages := userPages_eq
  simp only [userStackPages, userStackTop, pageSize] at hj ⊢
  omega

lemma LoadInv.absent_of_zero (h : LoadInv m ds) (hv : v < userPages)
    (hf : m.dir.present v = true → (m.dir.lookup v).frame = 0) : m.dir.present v = false := by
  -- frame 0 is not the allocator's, so nothing is mapped there
  by_contra hpres
  rw [Bool.not_eq_false] at hpres
  have hmem : (m.dir.lookup v).frame ∈ usrAll (m.dir :: ds) :=
    mem_usrAll mem_cons_self (mem_usrFrames hv hpres)
  have hp := h.inv.holds.pool (Multiset.mem_add.2 (.inr hmem))
  rw [hf hpres] at hp
  exact absurd hp.1 (by decide)

lemma guardPage_lt : userStackGuard < userPages := by
  rw [userPages_eq]
  decide

lemma guardPage_inv (h : LoadInv m ds) (hv : v < userPages) :
    LoadInv (mapPage m v 0 pageAbsent).2 ds := by
  have hh := h.inv.holds
  rw [sysAll_cons, add_assoc] at hh
  have hm := mapPage_holds 0 pageAbsent hv hh
  rw [← add_assoc, ← sysAll_cons] at hm
  obtain ⟨hsame, ⟨-, hl⟩ | ⟨-, hfr, hs, -⟩⟩ := mapPage_spec m v 0 pageAbsent
  · have husr : (mapPage m v 0 pageAbsent).2.dir.usrFrames = m.dir.usrFrames :=
      usr_congr fun w _ => hl w
    refine ⟨.relook h.inv hl hsame.2.2.2 ?_, fun f hf => h.own f (husr ▸ hf)⟩
    rwa [show (mapPage m v 0 pageAbsent).2.heap = m.heap from hsame.2.1]
  · have ha := h.absent_of_zero hv hfr
    have husr : (mapPage m v 0 pageAbsent).2.dir.usrFrames = m.dir.usrFrames := by
      rw [hs.usr_absent rfl, usr_of_absent ha]
    refine ⟨.setEntry h.inv hs hsame.2.2.2 hv ?_ fun he => absurd he (by decide),
      fun f hf => h.own f (husr ▸ hf)⟩
    rw [show (mapPage m v 0 pageAbsent).2.heap = m.heap from hsame.2.1, usrAll_cons, husr,
      ← usrAll_cons]
    exact hm

lemma loadInv_steps (ds : List PageDir) :
    LoadSteps (fun v => 1024 ≤ v ∧ v < userPages) (LoadInv · ds) where
  fresh _ hv hm := loadFreshPage_inv hm hv.2 hv.1
  mark w hv hm := setWritable_inv w hm hv.2
  fill _ _ hm := ⟨hm.inv, hm.own⟩
  guard hm := guardPage_inv hm guardPage_lt

lemma loadImage_allowed (hok : (loadImage e fillOk gs m).1 = true) :
    ∀ g ∈ gs, g.allowed = true := by
  refine @loadSegments_allowed e fillOk gs m ?_
  unfold loadImage at hok
  by_contra hne
  rw [if_pos (by simpa using hne)] at hok
  exact hne hok

lemma loadImage_inv (e : VmEnv) (fillOk : ℕ → Bool) (gs : List Segment) (h : LoadInv m ds) :
    LoadInv (loadImage e fillOk gs m).2 ds ∧
      ((loadImage e fillOk gs m).1 = true → ∀ g ∈ gs, g.allowed = true) :=
  ⟨(loadInv_steps ds).image fillOk (fun _ _ => Segment.pages_bounds) stackPages_bounds h,
    loadImage_allowed⟩

lemma imageBreak_bounds (hgs : ∀ g ∈ gs, g.allowed = true) :
    imageBreak gs = 0 ∨ 0x400000 ≤ imageBreak gs ∧ imageBreak gs ≤ 0xC0000000 := by
  let inUser : ℕ → Prop := fun h => h = 0 ∨ 0x400000 ≤ h ∧ h ≤ 0xC0000000
  have hs : ∀ h : ℕ, ∀ g ∈ gs, inUser h → inUser (max h (u32 (g.vaddr + g.memsz))) := by
    intro h g hg hh
    obtain ⟨hl, htop, hw⟩ := g.allowed_iff.1 (hgs g hg)
    omega
  have hhi := foldl_invariant_mem gs hs (show inUser 0 from .inl rfl)
  unfold imageBreak
  dsimp only [inUser] at hhi ⊢
  generalize gs.foldl (fun h g => max h (u32 (g.vaddr + g.memsz))) 0 = high at hhi ⊢
  unfold u32 pageSize
  omega

section Within

variable {ok : ℕ → Prop}

def Vm.Within (m : Vm) (ok : ℕ → Prop) : Prop :=
  ∀ w, m.dir.present w = true → ok w

lemma mapPage_within {frame : ℕ} {fl : PteFlags} (h : m.Within ok)
    (hv : fl.present = true → ok v) : (mapPage m v frame fl).2.Within ok := by
  intro w hw
  obtain ⟨-, ⟨-, hl⟩ | ⟨-, -, hs, -⟩⟩ := mapPage_spec m v frame fl
  · rw [present, hl] at hw
    exact h w hw
  · by_cases hwv : w = v
    · rw [present, hwv, hs.lookup_self] at hw
      exact hwv ▸ hv hw
    · rw [present, hs.lookup_ne hwv] at hw
      exact h w hw

lemma loadFreshPage_within (copyOk : Bool) (h : m.Within ok) (hv : ok v) :
    (loadFreshPage copyOk m v).2.Within ok := by
  unfold loadFreshPage
  rcases pmmAllocFrame m.pmm with ⟨_ | frame, p⟩
  · exact h
  · have hm : (mapPage { m with pmm := p } v frame pageUserAccess).2.Within ok :=
      mapPage_within h fun _ => hv
    dsimp only
    split_ifs <;> exact hm

lemma within_steps (ok : ℕ → Prop) : LoadSteps ok (Vm.Within · ok) where
  fresh copyOk hv hm := loadFreshPage_within copyOk hm hv
  mark w _ hm u hu := hm u (setWritable_present w _ _ u ▸ hu)
  fill _ _ hm := hm
  guard hm := mapPage_within hm fun hp => absurd hp (by decide)

lemma loadImage_within (fillOk : ℕ → Bool) (h : m.Within ok)
    (hg : ∀ g ∈ gs, g.allowed = true → ∀ v ∈ g.pages, ok v) (hs : ∀ v, userMmapTop ≤ v → ok v) :
    (loadImage e fillOk gs m).2.Within ok := by
  refine (within_steps ok).image fillOk hg (fun v hv => hs v ?_) h
  obtain ⟨j, hj, rfl⟩ := mem_map.1 hv
  have hj := mem_range.1 hj
  unfold userMmapTop userStackGuard
  omega

lemma le_highest : ∀ (gs : List Segment) (h : ℕ), h ≤ gs.foldl
      (fun h g => max h (u32 (g.vaddr + g.memsz))) h ∧
    ∀ g ∈ gs, u32 (g.vaddr + g.memsz) ≤ gs.foldl (fun h g => max h (u32 (g.vaddr + g.memsz))) h
  | [], h => ⟨le_rfl, by simp⟩
  | g :: gs, h => by
    obtain ⟨hle, ha⟩ := le_highest gs (max h (u32 (g.vaddr + g.memsz)))
    refine ⟨(le_max_left _ _).trans hle, fun g' hg' => ?_⟩
    rcases mem_cons.1 hg' with rfl | hg'
    · exact (le_max_right _ _).trans hle
    · exact ha g' hg'

/-- The heap starts behind every page of the image. -/
lemma imageBreak_covers (hgs : ∀ g ∈ gs, g.allowed = true) :
    ∀ g ∈ gs, ∀ v ∈ g.pages, v < imageBreak gs / pageSize := by
  intro g hg v hv
  have hsi := g.memsz_lt
  obtain ⟨hl, htop, hw⟩ := g.allowed_iff.1 (hgs g hg)
  have hhi := (le_highest gs 0).2 g hg
  have hs : ∀ h : ℕ, ∀ g ∈ gs, h ≤ 0xC0000000 → max h (u32 (g.vaddr + g.memsz)) ≤ 0xC0000000 :=
    fun h g hg hh => max_le hh (g.allowed_iff.1 (hgs g hg)).2.1
  have hb := foldl_invariant_mem gs hs (Nat.zero_le _)
  obtain ⟨j, hj, rfl⟩ := mem_range'.1 hv
  unfold imageBreak
  dsimp only
  unfold u32 pageSize at *
  omega

end Within

lemma clonePageDirectory_inv {m : Phys} (h : FramesInv m.pmm m.heap ds) :
    match clonePageDirectory e m with
    | (none, m') => FramesInv m'.pmm m'.heap ds ∧ m'.mem = m.mem
    | (some d, m') => FramesInv m'.pmm m'.heap (d :: ds) ∧ m'.mem = m.mem ∧
        (∀ w, d.lookup w = .zero) ∧ d.usrFrames = 0 := by
  unfold clonePageDirectory
  rcases ha : pmmAllocFrame m.pmm with ⟨_ | f, p⟩
  · exact ⟨{ h with holds := h.holds.alloc_none ha }, rfl⟩
  · have hp := h.holds.alloc_sys ha
    cases e.tempMap with
    | false => exact ⟨{ h with holds := hp.free_sys }, rfl⟩
    | true =>
      have hz : ∀ w, (⟨f, fun _ => none⟩ : PageDir).lookup w = .zero := fun _ => rfl
      have husr := usrFrames_of_zero hz
      have hs : (⟨f, fun _ => none⟩ : PageDir).sysFrames = {f} := by
        exact congrArg (f ::ₘ ·) (held_eq_zero fun _ _ => rfl)
      refine ⟨⟨?_, ?_, ?_⟩, rfl, hz, husr⟩
      · rw [sysAll_cons, usrAll_cons, husr, zero_add, hs, Multiset.singleton_add, Multiset.cons_add]
        exact hp
      · intro d hd
        rcases mem_cons.1 hd with rfl | hd
        · refine ⟨by rw [husr]; exact Multiset.nodup_zero, fun w _ hw => ?_⟩
          rw [present_of_zero hz] at hw
          exact absurd hw (by decide)
        · exact h.ok d hd
      · intro d hd w hw hpw
        rw [usrAll_cons, husr, zero_add]
        rcases mem_cons.1 hd with rfl | hd
        · rw [present_of_zero hz] at hpw
          exact absurd hpw (by decide)
        · exact h.sole d hd w hw hpw

end EsdumanOS
