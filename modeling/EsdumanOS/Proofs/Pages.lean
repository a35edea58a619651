import EsdumanOS.AddressSpace
import EsdumanOS.Proofs.SysMem

/-!
# Pages handed out and taken back

`map_zeroed_page` and `release_user_range` by what they do to the pages of the program: a range
becomes zeroed or empty and every other page keeps its entry and its bytes. The bytes stay because a
frame fresh from the allocator is mapped nowhere.
-/

namespace EsdumanOS

open Lib List Vm PageDir

variable {m m' : Vm} {ds : List PageDir} {v w first last n : ℕ} {e : VmEnv}

lemma Vm.page_eq_none : m.page v = none ↔ m.dir.present v = false := by
  simp [page]

lemma Vm.page_congr (hl : m'.dir.lookup v = m.dir.lookup v) (hmem : m.dir.present v = true →
      m'.mem (m.dir.lookup v).frame = m.mem (m.dir.lookup v).frame) : m'.page v = m.page v := by
  have hpr : m'.dir.present v = m.dir.present v := by rw [present, hl, present]
  unfold page
  rw [hpr]
  split_ifs with hp
  · rw [hl, hmem hp]
  · rfl

lemma PageDir.present_of_page (h : m'.page v = m.page v) :
    m'.dir.present v = m.dir.present v := by
  unfold page at h
  cases hp : m.dir.present v <;> cases hp' : m'.dir.present v <;> simp [hp, hp'] at h ⊢

def Vm.Zeroed (m : Vm) (v : ℕ) : Prop :=
  ∃ frame, m.page v = some (⟨frame, pageUserAccess⟩, fun _ => 0)

lemma Vm.Zeroed.present (h : m.Zeroed v) : m.dir.present v = true := by
  obtain ⟨frame, hpa⟩ := h
  by_contra hp
  rw [page_eq_none.2 (by simpa using hp)] at hpa
  exact absurd hpa (by simp)

structure Vm.Adds (m m' : Vm) (first n : ℕ) : Prop where
  added : ∀ w, first ≤ w → w < first + n → m'.Zeroed w
  kept : ∀ w < userPages, ¬ (first ≤ w ∧ w < first + n) → m'.page w = m.page w

def Vm.Drops (m m' : Vm) (first last : ℕ) : Prop :=
  ∀ w, m'.page w = if first ≤ w ∧ w < last then none else m.page w

lemma unmapPage_page (ht : ∃ t, m.dir.tables (v / 1024) = some t) (w : ℕ) :
    (unmapPage m v).page w = if w = v then none else m.page w := by
  obtain ⟨t, ht⟩ := ht
  have hs : Sets m.dir v .zero (unmapPage m v).dir := setEntry_sets ht
  split_ifs with hw
  · rw [page_eq_none, hw, present, hs.lookup_self]
    rfl
  · exact page_congr (hs.lookup_ne hw) fun _ => rfl

lemma releasePage_page (m : Vm) (v w : ℕ) :
    (releasePage m v).page w = if w = v then none else m.page w := by
  unfold releasePage
  split
  next ht =>
    split_ifs with hw
    · rw [page_eq_none, hw]
      simp [PageDir.present, PageDir.lookup, ht, Pte.zero, pageAbsent]
    · rfl
  next t ht =>
    by_cases hp : m.dir.present v = true
    · rw [if_pos hp]
      exact unmapPage_page (m := { m with pmm := pmmFreeFrame m.pmm _ }) ⟨t, ht⟩ w
    · rw [if_neg hp]
      exact unmapPage_page ⟨t, ht⟩ w

lemma releasePages_page : ∀ (n first : ℕ) (m : Vm) (w : ℕ),
    ((range' first n).foldl releasePage m).page w =
      if first ≤ w ∧ w < first + n then none else m.page w
  | 0, first, m, w => by
    rw [if_neg (by omega)]
    rfl
  | n + 1, first, m, w => by
    rw [range'_succ, foldl_cons, releasePages_page n, releasePage_page]
    by_cases hw : w = first
    · rw [if_neg (by omega), if_pos hw, if_pos (by omega)]
    · rw [if_neg hw]
      exact if_congr (by omega) rfl rfl

lemma releaseUserRange_drops (m : Vm) (hle : first ≤ last) :
    m.Drops (releaseUserRange m first last) first last := by
  intro w
  unfold releaseUserRange
  rw [releasePages_page, Nat.add_sub_cancel' hle]

lemma mapZeroedPage_page (copyOk : Bool) (h : m.Inv ds) (hab : m.page v = none) :
    (∀ w < userPages, w ≠ v → (mapZeroedPage copyOk m v).2.page w = m.page w) ∧
      ((mapZeroedPage copyOk m v).1 = .ok → (mapZeroedPage copyOk m v).2.Zeroed v) ∧
      ((mapZeroedPage copyOk m v).1 ≠ .ok → (mapZeroedPage copyOk m v).2.page v = none) := by
  unfold mapZeroedPage
  rcases ha : pmmAllocFrame m.pmm with ⟨_ | frame, p⟩
  · exact ⟨fun _ _ _ => rfl, fun hok => absurd hok (by simp), fun _ => hab⟩
  have hfresh := h.holds.alloc_fresh ha
  have hap : ∀ w < userPages, m.dir.present w = true → (m.dir.lookup w).frame ≠ frame :=
    fun w hw hp heq => hfresh (Multiset.mem_add.2 (.inr (mem_usrAll mem_cons_self
      (heq ▸ mem_usrFrames hw hp))))
  have hs := mapPage_spec { m with pmm := p } v frame pageUserAccess
  dsimp only
  generalize mapPage { m with pmm := p } v frame pageUserAccess = r at hs ⊢
  obtain ⟨res, m'⟩ := r
  obtain ⟨⟨hmem, -⟩, ⟨hne, hl⟩ | ⟨hok, -, hse, -⟩⟩ := hs
  · have hk : ∀ w, page { m' with pmm := pmmFreeFrame m'.pmm frame } w = m.page w :=
      fun w => page_congr (hl w) fun _ => congrFun hmem _
    rw [if_pos hne]
    exact ⟨fun w _ _ => hk w, fun hb => absurd hb (by simp), fun _ => (hk v).trans hab⟩
  · rw [if_neg (not_not.2 hok)]
    have hpr : m'.dir.present v = true := by
      rw [present, hse.lookup_self]
      rfl
    cases copyOk with
    | true =>
      refine ⟨fun w hw hwv => ?_, fun _ => ⟨frame, ?_⟩, fun hb => absurd rfl hb⟩
      · refine page_congr (hse.lookup_ne hwv) fun hp => ?_
        exact (Function.update_of_ne (hap w hw hp) _ _).trans (congrFun hmem _)
      · simp only [if_true, page, hpr, hse.lookup_self, Function.update_self]
    | false =>
      -- the clearing failed: the entry just written goes away again
      have hpa := unmapPage_page (m := { m' with pmm := pmmFreeFrame m'.pmm frame })
        (table_of_present hpr)
      refine ⟨fun w hw hwv => (hpa w).trans ?_, fun hb => absurd hb (by simp),
        fun _ => (hpa v).trans (if_pos rfl)⟩
      rw [if_neg hwv]
      exact page_congr (hse.lookup_ne hwv) fun _ => congrFun hmem _

def Grown (m : Vm) (first n : ℕ) (r : Option ℕ × Vm) : Prop :=
  match r.1 with
  | none => m.Adds r.2 first n
  | some page => first ≤ page ∧ page < first + n ∧
      ∀ w < userPages, ¬ (first ≤ w ∧ w < page) → r.2.page w = m.page w

/-- Growth stops at the first page that cannot be mapped. -/
lemma growRange_grown (e : VmEnv) : ∀ (n : ℕ) {first : ℕ} {m : Vm}, m.Inv ds → 1024 ≤ first →
    first + n ≤ userPages → (∀ w, first ≤ w → w < first + n → m.page w = none) →
    Grown m first n (growRange e n first m)
  | 0, first, m, _, _, _, _ => by
    refine ⟨fun w hlo hhi => absurd hhi (by omega), fun w _ _ => rfl⟩
  | n + 1, first, m, h, hl, hv, hf => by
    have ha := hf first le_rfl (by omega)
    obtain ⟨hk, hok, hb⟩ := mapZeroedPage_page (e.copyOk first) h ha
    have hinv := mapZeroedPage_inv (e.copyOk first) h (by omega) hl
    unfold growRange
    dsimp only
    split_ifs with hres
    · have hf' : ∀ w, first + 1 ≤ w → w < first + 1 + n →
          (mapZeroedPage (e.copyOk first) m first).2.page w = none := by
        intro w hlo hhi
        rw [hk w (by omega) (by omega)]
        exact hf w (by omega) (by omega)
      have hr := growRange_grown e n hinv (by omega) (by omega) hf'
      unfold Grown at hr ⊢
      cases hs : (growRange e n (first + 1) (mapZeroedPage (e.copyOk first) m first).2).1 with
      | none =>
        rw [hs] at hr
        refine ⟨fun w hlo hhi => ?_, fun w hw ho => ?_⟩
        · rcases Nat.eq_or_lt_of_le hlo with heq | hlt
          · obtain ⟨frame, hp⟩ := hok hres
            refine ⟨frame, ?_⟩
            rw [← heq, hr.kept first (by omega) (by omega)]
            exact hp
          · exact hr.added w hlt (by omega)
        · rw [hr.kept w hw (by omega)]
          exact hk w hw fun heq => ho ⟨heq ▸ le_rfl, by omega⟩
      | some page =>
        rw [hs] at hr
        obtain ⟨hlo, hhi, hsame⟩ := hr
        refine ⟨by omega, by omega, fun w hw ho => ?_⟩
        rw [hsame w hw (by omega)]
        exact hk w hw fun heq => ho ⟨heq ▸ le_rfl, by omega⟩
    · refine ⟨le_rfl, by omega, fun w hw _ => ?_⟩
      by_cases hwv : w = first
      · rw [hwv, hb hres, ha]
      · exact hk w hw hwv

lemma mapRange_page (e : VmEnv) (h : m.Inv ds) (hl : 1024 ≤ first)
    (hv : first + n ≤ userPages) (hf : ∀ w, first ≤ w → w < first + n → m.page w = none) :
    ((mapRange e m first n).1 = true ∧ m.Adds (mapRange e m first n).2 first n) ∨
      ((mapRange e m first n).1 = false ∧
        ∀ w < userPages, (mapRange e m first n).2.page w = m.page w) := by
  have hg := growRange_grown e n h hl hv hf
  unfold Grown at hg
  unfold mapRange
  dsimp only
  cases hs : (growRange e n first m).1 with
  | none =>
    rw [hs] at hg
    exact .inl ⟨rfl, hg⟩
  | some page =>
    rw [hs] at hg
    obtain ⟨hlo, hhi, hsame⟩ := hg
    refine .inr ⟨rfl, fun w hw => ?_⟩
    rw [releaseUserRange_drops _ hlo w]
    split_ifs with hi
    · exact (hf w hi.1 (by omega)).symm
    · exact hsame w hw hi

inductive BrkSpec (m : Vm) (brkStart brkCurrent ebx : ℕ) (r : ℕ × ℕ × Vm) : Prop
  | stays (hbrk : r.2.1 = brkCurrent) (hpages : ∀ w < userPages, r.2.2.page w = m.page w)
  | shrinks (hres : r.1 = pagesFor ebx * pageSize) (hbrk : r.2.1 = pagesFor ebx * pageSize)
      (hlo : brkStart ≤ pagesFor ebx * pageSize) (hhi : pagesFor ebx * pageSize < brkCurrent)
      (hpages : m.Drops r.2.2 (pagesFor ebx) (brkCurrent / pageSize))
  | grows (hres : r.1 = pagesFor ebx * pageSize) (hbrk : r.2.1 = pagesFor ebx * pageSize)
      (hlo : brkCurrent < pagesFor ebx * pageSize)
      (hhi : pagesFor ebx * pageSize ≤ userMmapFloor * pageSize)
      (hpages : m.Adds r.2.2 (brkCurrent / pageSize) (pagesFor ebx - brkCurrent / pageSize))

lemma brkTarget_eq {brkStart ebx : ℕ} (he : ebx < 2 ^ 32) (hs : brkStart ≠ 0)
    (hle : brkStart ≤ u32 (ebx + pageSize - 1) / pageSize * pageSize) :
    u32 (ebx + pageSize - 1) / pageSize = pagesFor ebx := by
  unfold pagesFor
  unfold u32 pageSize at *
  omega

lemma sysBrk_spec {brkStart brkCurrent ebx : ℕ} (e : VmEnv) (h : m.Inv ds) (he : ebx < 2 ^ 32)
    (hl : brkStart = 0 ∨ 0x400000 ≤ brkStart) (hal : brkCurrent % pageSize = 0)
    (hle : brkStart ≤ brkCurrent)
    (hf : ∀ w, brkCurrent / pageSize ≤ w → w < userMmapFloor → m.page w = none) :
    BrkSpec m brkStart brkCurrent ebx (sysBrk e m brkStart brkCurrent ebx) := by
  have hpages := userPages_eq
  unfold sysBrk
  by_cases hz : brkStart = 0
  · rw [if_pos hz]
    exact .stays rfl fun _ _ => rfl
  rw [if_neg hz]
  by_cases hr : ebx < brkStart ∨ u32 (ebx + pageSize - 1) / pageSize * pageSize < brkStart ∨
      userMmapFloor * pageSize < u32 (ebx + pageSize - 1) / pageSize * pageSize
  · rw [if_pos hr]
    exact .stays rfl fun _ _ => rfl
  rw [if_neg hr]
  obtain ⟨-, ht, -⟩ : _ ∧ _ ∧ _ := by simpa only [not_or, not_lt] using hr
  rw [brkTarget_eq he hz ht] at hr ⊢
  have hfl : userMmapFloor ≤ userPages := by
    rw [hpages]
    decide
  by_cases hsame : pagesFor ebx * pageSize = brkCurrent
  · rw [if_pos hsame]
    exact .stays rfl fun _ _ => rfl
  rw [if_neg hsame]
  have hd : pagesFor ebx * pageSize / pageSize = pagesFor ebx := Nat.mul_div_cancel _ (by decide)
  by_cases hs : pagesFor ebx * pageSize < brkCurrent
  · rw [if_pos hs, hd]
    refine .shrinks rfl rfl (by omega) hs (releaseUserRange_drops m ?_)
    unfold pageSize at *
    omega
  rw [if_neg hs]
  have hsu : (pagesFor ebx * pageSize - brkCurrent) / pageSize =
      pagesFor ebx - brkCurrent / pageSize := by
    unfold pageSize at *
    omega
  have hsum : brkCurrent / pageSize + (pagesFor ebx - brkCurrent / pageSize) = pagesFor ebx := by
    unfold pageSize at *
    omega
  have hc : pagesFor ebx ≤ userMmapFloor := by
    unfold pageSize at *
    omega
  rw [hsu]
  have ho : 1024 ≤ brkCurrent / pageSize := by
    unfold pageSize at *
    omega
  rcases mapRange_page (n := pagesFor ebx - brkCurrent / pageSize) e h ho (by omega)
    fun w hlo hhi => hf w hlo (by omega) with ⟨hok, ha⟩ | ⟨hfa, hk⟩
  · rw [if_pos hok]
    exact .grows rfl rfl (by omega) (by omega) ha
  · rw [if_neg (by simp [hfa])]
    exact .stays rfl hk

inductive MmapSpec (m : Vm) (length : ℕ) (r : ℕ × Vm) : Prop
  | refused (hres : r.1 = 0xFFFFFFFF) (hpages : ∀ w < userPages, r.2.page w = m.page w)
  | mapped (base : ℕ) (hres : r.1 = base * pageSize) (hne : r.1 ≠ 0xFFFFFFFF)
      (hlo : userMmapFloor ≤ base) (hhi : base + pagesFor length ≤ userMmapTop)
      (hpages : m.Adds r.2 base (pagesFor length))

lemma sysMmap_spec {length reserved : ℕ} (e : VmEnv) (h : m.Inv ds) :
    MmapSpec m length (sysMmap e m length reserved) := by
  have hpages := userPages_eq
  unfold sysMmap
  dsimp only
  split_ifs with hz hres hl
  · exact .refused rfl fun _ _ => rfl
  · exact .refused rfl fun _ _ => rfl
  · exact .refused rfl fun _ _ => rfl
  · cases hr : findFreeRun m.dir ((length + pageSize - 1) / pageSize) userMmapTop with
    | none => exact .refused rfl fun _ _ => rfl
    | some base =>
      obtain ⟨hf, htop, hfr⟩ := findFreeRun_run hr
      have hlw : 1024 ≤ base := le_trans (by decide) hf
      have hh : userMmapTop ≤ userPages := by
        rw [hpages]
        decide
      have hno : ∀ w, base ≤ w → w < base + (length + pageSize - 1) / pageSize →
          m.page w = none := fun w hlo hhi => by
        have := hfr (w - base) (by omega)
        rw [Nat.add_sub_cancel' hlo] at this
        exact page_eq_none.2 (by simpa [pageIsFree] using this)
      dsimp only
      rcases mapRange_page e h hlw (by omega) hno with ⟨hok, ha⟩ | ⟨hfa, hk⟩
      · rw [if_pos hok]
        refine .mapped base rfl ?_ hf htop ha
        unfold pageSize
        omega
      · rw [if_neg (by simp [hfa])]
        exact .refused rfl hk

inductive MunmapSpec (m : Vm) (addr length : ℕ) (r : Errno × Vm) : Prop
  | refused (hres : r.1 ≠ .ok) (hsame : r.2 = m)
  | unmapped (hres : r.1 = .ok) (hlo : userMmapFloor ≤ addr / pageSize)
      (hhi : addr / pageSize + pagesFor length ≤ userMmapTop)
      (hpages : m.Drops r.2 (addr / pageSize) (addr / pageSize + pagesFor length))

lemma sysMunmap_spec {addr length : ℕ} (ha : addr < 2 ^ 32) (hle : length < 2 ^ 32) :
    MunmapSpec m addr length (sysMunmap m addr length) := by
  unfold sysMunmap
  by_cases hb : length = 0 ∨ addr % pageSize ≠ 0
  · rw [if_pos hb]
    exact .refused (by simp) rfl
  rw [if_neg hb]
  by_cases hw : u32 (addr + u32 (length + pageSize - 1) / pageSize * pageSize) ≤ addr
  · rw [if_pos hw]
    exact .refused (by simp) rfl
  rw [if_neg hw]
  -- a length or an end that wraps does not come this far
  have hl : u32 (addr + u32 (length + pageSize - 1) / pageSize * pageSize) =
      (addr / pageSize + pagesFor length) * pageSize := by
    unfold pagesFor
    unfold u32 pageSize at *
    omega
  rw [hl]
  by_cases hr : addr < userMmapFloor * pageSize ∨
      userMmapTop * pageSize < (addr / pageSize + pagesFor length) * pageSize
  · rw [if_pos hr]
    exact .refused (by simp) rfl
  rw [if_neg hr, Nat.mul_div_cancel _ (by decide)]
  refine .unmapped rfl ?_ ?_ (releaseUserRange_drops m (Nat.le_add_right _ _))
  · unfold pageSize at *
    omega
  · unfold pageSize at *
    omega

end EsdumanOS
