import EsdumanOS.Proofs.Fork

/-!
# The two passes of a fork

`copy_user_space` put together: the references of the first pass, the records the second pass
places, and those it gives back.
-/

namespace EsdumanOS

open Lib List PageDir

variable {vs : List ℕ} {heap : List ℕ} {r : Errno × Vm × PageDir}

section Copy

def PageDir.view (d : PageDir) (v : ℕ) : Option (ℕ × Bool) :=
  if d.present v then
    some ((d.lookup v).frame, (d.lookup v).flags.writable || (d.lookup v).flags.cow)
  else none

lemma PageDir.view_congr {d d' : PageDir} {v : ℕ} (h : d'.lookup v = d.lookup v) :
    d'.view v = d.view v := by
  unfold PageDir.view present
  rw [h]

lemma PageDir.view_shared {d d' : PageDir} {v : ℕ} (h : d'.lookup v = sharedEntry (d.lookup v)) :
    d'.view v = d.view v := by
  have hp : d'.present v = d.present v := by
    rw [present, h, sharedEntry_present, present]
  unfold PageDir.view
  rw [hp]
  split_ifs with hpr
  · have hp' : (d.lookup v).flags.present = true := hpr
    rw [h, sharedEntry, if_pos hp']
    unfold sharedFlags
    split_ifs with hw
    · simp [hw]
    · rfl
  · rfl

lemma PageDir.usrFrames_shared {d d' : PageDir}
    (h : ∀ w < userPages, d'.lookup w = sharedEntry (d.lookup w)) :
    d'.usrFrames = d.usrFrames :=
  held_congr fun w hw => by
    unfold mapped present
    rw [h w hw, sharedEntry_present, sharedEntry_frame]

def PageDir.frameList (d : PageDir) (vs : List ℕ) : List ℕ :=
  (vs.filter d.present).map fun v => (d.lookup v).frame

def PageDir.records (d : PageDir) (vs : List ℕ) : List CopiedPage :=
  (vs.filter d.present).map d.record

lemma PageDir.filterMap_mapped (d : PageDir) :
    ∀ vs : List ℕ, vs.filterMap d.mapped = d.frameList vs
  | [] => rfl
  | v :: vs => by
    have ih := d.filterMap_mapped vs
    unfold frameList at ih ⊢
    cases hp : d.present v with
    | false => simp [mapped, hp, ih]
    | true => simp [mapped, hp, ih]

lemma PageDir.usrFrames_eq (d : PageDir) : d.usrFrames = (d.frameList userVpns : Multiset ℕ) := by
  unfold usrFrames userVpns
  rw [held_eq_coe, d.filterMap_mapped]

variable {e : VmEnv} {m : Vm} {dst : PageDir} {ds : List PageDir}

lemma record_installable {d : PageDir} (hvs : ∀ v ∈ vs, v < userPages) (hd : d.Ok)
    (hds : ∀ w, dst.lookup w = .zero) :
    ∀ c ∈ d.records vs, c.Installable dst := by
  intro c hc
  obtain ⟨v, hv, rfl⟩ := mem_map.1 hc
  obtain ⟨hmem, hp⟩ := mem_filter.1 hv
  have hlt := hvs v hmem
  obtain ⟨-, -, hu⟩ := hd.user v hlt hp
  have hp' : (d.lookup v).flags.present = true := hp
  refine ⟨hlt, ?_, ?_, ?_⟩
  · unfold record sharedFlags
    split_ifs <;> exact hp'
  · unfold record sharedFlags
    split_ifs <;> exact hu
  · rw [present, hds]
    rfl

/-- Parent and child may map one frame, as neither may write to it. -/
lemma FramesInv.shared {p : Pmm} {p' : Pmm} {he' : List ℕ} {d d' c : PageDir}
    {done : List CopiedPage} (h : FramesInv p heap (dst :: d :: ds))
    (hds : ∀ w, dst.lookup w = .zero)
    (hdo : ∀ r ∈ done, ∃ v < userPages, d.present v = true ∧ r = d.record v)
    (hd' : ∀ w < userPages, d'.lookup w = sharedEntry (d.lookup w))
    (ho : ∀ w, d'.opened w = d.opened w)
    (hp : ∀ r ∈ done, c.lookup r.vaddr = ⟨r.frame, r.flags⟩ ∧ c.opened r.vaddr = true)
    (hk : ∀ w, (∀ r ∈ done, r.vaddr ≠ w) → c.lookup w = dst.lookup w)
    (hc : c.usrFrames ≤ d.usrFrames)
    (hh : p'.Holds (sysAll (c :: d' :: ds) + he') (usrAll (c :: d' :: ds))) :
    FramesInv p' he' (c :: d' :: ds) := by
  have hd := h.ok d (by simp)
  have hpr : ∀ w < userPages, d'.present w = d.present w := fun w hw => by
    rw [present, hd' w hw, sharedEntry_present, present]
  have husr := usrFrames_shared hd'
  have hro : ∀ fl : PteFlags, (sharedFlags fl).writable = false := fun fl => by
    unfold sharedFlags
    split_ifs with hw
    · rfl
    · simpa using hw
  -- every page of the clone is a record of the directory
  have hf : ∀ w, c.present w = true → d.present w = true ∧ w < userPages ∧
      c.lookup w = ⟨(d.lookup w).frame, sharedFlags (d.lookup w).flags⟩ ∧ c.opened w = true := by
    intro w hw
    by_cases he : ∃ r ∈ done, r.vaddr = w
    · obtain ⟨r, hr, rfl⟩ := he
      obtain ⟨v, hv, hpv, rfl⟩ := hdo r hr
      exact ⟨hpv, hv, (hp _ hr).1, (hp _ hr).2⟩
    · have hz := hk w fun r hr hrw => he ⟨r, hr, hrw⟩
      rw [present, hz, hds] at hw
      exact absurd hw (by decide)
  refine ⟨hh, ?_, ?_⟩
  · intro d0 hd0
    simp only [mem_cons] at hd0
    rcases hd0 with rfl | rfl | hd0
    · refine ⟨Multiset.nodup_of_le hc hd.once, fun w hw hpw => ?_⟩
      obtain ⟨hpd, -, hl, hop⟩ := hf w hpw
      obtain ⟨hlo, -, hu⟩ := hd.user w hw hpd
      refine ⟨hlo, hop, ?_⟩
      rw [hl]
      unfold sharedFlags
      split_ifs <;> exact hu
    · refine ⟨by rw [husr]; exact hd.once, fun w hw hpw => ?_⟩
      obtain ⟨hlo, hop, hu⟩ := hd.user w hw (by rw [← hpr w hw]; exact hpw)
      refine ⟨hlo, (ho w).trans hop, ?_⟩
      rw [hd' w hw]
      unfold sharedEntry sharedFlags
      split_ifs <;> exact hu
    · exact h.ok d0 (by simp [hd0])
  · intro d0 hd0 v hv hpv hwv
    simp only [mem_cons] at hd0
    rcases hd0 with rfl | rfl | hd0
    · rw [(hf v hpv).2.2.1] at hwv
      exact absurd hwv (by simp [hro])
    · rw [hd' v hv, sharedEntry, if_pos (show (d.lookup v).flags.present = true from
        (hpr v hv).symm.trans hpv)] at hwv
      exact absurd hwv (by simp [hro])
    · -- a page somebody else may write is not one of the shared ones
      have hon := h.sole d0 (by simp [hd0]) v hv hpv hwv
      have hmem := Multiset.count_pos.2 (mem_usrAll hd0 (mem_usrFrames hv hpv))
      have hle := Multiset.count_le_of_le (d0.lookup v).frame hc
      simp only [usrAll_cons, Multiset.count_add] at hon ⊢
      rw [husr]
      omega

/-- What `copy_user_space` leaves: the caller sees what it saw, and so does the clone on success. -/
structure Copied (m : Vm) (dst : PageDir) (ds : List PageDir) (r : Errno × Vm × PageDir) :
    Prop where
  inv : FramesInv r.2.1.pmm r.2.1.heap (r.2.2 :: r.2.1.dir :: ds)
  mem : r.2.1.mem = m.mem
  frame : r.2.1.dir.frame = m.dir.frame
  dstFrame : r.2.2.frame = dst.frame
  view : ∀ w < userPages, r.2.1.dir.view w = m.dir.view w
  child : r.1 = .ok → ∀ w < userPages, r.2.2.view w = m.dir.view w

lemma shareOne_frame (d : PageDir) (vs : List ℕ) :
    (vs.foldl shareOne d).frame = d.frame := by
  induction vs generalizing d with
  | nil => rfl
  | cons v vs ih =>
    rw [foldl_cons, ih]
    unfold shareOne
    split_ifs
    · exact setEntry_frame
    · rfl

lemma dropRecords_eq (p : Pmm) (cs : List CopiedPage) :
    dropRecords p cs = (cs.map CopiedPage.frame).foldl pmmFreeFrame p := by
  rw [foldl_map]
  rfl

lemma view_of_absent {d : PageDir} {w : ℕ} (h : d.present w = false) : d.view w = none := by
  simp [PageDir.view, h]

lemma PageDir.mem_records {d : PageDir} {r : CopiedPage} :
    r ∈ d.records vs ↔ ∃ v ∈ vs, d.present v = true ∧ r = d.record v := by
  unfold records
  simp only [mem_map, mem_filter]
  constructor
  · rintro ⟨v, ⟨hv, hp⟩, rfl⟩
    exact ⟨v, hv, hp, rfl⟩
  · rintro ⟨v, hv, hp, rfl⟩
    exact ⟨v, ⟨hv, hp⟩, rfl⟩

lemma PageDir.records_frames (d : PageDir) (vs : List ℕ) :
    (d.records vs).map CopiedPage.frame = d.frameList vs := by
  unfold records frameList
  rw [map_map]
  rfl

lemma PageDir.records_nodup (d : PageDir) (hv : vs.Nodup) :
    ((d.records vs).map CopiedPage.vaddr).Nodup := by
  unfold records
  rw [map_map]
  exact (hv.filter _).map_on fun _ _ _ _ hx => hx

lemma sharePass_eq {n : ℕ} (hv : vs.Nodup) (m : Vm) (dst : PageDir)
    (hn : vs.countP m.dir.present ≤ n) : sharePass n vs m dst =
      let r := installPages (m.dir.records vs)
        { m with pmm := (m.dir.frameList vs).foldl pmmRefFrame m.pmm, dir := dst }
      (if r.1.isEmpty then .ok else .nomem,
        { r.2 with pmm := dropRecords r.2.pmm r.1, dir := vs.foldl shareOne m.dir },
        r.2.dir) := by
  unfold sharePass
  rw [sharePages_eq _ hv (by simpa using hn)]
  rfl

lemma FramesInv.ref_records {p : Pmm} {d : PageDir}
    (h : FramesInv p heap (dst :: d :: ds)) (husr : d.usrFrames = (d.frameList vs : Multiset ℕ))
    (hds : dst.usrFrames = 0) (hr : ds.length + 1 < 0xFF) :
    ((d.frameList vs).foldl pmmRefFrame p).Holds (sysAll (dst :: d :: ds) + heap)
      (d.frameList vs + usrAll (dst :: d :: ds)) := by
  have hd := h.ok d (by simp)
  refine h.holds.ref_all _ (Multiset.coe_nodup.1 (husr ▸ hd.once)) fun f hf => ?_
  have hmem : f ∈ d.usrFrames := by
    rw [husr]
    exact hf
  refine ⟨mem_usrAll (d := d) (by simp) hmem, ?_⟩
  have hle := @count_usrAll_le f (d :: ds) fun d0 hd0 => h.ok d0 (mem_cons_of_mem _ hd0)
  rw [usrAll_cons, hds, zero_add]
  simp only [length_cons] at hle
  omega

lemma present_of_zero (hd : ∀ w, dst.lookup w = Pte.zero) (w : ℕ) : dst.present w = false := by
  rw [present, hd]
  rfl

lemma usrFrames_of_zero (hd : ∀ w, dst.lookup w = Pte.zero) : dst.usrFrames = 0 :=
  held_eq_zero fun w _ => mapped_of_absent (present_of_zero hd w)

lemma Pmm.Holds.drop_records {p : Pmm} {d d' c : PageDir}
    {done rest : List CopiedPage} (hs : d.records vs = done ++ rest)
    (hc : c.usrFrames = (done.map CopiedPage.frame : List ℕ))
    (hsy : d'.sysFrames = d.sysFrames) (husr : d'.usrFrames = d.usrFrames)
    (h : p.Holds (c.sysFrames + (sysAll (d :: ds) + heap)) (d.frameList vs + usrAll (d :: ds))) :
    (dropRecords p rest).Holds (sysAll (c :: d' :: ds) + heap) (usrAll (c :: d' :: ds)) := by
  have hb : (d.frameList vs : Multiset ℕ) =
      (rest.map CopiedPage.frame : List ℕ) + (done.map CopiedPage.frame : List ℕ) := by
    rw [Multiset.coe_add, Multiset.coe_eq_coe, ← d.records_frames, hs, map_append]
    exact perm_append_comm
  rw [hb, ← hc, add_assoc, ← add_assoc c.sysFrames] at h
  rw [dropRecords_eq]
  refine Pmm.Holds.free_all _ ?_
  rw [sysAll_cons, sysAll_cons, hsy, ← sysAll_cons, usrAll_cons, usrAll_cons, husr, ← usrAll_cons]
  exact h

lemma sharePass_copied {n : ℕ} (hvs : vs.Nodup) (hmem : ∀ w, w ∈ vs ↔ w < userPages)
    (husr : m.dir.usrFrames = (m.dir.frameList vs : Multiset ℕ)) (hn : vs.countP m.dir.present ≤ n)
    (h : FramesInv m.pmm m.heap (dst :: m.dir :: ds)) (hds : ∀ w, dst.lookup w = .zero)
    (hro : ds.length + 1 < 0xFF) : Copied m dst ds (sharePass n vs m dst) := by
  have hd := h.ok m.dir (by simp)
  rw [sharePass_eq hvs m dst hn]
  obtain ⟨done, hs, hi⟩ := installPages_spec (m.dir.records vs)
    (m := { m with pmm := (m.dir.frameList vs).foldl pmmRefFrame m.pmm, dir := dst })
    (m.dir.records_nodup hvs) (record_installable (fun v hv => (hmem v).1 hv) hd hds)
  generalize installPages (m.dir.records vs) _ = inst at hs hi ⊢
  obtain ⟨rest, c⟩ := inst
  have hl : ∀ w < userPages, (vs.foldl shareOne m.dir).lookup w =
      sharedEntry (m.dir.lookup w) := fun w hw => by
    rw [shareAll_lookup _ hvs, if_pos ((hmem w).2 hw)]
  have hdo : ∀ r ∈ done, ∃ v < userPages, m.dir.present v = true ∧ r = m.dir.record v := by
    intro r hr
    obtain ⟨v, hv, hp, rfl⟩ := mem_records.1 (hs ▸ mem_append_left _ hr)
    exact ⟨v, (hmem v).1 hv, hp, rfl⟩
  have hc : c.dir.usrFrames = (done.map CopiedPage.frame : List ℕ) := by
    rw [hi.usr, usrFrames_of_zero hds, add_zero]
  refine ⟨?_, hi.same.1, shareOne_frame _ _, hi.same.2.2.1,
    fun w hw => view_shared (hl w hw), fun hr w hw => ?_⟩
  · refine h.shared hds hdo hl (shareAll_same _).2 hi.placed hi.kept ?_ ?_
    · rw [hc, husr, ← m.dir.records_frames, hs, map_append, ← Multiset.coe_add]
      exact Multiset.le_add_right _ _
    · have hre := h.ref_records husr (usrFrames_of_zero hds) hro
      rw [sysAll_cons, add_assoc, usrAll_cons, usrFrames_of_zero hds, zero_add] at hre
      rw [show c.heap = m.heap from hi.same.2.1]
      exact Pmm.Holds.drop_records hs hc (shareAll_same _).1
        (usrFrames_shared hl) (hi.holds hre)
  · -- nothing is left over, so every page of the caller has its record in place
    have hni : rest = [] := by
      cases rest with
      | nil => rfl
      | cons r rest => simp at hr
    rw [hni, append_nil] at hs
    cases hp : m.dir.present w with
    | false =>
      have hk := hi.kept w fun r hr' hrw => by
        obtain ⟨v, -, hpv, rfl⟩ := hdo r hr'
        rw [show w = v from hrw.symm, hpv] at hp
        exact absurd hp (by decide)
      rw [view_of_absent hp, view_of_absent]
      rw [present, hk]
      exact present_of_zero hds w
    | true =>
      have hrc : m.dir.record w ∈ done := by
        rw [← hs]
        exact mem_records.2 ⟨w, (hmem w).2 hw, hp, rfl⟩
      have hpl : c.dir.lookup w = _ := (hi.placed _ hrc).1
      refine view_shared (hpl.trans ?_)
      rw [sharedEntry, if_pos (show (m.dir.lookup w).flags.present = true from hp)]
      rfl

lemma countP_le_countUserPages (d : PageDir) :
    userVpns.countP d.present ≤ countUserPages d := by
  exact le_rfl

lemma Copied.kfree (h : Copied m dst ds r) (n : ℕ) :
    Copied m dst ds (r.1, { kfree n r.2.1.toPhys with dir := r.2.1.dir }, r.2.2) :=
  { h with
    inv := .kfree (m := r.2.1.toPhys) h.inv n
    mem := (heapShrink_mem n r.2.1.toPhys).trans h.mem }

lemma Copied.of_phys {ph : Phys} (h : Copied ⟨ph, m.dir⟩ dst ds r)
    (hmem : ph.mem = m.mem) : Copied m dst ds r :=
  { h with mem := h.mem.trans hmem }

lemma copyUserSpace_copied (h : FramesInv m.pmm m.heap (dst :: m.dir :: ds))
    (hd : ∀ w, dst.lookup w = .zero) (hro : ds.length + 1 < 0xFF) :
    Copied m dst ds (copyUserSpace e m dst) := by
  unfold copyUserSpace
  dsimp only
  by_cases hc : countUserPages m.dir = 0
  · rw [if_pos hc]
    have ha : ∀ w < userPages, m.dir.present w = false := fun w hw => by
      simpa using countP_eq_zero.1 hc w (mem_userVpns.2 hw)
    exact ⟨h, rfl, rfl, rfl, fun _ _ => rfl, fun _ w hw => by
      rw [view_of_absent (present_of_zero hd w), view_of_absent (ha w hw)]⟩
  · rw [if_neg hc]
    have hk := FramesInv.kmalloc (m := m.toPhys) h e.records
    have hkm : (kmalloc e.records m.toPhys).2.mem = m.mem := heapGrow_mem e.records.pages m.toPhys
    cases hok : (kmalloc e.records m.toPhys).1 with
    | false =>
      exact ⟨hk, hkm, rfl, rfl, fun _ _ => rfl, fun hr => absurd hr (by simp)⟩
    | true =>
      have hp := sharePass_copied (m := ⟨(kmalloc e.records m.toPhys).2, m.dir⟩)
        userVpns_nodup (fun _ => mem_userVpns) m.dir.usrFrames_eq
        (countP_le_countUserPages m.dir) hk hd hro
      exact (hp.kfree e.released).of_phys hkm

end Copy

end EsdumanOS
