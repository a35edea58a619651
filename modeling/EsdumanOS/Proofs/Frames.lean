import EsdumanOS.Proofs.Paging

/-!
# The directories of a machine

`FramesInv p heap ds` ties the allocator to all directories at once: the ledger is made of what they
hold and map and of the kernel heap, no directory maps a frame twice, and an entry that may be
written is the only one for its frame.
-/

namespace EsdumanOS

open Lib List PageDir

/-- A directory in order: no frame is mapped twice, and what is mapped is a program's. -/
structure PageDir.Ok (d : PageDir) : Prop where
  once : d.usrFrames.Nodup
  user : ∀ v < userPages, d.present v = true →
    1024 ≤ v ∧ d.opened v = true ∧ (d.lookup v).flags.user = true

def sysAll (ds : List PageDir) : Multiset ℕ := (ds.map sysFrames).sum
def usrAll (ds : List PageDir) : Multiset ℕ := (ds.map usrFrames).sum

structure FramesInv (p : Pmm) (heap : List ℕ) (ds : List PageDir) : Prop where
  holds : p.Holds (sysAll ds + heap) (usrAll ds)
  ok : ∀ d ∈ ds, d.Ok
  sole : ∀ d ∈ ds, ∀ v < userPages, d.present v = true → (d.lookup v).flags.writable = true →
    (usrAll ds).count (d.lookup v).frame = 1

section Bags

variable {d : PageDir} {ds ds' : List PageDir} {f : ℕ}

@[simp] lemma sysAll_cons : sysAll (d :: ds) = d.sysFrames + sysAll ds := by simp [sysAll]
@[simp] lemma usrAll_cons : usrAll (d :: ds) = d.usrFrames + usrAll ds := by simp [usrAll]

lemma mem_usrAll (hd : d ∈ ds) (hf : f ∈ d.usrFrames) : f ∈ usrAll ds := by
  obtain ⟨l, r, rfl⟩ := append_of_mem hd
  simp only [usrAll, map_append, map_cons, sum_append, sum_cons, Multiset.mem_add]
  exact .inr (.inl hf)

lemma mem_sysAll (hd : d ∈ ds) (hf : f ∈ d.sysFrames) : f ∈ sysAll ds := by
  obtain ⟨l, r, rfl⟩ := append_of_mem hd
  simp only [sysAll, map_append, map_cons, sum_append, sum_cons, Multiset.mem_add]
  exact .inr (.inl hf)

lemma count_usrAll_le : ∀ {ds : List PageDir}, (∀ d ∈ ds, d.Ok) → (usrAll ds).count f ≤ ds.length
  | [], _ => by simp [usrAll]
  | d :: ds, h => by
    have hd := Multiset.nodup_iff_count_le_one.1 (h d mem_cons_self).once f
    have hds := count_usrAll_le fun d' hd' => h d' (mem_cons_of_mem d hd')
    rw [usrAll_cons, Multiset.count_add, length_cons]
    omega

lemma sysAll_perm (h : ds.Perm ds') : sysAll ds = sysAll ds' := (h.map _).sum_eq

lemma usrAll_perm (h : ds.Perm ds') : usrAll ds = usrAll ds' := (h.map _).sum_eq

end Bags

namespace FramesInv

variable {p p' : Pmm} {heap heap' : List ℕ} {d d' : PageDir} {ds ds' : List PageDir} {f v : ℕ}
  {e : Pte}

section

variable (h : FramesInv p heap ds)
include h

lemma perm (hp : ds.Perm ds') : FramesInv p heap ds' where
  holds := by
    rw [← sysAll_perm hp, ← usrAll_perm hp]
    exact h.holds
  ok d hd := h.ok d (hp.mem_iff.2 hd)
  sole d hd v hv := by
    rw [← usrAll_perm hp]
    exact h.sole d (hp.mem_iff.2 hd) v hv

lemma refcount_eq (hf : f ∈ usrAll ds) : pmmFrameRefcount p f = (usrAll ds).count f :=
  h.holds.refcount_usr hf

lemma apart (hs : f ∈ sysAll ds) : f ∉ usrAll ds :=
  h.holds.ledger.apart f (Multiset.mem_add.2 (.inl hs))

lemma sole_of_le {d0 : PageDir} (hd : d0 ∈ ds) (hd' : d0 ∈ ds')
    (hle : ∀ f ∈ d0.usrFrames, (usrAll ds').count f ≤ (usrAll ds).count f) (v : ℕ)
    (hv : v < userPages) (hp : d0.present v = true) (hw : (d0.lookup v).flags.writable = true) :
    (usrAll ds').count (d0.lookup v).frame = 1 := by
  have hmem := mem_usrFrames hv hp
  have ho := h.sole d0 hd v hv hp hw
  have hpo := Multiset.count_pos.2 (mem_usrAll hd' hmem)
  have := hle _ hmem
  omega

end

lemma replace (h : FramesInv p heap (d :: ds))
    (hh : p'.Holds (sysAll (d' :: ds) + heap') (usrAll (d' :: ds))) (hok : d'.Ok)
    (hle : ∀ f ∈ usrAll ds, d'.usrFrames.count f ≤ d.usrFrames.count f)
    (hs : ∀ v < userPages, d'.present v = true → (d'.lookup v).flags.writable = true →
      (usrAll (d' :: ds)).count (d'.lookup v).frame = 1) : FramesInv p' heap' (d' :: ds) where
  holds := hh
  ok := by
    intro d0 hd
    rcases mem_cons.1 hd with rfl | hd
    · exact hok
    · exact h.ok d0 (mem_cons_of_mem d hd)
  sole := by
    intro d0 hd v hv hp hw
    rcases mem_cons.1 hd with rfl | hmem
    · exact hs v hv hp hw
    · refine h.sole_of_le (mem_cons_of_mem d hmem) hd (fun f hf => ?_) v hv hp hw
      have := hle f (mem_usrAll hmem hf)
      rw [usrAll_cons, usrAll_cons, Multiset.count_add, Multiset.count_add]
      omega

structure Fits (d : PageDir) (ds : List PageDir) (v : ℕ) (e : Pte) (d' : PageDir) : Prop where
  low : 1024 ≤ v
  opened : d'.opened v = true
  user : e.flags.user = true
  once : e.frame ∉ heldOff userPages v d.mapped
  apart : e.frame ∈ usrAll ds → d.mapped v = some e.frame
  sole : e.flags.writable = true → (usrAll (d' :: ds)).count e.frame = 1

/-- One entry changes: only what it maps is to be checked. -/
lemma setEntry (h : FramesInv p heap (d :: ds)) (hs : Sets d v e d')
    (ho : ∀ w, d.opened w = true → d'.opened w = true) (hv : v < userPages)
    (hh : p'.Holds (sysAll (d' :: ds) + heap') (usrAll (d' :: ds)))
    (hn : e.flags.present = true → Fits d ds v e d') : FramesInv p' heap' (d' :: ds) := by
  have hd := h.ok d mem_cons_self
  have hof : heldOff userPages v d.mapped ≤ d.usrFrames := by
    cases hp : d.present v with
    | false => rw [usr_of_absent hp]
    | true =>
      rw [usr_of_present hv hp]
      exact Multiset.le_cons_self _ _
  -- what the directory maps now, as far as it is not the new frame
  have hc : ∀ f, (e.flags.present = true → f ≠ e.frame) →
      d'.usrFrames.count f ≤ d.usrFrames.count f := by
    intro f hf
    have hle := Multiset.count_le_of_le f hof
    cases hp : e.flags.present with
    | false => rwa [hs.usr_absent hp]
    | true =>
      rw [hs.usr_present hv hp, Multiset.count_cons, if_neg (hf hp), add_zero]
      exact hle
  refine h.replace hh ⟨?_, fun w hw hpw => ?_⟩ (fun f hf => ?_) (fun w hw hpw hww => ?_)
  · cases hp : e.flags.present with
    | false =>
      rw [hs.usr_absent hp]
      exact Multiset.nodup_of_le hof hd.once
    | true =>
      rw [hs.usr_present hv hp]
      exact Multiset.nodup_cons.2 ⟨(hn hp).once, Multiset.nodup_of_le hof hd.once⟩
  · by_cases hwv : w = v
    · subst hwv
      rw [present, hs.lookup_self] at hpw
      rw [hs.lookup_self]
      exact ⟨(hn hpw).low, (hn hpw).opened, (hn hpw).user⟩
    · rw [present, hs.lookup_ne hwv] at hpw
      rw [hs.lookup_ne hwv]
      obtain ⟨hl, hop, hu⟩ := hd.user w hw hpw
      exact ⟨hl, ho w hop, hu⟩
  · by_cases hfe : e.flags.present = true ∧ f = e.frame
    · obtain ⟨hp, rfl⟩ := hfe
      have hm := (hn hp).apart hf
      obtain ⟨hpv, hfr⟩ := mapped_eq_some.1 hm
      rw [hs.usr_present hv hp, usr_of_present hv hpv, hfr]
    · exact hc f fun hp hf' => hfe ⟨hp, hf'⟩
  · by_cases hwv : w = v
    · subst hwv
      rw [present, hs.lookup_self] at hpw
      rw [hs.lookup_self] at hww ⊢
      exact (hn hpw).sole hww
    · have hmem := mem_usrFrames hw hpw
      rw [present, hs.lookup_ne hwv] at hpw
      rw [hs.lookup_ne hwv] at hww hmem ⊢
      have hon := h.sole d mem_cons_self w hw hpw hww
      have hle := hc (d.lookup w).frame fun hp hfe => (hn hp).once (by
        rw [← hfe]
        exact mem_heldOff.2 ⟨w, hw, hwv, mapped_of_present hpw⟩)
      have hpo := Multiset.count_pos.2 hmem
      rw [usrAll_cons, Multiset.count_add] at hon ⊢
      omega

end FramesInv

end EsdumanOS
