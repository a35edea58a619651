import EsdumanOS.Paging
import EsdumanOS.Proofs.Pmm

/-!
# What the page table functions do to the ledger

A directory holds its own frame and those of its tables, and maps frames by its entries. `map_page`
and its like are specified by the entries a walk finds afterwards; the allocator's ledger follows
the directory.
-/

namespace EsdumanOS

open Lib Function PageDir

namespace PageDir

def mapped (d : PageDir) (v : ℕ) : Option ℕ :=
  if d.present v then some (d.lookup v).frame else none

def usrFrames (d : PageDir) : Multiset ℕ :=
  held userPages d.mapped

def sysFrames (d : PageDir) : Multiset ℕ :=
  d.frame ::ₘ held userTables fun i => (d.tables i).map PageTable.frame

section Entries

variable {d d' : PageDir} {v w : ℕ} {e : Pte} {t : PageTable}

lemma table_of_present (h : d.present v = true) : ∃ t, d.tables (v / 1024) = some t := by
  cases ht : d.tables (v / 1024) with
  | none => simp [present, lookup, ht, Pte.zero, pageAbsent] at h
  | some t => exact ⟨t, rfl⟩

lemma mapped_of_present (h : d.present v = true) : d.mapped v = some (d.lookup v).frame := by
  simp [mapped, h]

lemma mapped_of_absent (h : d.present v = false) : d.mapped v = none := by
  simp [mapped, h]

lemma mapped_eq_some {f : ℕ} :
    d.mapped v = some f ↔ d.present v = true ∧ (d.lookup v).frame = f := by
  simp [mapped]

lemma mapped_congr (h : d'.lookup v = d.lookup v) : d'.mapped v = d.mapped v := by
  unfold mapped present
  rw [h]

def Sets (d : PageDir) (v : ℕ) (e : Pte) (d' : PageDir) : Prop :=
  ∀ w, d'.lookup w = if w = v then e else d.lookup w

lemma setEntry_sets (h : d.tables (v / 1024) = some t) : Sets d v e (d.setEntry v e) := by
  intro w
  unfold setEntry lookup setTable
  rw [h]
  by_cases htable : w / 1024 = v / 1024
  · rw [htable]
    dsimp only
    rw [update_self, h]
    dsimp only
    rw [update_apply]
    exact if_congr ⟨fun hr => by omega, fun hw => by rw [hw]⟩ rfl rfl
  · rw [if_neg fun hw => htable (by rw [hw])]
    dsimp only
    rw [update_of_ne htable]

lemma setEntry_of_none (h : d.tables (v / 1024) = none) : d.setEntry v e = d := by
  unfold setEntry
  rw [h]

@[simp] lemma setEntry_frame : (d.setEntry v e).frame = d.frame := by
  unfold setEntry
  split <;> rfl

lemma setTable_sysFrames {i : ℕ} {t' : PageTable} (h : d.tables i = some t)
    (hf : t'.frame = t.frame) : (d.setTable i t').sysFrames = d.sysFrames := by
  refine congrArg (d.frame ::ₘ ·) (held_congr fun k _ => ?_)
  unfold setTable
  dsimp only
  rw [update_apply]
  split_ifs with hk
  · rw [hk, h]
    simp [hf]
  · rfl

@[simp] lemma setEntry_sysFrames : (d.setEntry v e).sysFrames = d.sysFrames := by
  cases h : d.tables (v / 1024) with
  | none => rw [setEntry_of_none h]
  | some t =>
    unfold setEntry
    rw [h]
    exact setTable_sysFrames h rfl

@[simp] lemma setEntry_opened : (d.setEntry v e).opened w = d.opened w := by
  cases h : d.tables (v / 1024) with
  | none => rw [setEntry_of_none h]
  | some t =>
    unfold setEntry opened setTable
    rw [h]
    dsimp only
    by_cases hw : w / 1024 = v / 1024
    · rw [hw, update_self, h]
    · rw [update_of_ne hw]

namespace Sets

section

variable (h : Sets d v e d')
include h

lemma lookup_self : d'.lookup v = e := by
  rw [h v, if_pos rfl]

lemma lookup_ne (hw : w ≠ v) : d'.lookup w = d.lookup w := by
  rw [h w, if_neg hw]

lemma heldOff_eq : heldOff userPages v d'.mapped = heldOff userPages v d.mapped :=
  heldOff_congr fun _ _ hw => mapped_congr (h.lookup_ne hw)

lemma usr_absent (he : e.flags.present = false) :
    d'.usrFrames = heldOff userPages v d.mapped := by
  rw [← h.heldOff_eq]
  exact held_none (mapped_of_absent (by rw [present, h.lookup_self, he]))

lemma usr_present (hv : v < userPages) (he : e.flags.present = true) :
    d'.usrFrames = e.frame ::ₘ heldOff userPages v d.mapped := by
  rw [← h.heldOff_eq]
  refine held_some hv ?_
  rw [mapped_of_present (by rw [present, h.lookup_self, he]), h.lookup_self]

end

end Sets

lemma usr_of_absent (h : d.present v = false) : d.usrFrames = heldOff userPages v d.mapped :=
  held_none (mapped_of_absent h)

lemma usr_of_present (hv : v < userPages) (h : d.present v = true) :
    d.usrFrames = (d.lookup v).frame ::ₘ heldOff userPages v d.mapped :=
  held_some hv (mapped_of_present h)

lemma usr_congr (h : ∀ w < userPages, d'.lookup w = d.lookup w) : d'.usrFrames = d.usrFrames :=
  held_congr fun w hw => mapped_congr (h w hw)

lemma mem_usrFrames (hv : v < userPages) (h : d.present v = true) :
    (d.lookup v).frame ∈ d.usrFrames :=
  mem_held.2 ⟨v, hv, mapped_of_present h⟩

end Entries

end PageDir

lemma mem_userVpns {v : ℕ} : v ∈ userVpns ↔ v < userPages := by
  unfold userVpns
  exact List.mem_range

lemma userVpns_nodup : userVpns.Nodup := by
  unfold userVpns
  exact List.nodup_range

section Map

variable {m : Vm} {v frame : ℕ} {fl : PteFlags} {sys usr : Multiset ℕ}

def Vm.SameElse (m m' : Vm) : Prop :=
  m'.mem = m.mem ∧ m'.heap = m.heap ∧ m'.dir.frame = m.dir.frame ∧
    ∀ w, m.dir.opened w = true → m'.dir.opened w = true

lemma Vm.SameElse.refl (m : Vm) : m.SameElse m := ⟨rfl, rfl, rfl, fun _ h => h⟩

lemma ensureTable_spec (m : Vm) (v : ℕ) (fl : PteFlags) :
    m.SameElse (ensureTable m v fl).2 ∧
      (∀ w, (ensureTable m v fl).2.dir.lookup w = m.dir.lookup w) ∧
      ((ensureTable m v fl).1 = true →
        (∃ t, (ensureTable m v fl).2.dir.tables (v / 1024) = some t) ∧
        (fl.user = true → (ensureTable m v fl).2.dir.opened v = true)) := by
  unfold ensureTable
  cases ht : m.dir.tables (v / 1024) with
  | none =>
    rcases halloc : pmmAllocFrame m.pmm with ⟨_ | f, p⟩
    · exact ⟨Vm.SameElse.refl m, fun _ => rfl, fun h => absurd h Bool.false_ne_true⟩
    · refine ⟨⟨rfl, rfl, rfl, fun w hw => ?_⟩, fun w => ?_, fun _ => ⟨⟨_, update_self ..⟩, ?_⟩⟩
      · have hne : w / 1024 ≠ v / 1024 := by
          intro heq
          simp [opened, heq, ht] at hw
        simpa [opened, setTable, update_of_ne hne] using hw
      · -- the new table is empty, and there was none
        by_cases hw : w / 1024 = v / 1024
        · simp [lookup, setTable, hw, ht]
        · simp [lookup, setTable, update_of_ne hw]
      · intro hu
        simp [opened, setTable, hu]
  | some t =>
    dsimp only
    split_ifs with ho
    · refine ⟨⟨rfl, rfl, rfl, fun w hw => ?_⟩, fun w => ?_, fun _ => ⟨⟨_, update_self ..⟩, ?_⟩⟩
      · by_cases hwv : w / 1024 = v / 1024
        · simp [opened, setTable, hwv]
        · simpa [opened, setTable, update_of_ne hwv] using hw
      · by_cases hw : w / 1024 = v / 1024
        · simp [lookup, setTable, hw, ht]
        · simp [lookup, setTable, update_of_ne hw]
      · simp [opened, setTable]
    · refine ⟨Vm.SameElse.refl m, fun _ => rfl, fun _ => ⟨⟨t, ht⟩, fun hu => ?_⟩⟩
      simpa [opened, ht, hu] using ho

lemma ensureTable_holds (fl : PteFlags) (hv : v < userPages)
    (h : m.pmm.Holds (m.dir.sysFrames + sys) usr) :
    (ensureTable m v fl).2.pmm.Holds ((ensureTable m v fl).2.dir.sysFrames + sys) usr := by
  unfold ensureTable
  cases ht : m.dir.tables (v / 1024) with
  | none =>
    rcases halloc : pmmAllocFrame m.pmm with ⟨_ | f, p⟩
    · exact h.alloc_none halloc
    · have hp := h.alloc_sys halloc
      have hi : v / 1024 < userTables := by
        unfold userPages at hv
        omega
      have hs : (m.dir.setTable (v / 1024) ⟨f, fl.user, fun _ => .zero⟩).sysFrames =
          f ::ₘ m.dir.sysFrames := by
        unfold sysFrames
        rw [held_some hi (x := f) (by simp [setTable]),
          held_none (v := v / 1024) (g := fun i => (m.dir.tables i).map PageTable.frame)
            (by simp [ht]), Multiset.cons_swap]
        refine congrArg (fun s => f ::ₘ m.dir.frame ::ₘ s) (heldOff_congr fun w _ hw => ?_)
        simp [setTable, update_of_ne hw]
      rwa [hs, Multiset.cons_add]
  | some t =>
    dsimp only
    split_ifs
    · rw [setTable_sysFrames ht (by rfl)]
      exact h
    · exact h

lemma mapPage_spec (m : Vm) (v frame : ℕ) (fl : PteFlags) :
    m.SameElse (mapPage m v frame fl).2 ∧
      (((mapPage m v frame fl).1 ≠ .ok ∧
          ∀ w, (mapPage m v frame fl).2.dir.lookup w = m.dir.lookup w) ∨
        ((mapPage m v frame fl).1 = .ok ∧
          (m.dir.present v = true → (m.dir.lookup v).frame = frame) ∧
          Sets m.dir v ⟨frame, fl⟩ (mapPage m v frame fl).2.dir ∧
          (fl.user = true → (mapPage m v frame fl).2.dir.opened v = true))) := by
  obtain ⟨hsame, hl, htable⟩ := ensureTable_spec m v fl
  unfold mapPage
  rcases he : ensureTable m v fl with ⟨_ | _, m'⟩
  · rw [he] at hsame hl
    exact ⟨hsame, .inl ⟨by simp, hl⟩⟩
  · rw [he] at hsame hl htable
    obtain ⟨⟨t, ht⟩, ho⟩ := htable rfl
    dsimp only at hl ht ho ⊢
    split_ifs with hb
    · exact ⟨hsame, .inl ⟨by simp, hl⟩⟩
    · refine ⟨⟨hsame.1, hsame.2.1, ?_, fun w hw => ?_⟩, .inr ⟨rfl, ?_, fun w => ?_, fun hu => ?_⟩⟩
      · exact setEntry_frame.trans hsame.2.2.1
      · exact setEntry_opened.trans (hsame.2.2.2 w hw)
      · intro hp
        by_contra hne
        refine hb ⟨?_, ?_⟩
        · rw [present, hl]
          exact hp
        · rw [hl]
          exact hne
      · rw [setEntry_sets ht w, hl]
      · exact setEntry_opened.trans (ho hu)

lemma mapPage_holds (frame : ℕ) (fl : PteFlags) (hv : v < userPages)
    (h : m.pmm.Holds (m.dir.sysFrames + sys) usr) :
    (mapPage m v frame fl).2.pmm.Holds ((mapPage m v frame fl).2.dir.sysFrames + sys) usr := by
  have he := ensureTable_holds fl hv h
  unfold mapPage
  rcases heq : ensureTable m v fl with ⟨_ | _, m'⟩
  · rwa [heq] at he
  · rw [heq] at he
    dsimp only at he ⊢
    split_ifs
    · exact he
    · rwa [setEntry_sysFrames]

end Map

end EsdumanOS
