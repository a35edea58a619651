import EsdumanOS.Eager
import EsdumanOS.Proofs.SysMem

/-!
# Copy-on-write faults

`cow_handle_fault` finds nothing to do, fails because a shared frame cannot be copied, or leaves the
page writable on a frame that nobody else maps and that holds the bytes the page had.
-/

namespace EsdumanOS

open Lib Multiset Function PageDir

variable {m : Vm} {ds : List PageDir} {v addr : ℕ} {e : VmEnv}

def Pte.unshared (e : Pte) (g : ℕ) : Pte :=
  ⟨g, { e.flags with cow := false, writable := true }⟩

/-- The page `v` is writable on the frame `g`, where it has the bytes it had. -/
structure MovedTo (m : Vm) (ds : List PageDir) (v g : ℕ) (m' : Vm) : Prop where
  inv : m'.Inv ds
  sets : Sets m.dir v ((m.dir.lookup v).unshared g) m'.dir
  bytes : m'.mem g = m.mem (m.dir.lookup v).frame
  elsewhere : ∀ f ∈ usrAll (m.dir :: ds), m'.mem f = m.mem f

/-- What `cow_handle_fault` can answer, and when. -/
inductive CowSpec (e : VmEnv) (m : Vm) (ds : List PageDir) (v : ℕ) : CowResult × Vm → Prop
  | notCow (h : ¬ (1024 ≤ v ∧ v < userPages ∧ m.dir.present v = true ∧
      (m.dir.lookup v).flags.cow = true)) : CowSpec e m ds v (.notCow, m)
  | failed (p : Pmm) (hv : v < userPages) (hp : m.dir.present v = true)
      (hcow : (m.dir.lookup v).flags.cow = true) (hno : NoCopy e m.pmm m.dir v)
      (inv : Vm.Inv { m with pmm := p } ds) : CowSpec e m ds v (.failed, { m with pmm := p })
  | resolved (g : ℕ) (m' : Vm) (hv : v < userPages) (hp : m.dir.present v = true)
      (hcow : (m.dir.lookup v).flags.cow = true) (hno : ¬ NoCopy e m.pmm m.dir v)
      (h : MovedTo m ds v g m') : CowSpec e m ds v (.resolved, m')

lemma usrAll_present {d : PageDir} (hv : v < userPages) (hp : d.present v = true) :
    usrAll (d :: ds) =
      (d.lookup v).frame ::ₘ (heldOff userPages v d.mapped + usrAll ds) := by
  rw [usrAll_cons, usr_of_present hv hp, cons_add]

lemma MovedTo.of_sets {g : ℕ} {p : Pmm} {mem : ℕ → Buf} (h : m.Inv ds) (hv : v < userPages)
    (hp : m.dir.present v = true) (hof : g ∉ heldOff userPages v m.dir.mapped) (ha : g ∉ usrAll ds)
    (hh : p.Holds (sysAll (m.dir :: ds) + m.heap)
      (g ::ₘ (heldOff userPages v m.dir.mapped + usrAll ds)))
    (hbytes : mem g = m.mem (m.dir.lookup v).frame)
    (he : ∀ f ∈ usrAll (m.dir :: ds), mem f = m.mem f) :
    MovedTo m ds v g ⟨⟨p, mem, m.heap⟩, m.dir.setEntry v ((m.dir.lookup v).unshared g)⟩ := by
  obtain ⟨t, ht⟩ := table_of_present hp
  obtain ⟨hl, ho, hu⟩ := (h.ok m.dir List.mem_cons_self).user v hv hp
  have hs := setEntry_sets (e := (m.dir.lookup v).unshared g) ht
  have husr := hs.usr_present hv hp
  dsimp only [Pte.unshared] at husr
  refine ⟨.setEntry h hs (fun w hw => setEntry_opened.trans hw) hv ?_ fun _ =>
    ⟨hl, setEntry_opened.trans ho, hu, hof, fun hf => absurd hf ha,
      fun _ => ?_⟩, hs, hbytes, he⟩
  · rw [← cons_add, ← husr, sysAll_cons, ← setEntry_sysFrames (v := v),
      ← sysAll_cons, ← usrAll_cons] at hh
    exact hh
  · dsimp only [Pte.unshared]
    rw [usrAll_cons, husr, count_add, count_cons_self, count_eq_zero.2 hof, count_eq_zero.2 ha]

lemma cow_in_place (h : m.Inv ds) (hv : v < userPages) (hp : m.dir.present v = true)
    (ho : pmmFrameRefcount m.pmm (m.dir.lookup v).frame ≤ 1) :
    MovedTo m ds v (m.dir.lookup v).frame
      { m with dir := m.dir.setEntry v ((m.dir.lookup v).unshared (m.dir.lookup v).frame) } := by
  have hmem : (m.dir.lookup v).frame ∈ usrAll (m.dir :: ds) :=
    mem_usrAll List.mem_cons_self (mem_usrFrames hv hp)
  rw [h.refcount_eq hmem, usrAll_present hv hp, count_cons_self] at ho
  have hr : (m.dir.lookup v).frame ∉ heldOff userPages v m.dir.mapped + usrAll ds :=
    count_eq_zero.1 (by omega)
  rw [mem_add, not_or] at hr
  have hh := h.holds
  rw [usrAll_present hv hp] at hh
  exact .of_sets h hv hp hr.1 hr.2 hh rfl fun _ _ => rfl

lemma cow_to_fresh {fresh : ℕ} {p : Pmm} (h : m.Inv ds) (hv : v < userPages)
    (hp : m.dir.present v = true) (ha : pmmAllocFrame m.pmm = (some fresh, p)) :
    MovedTo m ds v fresh { m with
      pmm := pmmFreeFrame p (m.dir.lookup v).frame
      mem := update m.mem fresh (m.mem (m.dir.lookup v).frame)
      dir := m.dir.setEntry v ((m.dir.lookup v).unshared fresh) } := by
  have hfresh := h.holds.alloc_fresh ha
  have hno : fresh ∉ usrAll (m.dir :: ds) := fun hf => hfresh (mem_add.2 (.inr hf))
  have hn := h.holds.alloc_usr ha
  rw [usrAll_present hv hp, cons_swap] at hn
  have hr := hno
  rw [usrAll_present hv hp, mem_cons, mem_add, not_or, not_or] at hr
  refine .of_sets h hv hp hr.2.1 hr.2.2 hn.free_usr (update_self ..) fun f hf => ?_
  exact update_of_ne (fun heq => hno (by rwa [← heq])) _ _

lemma cowHandleFault_spec (e : VmEnv) (addr : ℕ) (h : m.Inv ds) :
    CowSpec e m ds (addr / pageSize) (cowHandleFault e m addr) := by
  have hpages := userPages_eq
  unfold cowHandleFault
  dsimp only
  by_cases hr : addr < 0x400000 ∨ 0xC0000000 ≤ addr
  · rw [if_pos hr]
    refine .notCow fun hh => ?_
    rw [pageSize] at hh
    omega
  have hv : addr / pageSize < userPages := by
    rw [pageSize]
    omega
  split_ifs with hab hcow ho hc
  · exact .notCow fun hh => by simp [present, hab] at hh
  · exact .notCow fun hh => by simp [hcow] at hh
  all_goals
    have hp : m.dir.present (addr / pageSize) = true := Bool.not_eq_false _ ▸ hab
    have hs := Bool.not_eq_false _ ▸ hcow
  · exact .resolved _ _ hv hp hs (fun hno => ho.not_gt hno.1) (cow_in_place h hv hp ho)
  · rcases ha : pmmAllocFrame m.pmm with ⟨_ | fresh, p⟩
    · exact .failed p hv hp hs ⟨not_le.1 ho, .inl (by rw [ha])⟩ (h.alloc_none ha)
    · exact .resolved fresh _ hv hp hs (fun hno => by simpa [ha, hc] using hno.2)
        (cow_to_fresh h hv hp ha)
  · rcases ha : pmmAllocFrame m.pmm with ⟨_ | fresh, p⟩
    · exact .failed p hv hp hs ⟨not_le.1 ho, .inl (by rw [ha])⟩ (h.alloc_none ha)
    · refine .failed _ hv hp hs ⟨not_le.1 ho, .inr (by simpa using hc)⟩ ?_
      exact { h with holds := (h.holds.alloc_usr ha).free_usr }

lemma storeByte_inv (addr : ℕ) (byte : UInt8) (h : m.Inv ds) :
    (storeByte m addr byte).2.Inv ds := by
  unfold storeByte
  dsimp only
  split_ifs
  · exact h
  · exact h

lemma userWrite_inv (e : VmEnv) (addr : ℕ) (byte : UInt8) (h : m.Inv ds) :
    (userWrite e m addr byte).2.Inv ds := by
  unfold userWrite
  dsimp only
  split_ifs
  · exact storeByte_inv addr byte h
  · have hcow := cowHandleFault_spec e addr h
    rcases hres : cowHandleFault e m addr with ⟨r, m'⟩
    rw [hres] at hcow
    cases hcow with
    | notCow _ => exact h
    | failed p _ _ _ _ hinv => exact hinv
    | resolved g _ _ _ _ _ hm => exact storeByte_inv addr byte hm.inv
  · exact h

end EsdumanOS
