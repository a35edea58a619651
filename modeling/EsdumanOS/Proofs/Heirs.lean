import EsdumanOS.Lineage
import EsdumanOS.Proofs.NewsSlots

/-!
# What a step leaves of pids

No step but `fork` and `exec` brings a pid into the task list: the tasks that are left keep their
pids and parents (`Heirs`). A notice in use was there before, but for the one parked about the task
that ended or stopped (`Parks`).
-/

namespace EsdumanOS

open ProcTable List

variable {t t' t1 u : ProcTable} {p v : Proc} {pid : ℤ} {e : ReapEnv} {who : MaySleep}

structure Heirs (t t' : ProcTable) : Prop where
  pids : t'.pids.Sublist t.pids
  parents : ∀ q ∈ t'.tasks, ∃ p ∈ t.tasks, q.pid = p.pid ∧ q.parentPid = p.parentPid

namespace Heirs

lemma of_eq (htasks : t'.tasks = t.tasks) : Heirs t t' :=
  ⟨pids_congr htasks ▸ .refl _, fun q hq => ⟨q, htasks ▸ hq, rfl, rfl⟩⟩

lemma refl (t : ProcTable) : Heirs t t := of_eq rfl

lemma trans (h : Heirs t t1) (h' : Heirs t1 t') : Heirs t t' := by
  refine ⟨h'.pids.trans h.pids, fun q hq => ?_⟩
  obtain ⟨r, hr, hpid, hpa⟩ := h'.parents q hq
  obtain ⟨p, hp, hp', hpa'⟩ := h.parents r hr
  exact ⟨p, hp, hpid.trans hp', hpa.trans hpa'⟩

lemma of_steady (h : Steady who t t') : Heirs t t' := by
  refine ⟨h.pids ▸ .refl _, fun q hq => ?_⟩
  obtain ⟨p, hp, hs⟩ := h.mem_of hq
  exact ⟨p, hp, hs.pid, hs.parent⟩

lemma modify {f : Proc → Proc} (hf : ∀ p, (f p).pid = p.pid ∧ (f p).parentPid = p.parentPid) :
    Heirs t (t.modify pid f) := by
  refine ⟨by rw [modify_pids fun p => (hf p).1], fun q hq => ?_⟩
  obtain ⟨p, hp, rfl⟩ := mem_map.1 hq
  refine ⟨p, hp, ?_⟩
  split_ifs
  · exact hf p
  · exact ⟨rfl, rfl⟩

section

variable (t)

lemma takeParked (stopped : Bool) (parent : ℤ) : Heirs t (t.takeParked stopped parent).2 :=
  .of_eq (t.takeParked_rest stopped parent).1

lemma notify {f : Proc → Proc} {value code : ℤ} {parks : Proc → Bool} {stopped : Bool}
    (hf : ∀ p, (f p).pid = p.pid ∧ (f p).parentPid = p.parentPid) :
    Heirs t (t.notify f v value parks code stopped) := by
  exact ((modify hf).trans (of_steady (.tellParent _ v value))).trans (.of_eq notify_rest.1)

lemma reapTask (e : ReapEnv) (pid : ℤ) : Heirs t (t.reapTask e pid) := by
  rcases t.reapTask_cases e pid with heq | ⟨v, _, _, _, heq⟩
  · rw [heq]
    exact .refl t
  · have h : Heirs t ((t.letGo e).exitNews v) :=
      (of_steady (.letGo t e)).trans (notify _ fun _ => ⟨rfl, rfl⟩)
    have htasks := ((t.letGo e).bury_rest v).1
    refine ⟨t.reapTask_pids e pid, fun q hq => ?_⟩
    rw [heq, htasks] at hq
    exact h.parents q (mem_filter.1 hq).1

lemma stopTask (pid : ℤ) (sig : ℕ) : Heirs t (t.stopTask pid sig) := by
  rcases t.stopTask_cases pid sig with heq | ⟨v, _, _, _, heq⟩
  · rw [heq]
    exact .refl t
  · have h : Heirs t (t.stopNews v sig) := notify t fun _ => ⟨rfl, rfl⟩
    rw [heq]
    exact h.trans (.of_eq passTerminal_tasks)

lemma continueTask (pid : ℤ) : Heirs t (t.continueTask pid) := by
  rcases t.continueTask_cases pid with heq | ⟨_, _, _, heq⟩
  · rw [heq]
    exact .refl t
  · have hd : Heirs t (t.dropParkedStop pid) := .of_eq rfl
    rw [heq]
    exact hd.trans (.modify fun p => ⟨rfl, rfl⟩)

end

end Heirs

lemma continueTask_slotSeq : (t.continueTask pid).slotSeq = t.slotSeq := by
  rcases t.continueTask_cases pid with heq | ⟨_, _, _, heq⟩
  · rw [heq]
  · rw [heq]
    rfl

end EsdumanOS
