import EsdumanOS.Proofs.Frames

/-!
# Tearing down an address space

`cleanup_process_memory` walks the tables of a directory, drops the reference of every entry it
finds present, and frees the tables and the directory: exactly what the directory held and mapped
leaves the ledger.
-/

namespace EsdumanOS

open Lib List

variable {p : Pmm} {d : PageDir} {ds : List PageDir} {heap : List ℕ} {sys usr : Multiset ℕ}

def PageTable.mapped (t : PageTable) (j : ℕ) : Option ℕ :=
  if (t.entries j).flags.present then some (t.entries j).frame else none

def PageDir.tableFrames (d : PageDir) (i : ℕ) : List ℕ :=
  match d.tables i with
  | none => []
  | some t => (range 1024).filterMap t.mapped

lemma freeEntries_holds (t : PageTable) : ∀ (js : List ℕ) {p : Pmm},
    p.Holds sys ((js.filterMap t.mapped : List ℕ) + usr) → (freeEntries t js p).Holds sys usr
  | [], _, h => by simpa [freeEntries] using h
  | j :: js, p, h => by
    unfold freeEntries
    rw [foldl_cons]
    cases hp : (t.entries j).flags.present with
    | false =>
      rw [filterMap_cons_none (by simp [PageTable.mapped, hp])] at h
      exact freeEntries_holds t js h
    | true =>
      rw [filterMap_cons_some (by simp [PageTable.mapped, hp]; rfl), ← Multiset.cons_coe,
        Multiset.cons_add] at h
      exact freeEntries_holds t js h.free_usr

lemma freeTables_holds : ∀ (is : List ℕ) {p : Pmm},
    p.Holds ((is.filterMap fun i => (d.tables i).map PageTable.frame : List ℕ) + sys)
      ((is.flatMap d.tableFrames : List ℕ) + usr) → (freeTables d is p).Holds sys usr
  | [], _, h => by simpa [freeTables] using h
  | i :: is, p, h => by
    unfold freeTables
    rw [foldl_cons]
    rw [flatMap_cons, ← Multiset.coe_add, add_assoc] at h
    cases ht : d.tables i with
    | none =>
      rw [filterMap_cons_none (by simp [ht])] at h
      rw [show d.tableFrames i = [] by simp [PageDir.tableFrames, ht], Multiset.coe_nil,
        zero_add] at h
      exact freeTables_holds is h
    | some t =>
      rw [filterMap_cons_some (by simp [ht]; rfl), ← Multiset.cons_coe, Multiset.cons_add] at h
      rw [show d.tableFrames i = (range 1024).filterMap t.mapped by
        simp [PageDir.tableFrames, ht]] at h
      exact freeTables_holds is (freeEntries_holds t _ h).free_sys

lemma held_eq_tables (d : PageDir) : ∀ n : ℕ,
    held (n * 1024) d.mapped = ((range n).flatMap d.tableFrames : List ℕ)
  | 0 => by simp [held_eq_coe]
  | n + 1 => by
    have htable : (range 1024).filterMap (fun j => d.mapped (n * 1024 + j)) =
        d.tableFrames n := by
      have he : ∀ j ∈ range 1024, d.mapped (n * 1024 + j) =
          (d.tables n).bind fun t => t.mapped j := by
        intro j hj
        have hj := mem_range.1 hj
        have hd : (n * 1024 + j) / 1024 = n := by omega
        have hm : (n * 1024 + j) % 1024 = j := by omega
        unfold PageDir.mapped PageDir.present PageDir.lookup
        rw [hd, hm]
        cases d.tables n with
        | none => rfl
        | some t => rfl
      rw [List.filterMap_congr he]
      unfold PageDir.tableFrames
      cases d.tables n with
      | none => simp
      | some t => rfl
    have ih := held_eq_tables d n
    rw [held_eq_coe] at ih ⊢
    have hl : (range (n + 1)).flatMap d.tableFrames =
        (range n).flatMap d.tableFrames ++ d.tableFrames n := by
      rw [range_succ, flatMap_append, flatMap_singleton]
    rw [hl, Nat.succ_mul, range_add, filterMap_append, filterMap_map,
      ← Multiset.coe_add, ih, ← Multiset.coe_add, ← htable]
    rfl

lemma PageDir.usrFrames_eq_tables (d : PageDir) :
    d.usrFrames = ((range userTables).flatMap d.tableFrames : List ℕ) := by
  unfold usrFrames userPages
  exact held_eq_tables d userTables

lemma cleanup_holds {curr kernelDir : ℕ} (hc : d.frame ≠ curr) (hk : d.frame ≠ kernelDir)
    (h : p.Holds (d.sysFrames + sys) (d.usrFrames + usr)) :
    (cleanupProcessMemory curr kernelDir p d).Holds sys usr := by
  unfold cleanupProcessMemory
  rw [if_neg hc, if_neg hk]
  refine Pmm.Holds.free_sys (freeTables_holds _ ?_)
  rw [← d.usrFrames_eq_tables, Multiset.add_cons, ← Multiset.cons_add, ← held_eq_coe]
  exact h

lemma FramesInv.cleanup {curr kernelDir : ℕ} (h : FramesInv p heap (d :: ds))
    (hc : d.frame ≠ curr) (hk : d.frame ≠ kernelDir) :
    FramesInv (cleanupProcessMemory curr kernelDir p d) heap ds where
  holds := by
    refine cleanup_holds hc hk ?_
    have := h.holds
    rwa [sysAll_cons, usrAll_cons, add_assoc] at this
  ok d' hd' := h.ok d' (mem_cons_of_mem d hd')
  sole d' hd' := h.sole_of_le (mem_cons_of_mem d hd') hd' fun f _ => by
    rw [usrAll_cons, Multiset.count_add]
    omega

end EsdumanOS
