import EsdumanOS.Pipe

/-!
# A pipe is a lossless queue

The ring has the bytes that were accepted and not yet returned, and the positions are the two counts
modulo `2 ^ 32` (`Carries`). At most 4096 bytes are in flight and 4096 divides `2 ^ 32`, so neither
the difference of the positions nor the slots notice the wrap.
-/

namespace EsdumanOS

open Lib List

section Ring

structure Carries (p : PipeRing) (acc ret : List UInt8) : Prop where
  held : RingHolds pipeSize p.buffer acc ret.length
  head : p.head = u32 ret.length
  tail : p.tail = u32 acc.length
  fifo : ret <+: acc

variable {p : PipeRing} {acc ret : List UInt8}

lemma Carries.used_eq (h : Carries p acc ret) : p.used = acc.length - ret.length := by
  have hle := h.held.lo_le
  have hf := h.held.fits
  unfold PipeRing.used
  rw [h.head, h.tail]
  unfold u32 pipeSize at *
  omega

lemma Carries.head_eq_tail (h : Carries p acc ret) :
    p.head = p.tail ↔ ret.length = acc.length := by
  have hle := h.held.lo_le
  have hf := h.held.fits
  rw [h.head, h.tail]
  unfold u32 pipeSize at *
  omega

lemma Carries.returned_eq (h : Carries p acc ret) (heq : ret.length = acc.length) : ret = acc :=
  h.fifo.eq_of_length heq

lemma u32_mod_pipeSize (n : ℕ) : u32 n % pipeSize = n % pipeSize := by
  unfold u32 pipeSize
  omega

lemma Carries.take (h : Carries p acc ret) (hne : p.head ≠ p.tail) :
    Carries { p with head := u32 (p.head + 1) } acc (ret ++ [p.buffer (p.head % pipeSize)]) := by
  have hle := h.held.lo_le
  have hlt : ret.length < acc.length := by
    have := h.head_eq_tail.not.1 hne
    omega
  have hb := h.held.drop_eq hlt
  refine ⟨?_, ?_, h.tail, ?_⟩
  · rw [length_append, length_singleton]
    exact h.held.advance (by omega) hlt
  · simp only [length_append, length_singleton, h.head, u32]
    omega
  · -- the byte at the head is the next one of those accepted
    rw [h.head, u32_mod_pipeSize]
    refine ⟨acc.drop (ret.length + 1), ?_⟩
    rw [append_assoc, singleton_append, ← hb]
    exact prefix_iff_eq_append.1 h.fifo

lemma Carries.put (h : Carries p acc ret) (hr : p.used < pipeSize) (b : UInt8) :
    Carries { p with
      buffer := Function.update p.buffer (p.tail % pipeSize) b, tail := u32 (p.tail + 1) }
      (acc ++ [b]) ret := by
  rw [h.used_eq] at hr
  refine ⟨?_, h.head, ?_, h.fifo.trans (prefix_append acc [b])⟩
  · rw [h.tail, u32_mod_pipeSize]
    exact h.held.push (by omega) b
  · simp only [length_append, length_singleton, h.tail, u32]
    omega

lemma pipeTake_carries : ∀ (n : ℕ) {p : PipeRing} {ret : List UInt8}, Carries p acc ret →
    Carries (pipeTake n p).2 acc (ret ++ (pipeTake n p).1) ∧ (pipeTake n p).2.refs = p.refs
  | 0, p, ret, h => by simpa [pipeTake] using h
  | n + 1, p, ret, h => by
    rw [pipeTake]
    split
    · simpa using h
    · rename_i hne
      obtain ⟨hc, hr⟩ := pipeTake_carries n (h.take hne)
      rw [append_assoc, singleton_append] at hc
      exact ⟨hc, hr⟩

lemma pipePut_carries : ∀ (bs : List UInt8) {p : PipeRing} {acc : List UInt8},
    Carries p acc ret →
    Carries (pipePut bs p).2 (acc ++ bs.take (pipePut bs p).1) ret ∧ (pipePut bs p).2.refs = p.refs
  | [], p, acc, h => by simpa [pipePut] using h
  | b :: bs, p, acc, h => by
    rw [pipePut]
    split
    · rename_i hr
      obtain ⟨hc, hre⟩ := pipePut_carries bs (h.put hr b)
      rw [append_assoc, singleton_append] at hc
      exact ⟨hc, hre⟩
    · simpa using h

end Ring

section Calls

variable {p : PipeRing} {acc ret : List UInt8} {buf : Buf} {size : ℤ}

lemma pipeRead_carries (h : Carries p acc ret) (size : ℤ) :
    Carries (pipeRead p size).2 acc (ret ++ ((pipeRead p size).1.elim (fun _ => []) id)) ∧
      (pipeRead p size).2.refs = p.refs := by
  unfold pipeRead
  split_ifs
  · simpa using h
  · simpa using h
  · simpa using h
  · exact pipeTake_carries size.toNat h

lemma pipeWrite_carries (h : Carries p acc ret) (buf : Buf) (size : ℤ) :
    Carries (pipeWrite p buf size).2
        (acc ++ ((pipeWrite p buf size).1.elim (fun _ => []) (buf.bytes size).take)) ret ∧
      (pipeWrite p buf size).2.refs = p.refs := by
  unfold pipeWrite
  split_ifs
  · simpa using h
  · simpa using (⟨h.held, h.head, h.tail, h.fifo⟩ : Carries { p with brokenReported := true } _ _)
  · simpa using h
  · exact pipePut_carries (buf.bytes size) h

lemma pipeRead_eof (h : (pipeRead p size).1 = .inr []) :
    p.head = p.tail ∧ p.refs.writeRefs ≤ 0 := by
  unfold pipeRead at h
  split_ifs at h with hs he hr
  · exact ⟨he, hr⟩
  · -- a pipe with something in it gives at least one byte
    obtain ⟨n, hn⟩ : ∃ n, size.toNat = n + 1 := ⟨size.toNat - 1, by omega⟩
    rw [hn, pipeTake, if_neg he] at h
    simp at h

lemma pipeWrite_broken :
    (pipeWrite p buf size).1 = .inl .pipe ↔ 0 < size ∧ p.refs.readRefs ≤ 0 := by
  unfold pipeWrite
  split_ifs with hs hr hf
  · simpa using fun hp => absurd hs (not_le.2 hp)
  · simpa using ⟨not_le.1 hs, hr⟩
  · simp [hr]
  · simp [hr]

end Calls

section Runs

structure CountsEnds (refs : Pipe) (ends : List ℕ) : Prop where
  readRefs : refs.readRefs = ends.countP (· ≠ 1)
  writeRefs : refs.writeRefs = ends.countP (· = 1)

variable {s : PipeSys} {refs : Pipe} {ends : List ℕ} {mode i : ℕ}

lemma CountsEnds.copied (h : CountsEnds refs ends) :
    CountsEnds (refs.bump mode 1) (ends ++ [mode]) := by
  obtain ⟨hr, hw⟩ := h
  unfold Pipe.bump
  constructor <;> split_ifs with hm <;> simp [countP_append, hm, hr, hw]

lemma countP_eraseIdx (q : ℕ → Bool) (hi : ends[i]? = some mode) :
    ((ends.eraseIdx i).countP q : ℤ) = ends.countP q - if q mode then 1 else 0 := by
  have hp : ends.Perm (mode :: ends.eraseIdx i) := by
    obtain ⟨hlt, hm⟩ := List.getElem?_eq_some_iff.1 hi
    subst hm
    exact (getElem_cons_eraseIdx_perm hlt).symm
  rw [hp.countP_eq q, countP_cons]
  split_ifs <;> simp

lemma CountsEnds.closed (h : CountsEnds refs ends) (hi : ends[i]? = some mode) :
    CountsEnds (refs.bump mode (-1)) (ends.eraseIdx i) := by
  obtain ⟨hr, hw⟩ := h
  have hre := countP_eraseIdx (fun m => decide (m ≠ 1)) hi
  have hwr := countP_eraseIdx (fun m => decide (m = 1)) hi
  unfold Pipe.bump
  constructor <;> split_ifs with hm <;> simp_all <;> omega

lemma CountsEnds.destroyed (h : CountsEnds refs ends) :
    CountsEnds (if refs.readRefs ≤ 0 ∧ refs.writeRefs ≤ 0 then ⟨false, 0, 0⟩ else refs) ends := by
  split_ifs with hg
  · obtain ⟨hr, hw⟩ := h
    constructor <;> simp only <;> omega
  · exact h

structure PipeInv (s : PipeSys) : Prop where
  carries : Carries s.pipe s.accepted s.returned
  counts : CountsEnds s.pipe.refs s.ends

lemma newPipe_inv (buffer : Buf) : PipeInv (newPipe buffer) :=
  ⟨⟨.nil _ _, rfl, rfl, prefix_rfl⟩, ⟨rfl, rfl⟩⟩

lemma PipeInv.run (h : PipeInv s) (t : ℕ) (c : PipeCall) : PipeInv (s.run t c) := by
  cases c with
  | read size =>
    have hre := pipeRead_carries h.carries size
    rcases hr : pipeRead s.pipe size with ⟨_ | bytes, p⟩ <;> rw [hr] at hre
    · rename_i err
      have hp : PipeInv { s with pipe := p } :=
        ⟨by simpa using hre.1, by rw [hre.2]; exact h.counts⟩
      cases err <;> simp only [PipeSys.run, hr] <;> exact ⟨hp.carries, hp.counts⟩
    · simp only [PipeSys.run, hr]
      exact ⟨hre.1, by rw [hre.2]; exact h.counts⟩
  | write buf size =>
    have hwr := pipeWrite_carries h.carries buf size
    rcases hw : pipeWrite s.pipe buf size with ⟨_ | n, p⟩ <;> rw [hw] at hwr
    · rename_i err
      have hp : PipeInv { s with pipe := p } :=
        ⟨by simpa using hwr.1, by rw [hwr.2]; exact h.counts⟩
      cases err <;> simp only [PipeSys.run, hw] <;> exact ⟨hp.carries, hp.counts⟩
    · simp only [PipeSys.run, hw]
      exact ⟨hwr.1, by rw [hwr.2]; exact h.counts⟩

lemma pipeStep_inv (s : PipeSys) (step : PipeStep) (h : PipeInv s) : PipeInv (pipeStep s step) := by
  obtain ⟨⟨hh, hhe, ht, hf⟩, hc⟩ := id h
  cases step with
  | call t c =>
    simp only [pipeStep]
    split_ifs
    · exact h
    · exact h.run t c
  | restart t =>
    simp only [pipeStep]
    split
    · exact h
    · exact h.run t _
  | kill t => exact ⟨h.carries, h.counts⟩
  | copyEnd i =>
    simp only [pipeStep]
    split
    · exact h
    · exact ⟨⟨hh, hhe, ht, hf⟩, hc.copied⟩
  | closeEnd i =>
    simp only [pipeStep]
    split
    · exact h
    · rename_i mode hm
      exact ⟨⟨hh, hhe, ht, hf⟩, (hc.closed hm).destroyed⟩

lemma pipeRun_inv (buffer : Buf) (steps : List PipeStep) :
    PipeInv (pipeRun (newPipe buffer) steps) :=
  foldl_invariant pipeStep_inv steps (newPipe_inv buffer)

lemma PipeInv.fifo (h : PipeInv s) : PipeFifo s := by
  refine ⟨h.carries.fifo, h.carries.held.fits, fun size heo => ?_, fun buf size => ?_,
    fun buf size hs => ?_⟩
  · obtain ⟨he, hr⟩ := pipeRead_eof heo
    refine ⟨h.carries.returned_eq (h.carries.head_eq_tail.1 he), fun hmem => ?_⟩
    rw [h.counts.writeRefs] at hr
    have : 0 < s.ends.countP (· = 1) := countP_pos_iff.2 ⟨1, hmem, by simp⟩
    omega
  · rw [pipeWrite_broken, h.counts.readRefs]
    simp
  · rw [pipeWrite, if_pos hs]

/-- In every run from a new pipe, over any tasks, sizes and contents. -/
theorem pipeRun_fifo (buffer : Buf) (steps : List PipeStep) :
    PipeFifo (pipeRun (newPipe buffer) steps) :=
  (pipeRun_inv buffer steps).fifo

/-- A write of no bytes does not look at the ends. -/
theorem pipeWrite_zero_not_broken :
    let s := pipeRun (newPipe fun _ => 0) [.closeEnd 0]
    (∀ mode ∈ s.ends, mode = 1) ∧ (pipeWrite s.pipe (fun _ => 0) 0).1 = .inl .inval := by
  decide

end Runs

end EsdumanOS
