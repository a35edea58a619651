import EsdumanOS.UserPointer
import Mathlib.Data.Nat.Bitwise

/-!
# User pointers are checked exactly

The loop steps from page to page and never wraps, because the end lies below the kernel; what it
says of pages it says of every byte in them (`validateUserPointer_exact`).
-/

namespace EsdumanOS

namespace PageWords

variable {w : PageWords} {requiresWrite : Bool} {ptr size endAddr : ℕ}

lemma and_bit_eq_zero (n k : ℕ) : n &&& 2 ^ k = 0 ↔ n.testBit k = false := by
  rw [Nat.and_two_pow]
  cases n.testBit k <;> simp

lemma and_five_eq (n : ℕ) : n &&& 0x05 = 0x05 ↔ n.testBit 0 = true ∧ n.testBit 2 = true := by
  have hs : n &&& 0x05 = (n &&& 2 ^ 0) ||| (n &&& 2 ^ 2) := by
    rw [← Nat.and_or_distrib_left]
    rfl
  rw [hs, Nat.and_two_pow, Nat.and_two_pow]
  cases n.testBit 0 <;> cases n.testBit 2 <;> simp

lemma pageAllowed_iff (page : ℕ) :
    w.pageAllowed requiresWrite page = true ↔ w.ByteAllowed requiresWrite page := by
  have ho : ∀ n : ℕ, n &&& 1 = 0 ↔ n.testBit 0 = false := fun n => and_bit_eq_zero n 0
  have ht : ∀ n : ℕ, n &&& 0x02 = 0 ↔ n.testBit 1 = false := fun n => and_bit_eq_zero n 1
  have hcow : ∀ n : ℕ, n &&& pageCow = 0 ↔ n.testBit 9 = false := fun n => and_bit_eq_zero n 9
  unfold pageAllowed
  simp only [ho, ht, hcow, ne_eq, and_five_eq]
  constructor
  · intro h
    split_ifs at h with htable hpt hwr
    refine ⟨Bool.eq_true_of_not_eq_false htable, hpt.1, hpt.2, fun hr => ?_⟩
    by_contra hn
    rw [not_or, Bool.not_eq_true, Bool.not_eq_true] at hn
    exact hwr ⟨hr, hn⟩
  · rintro ⟨htable, hp, hu, hwr⟩
    rw [if_neg (Bool.not_eq_false _ ▸ htable), if_neg (not_not.2 ⟨hp, hu⟩), if_neg]
    rintro ⟨hr, hw, hc⟩
    rcases hwr hr with h | h
    · rw [hw] at h
      exact absurd h (by decide)
    · rw [hc] at h
      exact absurd h (by decide)

lemma byteAllowed_congr {a b : ℕ} (h : a / 4096 = b / 4096) (ha : w.ByteAllowed requiresWrite a) :
    w.ByteAllowed requiresWrite b := by
  have hdir : b / 2 ^ 22 = a / 2 ^ 22 := by omega
  have ht : b / 2 ^ 12 = a / 2 ^ 12 := h.symm
  obtain ⟨htable, hp, hu, hw⟩ := ha
  exact ⟨by rwa [hdir], by rwa [hdir, ht], by rwa [hdir, ht], by rwa [hdir, ht]⟩

lemma checkPages_spec (he : endAddr ≤ userEnd) (turns : ℕ) {page : ℕ} (hd : 4096 ∣ page)
    (hle : page ≤ userEnd) (ht : endAddr ≤ page + 4096 * turns) :
    ∃ b, w.checkPages requiresWrite endAddr (turns + 1) page = some b ∧
      (b = true ↔ ∀ q, 4096 ∣ q → page ≤ q → q < endAddr → w.ByteAllowed requiresWrite q) := by
  induction turns generalizing page with
  | zero =>
    rw [checkPages, if_neg (by omega)]
    exact ⟨true, rfl, fun _ q _ hpq hqe => absurd hqe (by omega), fun _ => rfl⟩
  | succ turns ih =>
    rw [checkPages]
    split_ifs with hp hok
    · have hne : u32 (page + 4096) = page + 4096 := u32_of_lt (by unfold userEnd at hle; omega)
      rw [hne]
      -- `userEnd` is a multiple of the page size, so the next page does not pass it
      have hn : page + 4096 ≤ userEnd := by
        unfold userEnd at *
        omega
      obtain ⟨b, hb, hi⟩ := ih (by omega) hn (by omega)
      refine ⟨b, hb, hi.trans ⟨fun h q hq hpq hqe => ?_, fun h q hq hpq => h q hq (by omega)⟩⟩
      by_cases heq : q = page
      · exact heq ▸ (pageAllowed_iff page).1 hok
      · exact h q hq (by omega) hqe
    · refine ⟨false, rfl, by simp, fun h => ?_⟩
      exact absurd ((pageAllowed_iff page).2 (h page hd le_rfl hp)) hok
    · exact ⟨true, rfl, fun _ q _ hpq hqe => absurd hqe (by omega), fun _ => rfl⟩

lemma pages_iff_bytes (hp : 0 < size) :
    (∀ q, 4096 ∣ q → ptr / 4096 * 4096 ≤ q → q < ptr + size → w.ByteAllowed requiresWrite q) ↔
      ∀ addr, ptr ≤ addr → addr < ptr + size → w.ByteAllowed requiresWrite addr := by
  constructor
  · intro h addr hlo hhi
    exact byteAllowed_congr (a := addr / 4096 * 4096) (by omega)
      (h _ (by omega) (by omega) (by omega))
  · intro h q hq hlo hhi
    -- the first byte of the range that lies in the page
    exact byteAllowed_congr (a := max q ptr) (by omega) (h _ (by omega) (by omega))

lemma userRangeIsValid_of (hp : 0 < size) (hlo : userStart ≤ ptr) (hhi : ptr + size ≤ userEnd) :
    userRangeIsValid ptr size = true := by
  unfold userRangeIsValid
  unfold userEnd at hhi ⊢
  rw [if_neg (by omega), if_neg (by omega), if_neg (by omega)]

lemma validateUserPointerAccess_exact (hpt : ptr < 2 ^ 32) (hs : size < 2 ^ 32)
    (hp : 0 < size) : w.Exact requiresWrite
      (w.validateUserPointerAccess requiresWrite ptr size) ptr size := by
  by_cases hw : ptr + size < 2 ^ 32
  · unfold validateUserPointerAccess
    rw [u32_of_lt hw]
    rw [if_neg (by omega), if_neg (by omega)]
    split_ifs with hr
    · refine ⟨false, rfl, ⟨by simp, fun h => ?_⟩, by simp⟩
      have hl := h.low
      have hh := h.high
      omega
    · have hhi : ptr + size ≤ userEnd := by omega
      have ht : ptr + size ≤ ptr / 4096 * 4096 + 4096 * 2 ^ 20 := by
        omega
      obtain ⟨b, hb, hi⟩ : ∃ b, w.checkPages requiresWrite (ptr + size) (2 ^ 20 + 1)
          (ptr / 4096 * 4096) = some b ∧ _ :=
        checkPages_spec hhi (2 ^ 20) (by omega) (by omega) ht
      rw [pages_iff_bytes hp] at hi
      refine ⟨b, hb, hi.trans ⟨fun h => ⟨hw, by omega, hhi, h⟩, fun h => h.bytes⟩, fun _ => ?_⟩
      exact userRangeIsValid_of hp (by omega) hhi
  · have he : u32 (ptr + size) = ptr + size - 2 ^ 32 := by
      unfold u32
      omega
    unfold validateUserPointerAccess
    rw [if_pos (by omega)]
    exact ⟨false, rfl, ⟨by simp, fun h => absurd h.noWrap hw⟩, by simp⟩

/-- For every content of the page tables, every pointer and every size above 0. -/
theorem validateUserPointer_exact (w : PageWords) (ptr size : ℕ) (hptr : ptr < 2 ^ 32)
    (hsize : size < 2 ^ 32) (hpos : 0 < size) :
    w.Exact false (w.validateUserPointer ptr size) ptr size ∧
      w.Exact true (w.validateUserWritablePointer ptr size) ptr size :=
  ⟨validateUserPointerAccess_exact hptr hsize hpos, validateUserPointerAccess_exact hptr hsize hpos⟩

def onePage : PageWords := ⟨fun i => if i = 2 then 7 else 0, fun _ j => if j = 0 then 0x205 else 0⟩

/-- The last byte of the page and the first one behind it. -/
theorem validateUserPointer_onePage :
    onePage.Exact false (onePage.validateUserPointer 0x800FFF 2) 0x800FFF 2 ∧
      onePage.Exact true (onePage.validateUserWritablePointer 0x800FFF 2) 0x800FFF 2 :=
  validateUserPointer_exact onePage 0x800FFF 2 (by decide) (by decide) (by decide)

end PageWords

end EsdumanOS
