import Mathlib.Tactic

/-!
# Numbered slots

A table of slots in which the entries that pass a test carry a ticket, a number no other such entry
has. Read by their tickets they are a queue.
-/

namespace Lib

open List Function

variable {α : Type*} (ticket : α → ℕ) (test : α → Bool) (n : ℕ) (slots : ℕ → α)

def queue : List α :=
  ((range n).filterMap fun i => if test (slots i) then some (slots i) else none).insertionSort
    fun a b => ticket a ≤ ticket b

def TicketsDiffer : Prop :=
  ∀ i < n, ∀ j < n, test (slots i) = true → test (slots j) = true →
    ticket (slots i) = ticket (slots j) → i = j

variable {ticket test n slots} {slots' : ℕ → α} {a : α} {i : ℕ}

lemma mem_queue : a ∈ queue ticket test n slots ↔ ∃ i < n, test (slots i) = true ∧ slots i = a := by
  simp [queue, mem_filterMap]

lemma queue_sorted (h : TicketsDiffer ticket test n slots) :
    (queue ticket test n slots).Pairwise fun a b => ticket a < ticket b := by
  let le : α → α → Prop := fun a b => ticket a ≤ ticket b
  have hle := pairwise_insertionSort le
    ((range n).filterMap fun i => if test (slots i) then some (slots i) else none)
  have hne : ((range n).filterMap fun i =>
      if test (slots i) then some (slots i) else none).Pairwise fun a b => ticket a ≠ ticket b := by
    rw [pairwise_filterMap]
    refine List.Pairwise.imp_of_mem ?_ pairwise_lt_range
    intro i j hi hj hij b hb c hc heq
    simp only [Option.ite_none_right_eq_some, Option.some.injEq] at hb hc
    rw [← hb.2, ← hc.2] at heq
    have := h i (mem_range.1 hi) j (mem_range.1 hj) hb.1 hc.1 heq
    omega
  have hn' := (perm_insertionSort le _).symm.pairwise hne fun h => Ne.symm h
  exact hle.imp₂ (fun _ _ ha hne => lt_of_le_of_ne ha hne) hn'

lemma queue_unique (h : TicketsDiffer ticket test n slots) {l : List α}
    (hl : l.Pairwise fun a b => ticket a < ticket b)
    (hmem : ∀ a, a ∈ l ↔ ∃ i < n, test (slots i) = true ∧ slots i = a) :
    queue ticket test n slots = l := by
  exact List.Pairwise.eq_of_mem_iff (queue_sorted h) hl fun a => mem_queue.trans (hmem a).symm

lemma queue_congr (h : ∀ i < n, slots' i = slots i ∨
    test (slots' i) = false ∧ test (slots i) = false) :
    queue ticket test n slots' = queue ticket test n slots := by
  unfold queue
  refine congrArg _ (List.filterMap_congr fun i hi => ?_)
  rcases h i (mem_range.1 hi) with heq | ⟨h', h⟩
  · rw [heq]
  · simp [h', h]

/-- What gets the highest ticket goes to the back. -/
lemma queue_put (hd : TicketsDiffer ticket test n slots) (hi : i < n)
    (hf : test (slots i) = false) (ha : test a = true)
    (hl : ∀ j < n, test (slots j) = true → ticket (slots j) < ticket a) :
    queue ticket test n (update slots i a) = queue ticket test n slots ++ [a] := by
  have ho : ∀ {j}, test (slots j) = true → update slots i a j = slots j := by
    intro j hj
    refine update_of_ne (fun hji => ?_) _ _
    rw [hji, hf] at hj
    cases hj
  have hn : ∀ {j}, test (update slots i a j) = true →
      j = i ∨ j ≠ i ∧ test (slots j) = true := by
    intro j hj
    by_cases hji : j = i
    · exact .inl hji
    · rw [update_of_ne hji] at hj
      exact .inr ⟨hji, hj⟩
  have hd' : TicketsDiffer ticket test n (update slots i a) := by
    intro j hj k hk hjt hkt heq
    rcases hn hjt with rfl | ⟨_, hjs⟩ <;> rcases hn hkt with rfl | ⟨_, hks⟩
    · rfl
    · rw [update_self, ho hks] at heq
      have := hl k hk hks
      omega
    · rw [update_self, ho hjs] at heq
      have := hl j hj hjs
      omega
    · rw [ho hjs, ho hks] at heq
      exact hd j hj k hk hjs hks heq
  refine queue_unique hd' ?_ fun b => ?_
  · rw [pairwise_append]
    refine ⟨queue_sorted hd, pairwise_singleton _ _, fun b hb c hc => ?_⟩
    obtain ⟨j, hj, hjt, rfl⟩ := mem_queue.1 hb
    rw [mem_singleton.1 hc]
    exact hl j hj hjt
  · rw [mem_append, mem_queue, mem_singleton]
    constructor
    · rintro (⟨j, hj, hjt, rfl⟩ | rfl)
      · exact ⟨j, hj, by rw [ho hjt]; exact hjt, ho hjt⟩
      · exact ⟨i, hi, by rw [update_self]; exact ha, update_self i b slots⟩
    · rintro ⟨j, hj, hjt, rfl⟩
      rcases hn hjt with rfl | ⟨hji, hjt⟩
      · exact .inr (update_self j a slots)
      · exact .inl ⟨j, hj, hjt, (ho hjt).symm⟩

lemma queue_take (hd : TicketsDiffer ticket test n slots) (hi : i < n)
    (hu : test (slots i) = true) (ha : test a = false)
    (hf : ∀ j < n, test (slots j) = true → ticket (slots i) ≤ ticket (slots j)) :
    queue ticket test n slots = slots i :: queue ticket test n (update slots i a) := by
  have ho : ∀ {j}, test (update slots i a j) = true →
      j ≠ i ∧ update slots i a j = slots j := by
    intro j hj
    have hji : j ≠ i := by
      rintro rfl
      rw [update_self, ha] at hj
      cases hj
    exact ⟨hji, update_of_ne hji _ _⟩
  have hd' : TicketsDiffer ticket test n (update slots i a) := by
    intro j hj k hk hjt hkt heq
    obtain ⟨_, hje⟩ := ho hjt
    obtain ⟨_, hke⟩ := ho hkt
    rw [hje] at hjt heq
    rw [hke] at hkt heq
    exact hd j hj k hk hjt hkt heq
  refine queue_unique hd (pairwise_cons.2 ⟨fun b hb => ?_, queue_sorted hd'⟩) fun b => ?_
  · obtain ⟨j, hj, hjt, rfl⟩ := mem_queue.1 hb
    obtain ⟨hji, hje⟩ := ho hjt
    rw [hje] at hjt ⊢
    have hne : ticket (slots i) ≠ ticket (slots j) := fun heq => hji (hd i hi j hj hu hjt heq).symm
    exact lt_of_le_of_ne (hf j hj hjt) hne
  · rw [mem_cons, mem_queue]
    constructor
    · rintro (rfl | ⟨j, hj, hjt, rfl⟩)
      · exact ⟨i, hi, hu, rfl⟩
      · obtain ⟨_, hje⟩ := ho hjt
        exact ⟨j, hj, hje ▸ hjt, hje.symm⟩
    · rintro ⟨j, hj, hjt, rfl⟩
      by_cases hji : j = i
      · exact .inl (by rw [hji])
      · have hje : update slots i a j = slots j := update_of_ne hji _ _
        exact .inr ⟨j, hj, hje.symm ▸ hjt, hje⟩

end Lib
