import Mathlib.Tactic

/-!
# Chains through a successor table

`Linked next nil c l`: following `next` from `c` visits exactly the nodes of `l` and ends at `nil`.
`release` walks a chain and frees each node; on any table the walk ends, since a node met again is
free by then (`releaseLog_ends`).
-/

namespace Lib

open List Function

variable {α : Type*}

/-- Following `next` from `c` visits the nodes of `l` in order and then reaches `nil`. -/
def Linked (next : α → α) (nil : α) : α → List α → Prop
  | c, [] => c = nil
  | c, x :: l => c = x ∧ x ≠ nil ∧ Linked next nil (next x) l

namespace Linked

variable {next next' : α → α} {nil c : α} {l l' : List α}

lemma unique : ∀ {c : α} {l l' : List α},
    Linked next nil c l → Linked next nil c l' → l = l'
  | _, [], [], _, _ => rfl
  | _, [], _ :: _, h, h' => absurd (h'.1.symm.trans h) h'.2.1
  | _, _ :: _, [], h, h' => absurd (h.1.symm.trans h') h.2.1
  | _, x :: l, y :: l', h, h' => by
    obtain ⟨rfl, -, h⟩ := h
    obtain ⟨rfl, -, h'⟩ := h'
    rw [h.unique h']

lemma of_mem : ∀ {c : α} {l : List α} {x : α}, Linked next nil c l → x ∈ l →
    ∃ m, Linked next nil x m ∧ m.length ≤ l.length
  | _, [], _, _, hx => by simp at hx
  | _, y :: l, x, h, hx => by
    obtain ⟨rfl, hn, h⟩ := h
    rcases mem_cons.1 hx with rfl | hx
    · exact ⟨x :: l, ⟨rfl, hn, h⟩, le_rfl⟩
    · obtain ⟨m, hm, hl⟩ := h.of_mem hx
      exact ⟨m, hm, by simp only [length_cons]; omega⟩

lemma nodup : ∀ {c : α} {l : List α}, Linked next nil c l → l.Nodup
  | _, [], _ => nodup_nil
  | _, x :: l, h => by
    obtain ⟨rfl, hn, h⟩ := h
    refine nodup_cons.2 ⟨fun hx => ?_, h.nodup⟩
    obtain ⟨m, hm, hl⟩ := h.of_mem hx
    have hlm : _ :: l = m := Linked.unique ⟨rfl, hn, h⟩ hm
    rw [← hlm, length_cons] at hl
    omega

lemma congr : ∀ {c : α} {l : List α}, (∀ x ∈ l, next' x = next x) → Linked next nil c l →
    Linked next' nil c l
  | _, [], _, h => h
  | _, x :: l, hx, h => by
    obtain ⟨rfl, hn, h⟩ := h
    refine ⟨rfl, hn, ?_⟩
    rw [hx _ (mem_cons_self ..)]
    exact h.congr fun y hy => hx y (mem_cons_of_mem _ hy)

lemma head_mem (h : Linked next nil c l) (hc : c ≠ nil) : c ∈ l := by
  cases l with
  | nil => exact absurd h hc
  | cons x l => exact h.1 ▸ mem_cons_self ..

lemma length_le {n : ℕ} {next : ℕ → ℕ} {nil c : ℕ} {l : List ℕ} (h : Linked next nil c l)
    (hn : ∀ x ∈ l, x < n) : l.length ≤ n := by
  have hs : l ⊆ range n := fun x hx => mem_range.2 (hn x hx)
  simpa using (h.nodup.subperm hs).length_le

variable [DecidableEq α]

lemma snoc : ∀ {c : α} {l : List α} {y z : α}, Linked next nil c (l ++ [y]) →
    z ∉ l ++ [y] → z ≠ nil →
    Linked (update (update next y z) z nil) nil c (l ++ [y] ++ [z])
  | c, [], y, z, h, hz, hn => by
    obtain ⟨rfl, hy, h⟩ := h
    have hzy : z ≠ c := by simpa using hz
    refine ⟨rfl, hy, ?_, hn, ?_⟩
    · rw [update_of_ne hzy.symm, update_self]
    · exact update_self ..
  | _, x :: l, y, z, h, hz, hn => by
    have hnd := h.nodup
    obtain ⟨rfl, hx, h⟩ := h
    simp only [cons_append, nodup_cons, mem_append, mem_cons,
      not_mem_nil, or_false, not_or] at hnd hz
    refine ⟨rfl, hx, ?_⟩
    rw [update_of_ne (Ne.symm hz.1), update_of_ne hnd.1.2]
    exact h.snoc (by simpa [not_or] using hz.2) hn

end Linked

section Follow

variable [DecidableEq α]

/-- The nodes met on the way from `c` to `nil`. -/
def follow (next : α → α) (nil : α) : ℕ → α → List α
  | 0, _ => []
  | fuel + 1, c => if c = nil then [] else c :: follow next nil fuel (next c)

lemma follow_eq {next : α → α} {nil : α} : ∀ {l : List α} {c : α} {fuel : ℕ},
    Linked next nil c l → l.length ≤ fuel → follow next nil fuel c = l
  | [], c, 0, _, _ => rfl
  | [], c, fuel + 1, h, _ => if_pos h
  | x :: l, c, fuel + 1, h, hf => by
    obtain ⟨rfl, hn, h⟩ := h
    rw [follow, if_neg hn, follow_eq h (by simpa using hf)]

end Follow

section Release

variable [DecidableEq α]

def release (stop : α → Bool) (free : α) : ℕ → (α → α) → α → (α → α)
  | 0, next, _ => next
  | fuel + 1, next, c =>
    if stop c then next else release stop free fuel (update next c free) (next c)

lemma release_eq (stop : α → Bool) (free : α) {nil : α} (hni : stop nil = true) :
    ∀ {l : List α} {next : α → α} {c : α} {fuel : ℕ}, Linked next nil c l →
      (∀ x ∈ l, stop x = false) → l.length < fuel →
      release stop free fuel next c = fun x => if x ∈ l then free else next x
  | [], next, c, fuel + 1, h, _, _ => by
    have hc : c = nil := h
    simp [release, hc, hni]
  | x :: l, next, c, fuel + 1, h, hs, hf => by
    have hnd := h.nodup
    obtain ⟨rfl, hn, h⟩ := h
    rw [nodup_cons] at hnd
    have hl : Linked (update next c free) nil (next c) l :=
      h.congr fun y hy => update_of_ne (ne_of_mem_of_not_mem hy hnd.1) ..
    simp only [release, hs c (mem_cons_self ..), Bool.false_eq_true, if_false]
    rw [release_eq stop free hni hl (fun y hy => hs y (mem_cons_of_mem _ hy))
      (by simp only [length_cons] at hf; omega)]
    funext y
    by_cases hy : y = c
    · simp [hy, hnd.1]
    · simp [hy]

/-- The same walk with the nodes it reads and writes; `none` out of fuel. -/
def releaseLog (stop : α → Bool) (free : α) : ℕ → (α → α) → α → Option ((α → α) × List α)
  | 0, _, _ => none
  | fuel + 1, next, c =>
    if stop c then some (next, [])
    else
      match releaseLog stop free fuel (update next c free) (next c) with
      | none => none
      | some (next, log) => some (next, c :: log)

lemma releaseLog_eq {stop : α → Bool} {free : α} : ∀ {fuel : ℕ} {next : α → α} {c : α}
    {r : (α → α) × List α}, releaseLog stop free fuel next c = some r →
      r.1 = release stop free fuel next c ∧ ∀ x ∈ r.2, stop x = false
  | 0, next, c, r, h => by simp [releaseLog] at h
  | fuel + 1, next, c, r, h => by
    rw [releaseLog] at h
    rw [release]
    split_ifs at h ⊢ with hc
    · simp only [Option.some.injEq] at h
      simp [← h]
    · rcases hr : releaseLog stop free fuel (update next c free) (next c) with
        _ | ⟨next', log⟩
      · simp [hr] at h
      · simp only [hr, Option.some.injEq] at h
        obtain ⟨heq, hl⟩ := releaseLog_eq hr
        subst h
        refine ⟨heq, fun x hx => ?_⟩
        rcases mem_cons.1 hx with rfl | hx
        · simpa using hc
        · exact hl x hx

lemma releaseLog_ends {stop : α → Bool} {free : α} (hf : stop free = true) {S : Finset α}
    (hS : ∀ x, stop x = false → x ∈ S) : ∀ {fuel : ℕ} {next : α → α} {c : α},
      (S.filter fun x => next x ≠ free).card + 2 ≤ fuel →
        ∃ r, releaseLog stop free fuel next c = some r
  | 0, next, c, h => by omega
  | fuel + 1, next, c, h => by
    rw [releaseLog]
    split_ifs with hc
    · exact ⟨_, rfl⟩
    have hre : ∃ r, releaseLog stop free fuel (update next c free) (next c) =
        some r := by
      by_cases hn : next c = free
      · obtain ⟨fuel, rfl⟩ : ∃ k, fuel = k + 1 := ⟨fuel - 1, by omega⟩
        exact ⟨_, by rw [releaseLog, hn, if_pos hf]⟩
      · refine releaseLog_ends hf hS ?_
        have hlt : (S.filter fun x => update next c free x ≠ free).card <
            (S.filter fun x => next x ≠ free).card := by
          refine Finset.card_lt_card ⟨fun x hx => ?_, fun hs => ?_⟩
          · simp only [Finset.mem_filter] at hx ⊢
            refine ⟨hx.1, fun heq => hx.2 ?_⟩
            by_cases hxc : x = c
            · simp [hxc]
            · simpa [hxc] using heq
          · have hmem := hs (Finset.mem_filter.2 ⟨hS c (by simpa using hc), hn⟩)
            simp at hmem
        omega
    obtain ⟨⟨next', log⟩, hr⟩ := hre
    exact ⟨_, by rw [hr]⟩

end Release

end Lib
