import EsdumanOS.Programs

/-!
# What a successful `cp` has copied

`cp` leaves its loop at the first read that gives nothing, and a read that failed gives nothing.
-/

namespace EsdumanOS

variable {c : CpCalls}

lemma cpLoop_zero : ∀ {fuel k : ℕ}, c.Reaches k → cpLoop c fuel k = some 0 →
    ∃ n, c.Reaches n ∧ c.read n ≤ 0
  | 0, _, _, h => by simp [cpLoop] at h
  | fuel + 1, k, hk, h => by
    unfold cpLoop at h
    split_ifs at h with hr hw
    · exact ⟨k, hk, hr⟩
    · simp at h
    · refine cpLoop_zero (fun j hj => ?_) h
      rcases Nat.lt_succ_iff_lt_or_eq.1 hj with hj | rfl
      · exact hk j hj
      · omega

lemma cpLoop_ends {n : ℕ} (hn : c.Reaches n) (hr : c.read n ≤ 0) :
    ∀ {j : ℕ}, j ≤ n → cpLoop c (j + 1) (n - j) = some 0
  | 0, _ => by simp [cpLoop, hr]
  | j + 1, hj => by
    obtain ⟨h0, hw⟩ := hn (n - (j + 1)) (by omega)
    rw [cpLoop, if_neg (by omega), if_neg (by omega), show n - (j + 1) + 1 = n - j by omega]
    exact cpLoop_ends hn hr (by omega)

/-- A status of 0 means a complete copy exactly if a call before the loop fails, or the turn that
ends the loop has read the end of the file with every write whole and the close a success. -/
theorem cpMain_honest_iff (c : CpCalls) (args : List UInt8) :
    (∀ fuel, cpMain c args fuel = some 0 → ∃ n, c.CopiedBy n) ↔
    ascii ' ' ∉ args ∨ c.openIn < 0 ∨ c.create < 0 ∨ c.openOut < 0 ∨
      ∀ n, c.Reaches n → c.read n ≤ 0 →
        c.read n = 0 ∧ (∀ k < n, c.write k = c.read k) ∧ c.close = 0 := by
  unfold cpMain
  split_ifs with ha hi hc ho
  · simp [hi]
  · simp [hc]
  · simp [ho]
  · simp only [ha, not_true_eq_false, hi, hc, ho, false_or]
    constructor
    · intro h n hn hr
      have hloop := cpLoop_ends hn hr le_rfl
      rw [Nat.sub_self] at hloop
      obtain ⟨m, hm, hw, hclose⟩ := h _ hloop
      obtain rfl : m = n := by
        rcases lt_trichotomy m n with hlt | rfl | hlt
        · have := (hn m hlt).1
          omega
        · rfl
        · have := (hw n hlt).1
          omega
      exact ⟨hm, fun k hk => (hw k hk).2, hclose⟩
    · intro h fuel hf
      obtain ⟨n, hn, hr⟩ := cpLoop_zero (k := 0) (by simp [CpCalls.Reaches]) hf
      obtain ⟨h0, hw, hclose⟩ := h n hn hr
      exact ⟨n, h0, fun k hk => ⟨(hn k hk).1, hw k hk⟩, hclose⟩
  · simp [ha]

/-- The destination cannot be committed, and `cp` exits with 0. -/
theorem cpMain_hides_close :
    let c : CpCalls := ⟨3, 0, 4, fun k => if k = 0 then 5 else 0, fun _ => 5, -28⟩
    cpMain c (asciiText "a b") 2 = some 0 ∧ ¬ ∃ n, c.CopiedBy n := by
  refine ⟨by decide, ?_⟩
  rintro ⟨n, -, -, h⟩
  simp at h

end EsdumanOS
