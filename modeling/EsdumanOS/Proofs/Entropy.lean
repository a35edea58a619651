import EsdumanOS.Entropy
import EsdumanOS.Lib.Runs

/-!
# What the pool is credited with

Only `entropy_add_event` gives credit, and never past the budget of the source (`Credited`). The
differences it looks at are taken against the last event of any source, so an event of another
source in between makes a perfectly regular one look irregular.
-/

namespace EsdumanOS

open Lib Function List EntropyPool

variable {sha256 : List UInt8 → List UInt8} {rdrand : Bool} {p : EntropyPool} {source : ℕ}
  {data tsc : UInt32} {draw : ℕ → Option UInt32}

def EntropyPool.credits (p : EntropyPool) : ℕ × (ℕ → ℕ) := (p.creditedBits, p.creditedBySource)

lemma addEvent_credits : (entropyAddEvent p source data tsc).credits =
    if entropySrcN ≤ source ∨ p.credit source tsc = 0 then p.credits
    else (u32 (p.creditedBits + p.credit source tsc),
      update p.creditedBySource source
        (u32 (p.creditedBySource source + p.credit source tsc))) := by
  unfold entropyAddEvent
  by_cases hs : entropySrcN ≤ source
  · simp [hs]
  · by_cases hc : p.credit source tsc = 0
    · simp only [hs, hc, if_false, if_true, or_true]
      rfl
    · simp only [hs, hc, if_false, or_self]
      rfl

section Credit

structure Credited (c : ℕ × (ℕ → ℕ)) : Prop where
  budget : ∀ s, c.2 s ≤ entropyBudget s
  sum : c.1 = ((range entropySrcN).map c.2).sum

lemma Credited.bits_le {c : ℕ × (ℕ → ℕ)} (h : Credited c) : c.1 ≤ c.2 entropySrcKbd + 64 := by
  have ht := h.budget 0
  have ha := h.budget 2
  have hsum := h.sum
  simp [entropyBudget, entropySrcN, entropySrcKbd, entropySrcAta, range_succ] at *
  omega

lemma Credited.addEvent (h : Credited p.credits) :
    Credited (entropyAddEvent p source data tsc).credits := by
  rw [addEvent_credits]
  split_ifs with hn
  · exact h
  have hc : p.credit source tsc ≤ entropyBudget source - p.creditedBySource source := by
    refine (min_le_right _ _).trans ?_
    split_ifs <;> simp
  have hsp : p.creditedBySource source ≤ entropyBudget source := h.budget source
  have hbi : p.creditedBits ≤ p.creditedBySource entropySrcKbd + 64 := h.bits_le
  have hk : p.creditedBySource entropySrcKbd ≤ 4096 := h.budget entropySrcKbd
  have hb : entropyBudget source ≤ 4096 := by
    unfold entropyBudget
    split_ifs <;> omega
  rw [u32_of_lt (by omega), u32_of_lt (by omega)]
  refine ⟨fun s => ?_, ?_⟩
  · dsimp only
    by_cases hs : s = source
    · rw [hs, update_self]
      omega
    · rw [update_of_ne hs]
      exact h.budget s
  · have hsum : p.creditedBits = _ := h.sum
    obtain rfl | rfl | rfl : source = 0 ∨ source = 1 ∨ source = 2 := by
      unfold entropySrcN at hn
      omega
    all_goals
      simp [credits, entropySrcN, range_succ] at hsum ⊢
      omega

lemma rdrandFill_credits {len : ℕ} :
    ∀ (is : List ℕ) (out : List UInt8) (p : EntropyPool),
      (rdrandFill sha256 draw len is out p).2.2.credits = p.credits
  | [], _, _ => rfl
  | i :: is, out, p => by
    unfold rdrandFill
    split
    · rfl
    · exact rdrandFill_credits is _ _

lemma generate_credits {buf : Bool} {len : ℕ} :
    (generateRandomBytes sha256 rdrand draw p buf len).2.2.credits = p.credits := by
  unfold generateRandomBytes
  dsimp only
  split_ifs
  all_goals first | rfl | exact rdrandFill_credits _ _ p

lemma entropyRun_kept {P : ℕ × (ℕ → ℕ) → Prop} {calls : List EntropyCall} (h : P p.credits)
    (ha : ∀ p, P p.credits → ∀ source data tsc, .addEvent source data tsc ∈ calls →
      P (entropyAddEvent p source data tsc).credits) :
    P (entropyRun sha256 rdrand p calls).credits := by
  refine @foldl_invariant_mem _ _ _ (fun p => P p.credits) calls p (fun p c hc h => ?_) h
  cases c with
  | addEvent source data tsc => exact ha p h source data tsc hc
  | generate draw buf len =>
    simp only [entropyStep, generate_credits]
    exact h
  | quality => exact h

lemma entropyStep_weak (c : EntropyCall) (h : p.creditedBits < entropyOkThreshold) :
    (entropyStep sha256 false p c).1 ≠ some .ok := by
  have hq : entropyQuality false p ≠ .ok := by
    simp only [entropyQuality, not_le.2 h, Bool.false_eq_true, if_false]
    split_ifs <;> simp
  cases c with
  | addEvent source data tsc => simp [entropyStep]
  | generate draw buf len =>
    simp only [entropyStep, generateRandomBytes, poolExtract, poolDrainRing, not_le.2 h,
      Bool.false_eq_true, if_false]
    split_ifs <;> simp [hq]
  | quality => simpa [entropyStep] using hq

/-- No source is credited past its budget, and without `rdrand` and keyboard the pool stays weak. -/
theorem entropyRun_credited (sha256 : List UInt8 → List UInt8) (rdrand : Bool) (state : List UInt8)
    (tsc : UInt32) (seeded : Bool) (calls : List EntropyCall) :
    let p := entropyRun sha256 rdrand (.fresh state tsc seeded) calls
    (∀ s, p.creditedBySource s ≤ entropyBudget s) ∧
      p.creditedBits = ((range entropySrcN).map p.creditedBySource).sum ∧
      p.creditedBySource entropySrcTimer = 0 ∧
      (rdrand = false → (∀ data tsc, .addEvent entropySrcKbd data tsc ∉ calls) →
        ∀ c, (entropyStep sha256 rdrand p c).1 ≠ some .ok) := by
  intro p
  have h : Credited p.credits := entropyRun_kept ⟨fun _ => Nat.zero_le _, by
    simp [credits, fresh]⟩ fun _ hp _ _ _ _ => hp.addEvent
  refine ⟨h.budget, h.sum, Nat.le_zero.1 (h.budget entropySrcTimer), fun hr hkbd c => ?_⟩
  have hquiet : p.credits.2 entropySrcKbd = 0 := by
    refine entropyRun_kept (P := fun c => c.2 entropySrcKbd = 0) rfl
      fun p hp source data tsc hc => ?_
    rw [addEvent_credits]
    split_ifs
    · exact hp
    · have hne : entropySrcKbd ≠ source := fun he => hkbd data tsc (he ▸ hc)
      exact (update_of_ne hne _ _).trans hp
  have hbits := h.bits_le
  rw [hquiet] at hbits
  subst hr
  exact entropyStep_weak c (lt_of_le_of_lt hbits (by decide))

end Credit

section Regular

lemma addEvent_last (h : source < entropySrcN) :
    (entropyAddEvent p source data tsc).lastTsc = tsc ∧
      (entropyAddEvent p source data tsc).lastD1 = tsc - p.lastTsc := by
  unfold entropyAddEvent
  rw [if_neg (not_le.2 h)]
  dsimp only
  split_ifs <;> exact ⟨rfl, rfl⟩

lemma credit_regular (h : tsc - p.lastTsc = p.lastD1) : p.credit source tsc = 0 := by
  have hz : bitLength 0 = 0 := rfl
  simp [credit, h, hz]

lemma credit_spent (h : entropyBudget source ≤ p.creditedBySource source) :
    p.credit source tsc = 0 := by
  simp [credit, h]

/-- A source with even intervals earns nothing as long as no other source comes in between. -/
theorem evenlySpaced_earnsNothing (p : EntropyPool) (l : List EntropyEvent) (s : ℕ) (t : UInt32)
    (hl : EvenlySpaced s t l) (hu : Undisturbed s p l) : EarnsNothing s p l := by
  intro before e after heq he hcount
  have hcredits : (eventRun p (before ++ [e])).credits = (eventRun p before).credits := by
    simp only [eventRun, foldl_append, foldl_cons, foldl_nil]
    rw [addEvent_credits, if_pos]
    rcases hu before e after heq he hcount with hspent | ⟨front, a, b, rfl, ha, hb⟩
    · exact .inr (credit_spent (he ▸ hspent))
    -- the last two intervals of `s` are the last two of the pool
    have hspace : b.tsc - a.tsc = t ∧ e.tsc - b.tsc = t := by
      unfold EvenlySpaced at hl
      simp only [heq, filter_append, map_append, append_assoc, filter_cons, ha, hb, he, decide_true,
        if_true, map_cons, cons_append, nil_append, isChain_append, isChain_cons_cons] at hl
      exact ⟨hl.2.1.1, hl.2.1.2.1⟩
    simp only [foldl_append, foldl_cons, foldl_nil]
    generalize front.foldl _ p = q
    by_cases hs : s < entropySrcN
    · obtain ⟨hta, -⟩ := @addEvent_last q a.source a.data a.tsc (ha ▸ hs)
      obtain ⟨htb, hdb⟩ := @addEvent_last (entropyAddEvent q a.source a.data a.tsc) b.source b.data
        b.tsc (hb ▸ hs)
      refine .inr (credit_regular ?_)
      rw [htb, hdb, hta, hspace.1, hspace.2]
    · exact .inl (he ▸ not_lt.1 hs)
  exact congrFun (congrArg Prod.snd hcredits) s

def keyAt (tsc : UInt32) : EntropyEvent := ⟨entropySrcKbd, 0, tsc⟩

theorem evenlySpaced_earnsNothing_keys : EarnsNothing entropySrcKbd (.fresh [] 0 true)
    [keyAt 1000, keyAt 2000, keyAt 3000, keyAt 4000] := by
  refine evenlySpaced_earnsNothing _ _ _ 1000 (by simp [EvenlySpaced, keyAt]) ?_
  intro before e after heq he hcount
  rcases before with _ | ⟨a, _ | ⟨b, _ | ⟨c, _ | ⟨d, rest⟩⟩⟩⟩
  · simp at hcount
  · exact absurd (hcount.trans countP_le_length) (by simp)
  · exact absurd (hcount.trans countP_le_length) (by simp)
  · simp only [cons_append, nil_append, cons.injEq] at heq
    exact .inr ⟨[a], b, c, rfl, heq.2.1 ▸ rfl, heq.2.2.1 ▸ rfl⟩
  · simp at heq

/-- A key is pressed every 1000 ticks, and a disk interrupt comes before the fourth press. -/
theorem evenlySpaced_disturbed_earns :
    let l := [keyAt 1000, keyAt 2000, keyAt 3000, ⟨entropySrcAta, 0, 3300⟩, keyAt 4000]
    EvenlySpaced entropySrcKbd 1000 l ∧ ¬ EarnsNothing entropySrcKbd (.fresh [] 0 true) l := by
  refine ⟨by simp [EvenlySpaced, keyAt, entropySrcKbd, entropySrcAta], fun h => ?_⟩
  specialize h [keyAt 1000, keyAt 2000, keyAt 3000, ⟨entropySrcAta, 0, 3300⟩]
    (keyAt 4000) [] rfl rfl
    (by decide)
  revert h
  decide

end Regular

end EsdumanOS
