import EsdumanOS.Shell

/-!
# Where command chains go wrong

A skipped command hands its skip on: after `&&` the next one is skipped as well, after `||` it runs.
That is wrong when the status is 0: `a || b || c` runs `c` after `a` has succeeded.
-/

namespace EsdumanOS.Shell

section Split

variable {line : List Char}

lemma cutCommand_op (h : (cutCommand line).next ≠ []) : (cutCommand line).op ≠ .none := by
  unfold cutCommand at h ⊢
  split at h
  · split_ifs <;> simp
  · simp
  · simp
  · simp at h

lemma splitLine_ops : ∀ (fuel : ℕ) (line : List Char),
    (splitLine fuel line).IsChain fun c _ => c.2 ≠ .none
  | 0, _ => .nil
  | _ + 1, [] => .nil
  | 1, c :: line => .singleton _
  | fuel + 2, c :: line => by
    have hr := splitLine_ops (fuel + 1) (cutCommand (c :: line)).next
    rw [splitLine]
    rcases hn : (cutCommand (c :: line)).next with _ | ⟨d, next⟩
    · exact .singleton _
    · rw [hn] at hr
      exact .cons_cons (cutCommand_op (by simp [hn])) hr

end Split

section Chain

variable {σ : Type*} {execute : List Char → σ → σ} {status : σ → ℤ}

def skipTurns (execute : List Char → σ → σ) (status : σ → ℤ) :
    Bool → σ → List (List Char × ChainOp) → List (Turn σ)
  | _, _, [] => []
  | skip, s, (cmd, op) :: rest =>
    let after := if skip then s else execute cmd s
    ⟨cmd, op, !skip, after⟩ :: skipTurns execute status (nextSkip skip op (status after)) after rest

lemma chainLoop_eq : ∀ (fuel : ℕ) (line : List Char) (skip : Bool) (s : σ),
    chainLoop execute status fuel line skip s =
      skipTurns execute status skip s (splitLine fuel line)
  | 0, _, _, _ => rfl
  | _ + 1, [], _, _ => rfl
  | fuel + 1, c :: line, skip, s => by
    rw [chainLoop, splitLine, skipTurns, chainLoop_eq fuel]

lemma nextSkip_iff {skip : Bool} {op : ChainOp} {n : ℤ} (hop : op ≠ .none) :
    ((!nextSkip skip op n) = true ↔ continues op n) ↔ (!skip) = true ∨ n ≠ 0 := by
  unfold continues
  cases skip <;> cases op <;> simp_all [nextSkip]

lemma skipTurns_isChain_iff : ∀ (l : List (List Char × ChainOp)) (skip : Bool) (s : σ),
    (l.IsChain fun c _ => c.2 ≠ .none) →
    (((skipTurns execute status skip s l).IsChain fun t t' =>
        t'.ran = true ↔ continues t.op (status t.after)) ↔
      (leftToRight execute status (!skip) s l).IsChain fun t _ =>
        t.ran = true ∨ status t.after ≠ 0)
  | [], _, _, _ => by simp [skipTurns, leftToRight]
  | [c], _, _, _ => by simp [skipTurns, leftToRight]
  | (cmd, op) :: c' :: l, skip, s, hl => by
    rw [List.isChain_cons_cons] at hl
    have ha : (if (!skip) = true then execute cmd s else s) =
        if skip = true then s else execute cmd s := by
      cases skip <;> rfl
    have ih := skipTurns_isChain_iff (c' :: l) (nextSkip skip op
      (status (if skip = true then s else execute cmd s))) (if skip then s else execute cmd s) hl.2
    rw [skipTurns, leftToRight, ha]
    generalize (if skip = true then s else execute cmd s) = after at ih ⊢
    rw [skipTurns, leftToRight] at ih ⊢
    rw [List.isChain_cons_cons, List.isChain_cons_cons, nextSkip_iff hl.1]
    -- on the right the next turn runs by the rule, on the left by the skip handed on
    refine and_congr_right fun hok => ?_
    have hr : decide (continues op (status after)) = !nextSkip skip op (status after) := by
      have := (@nextSkip_iff skip _ _ hl.1).2 hok
      rw [Bool.eq_iff_iff, decide_eq_true_iff]
      exact this.symm
    rw [hr]
    exact ih

/-- The shell runs a line from left to right with equal precedence iff no command but the last is
passed over at status 0. -/
theorem runLine_equalPrecedence_iff (execute : List Char → σ → σ) (status : σ → ℤ)
    (line : List Char) (s : σ) :
    EqualPrecedence status (runLine execute status line s) ↔
      NoSkipOnSuccess execute status line s := by
  unfold EqualPrecedence runLine NoSkipOnSuccess
  rw [chainLoop_eq, skipTurns_isChain_iff _ _ _ (splitLine_ops _ _)]
  refine and_iff_right fun t ht => ?_
  rcases hl : splitLine line.length line with _ | ⟨c, l⟩
  · simp [hl, skipTurns] at ht
  · rw [hl, skipTurns] at ht
    simp only [List.head?_cons, Option.mem_def, Option.some.injEq] at ht
    simp [← ht]

/-- In `a||b||c` the last command runs although the first one has succeeded. -/
theorem runLine_runs_after_success : ¬ EqualPrecedence id
    (runLine (fun _ _ => 0) id ['a', '|', '|', 'b', '|', '|', 'c'] (0 : ℤ)) := by
  unfold EqualPrecedence
  decide

end Chain

end EsdumanOS.Shell
