import EsdumanOS.Base

/-!
# Command chains of the shell

The loop of `sh.c` that takes a line apart at `&&` and `||` and runs its commands. What a command
does is left open: `execute` is the state of the shell after it, and `status` reads
`last_exit_status`.
-/

namespace EsdumanOS.Shell

/-- `op_type`: what follows a command. -/
inductive ChainOp
  | none | and | or
  deriving DecidableEq, Repr

def ChainOp.text : ChainOp → List Char
  | .none => []
  | .and => ['&', '&']
  | .or => ['|', '|']

/-- `ft_strstr`, of a needle that is not empty. -/
def ftStrstr (needle : List Char) : List Char → Option ℕ
  | [] => none
  | c :: s => if needle.isPrefixOf (c :: s) then some 0 else (ftStrstr needle s).map (· + 1)

/-- A command cut off a line, and `next_cmd`, which is empty when there is none. -/
structure Cut where
  cmd : List Char
  op : ChainOp
  next : List Char

def cutCommand (line : List Char) : Cut :=
  let cutAt (i : ℕ) (op : ChainOp) : Cut := ⟨line.take i, op, line.drop (i + 2)⟩
  match ftStrstr ChainOp.and.text line, ftStrstr ChainOp.or.text line with
  | some a, some o => if a < o then cutAt a .and else cutAt o .or
  | some a, none => cutAt a .and
  | none, some o => cutAt o .or
  | none, none => ⟨line, .none, []⟩

/-- `skip_execution` for the next command. -/
def nextSkip (skip : Bool) (op : ChainOp) (status : ℤ) : Bool :=
  match skip, op with
  | false, .and => decide (status ≠ 0)
  | false, .or => decide (status = 0)
  | true, .and => true
  | true, .or => false
  | skip, .none => skip

/-- One pass of the loop: the command, whether it was executed, and the shell after it. -/
structure Turn (σ : Type*) where
  cmd : List Char
  op : ChainOp
  ran : Bool
  after : σ

section Loop

variable {σ : Type*} (execute : List Char → σ → σ) (status : σ → ℤ)

/-- The loop over `current_cmd`, for as many passes as `fuel`. -/
def chainLoop : ℕ → List Char → Bool → σ → List (Turn σ)
  | fuel + 1, c :: line, skip, s =>
    let cut := cutCommand (c :: line)
    let after := if skip then s else execute cut.cmd s
    ⟨cut.cmd, cut.op, !skip, after⟩ ::
      chainLoop fuel cut.next (nextSkip skip cut.op (status after)) after
  | _, _, _, _ => []

def runLine (line : List Char) (s : σ) : List (Turn σ) :=
  chainLoop execute status line.length line false s

def splitLine : ℕ → List Char → List (List Char × ChainOp)
  | fuel + 1, c :: line =>
    let cut := cutCommand (c :: line)
    (cut.cmd, cut.op) :: splitLine fuel cut.next
  | _, _ => []

/-- Whether the command after `op` is to run, by the status of the chain before it. -/
def continues (op : ChainOp) (status : ℤ) : Prop :=
  op = .and ∧ status = 0 ∨ op = .or ∧ status ≠ 0

instance (op : ChainOp) (status : ℤ) : Decidable (continues op status) :=
  inferInstanceAs (Decidable (_ ∨ _))

/-- The chain as it should run: from left to right, both operators with equal precedence. -/
def leftToRight : Bool → σ → List (List Char × ChainOp) → List (Turn σ)
  | _, _, [] => []
  | run, s, (cmd, op) :: rest =>
    let after := if run then execute cmd s else s
    ⟨cmd, op, run, after⟩ :: leftToRight (decide (continues op (status after))) after rest

/-- The first command runs, and every other iff its operator and the status up to it say so. -/
def EqualPrecedence (turns : List (Turn σ)) : Prop :=
  (∀ t ∈ turns.head?, t.ran = true) ∧
    turns.IsChain fun t t' => t'.ran = true ↔ continues t.op (status t.after)

/-- Evaluated from left to right, no command but the last is passed over while the status is 0. -/
def NoSkipOnSuccess (line : List Char) (s : σ) : Prop :=
  (leftToRight execute status true s (splitLine line.length line)).IsChain fun t _ =>
    t.ran = true ∨ status t.after ≠ 0

end Loop

end EsdumanOS.Shell
