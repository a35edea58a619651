import Mathlib.Tactic

/-!
# Doubly linked lists

`Chained key data node p l n`: the nodes of `l` are linked in both directions, between `p` and `n`;
`key` is where an element lies, `data` what its node holds besides the links. An operation keeps the
segments it does not write and gives the others a new neighbour.
-/

namespace Lib

structure Node (α δ : Type*) where
  data : δ
  next : α
  prev : α

variable {α β δ : Type*} (key : β → α) (data : β → δ)

/-- Where a list starts, if `n` follows it. -/
def front : List β → α → α
  | [], n => n
  | b :: _, _ => key b

/-- Where a list ends, if `p` comes before it. -/
def back : α → List β → α
  | p, [] => p
  | _, b :: l => back (key b) l

/-- The nodes of a list are linked in its order, from `p` to `n`. -/
def Chained (node : α → Node α δ) : α → List β → α → Prop
  | _, [], _ => True
  | p, b :: l, n => node (key b) = ⟨data b, front key l n, p⟩ ∧ Chained node (key b) l n

variable {key data} {node node' : α → Node α δ} {p n : α} {b : β} {l r : List β}

@[simp] lemma front_append : front key (l ++ r) n = front key l (front key r n) := by
  cases l <;> rfl

@[simp] lemma back_append : ∀ {p : α} {l : List β}, back key p (l ++ r) = back key (back key p l) r
  | _, [] => rfl
  | _, _ :: l => back_append (l := l)

lemma front_or {P : α → Prop} (h : ∀ b ∈ l, P (key b)) : front key l n = n ∨ P (front key l n) := by
  cases l with
  | nil => exact .inl rfl
  | cons b l => exact .inr (h b List.mem_cons_self)

lemma back_mem : ∀ {p : α} {l : List β}, l ≠ [] → ∃ b ∈ l, back key p l = key b
  | _, [], h => absurd rfl h
  | _, [b], _ => ⟨b, by simp, rfl⟩
  | _, _ :: c :: l, _ => by
    obtain ⟨b, hb, h⟩ := back_mem (p := key c) (l := c :: l) (by simp)
    exact ⟨b, List.mem_cons_of_mem _ hb, h⟩

lemma chained_append : ∀ {p : α} {l : List β}, Chained key data node p (l ++ r) n ↔
    Chained key data node p l (front key r n) ∧ Chained key data node (back key p l) r n
  | _, [] => by simp [Chained, back]
  | p, b :: l => by
    simp only [List.cons_append, Chained, back, front_append]
    rw [chained_append (p := key b) (l := l)]
    tauto

namespace Chained

lemma congr : ∀ {p : α} {l : List β}, Chained key data node p l n →
    (∀ b ∈ l, node' (key b) = node (key b)) → Chained key data node' p l n
  | _, [], _, _ => trivial
  | _, b :: _, h, hl =>
    ⟨(hl b (by simp)).trans h.1, h.2.congr fun c hc => hl c (List.mem_cons_of_mem _ hc)⟩

lemma at_mem (h : Chained key data node p l n) (hb : b ∈ l) : (node (key b)).data = data b := by
  induction l generalizing p with
  | nil => cases hb
  | cons c l ih =>
    rcases List.mem_cons.1 hb with rfl | hb
    · rw [h.1]
    · exact ih h.2 hb

lemma rebase {q : α} (h : Chained key data node p (b :: l) n)
    (hb : node' (key b) = { node (key b) with prev := q })
    (hl : ∀ c ∈ l, node' (key c) = node (key c)) : Chained key data node' q (b :: l) n := by
  obtain ⟨hn, h⟩ := h
  exact ⟨by rw [hb, hn], h.congr hl⟩

lemma retarget {m : α} (h : Chained key data node p (l ++ [b]) n)
    (hb : node' (key b) = { node (key b) with next := m })
    (hl : ∀ c ∈ l, node' (key c) = node (key c)) : Chained key data node' p (l ++ [b]) m := by
  obtain ⟨h, hn, -⟩ := chained_append.1 h
  exact chained_append.2 ⟨h.congr hl, by rw [hb, hn]; rfl, trivial⟩

end Chained

lemma pairwise_or {R : β → β → Prop} {c : β} (h : l.Pairwise R) (hb : b ∈ l) (hc : c ∈ l)
    (hne : b ≠ c) : R b c ∨ R c b := by
  have : Std.Symm fun b c => R b c ∨ R c b := ⟨fun _ _ => .symm⟩
  have hor : l.Pairwise fun b c => R b c ∨ R c b := h.imp .inl
  exact hor.forall hb hc hne

end Lib
