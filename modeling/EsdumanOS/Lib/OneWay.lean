import EsdumanOS.Lib.TwoWay

/-!
# Singly linked lists

`Strung key data node l n`: the nodes of `l` are linked one after the other and the last to `n`;
`key` is where an element lies, `data` what its node holds besides the link. An operation keeps the
segments it does not write (`Strung.congr`).
-/

namespace Lib

variable {α β δ : Type*} (key : β → α) (data : β → δ)

/-- The nodes of a list are linked in its order, the last one to `n`. -/
def Strung (node : α → δ × α) : List β → α → Prop
  | [], _ => True
  | b :: l, n => node (key b) = (data b, front key l n) ∧ Strung node l n

variable {key data} {node node' : α → δ × α} {n : α} {b : β} {l r : List β}

@[simp] lemma front_cons : front key (b :: l) n = key b := rfl

lemma strung_append : ∀ {l : List β}, Strung key data node (l ++ r) n ↔
    Strung key data node l (front key r n) ∧ Strung key data node r n
  | [] => by simp [Strung]
  | b :: l => by
    simp only [List.cons_append, Strung, front_append]
    rw [strung_append (l := l), and_assoc]

namespace Strung

lemma congr : ∀ {l : List β}, Strung key data node l n →
    (∀ b ∈ l, node' (key b) = node (key b)) → Strung key data node' l n
  | [], _, _ => trivial
  | b :: _, h, hl =>
    ⟨(hl b (by simp)).trans h.1, h.2.congr fun c hc => hl c (List.mem_cons_of_mem _ hc)⟩

lemma at_mem (h : Strung key data node l n) (hb : b ∈ l) : (node (key b)).1 = data b := by
  induction l with
  | nil => cases hb
  | cons c l ih =>
    rcases List.mem_cons.1 hb with rfl | hb
    · rw [h.1]
    · exact ih h.2 hb

end Strung

end Lib
