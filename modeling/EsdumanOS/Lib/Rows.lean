import Mathlib.Tactic

/-!
# Tables of rows

A table is a list of rows, each with a key. `updateFirst` rewrites the first row a test hits. What
an update does is said row by row, by a relation between the row before and the row after.
-/

namespace Lib

open List

variable {α κ : Type*} {R : α → α → Prop} {key : α → κ} {hit : α → Bool} {f : α → α}

def updateFirst (hit : α → Bool) (f : α → α) : List α → List α
  | [] => []
  | a :: as => if hit a then f a :: as else a :: updateFirst hit f as

section Related

variable {l l' : List α} {a : α}

lemma related_refl (h : ∀ a, R a a) : ∀ l : List α, Forall₂ R l l
  | [] => .nil
  | a :: l => .cons (h a) (related_refl h l)

lemma related_trans (h : ∀ a b c, R a b → R b c → R a c) :
    ∀ {l1 l2 l3 : List α}, Forall₂ R l1 l2 → Forall₂ R l2 l3 → Forall₂ R l1 l3
  | _, _, _, .nil, .nil => .nil
  | _, _, _, .cons hab hl, .cons hb hl' => .cons (h _ _ _ hab hb) (related_trans h hl hl')

lemma related_map (h : ∀ a, R a (f a)) : ∀ l : List α, Forall₂ R l (l.map f)
  | [] => .nil
  | a :: l => .cons (h a) (related_map h l)

lemma related_updateFirst (hr : ∀ a, R a a) (h : ∀ a, hit a = true → R a (f a)) :
    ∀ l : List α, Forall₂ R l (updateFirst hit f l)
  | [] => .nil
  | a :: l => by
    unfold updateFirst
    split_ifs with ha
    · exact .cons (h a ha) (related_refl hr l)
    · exact .cons (hr a) (related_updateFirst hr h l)

section

variable (h : Forall₂ R l l')
include h

lemma related_right (ha : a ∈ l') : ∃ b ∈ l, R b a := by
  induction h with
  | nil => simp at ha
  | cons hab _ ih =>
    rcases mem_cons.1 ha with rfl | ha
    · exact ⟨_, mem_cons_self, hab⟩
    · obtain ⟨b, hb, hR⟩ := ih ha
      exact ⟨b, mem_cons_of_mem _ hb, hR⟩

lemma related_left (ha : a ∈ l) : ∃ b ∈ l', R a b := by
  obtain ⟨b, hb, hR⟩ := related_right (R := fun x y => R y x) h.flip ha
  exact ⟨b, hb, hR⟩

lemma related_keys (hk : ∀ a b, R a b → key b = key a) : l'.map key = l.map key := by
  induction h with
  | nil => rfl
  | cons ha _ ih => rw [map_cons, map_cons, hk _ _ ha, ih]

lemma related_find {β : Type*} {g : α → β}
    (hh : ∀ a b, R a b → hit b = hit a ∧ (hit a = true → g b = g a)) :
    (l'.find? hit).map g = (l.find? hit).map g := by
  induction h with
  | nil => rfl
  | @cons a b _ _ hab _ ih =>
    obtain ⟨heq, hg⟩ := hh a b hab
    cases ha : hit a with
    | true =>
      rw [find?_cons_of_pos ha, find?_cons_of_pos (heq.trans ha)]
      simp [hg ha]
    | false =>
      simpa [ha, heq] using ih

end

end Related

lemma hit_of_mem_updateFirst (hk : ∀ a b, hit a = true → hit b = true → key a = key b) :
    ∀ {l : List α} {a : α}, (l.map key).Nodup → a ∈ updateFirst hit f l → hit a = true →
      ∃ b, a = f b
  | [], _, _, ha, _ => by simp [updateFirst] at ha
  | b :: l, a, hn, ha, hh => by
    rw [map_cons, nodup_cons] at hn
    unfold updateFirst at ha
    split_ifs at ha with hb
    · rcases mem_cons.1 ha with rfl | hal
      · exact ⟨b, rfl⟩
      · exact absurd (mem_map.2 ⟨a, hal, hk a b hh hb⟩) hn.1
    · rcases mem_cons.1 ha with rfl | hal
      · exact absurd hh hb
      · exact hit_of_mem_updateFirst hk hn.2 hal hh

end Lib
