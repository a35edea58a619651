import EsdumanOS.Lib.Runs
import EsdumanOS.EditBuf

/-!
# What undo takes back

The records of the log stand for the last edits that were made and not taken back, and their removed
bytes lie in the arena one after the other (`Laid`). So the newest record is the newest edit, its
offset is one of the text as it is now, and taking it back leaves the text before it.
-/

namespace EsdumanOS

open Lib List EditSys EbUndo EditBuf

variable {run : List Edit}

section Texts

variable {t t' : List UInt8} {es fs : List Edit} {e : Edit}

lemma leads_append : ∀ {t : List UInt8} {es : List Edit},
    Leads t' t (es ++ fs) ↔ ∃ m, Leads m t es ∧ Leads t' m fs
  | t, [] => by simp [Leads]
  | t, e :: es => by
    simp only [cons_append, Leads, @leads_append e.after es]
    constructor
    · rintro ⟨h1, h2, m, h3, h4⟩
      exact ⟨m, ⟨h1, h2, h3⟩, h4⟩
    · rintro ⟨m, ⟨h1, h2, h3⟩, h4⟩
      exact ⟨h1, h2, m, h3, h4⟩

lemma Leads.start {P : List UInt8 → Prop} (h : Leads t' t es) (hn : P t')
    (he : ∀ e ∈ es, P e.before) : P t := by
  rcases es with _ | ⟨e, es⟩
  · exact (show t = t' from h) ▸ hn
  · exact h.1 ▸ he e mem_cons_self

lemma Leads.snoc (h : Leads e.before t es) (he : e.Valid) : Leads e.after t (es ++ [e]) :=
  leads_append.2 ⟨_, h, rfl, he, rfl⟩

/-- A run of typed bytes is one piece of the text it leads to. -/
lemma typed_piece {off : ℕ} : ∀ {es : List Edit} {t t' : List UInt8}, Leads t' t es →
    (∀ x ∈ es, x.inserted = 1 ∧ x.removed = []) → es.map Edit.off = range' off es.length →
    es ≠ [] → ∃ pre typed post, pre.length = off ∧ typed.length = es.length ∧ t = pre ++ post ∧
      t' = pre ++ typed ++ post := by
  intro es
  induction es using reverseRecOn with
  | nil => exact fun _ _ _ h => absurd rfl h
  | append_singleton es e ih =>
    intro t t' hl hi ho _
    obtain ⟨m, hl, hm, ⟨pre, typed, post, hp, hty, hb, ha⟩, hla⟩ := leads_append.1 hl
    obtain ⟨hon, hn⟩ := hi e (by simp)
    rw [hon, length_eq_one_iff] at hty
    obtain ⟨c, rfl⟩ := hty
    simp only [hn, append_nil] at hb
    simp only [map_append, length_append, length_cons, length_nil,
      range'_concat, map_cons, map_nil] at ho
    obtain ⟨ho, he⟩ := append_inj' ho (by simp)
    simp only [cons.injEq, and_true, Nat.one_mul] at he
    rcases eq_nil_or_concat es with rfl | ⟨es', e', rfl⟩
    · refine ⟨pre, [c], post, by simpa [he] using hp, by simp, ?_, ?_⟩
      · rw [hl, ← hm, hb]
      · rw [← hla, ha]
    · obtain ⟨pre', typed', post', hp', ht', ht, hm'⟩ :=
        ih hl (fun x hx => hi x (mem_append_left _ hx)) ho (by simp)
      have hs : pre = pre' ++ typed' ∧ post = post' := by
        rw [← hm, hb] at hm'
        exact append_inj hm' (by simp [hp, he, hp', ht'])
      obtain ⟨rfl, rfl⟩ := hs
      refine ⟨pre', typed' ++ [c], post, hp', by simp [ht'], ht, ?_⟩
      rw [← hla, ha]
      simp

end Texts

section Replay

variable {b : EditBuf} {u : EbUndo} {r : EbRec} {pre post : List UInt8}

lemma ebDelete_piece {c : UInt8} {mid : List UInt8} (h : b.data = pre ++ c :: mid ++ post) :
    (b.ebDelete pre.length).2 = { b with data := pre ++ mid ++ post } := by
  have hlt : ¬ ((pre.length : ℤ) < 0 ∨ (b.data.length : ℤ) ≤ pre.length) := by
    rw [h]
    simp
    omega
  rw [ebDelete, if_neg hlt, Int.toNat_natCast, h]
  simp [drop_append, drop_eq_nil_of_le]

lemma deletes_piece : ∀ {typed : List UInt8} {b : EditBuf}, b.data = pre ++ typed ++ post →
    (range typed.length).foldl (fun b _ => (b.ebDelete pre.length).2) b =
      { b with data := pre ++ post }
  | [], b, h => by
    simp only [append_nil] at h
    simp [← h]
  | c :: typed, b, h => by
    rw [length_cons, range_succ_eq_map, foldl_cons, foldl_map, ebDelete_piece h, deletes_piece rfl]

lemma ebInsert_piece {c : UInt8} (h : b.data = pre ++ post)
    (hc : (pre.length + post.length + 1 : ℤ) < b.cap) :
    (b.ebInsert (pre.length : ℕ) c).2 = { b with data := pre ++ c :: post } := by
  have hle : ¬ ((pre.length : ℤ) < 0 ∨ (b.data.length : ℤ) < pre.length) := by
    rw [h]
    simp
  have hr : ¬ b.cap ≤ b.data.length + 1 := by
    rw [h]
    push_cast [length_append]
    omega
  rw [ebInsert, if_neg hle, if_neg hr, Int.toNat_natCast, h]
  simp

lemma inserts_piece {f : ℕ → UInt8} : ∀ {n : ℕ} {bytes : List UInt8} {b : EditBuf},
    bytes.length = n → (∀ i < n, f i = bytes.getD i 0) → b.data = pre ++ post →
    (pre.length + n + post.length : ℤ) < b.cap →
    (range n).foldl (fun b i => (b.ebInsert ((pre.length + i : ℕ) : ℤ) (f i)).2) b =
      { b with data := pre ++ bytes ++ post }
  | 0, bytes, b, hl, _, h, _ => by
    rw [length_eq_zero_iff] at hl
    subst hl
    simp [← h]
  | n + 1, bytes, b, hl, hf, h, hca => by
    obtain ⟨bytes, c, rfl⟩ : ∃ l c, bytes = l ++ [c] :=
      ⟨bytes.dropLast, bytes.getLast (by rintro rfl; simp at hl), (dropLast_append_getLast _).symm⟩
    simp only [length_append, length_singleton, Nat.add_right_cancel_iff] at hl
    rw [range_succ, foldl_append, inserts_piece hl (fun i hi => ?_) h (by omega),
      foldl_cons, foldl_nil]
    · have hc : f n = c := by
        rw [hf n (by omega)]
        simp [getD, hl]
      have hp : pre.length + n = (pre ++ bytes).length := by simp [hl]
      rw [hp, ebInsert_piece rfl, hc]
      · simp
      · simp only [length_append, hl]
        omega
    · rw [hf i (by omega)]
      simp only [getD_eq_getElem?_getD, getElem?_append_left (show i < bytes.length by omega)]

/-- Undoing a record takes back the edits it stands for. -/
lemma undoRec_run {t : List UInt8} (hr : Records u.arena r run) (hl : Leads b.data t run)
    (hca : (t.length : ℤ) < b.cap) :
    undoRec b u r = { b with data := t } := by
  obtain ⟨hc, hbytes⟩ := hr
  cases hc with
  | removes e hin hsome hof hri hrm hcu =>
    obtain ⟨rfl, ⟨pre, typed, post, hp, ht, hb, ha⟩, hla⟩ := hl
    rw [hin, length_eq_zero_iff] at ht
    subst ht
    simp only [Leads, ha, append_nil] at hla
    simp only [flatMap_cons, flatMap_nil, append_nil] at hbytes
    have hre : ∀ i < e.removed.length, u.arena.getD (r.text + i) 0 = e.removed.getD i 0 := by
      intro i hi
      rw [← hbytes]
      simp [getD_eq_getElem?_getD, hrm, hi]
    have hro : (pre.length + e.removed.length + post.length : ℤ) < b.cap := by
      rw [hb] at hca
      push_cast [length_append] at hca
      omega
    simp only [undoRec, hri, range_zero, foldl_nil, hof, ← hp, hrm]
    rw [inserts_piece rfl hre hla.symm hro, hb]
  | types e es hin ho hri hrm hcu =>
    obtain ⟨pre, typed, post, hp, ht, rfl, hd⟩ := typed_piece hl hin ho (by simp)
    rw [undoRec, hrm, range_zero, foldl_nil, hri, ← hp]
    rw [length_cons] at ht
    rw [← ht]
    exact deletes_piece hd

end Replay

section Log

variable {u : EbUndo} {r : EbRec} {e : Edit} {rs : List EbRec} {runs : List (List Edit)} {n : ℕ}

lemma EbRec.Covers.removed (h : r.Covers run) :
    r.removed = (run.flatMap Edit.removed).length := by
  cases h with
  | removes e hi hsome hoff hrins hr hc => simpa using hr
  | types e es hi hoffs hrins hr hc =>
    have hn : (e :: es).flatMap Edit.removed = [] := flatMap_eq_nil_iff.2 fun x hx => (hi x hx).2
    rw [hr, hn, length_nil]

lemma EbRec.Covers.editsOf (h : r.Covers run) : editsOf r = run.length := by
  cases h with
  | removes e hins hs hoff hr hre hc =>
    have hne : r.removed ≠ 0 := by
      rw [hre]
      exact fun h => hs (length_eq_zero_iff.1 h)
    rw [editsOf, if_neg hne, length_singleton]
  | types e es hins hoffs hr hre hc =>
    rw [editsOf, if_pos hre, hr, length_cons]

def Laid : ℕ → List EbRec → List (List Edit) → Prop
  | _, [], runs => runs = []
  | n, r :: rs, runs => ∃ run rest, runs = run :: rest ∧ r.Covers run ∧ r.text = n ∧
      Laid (n + r.removed) rs rest

def removedBytes (runs : List (List Edit)) : List UInt8 := runs.flatten.flatMap Edit.removed

lemma removedBytes_cons (run : List Edit) (runs : List (List Edit)) :
    removedBytes (run :: runs) = run.flatMap Edit.removed ++ removedBytes runs := by
  simp [removedBytes]

lemma removedBytes_append (runs runs' : List (List Edit)) :
    removedBytes (runs ++ runs') = removedBytes runs ++ removedBytes runs' := by
  simp [removedBytes]

lemma laid_append {ss : List EbRec} : ∀ {n : ℕ} {rs : List EbRec} {runs : List (List Edit)},
    Laid n (rs ++ ss) runs ↔ ∃ front back, runs = front ++ back ∧ Laid n rs front ∧
      Laid (n + (removedBytes front).length) ss back
  | n, [], runs => by simp [Laid, removedBytes]
  | n, r :: rs, runs => by
    simp only [cons_append, Laid, @laid_append ss (n + r.removed) rs]
    constructor
    · rintro ⟨run, rest, rfl, hr, ht, front, back, rfl, hf, hb⟩
      refine ⟨run :: front, back, rfl, ⟨run, front, rfl, hr, ht, hf⟩, ?_⟩
      rw [removedBytes_cons, length_append, ← hr.removed, ← Nat.add_assoc]
      exact hb
    · rintro ⟨front, back, rfl, ⟨run, rest, rfl, hr, ht, hf⟩, hb⟩
      rw [removedBytes_cons, length_append, ← hr.removed, ← Nat.add_assoc] at hb
      exact ⟨run, rest ++ back, rfl, hr, ht, rest, back, rfl, hf, hb⟩

lemma laid_snoc : Laid n (rs ++ [r]) runs ↔ ∃ front run, runs = front ++ [run] ∧ Laid n rs front ∧
    r.Covers run ∧ r.text = n + (removedBytes front).length := by
  simp only [laid_append, Laid]
  constructor
  · rintro ⟨front, back, rfl, hf, run, rest, rfl, hr, ht, rfl⟩
    exact ⟨front, run, rfl, hf, hr, ht⟩
  · rintro ⟨front, run, rfl, hf, hr, ht⟩
    exact ⟨front, [run], rfl, hf, run, [], rfl, hr, ht, rfl⟩

lemma Laid.slide {k : ℕ} : ∀ {n : ℕ} {rs : List EbRec} {runs : List (List Edit)},
    Laid (n + k) rs runs → Laid n (rs.map fun r => { r with text := r.text - k }) runs
  | n, [], runs, h => h
  | n, r :: rs, runs, h => by
    obtain ⟨run, rest, rfl, hr, ht, hre⟩ := h
    refine ⟨run, rest, rfl, ?_, by simp [ht], ?_⟩
    · cases hr with
      | removes e hins hsome hoff hrins hrem hc =>
        exact .removes e hins hsome hoff hrins hrem hc
      | types e es hins hoffs hrins hrem hc => exact .types e es hins hoffs hrins hrem hc
    · rw [Nat.add_right_comm] at hre
      exact hre.slide

lemma Laid.sum : ∀ {n : ℕ} {rs : List EbRec} {runs : List (List Edit)}, Laid n rs runs →
    (rs.map EbRec.removed).sum = (removedBytes runs).length
  | n, [], runs, h => by
    rw [show runs = [] from h]
    rfl
  | n, r :: rs, runs, h => by
    obtain ⟨run, rest, rfl, hr, -, hre⟩ := h
    rw [map_cons, sum_cons, hre.sum, removedBytes_cons, length_append, hr.removed]

lemma Laid.edits : ∀ {n : ℕ} {rs : List EbRec} {runs : List (List Edit)}, Laid n rs runs →
    (rs.map editsOf).sum = runs.flatten.length
  | n, [], runs, h => by
    rw [show runs = [] from h]
    rfl
  | n, r :: rs, runs, h => by
    obtain ⟨run, rest, rfl, hr, -, hre⟩ := h
    rw [map_cons, sum_cons, hre.edits, flatten_cons, length_append, hr.editsOf]

lemma Laid.records {arena : List UInt8} : ∀ {pre : List UInt8} {rs : List EbRec}
    {runs : List (List Edit)}, Laid pre.length rs runs → arena = pre ++ removedBytes runs →
    Forall₂ (Records arena) rs runs
  | pre, [], runs, h, _ => by
    rw [show runs = [] from h]
    exact .nil
  | pre, r :: rs, runs, h, ha => by
    obtain ⟨run, rest, rfl, hr, ht, hre⟩ := h
    rw [removedBytes_cons, ← append_assoc] at ha
    refine .cons ⟨hr, ?_⟩ (Laid.records (by rwa [length_append, ← hr.removed]) ha)
    rw [ha, ht, hr.removed, append_assoc, drop_left, take_left]

/-- The log stands for the last edits of `hist`, and its arena for what they removed. -/
structure LogInv (u : EbUndo) (cap : ℤ) (hist : List Edit) : Prop where
  laid : ∃ old runs, hist = old ++ runs.flatten ∧ Laid 0 u.recs runs ∧ u.arena = removedBytes runs
  recsFit : (u.recs.length : ℤ) ≤ max 0 u.recCap
  arenaFits : u.arenaCap + cap ≤ 2 ^ 31 → (u.arena.length : ℤ) ≤ max 0 u.arenaCap

variable {cap : ℤ} {hist : List Edit}

lemma oldest_front (u : EbUndo) : u.oldest <+: u.recs := by
  unfold oldest
  split
  · exact nil_prefix
  · exact takeWhile_prefix _

lemma dropOldest_inv (h : LogInv u cap hist) : LogInv u.ebUndoDropOldest cap hist := by
  unfold ebUndoDropOldest
  split
  · exact h
  · obtain ⟨⟨old, runs, hh, hl, ha⟩, hr, hfi⟩ := h
    rw [← prefix_iff_eq_append.1 (oldest_front u), laid_append] at hl
    obtain ⟨front, back, rfl, hf, hb⟩ := hl
    rw [hf.sum]
    refine ⟨⟨old ++ front.flatten, back, ?_, hb.slide, ?_⟩, ?_, fun hc => ?_⟩
    · rw [hh, flatten_append, append_assoc]
    · simp only [ha, removedBytes_append, drop_left]
    · simp only [length_map, length_drop]
      omega
    · have hle := hfi hc
      simp only [length_drop]
      omega

lemma dropOldest_caps (u : EbUndo) : u.ebUndoDropOldest.recCap = u.recCap ∧
    u.ebUndoDropOldest.arenaCap = u.arenaCap := by
  unfold ebUndoDropOldest
  split <;> exact ⟨rfl, rfl⟩

structure Roomy (u : EbUndo) (cap : ℤ) (hist : List Edit) (need : ℕ) (res : Bool × EbUndo) :
    Prop where
  inv : LogInv res.2 cap hist
  recCap : res.2.recCap = u.recCap
  arenaCap : res.2.arenaCap = u.arenaCap
  room : res.1 = true → (res.2.recs.length : ℤ) < u.recCap ∧
    i32 (res.2.arena.length + need) ≤ u.arenaCap

lemma roomLoop_roomy {need : ℕ} : ∀ {fuel : ℕ} {u : EbUndo}, LogInv u cap hist →
    Roomy u cap hist need (roomLoop need fuel u)
  | 0, u, h => ⟨h, rfl, rfl, fun h => absurd h (by simp [roomLoop])⟩
  | fuel + 1, u, h => by
    obtain ⟨hre, ha⟩ := dropOldest_caps u
    simp only [roomLoop]
    split_ifs with hf hsame
    · exact ⟨dropOldest_inv h, hre, ha, fun h => by simp at h⟩
    · obtain ⟨hinv, hr', ha', hr⟩ := @roomLoop_roomy need fuel _ (dropOldest_inv h)
      rw [hre] at hr' hr
      rw [ha] at ha' hr
      exact ⟨hinv, hr', ha', hr⟩
    · exact ⟨h, rfl, rfl, fun _ => by push Not at hf; exact hf⟩

def Edit.Single (e : Edit) : Prop :=
  (e.inserted = 1 ∧ e.removed = []) ∨ (e.inserted = 0 ∧ e.removed ≠ [])

lemma Edit.Single.covers (he : e.Single) (text : ℕ) (group : ℤ) :
    (⟨e.off, e.inserted, e.removed.length, text, e.cursor, group⟩ : EbRec).Covers [e] := by
  rcases he with ⟨hi, hr⟩ | ⟨hi, hr⟩
  · exact .types e [] (by simp [hi, hr]) (by simp) hi (by simp [hr]) rfl
  · exact .removes e hi hr rfl hi rfl rfl

lemma pushRecord_inv (h : LogInv u cap hist) (he : e.Single) (hp : 0 < u.recCap)
    (hn : (e.removed.length : ℤ) < cap) :
    LogInv (u.pushRecord e.off e.inserted e.removed e.cursor) cap (hist ++ [e]) := by
  have hrm : Roomy u cap hist e.removed.length (u.ebUndoRoom e.removed.length) ∧
      ((u.ebUndoRoom e.removed.length).1 = true → (e.removed.length : ℤ) ≤ u.arenaCap) := by
    unfold ebUndoRoom
    split
    · exact ⟨⟨h, rfl, rfl, fun h => by simp at h⟩, fun h => by simp at h⟩
    · exact ⟨roomLoop_roomy h, fun _ => by omega⟩
  obtain ⟨⟨⟨⟨old, runs, hh, hl, ha⟩, hre, hf⟩, hr, har, hro⟩, hle⟩ := hrm
  unfold pushRecord
  rcases hres : u.ebUndoRoom e.removed.length with ⟨_ | _, u'⟩ <;>
    rw [hres] at hl ha hre hf hr har hro hle <;>
    simp only at hl ha hre hf hr har hro hle
  · refine ⟨⟨hist ++ [e], [], by simp, rfl, rfl⟩, ?_, fun _ => ?_⟩ <;>
      simp [ebUndoReset]
  · obtain ⟨hlt, hsum⟩ := hro trivial
    have hle := hle trivial
    refine ⟨⟨old, runs ++ [[e]], by simp [hh], ?_, ?_⟩, ?_, fun hc => ?_⟩
    · exact laid_snoc.2 ⟨runs, [e], rfl, hl, he.covers _ _, by simp [ha]⟩
    · simp [ha, removedBytes]
    · simp only [length_append, length_singleton]
      omega
    · have hu := hf hc
      simp only at hu hc
      rw [i32_of_lt (by omega) (by omega)] at hsum
      simp only [length_append]
      omega

lemma continues_covers (h : r.Covers run) (he : e.Single)
    (hc : u.continues r e.off e.inserted e.removed = true) :
    e.removed = [] ∧
      ({ r with inserted := r.inserted + e.inserted } : EbRec).Covers (run ++ [e]) := by
  obtain ⟨hp, hl, -, hr, hof⟩ := of_decide_eq_true hc
  have hi : e.inserted = 1 ∧ e.removed = [] := by
    rcases he with he | ⟨hz, -⟩
    · exact he
    · omega
  cases h with
  | removes e' _ hsome _ _ hrem' _ =>
    exact absurd (length_eq_zero_iff.1 (hrem'.symm.trans hr)) hsome
  | types e' es hins' ho hrins hrem' hcu =>
    refine ⟨hi.2, .types e' (es ++ [e]) ?_ ?_ ?_ hrem' hcu⟩
    · intro x hx
      simp only [← cons_append, mem_append, mem_singleton] at hx
      rcases hx with hx | rfl
      · exact hins' x hx
      · exact hi
    · rw [← cons_append, map_append, ho, length_append, length_singleton,
        range'_concat (n := es.length + 1)]
      simp [hof, hrins]
    · simp [hrins, hi.1]

lemma push_inv (h : LogInv u cap hist) (he : e.Single) (hn : (e.removed.length : ℤ) < cap) :
    LogInv (u.ebUndoPush e.off e.inserted e.removed e.cursor) cap (hist ++ [e]) := by
  unfold ebUndoPush
  by_cases hpo : u.recCap ≤ 0
  · rw [if_pos hpo]
    obtain ⟨⟨old, runs, hh, hl, ha⟩, hre, hf⟩ := h
    -- Without space for records there are none.
    have hni : u.recs = [] := by
      rw [← length_eq_zero_iff]
      omega
    rw [hni] at hl
    obtain rfl : runs = [] := hl
    exact ⟨⟨hist ++ [e], [], by simp, by rw [hni]; rfl, ha⟩, hre, hf⟩
  · rw [if_neg hpo]
    have hp := pushRecord_inv h he (by omega) hn
    split
    · rename_i r hla
      split
      · rename_i hc
        obtain ⟨⟨old, runs, hh, hl, ha⟩, hre, hf⟩ := h
        obtain ⟨rs, hrs⟩ : ∃ rs, u.recs = rs ++ [r] := getLast?_eq_some_iff.1 hla
        rw [hrs, laid_snoc] at hl
        obtain ⟨front, run, rfl, hfr, hr, ht⟩ := hl
        obtain ⟨hno, hco⟩ := continues_covers hr he hc
        refine ⟨⟨old, front ++ [run ++ [e]], by simp [hh], ?_, ?_⟩, ?_, hf⟩
        · simp only [hrs, dropLast_concat]
          exact laid_snoc.2 ⟨front, run ++ [e], rfl, hfr, hco, ht⟩
        · simp [ha, removedBytes, hno]
        · simpa [hrs] using hre
      · exact hp
    · exact hp

end Log

section Apply

variable {b : EditBuf} {u : EbUndo} {runs : List (List Edit)} {t : List UInt8} {g : ℤ}

/-- What the loop of `eb_undo_apply` takes back: the records of the group at the end of the log. -/
structure TakesBack (g cursor : ℤ) (b : EditBuf) (u : EbUndo) (runs : List (List Edit))
    (t : List UInt8) (res : ℤ × EditBuf × EbUndo) (older newer : List EbRec)
    (front back : List (List Edit)) (m : List UInt8) : Prop where
  recs : u.recs = older ++ newer
  runs : runs = front ++ back
  same : ∀ x ∈ newer, x.group = g
  other : ∀ x ∈ older.getLast?, x.group ≠ g
  laidOlder : Laid 0 older front
  laidNewer : Laid (removedBytes front).length newer back
  before : Leads m t front.flatten
  after : Leads b.data m back.flatten
  result : res = ((newer.head?.map EbRec.cursor).getD cursor, { b with data := m },
    { u with recs := older, arena := removedBytes front })

/-- The loop takes back the newest records of one group, last first. -/
lemma applyLoop_takesBack : ∀ {fuel : ℕ} {cursor : ℤ} {b : EditBuf} {u : EbUndo}
    {runs : List (List Edit)}, u.recs.length ≤ fuel → Laid 0 u.recs runs →
    u.arena = removedBytes runs → Leads b.data t runs.flatten → (t.length : ℤ) < b.cap →
    (∀ e ∈ runs.flatten, (e.before.length : ℤ) < b.cap) →
    ∃ older newer front back m,
      TakesBack g cursor b u runs t (applyLoop g fuel cursor b u) older newer front back m := by
  intro fuel
  induction fuel with
  | zero =>
    intro cursor b u runs hf hla ha hl _ _
    obtain ⟨recs, recCap, arena, arenaCap, group, lost⟩ := u
    obtain rfl : recs = [] := length_eq_zero_iff.1 (Nat.le_zero.1 hf)
    obtain rfl : runs = [] := hla
    obtain rfl : arena = [] := ha
    exact ⟨[], [], [], [], b.data, rfl, rfl, by simp, by simp, rfl, rfl, hl, rfl, rfl⟩
  | succ fuel ih =>
    intro cursor b u runs hf hla ha hl ht hs
    -- The loop ends here: nothing is taken back.
    have hst : (∀ x ∈ u.recs.getLast?, x.group ≠ g) →
        TakesBack g cursor b u runs t (cursor, b, u) u.recs [] runs [] b.data := by
      intro ho
      refine ⟨by simp, by simp, by simp, ho, hla, rfl, hl, rfl, ?_⟩
      simp [← ha]
    rcases eq_nil_or_concat u.recs with hn | ⟨rs, r, hrs⟩
    · simp only [applyLoop, hn, getLast?_nil]
      exact ⟨_, _, _, _, _, hst (by simp [hn])⟩
    · rw [concat_eq_append] at hrs
      simp only [applyLoop, hrs, getLast?_concat, dropLast_concat]
      split
      · rename_i hg
        rw [hrs, laid_snoc] at hla
        obtain ⟨front, run, rfl, hfr, hr, hte⟩ := hla
        rw [removedBytes_append] at ha
        simp only [flatten_append, flatten_singleton] at hl hs
        obtain ⟨m, hlf, hlr⟩ := leads_append.1 hl
        have hm : (m.length : ℤ) < b.cap := by
          cases hr with
          | removes e => exact hlr.1 ▸ hs e (by simp)
          | types e es => exact hlr.1 ▸ hs e (by simp)
        have hre : Records u.arena r run := by
          refine ⟨hr, ?_⟩
          rw [ha, hte, Nat.zero_add, drop_left, hr.removed]
          simp [removedBytes]
        have hu : undoRec b u r = { b with data := m } := undoRec_run hre hlr hm
        have ha' : u.arena.take r.text = removedBytes front := by
          rw [ha, hte, Nat.zero_add, take_left]
        rw [hu, ha']
        obtain ⟨older, newer, front', back, m', h⟩ := @ih r.cursor { b with data := m }
          { u with recs := rs, arena := removedBytes front } front
          (by simpa [hrs] using hf) hfr rfl hlf ht
          (fun e he => hs e (mem_append_left _ he))
        obtain ⟨h1, h2, h3, h4, h5, h6, h7, h8, h9⟩ := h
        simp only at h1 h2 h8 h9
        subst h2
        refine ⟨older, newer ++ [r], front', back ++ [run], m', by rw [hrs, h1, append_assoc],
          by rw [append_assoc], ?_, h4, h5, ?_, h7, ?_, ?_⟩
        · intro x hx
          rcases mem_append.1 hx with hx | hx
          · exact h3 x hx
          · exact mem_singleton.1 hx ▸ hg
        · refine laid_snoc.2 ⟨back, run, rfl, h6, hr, ?_⟩
          rw [hte, removedBytes_append, length_append, Nat.zero_add]
        · rw [flatten_append, flatten_singleton]
          exact leads_append.2 ⟨m, h8, hlr⟩
        · rw [h9]
          cases newer <;> rfl
      · rename_i hg
        exact ⟨_, _, _, _, _, hst (by simpa [hrs] using hg)⟩

variable {s : EditSys} {data : List UInt8}

structure EditInv (data : List UInt8) (s : EditSys) : Prop where
  leads : Leads s.buf.data data s.history
  log : LogInv s.log s.buf.cap s.history
  fits : ∀ t ∈ s.held, (t.length : ℤ) < s.buf.cap
  held : ∀ e ∈ s.history, e.before ∈ s.held
  heldNow : s.buf.data ∈ s.held

lemma EditInv.apply (h : EditInv data s) : ∃ older newer old front back m,
    TakesBack (((s.log.recs.getLast?).map EbRec.group).getD 0) (-1) s.buf s.log (front ++ back)
      old (ebUndoApply s.buf s.log) older newer front back m ∧
    (∃ pre, s.history = pre ++ (front ++ back).flatten ∧ Leads old data pre) ∧
    s.log.arena = removedBytes (front ++ back) := by
  obtain ⟨hle, ⟨⟨pre, runs, hhi, hli, ha⟩, -, -⟩, hf, hh, hn⟩ := h
  rw [hhi] at hle hh
  obtain ⟨t, hp, hl⟩ := leads_append.1 hle
  have ht : (t.length : ℤ) < s.buf.cap :=
    hf t (hl.start (P := (· ∈ s.held)) hn fun e he => hh e (mem_append_right _ he))
  obtain ⟨older, newer, front, back, m, hb⟩ := @applyLoop_takesBack t
    (((s.log.recs.getLast?).map EbRec.group).getD 0) s.log.recs.length (-1) s.buf s.log runs le_rfl
    hli ha hl ht fun e he => hf _ (hh e (mem_append_right _ he))
  obtain rfl := hb.runs
  have hap : ebUndoApply s.buf s.log = applyLoop
      (((s.log.recs.getLast?).map EbRec.group).getD 0) s.log.recs.length (-1) s.buf s.log := by
    unfold ebUndoApply
    rcases hla : s.log.recs.getLast? with _ | r
    · rw [getLast?_eq_none_iff] at hla
      rw [hla]
      rfl
    · rfl
  rw [← hap] at hb
  exact ⟨older, newer, t, front, back, m, hb, ⟨pre, hhi, hp⟩, ha⟩

lemma EditInv.applyRestores (h : EditInv data s) (hne : s.log.recs ≠ []) : ApplyRestores s := by
  obtain ⟨older, newer, t, front, back, m, hb, ⟨pre, hh, -⟩, ha⟩ := h.apply
  obtain ⟨rs, last, hl⟩ : ∃ rs last, s.log.recs = rs ++ [last] :=
    ⟨_, _, (dropLast_append_getLast hne).symm⟩
  rcases newer with _ | ⟨r, newer⟩
  · have ho := hb.other
    rw [← hb.recs.trans (append_nil older), hl] at ho
    simp at ho
  · obtain ⟨run, rest, rfl, hr, ht, hre⟩ := hb.laidNewer
    obtain ⟨e, es, rfl⟩ : ∃ e es, run = e :: es := by
      cases hr with
      | removes e => exact ⟨e, [], rfl⟩
      | types e es => exact ⟨e, es, rfl⟩
    have hc : r.cursor = e.cursor := by
      cases hr <;> assumption
    have haf := hb.after
    have hg := hb.same
    refine ⟨older, r, newer, pre ++ front.flatten, e, es ++ rest.flatten, ⟨hb.recs, ?_, ?_⟩, ?_,
      ⟨(e :: es) :: rest, by simp, Laid.records hb.laidNewer ?_⟩, ?_, ?_, ?_⟩
    · intro x hx
      rw [hg x (mem_cons_of_mem _ hx), hg r mem_cons_self]
    · intro x hx
      rw [hg r mem_cons_self]
      exact hb.other x hx
    · simp [hh]
    · rw [ha, removedBytes_append]
    · rw [hb.result]
      exact haf.1.symm
    · rw [hb.result]
      exact hc
    · exact h.held e (by simp [hh])

lemma EditInv.sound (h : EditInv data s) : UndoSound data s := by
  have ha : s.log.recs = [] → ebUndoApply s.buf s.log = (-1, s.buf, s.log) := by
    intro hn
    simp [ebUndoApply, hn]
  obtain ⟨⟨pre, runs, hh, hl, har⟩, hr, hf⟩ := h.log
  refine ⟨h.leads, ⟨runs.flatten, ⟨pre, hh.symm⟩, runs, rfl, ?_⟩, fun hne => ?_, ?_, hr, hf⟩
  · exact @Laid.records s.log.arena [] _ _ hl har
  · exact h.applyRestores fun hn => hne (by rw [ha hn])
  · by_cases hn : s.log.recs = []
    · rw [ha hn]
      exact h.heldNow
    · obtain ⟨-, -, -, -, e, -, -, -, -, ht, -, hhe⟩ := h.applyRestores hn
      rw [ht]
      exact hhe

end Apply

section Steps

variable {s : EditSys} {data : List UInt8} {b : EditBuf} {e : Edit}

section

variable (h : EditInv data s)
include h

lemma EditInv.edit (hbe : e.before = s.buf.data) (hv : e.Valid) (he : e.Single)
    (ha : b.data = e.after) (hc : b.cap = s.buf.cap) (hle : (e.after.length : ℤ) < b.cap) :
    EditInv data (s.next b (s.log.ebUndoPush e.off e.inserted e.removed e.cursor)
      (s.history ++ [e])) := by
  have hn : (e.removed.length : ℤ) < s.buf.cap := by
    obtain ⟨pre, typed, post, -, -, hb, -⟩ := hv
    have hno := h.fits _ h.heldNow
    rw [← hbe, hb] at hno
    push_cast [length_append] at hno
    omega
  have hl := h.leads
  rw [← hbe] at hl
  have hmem : ∀ x ∈ s.history ++ [e], x ∈ s.history ∨ x = e := by simp
  refine ⟨?_, ?_, fun t ht => ?_, fun x hx => ?_, mem_cons_self⟩
  · simp only [EditSys.next, ha]
    exact hl.snoc hv
  · simp only [EditSys.next, hc]
    exact push_inv h.log he hn
  · rcases mem_cons.1 ht with rfl | ht
    · rw [ha]
      exact hle
    · simp only [EditSys.next, hc]
      exact h.fits t ht
  · refine mem_cons_of_mem _ ?_
    rcases hmem x hx with hx | rfl
    · exact h.held x hx
    · rw [hbe]
      exact h.heldNow

lemma EditInv.back {u : EbUndo} {es : List Edit} {t : List UInt8}
    (hl : Leads t data es) (hlo : LogInv u s.buf.cap es) (hes : ∀ e ∈ es, e ∈ s.history)
    (ht : t ∈ s.held) : EditInv data (s.next { s.buf with data := t } u es) :=
  ⟨hl, hlo, forall_mem_cons.2 ⟨h.fits t ht, h.fits⟩,
    fun e he => mem_cons_of_mem _ (h.held e (hes e he)), mem_cons_self⟩

lemma EditInv.same : EditInv data (s.next s.buf s.log s.history) :=
  h.back h.leads h.log (fun _ he => he) h.heldNow

lemma EditInv.insert (off : ℤ) (c : UInt8) (cursor : ℤ) :
    EditInv data (s.insert off c cursor) := by
  unfold EditSys.insert ebUndoInsert ebInsert
  split_ifs with ho hf
  · exact h.same
  · exact h.same
  · refine @EditInv.edit s data _ ⟨_, _, off.toNat, 1, [], cursor⟩ h rfl
      ⟨s.buf.data.take off.toNat, [c], s.buf.data.drop off.toNat, ?_, rfl, by simp, by simp⟩
      (.inl ⟨rfl, rfl⟩) rfl rfl ?_
    · simp only [length_take]
      omega
    · simp only [length_append, length_cons, length_take, length_drop]
      omega

end

lemma cut_data {l : List UInt8} {i j : ℕ} (h : i ≤ j) :
    l = l.take i ++ (l.drop i).take (j - i) ++ l.drop j := by
  obtain ⟨k, rfl⟩ := Nat.exists_eq_add_of_le h
  rw [Nat.add_sub_cancel_left, ← drop_drop, append_assoc, take_append_drop, take_append_drop]

lemma EditInv.remove (h : EditInv data s) {i j : ℕ} {cursor : ℤ} (hi : i < j)
    (hj : j ≤ s.buf.data.length) (hb : b.data = s.buf.data.take i ++ s.buf.data.drop j)
    (hc : b.cap = s.buf.cap) :
    EditInv data (s.next b
      (s.log.ebUndoPush i 0 ((s.buf.data.drop i).take (j - i)) cursor)
      (s.history ++ [⟨s.buf.data, b.data, i, 0, (s.buf.data.drop i).take (j - i), cursor⟩])) := by
  have hno := h.fits _ h.heldNow
  refine @EditInv.edit s data b ⟨_, _, i, 0, _, cursor⟩ h rfl
    ⟨s.buf.data.take i, [], s.buf.data.drop j, ?_, rfl, cut_data hi.le, by simpa using hb⟩
    (.inr ⟨rfl, ?_⟩) rfl hc ?_
  · simp only [length_take]
    omega
  · intro hn
    have hl := congrArg length hn
    simp only [length_take, length_drop, length_nil] at hl
    omega
  · simp only [hb, hc, length_append, length_take, length_drop]
    omega

lemma EditInv.delete (h : EditInv data s) (off cursor : ℤ) :
    EditInv data (s.delete off cursor) := by
  unfold EditSys.delete ebUndoDelete
  split_ifs with ho
  · exact h.same
  · simp only [ebDelete, if_neg ho]
    have hr := @EditInv.remove s data
      { s.buf with data := s.buf.data.take off.toNat ++ s.buf.data.drop (off.toNat + 1) } h
      off.toNat
      (off.toNat + 1) cursor (Nat.lt_succ_self _) (by omega) rfl rfl
    rw [Nat.add_sub_cancel_left] at hr
    exact hr

lemma clamp_le (b : EditBuf) (off : ℤ) : b.clamp off ≤ b.data.length := by
  unfold clamp
  split <;> omega

lemma lineStartFrom_le (b : EditBuf) : ∀ off, b.lineStartFrom off ≤ off
  | 0 => le_rfl
  | off + 1 => by
    unfold lineStartFrom
    split
    · exact le_rfl
    · exact (lineStartFrom_le b off).trans (Nat.le_succ off)

lemma lineEndFrom_bounds (b : EditBuf) :
    ∀ left off, off ≤ b.lineEndFrom left off ∧ b.lineEndFrom left off ≤ off + left
  | 0, off => ⟨le_rfl, le_rfl⟩
  | left + 1, off => by
    unfold lineEndFrom
    split
    · omega
    · have ih := lineEndFrom_bounds b left (off + 1)
      omega

lemma lineSpan_bounds (b : EditBuf) (off : ℤ) : (b.ebLineSpan off).1 ≤ (b.ebLineSpan off).2 ∧
    (b.ebLineSpan off).2 ≤ b.data.length := by
  have hc := clamp_le b off
  have hs : b.ebLineStart off ≤ b.clamp off := lineStartFrom_le b _
  have hst : b.clamp off ≤ b.ebLineEnd off ∧ b.ebLineEnd off ≤ b.clamp off + _ :=
    lineEndFrom_bounds b (b.data.length - b.clamp off) (b.clamp off)
  simp only [ebLineSpan]
  split_ifs <;> simp only <;> omega

lemma EditInv.deleteLine (h : EditInv data s) (off cursor : ℤ) :
    EditInv data (s.deleteLine off cursor) := by
  obtain ⟨hle, htop⟩ := lineSpan_bounds s.buf off
  simp only [EditSys.deleteLine, ebUndoDeleteLine, ebDeleteLine]
  split_ifs with hlt
  · exact h.remove hlt htop rfl rfl
  · have heq : (s.buf.ebLineSpan off).1 = (s.buf.ebLineSpan off).2 := by omega
    rw [heq, take_append_drop]
    exact h.same

lemma EditInv.applied (h : EditInv data s) : EditInv data s.apply := by
  obtain ⟨older, newer, t, front, back, m, hb, ⟨pre, hh, hp⟩, har⟩ := h.apply
  have hk : s.history.take (s.history.length -
      ((s.log.recs.drop (ebUndoApply s.buf s.log).2.2.recs.length).map editsOf).sum) =
      pre ++ front.flatten := by
    have hl : s.history.length = (pre ++ front.flatten).length + back.flatten.length := by
      simp [hh, Nat.add_assoc]
    rw [hb.result, hb.recs, drop_left, hb.laidNewer.edits, hl, Nat.add_sub_cancel, hh,
      flatten_append, ← append_assoc, take_left]
  have hs : ∀ e ∈ pre ++ front.flatten, e ∈ s.history := by
    intro e he
    rw [hh, flatten_append, ← append_assoc]
    exact mem_append_left _ he
  have hm : m ∈ s.held := by
    refine hb.after.start h.heldNow fun e he => h.held e ?_
    rw [hh, flatten_append]
    exact mem_append_right _ (mem_append_right _ he)
  simp only [EditSys.apply, hk]
  rw [hb.result]
  dsimp only
  refine h.back (leads_append.2 ⟨t, hp, hb.before⟩) ⟨⟨pre, front, rfl, hb.laidOlder, rfl⟩, ?_, ?_⟩
    hs hm
  · have hre := h.log.recsFit
    rw [hb.recs] at hre
    push_cast [length_append] at hre
    dsimp only
    omega
  · intro hc
    have hf := h.log.arenaFits hc
    rw [har, removedBytes_append] at hf
    push_cast [length_append] at hf
    dsimp only
    omega

lemma editStep_editInv (h : EditInv data s) (c : EditCall) : EditInv data (editStep s c) := by
  cases c with
  | insert off c cursor => exact h.insert off c cursor
  | delete off cursor => exact h.delete off cursor
  | deleteLine off cursor => exact h.deleteLine off cursor
  | group =>
    exact h.back h.leads ⟨h.log.laid, h.log.recsFit, h.log.arenaFits⟩ (fun _ he => he) h.heldNow
  | apply => exact h.applied

/-- After every run of calls the log describes the last edits, and an undo takes back real ones. -/
theorem editRun_sound (data : List UInt8) (cap recCap arenaCap : ℤ) (h : (data.length : ℤ) < cap)
    (calls : List EditCall) :
    UndoSound data (editRun (init data cap recCap arenaCap) calls) := by
  have hinit : EditInv data (init data cap recCap arenaCap) :=
    ⟨rfl, ⟨⟨[], [], rfl, rfl, rfl⟩, by simp [init], fun _ => by simp [init]⟩,
      by simpa [init] using h, by simp [init], by simp [init]⟩
  have hrun : EditInv data (editRun (init data cap recCap arenaCap) calls) :=
    @foldl_invariant _ _ editStep (EditInv data) (fun s c hs => editStep_editInv hs c) calls _ hinit
  exact hrun.sound

def twoUndos : List EditCall :=
  [.insert 1 105 1, .insert 2 33 2, .group, .deleteLine 0 3, .apply, .apply]

theorem editRun_sound_twoUndos :
    UndoSound [104] (editRun (init [104] 8 4 16) twoUndos) ∧
      (editRun (init [104] 8 4 16) twoUndos).held =
        [[104], [104, 105, 33], [], [104, 105, 33], [104, 105, 33], [104, 105], [104]] :=
  ⟨editRun_sound [104] 8 4 16 (by decide) twoUndos, by decide⟩

end Steps

end EsdumanOS
