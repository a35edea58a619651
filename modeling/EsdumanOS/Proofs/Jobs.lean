import EsdumanOS.Jobs
import Mathlib.Data.Nat.Bitwise

/-!
# The job table tells the truth

An exit that `wait` returns takes the child away and its pid out of the table. Pids come in with
`&`, and with a foreground job that stops: it is added with every pid it started with, which is
right as long as none has been collected. A pipeline has the status of the last stage forked, over
the 1 that stands for a fork that failed.
-/

namespace EsdumanOS

open Lib List Function Family

section Table

variable {t : JobTable} {pid : ℕ}

lemma setJob_pids_same {i : ℕ} {f : Job → Job} (hf : ∀ j, (f j).pids = j.pids) :
    (t.setJob i f).pids = t.pids := by
  unfold JobTable.setJob JobTable.pids
  induction t.jobs generalizing i with
  | nil => simp
  | cons j js ih =>
    cases i with
    | zero => simp [hf]
    | succ i => simp [ih]

lemma jobReportStopped_pids (t : JobTable) (pid : ℕ) : (t.jobReportStopped pid).pids = t.pids := by
  unfold JobTable.jobReportStopped
  split
  · rfl
  · exact setJob_pids_same fun _ => rfl

lemma jobRemoveAt_sublist (t : JobTable) (slot : Option ℕ) :
    (t.jobRemoveAt slot).pids.Sublist t.pids := by
  unfold JobTable.jobRemoveAt
  split
  · exact Sublist.refl _
  · exact (eraseIdx_sublist _ _).flatMap _

lemma flatMap_eraseIdx_empty {js : List Job} {i : ℕ}
    (h : (js[i]?.any fun j => decide (j.pids = [])) = true) :
    (js.eraseIdx i).flatMap Job.pids = js.flatMap Job.pids := by
  induction js generalizing i with
  | nil => rfl
  | cons j js ih =>
    cases i with
    | zero => simp_all
    | succ i => simpa using ih (by simpa using h)

/-- A pid stands in one job only, so that forgetting it there is forgetting it. -/
lemma flatMap_modify_forget {js : List Job} {i : ℕ} (hn : (js.flatMap Job.pids).Nodup)
    (hslot : js.findIdx? (fun j => decide (pid ∈ j.pids)) = some i) :
    (js.modify i fun j => { j with pids := j.pids.filter (· ≠ pid) }).flatMap Job.pids =
      (js.flatMap Job.pids).filter (· ≠ pid) := by
  induction js generalizing i with
  | nil => simp at hslot
  | cons j js ih =>
    simp only [flatMap_cons, nodup_append] at hn
    rw [findIdx?_cons] at hslot
    split_ifs at hslot with hj
    · obtain rfl := Option.some.inj hslot
      have hr : (js.flatMap Job.pids).filter (· ≠ pid) = js.flatMap Job.pids :=
        filter_eq_self.2 fun p hp => by
          simpa using fun heq : p = pid => hn.2.2 pid (by simpa using hj) p hp heq.symm
      rw [modify_zero_cons, flatMap_cons, flatMap_cons, filter_append, hr]
    · obtain ⟨i', hi', rfl⟩ := Option.map_eq_some_iff.1 hslot
      have hs : j.pids.filter (· ≠ pid) = j.pids :=
        filter_eq_self.2 fun p hp => by
          have : pid ∉ j.pids := by simpa using hj
          simpa using fun h : p = pid => this (h ▸ hp)
      rw [modify_succ_cons, flatMap_cons, flatMap_cons, filter_append, hs, ih hn.2.1 hi']

lemma forget_pids (hn : t.pids.Nodup) (pid : ℕ) :
    (t.jobForgetPid pid).2.2.pids = t.pids.filter (· ≠ pid) := by
  unfold JobTable.jobForgetPid
  rcases hslot : t.jobSlotByPid pid with _ | i
  · refine (filter_eq_self.2 fun p hp => ?_).symm
    obtain ⟨j, hj, hpj⟩ := mem_flatMap.1 hp
    have := findIdx?_eq_none_iff.1 hslot j hj
    simpa using fun h : p = pid => (by simpa using this : pid ∉ j.pids) (h ▸ hpj)
  · have hf := flatMap_modify_forget hn hslot
    dsimp only
    split_ifs with he
    · exact (flatMap_eraseIdx_empty he).trans hf
    · exact hf

structure JobTable.Numbered (t : JobTable) : Prop where
  next : 0 < t.nextId
  jobs : ∀ j ∈ t.jobs, 0 < j.id

section

variable (h : t.Numbered)
include h

lemma JobTable.Numbered.setJob {i : ℕ} {f : Job → Job}
    (hf : ∀ j, (f j).id = j.id) : (t.setJob i f).Numbered := by
  refine ⟨h.next, fun j hj => ?_⟩
  obtain ⟨n, hn⟩ := List.mem_iff_getElem?.1 hj
  rw [JobTable.setJob, getElem?_modify] at hn
  obtain ⟨j', hj', rfl⟩ := Option.map_eq_some_iff.1 hn
  have hp := h.jobs j' (mem_of_getElem? hj')
  split_ifs
  · rw [hf]
    exact hp
  · exact hp

lemma JobTable.Numbered.removeAt (slot : Option ℕ) : (t.jobRemoveAt slot).Numbered := by
  unfold JobTable.jobRemoveAt
  split
  · exact h
  · exact ⟨h.next, fun j hj => h.jobs j ((eraseIdx_sublist _ _).subset hj)⟩

lemma JobTable.Numbered.forget (pid : ℕ) : (t.jobForgetPid pid).2.2.Numbered := by
  unfold JobTable.jobForgetPid
  split
  · exact h
  · rename_i i _
    have hs : (t.setJob i fun j => { j with pids := j.pids.filter (· ≠ pid) }).Numbered :=
      h.setJob fun _ => rfl
    dsimp only
    split_ifs
    · exact hs.removeAt (some i)
    · exact hs

lemma JobTable.Numbered.reportStopped (pid : ℕ) : (t.jobReportStopped pid).Numbered := by
  unfold JobTable.jobReportStopped
  split
  · exact h
  · exact h.setJob fun _ => rfl

lemma JobTable.Numbered.add (pgid : ℕ) (pids : List ℕ) (stopped : Bool) :
    (t.jobAdd pgid pids stopped).2.Numbered := by
  unfold JobTable.jobAdd
  split_ifs
  · exact h
  · refine ⟨Nat.succ_pos _, fun j hj => ?_⟩
    rcases mem_append.1 hj with hj | hj
    · exact h.jobs j hj
    · rw [mem_singleton.1 hj]
      exact h.next

end

lemma jobAdd_pids (t : JobTable) (pgid : ℕ) (pids : List ℕ) (stopped : Bool) :
    (t.jobAdd pgid pids stopped).2.pids =
      t.pids ++ if maxJobs ≤ t.jobs.length then [] else pids.take maxStages := by
  unfold JobTable.jobAdd JobTable.pids
  split_ifs <;> simp

end Table

section Children

variable {k : Family} {pid : ℕ}

@[simp] lemma become_pids (k : Family) (pid : ℕ) (f : KidState → KidState) :
    (k.become pid f).pids = k.pids := by
  simp only [become, pids, map_map]
  refine map_congr_left fun x _ => ?_
  simp only [comp]
  split_ifs <;> rfl

@[simp] lemma continueGroup_pids (k : Family) (pgid : ℕ) :
    (k.continueGroup pgid).pids = k.pids := by
  simp only [continueGroup, pids, map_map]
  refine map_congr_left fun x _ => ?_
  simp only [comp]
  split_ifs <;> rfl

structure Family.Ok (k : Family) : Prop where
  nodup : k.pids.Nodup
  below : ∀ p ∈ k.pids, p < k.nextPid

lemma Family.Ok.spawn (h : k.Ok) (leader : Option ℕ) (gap : ℕ) :
    (k.spawn leader gap).2.Ok ∧ (k.spawn leader gap).2.pids = k.pids ++ [(k.spawn leader gap).1] ∧
      k.nextPid ≤ (k.spawn leader gap).1 := by
  have hpi : (k.spawn leader gap).2.pids = k.pids ++ [(k.spawn leader gap).1] := by
    simp [Family.spawn, Family.pids]
  have hne : k.nextPid ≤ (k.spawn leader gap).1 := by simp [Family.spawn]
  have hn : (k.spawn leader gap).2.nextPid = (k.spawn leader gap).1 + 1 := rfl
  refine ⟨⟨?_, ?_⟩, hpi, hne⟩
  · rw [hpi, nodup_append]
    refine ⟨h.nodup, by simp, fun p hp q hq heq => ?_⟩
    have := h.below p hp
    rw [mem_singleton.1 hq] at heq
    omega
  · intro p hp
    rw [hpi, mem_append, mem_singleton] at hp
    rcases hp with hp | rfl
    · have := h.below p hp
      omega
    · omega

/-- The stages of a pipeline come after the children there were, and none was one of them. -/
lemma Family.Ok.spawnStages : ∀ {k : Family}, k.Ok → ∀ (leader : Option ℕ) (gaps : List ℕ),
    (k.spawnStages leader gaps).2.Ok ∧
    (k.spawnStages leader gaps).2.pids = k.pids ++ (k.spawnStages leader gaps).1 ∧
    (∀ p ∈ (k.spawnStages leader gaps).1, p ∉ k.pids)
  | k, h, _, [] => ⟨h, by simp [Family.spawnStages], by simp [Family.spawnStages]⟩
  | k, h, leader, gap :: gaps => by
    obtain ⟨hok, hpi, hne⟩ := h.spawn leader gap
    obtain ⟨ho', hp', hfresh⟩ := hok.spawnStages (some (leader.getD (k.spawn leader gap).1)) gaps
    refine ⟨ho', ?_, ?_⟩
    · simp only [Family.spawnStages, hp', hpi, append_assoc, singleton_append]
    · intro p hp
      rcases mem_cons.1 hp with rfl | hp
      · intro ho
        have := h.below _ ho
        omega
      · have := hfresh p hp
        rw [hpi, mem_append] at this
        exact fun ho => this (.inl ho)

lemma exit_not_stopped (status : UInt8) : status.toNat &&& stoppedBit = 0 := by
  rw [show stoppedBit = 2 ^ 8 from rfl, Nat.and_two_pow, Nat.testBit_lt_two_pow status.toNat_lt]
  rfl

lemma stop_stopped : ∀ sig : Fin 32, (stoppedBit ||| sig.val) &&& stoppedBit ≠ 0 := by
  decide

/-- News of an exit takes the child away; news of a stop leaves it, and was not told before. -/
lemma takeNews_cases {st : ℕ} {k' : Family} (h : k.takeNews pid = some (st, k')) :
    pid ∈ k.pids ∧ k'.nextPid = k.nextPid ∧
    ((st &&& stoppedBit = 0 ∧ k'.pids = k.pids.filter (· ≠ pid) ∧
        ∀ x ∈ k'.kids, x ∈ k.kids) ∨
      (st &&& stoppedBit ≠ 0 ∧ k'.pids = k.pids ∧
        ∃ sig, (k.kid? pid).map Kid.state = some (.stopped sig false))) := by
  unfold takeNews at h
  rcases hk : k.kid? pid with _ | x
  · simp [hk] at h
  have hmem : pid ∈ k.pids := mem_map.2 ⟨x, mem_of_find?_eq_some hk, by simpa using find?_some hk⟩
  rw [hk, Option.map_some] at h
  refine ⟨hmem, ?_⟩
  rcases hs : x.state with _ | ⟨sig, _ | _⟩ | status
  · simp [hs] at h
  · simp only [hs, Option.some.injEq, Prod.mk.injEq] at h
    obtain ⟨rfl, rfl⟩ := h
    refine ⟨rfl, .inr ⟨stop_stopped sig, become_pids k pid _, sig, ?_⟩⟩
    rw [Option.map_some, hs]
  · simp [hs] at h
  · simp only [hs, Option.some.injEq, Prod.mk.injEq] at h
    obtain ⟨rfl, rfl⟩ := h
    refine ⟨rfl, .inl ⟨exit_not_stopped status, ?_, fun x hx => (mem_filter.1 hx).1⟩⟩
    simp [pids, filter_map, comp_def]

lemma Family.Ok.kid?_eq (h : k.Ok) {x : Kid} (hx : x ∈ k.kids) : k.kid? x.pid = some x := by
  rcases hf : k.kid? x.pid with _ | y
  · have := find?_eq_none.1 hf x hx
    simp at this
  · have hy := mem_of_find?_eq_some hf
    have hpid : y.pid = x.pid := by simpa using find?_some hf
    rw [inj_on_of_nodup_map h.nodup hy hx hpid]

end Children

section Invariant

/-- The job that is waited for: `live` counts the processes still there; without a number it is not
in the table. -/
structure FrontOk (t : JobTable) (k : Family) (w : Foreground) : Prop where
  nodup : w.pids.Nodup
  live : w.live = (w.pids.filter (· ∈ k.pids)).length
  pos : 0 < w.live
  fresh : w.jobId = 0 → ∀ p ∈ w.pids, p ∉ t.pids

structure JobsOk (s : JobShell) : Prop where
  numbered : s.table.Numbered
  family : s.family.Ok
  known : ∀ p ∈ s.table.pids, p ∈ s.family.pids
  once : s.table.pids.Nodup
  front : ∀ w, s.phase = .foreground w → FrontOk s.table s.family w

variable {s : JobShell}

lemma startShell_ok (nextPid : ℕ) : JobsOk (startShell nextPid) :=
  ⟨⟨Nat.one_pos, by simp [startShell]⟩, ⟨nodup_nil, by simp [startShell, pids]⟩,
    by simp [startShell, JobTable.pids], nodup_nil, fun w h => by simp [startShell] at h⟩

lemma FrontOk.congr {t t' : JobTable} {k k' : Family} {w : Foreground} (h : FrontOk t k w)
    (ht : ∀ p ∈ t'.pids, p ∈ t.pids) (hk : k'.pids = k.pids) : FrontOk t' k' w :=
  ⟨h.nodup, by rw [hk]; exact h.live, h.pos, fun hi p hp hmem => h.fresh hi p hp (ht p hmem)⟩

lemma JobsOk.steady {t : JobTable} {k : Family} {lastExit : ℤ} (h : JobsOk s) (ht : t.Numbered)
    (hs : t.pids.Sublist s.table.pids) (hk : k.pids = s.family.pids)
    (hn : k.nextPid = s.family.nextPid) :
    JobsOk { s with table := t, family := k, lastExit := lastExit } :=
  ⟨ht, ⟨hk ▸ h.family.nodup, by rw [hk, hn]; exact h.family.below⟩,
    fun p hp => hk ▸ h.known p (hs.subset hp), h.once.sublist hs,
    fun w hw => (h.front w hw).congr (fun _ hp => hs.subset hp) hk⟩

lemma JobsOk.states {k : Family} (h : JobsOk s) (hp : k.pids = s.family.pids)
    (hn : k.nextPid = s.family.nextPid) : JobsOk { s with family := k } :=
  h.steady h.numbered (.refl _) hp hn

lemma JobsOk.exitCode {lastExit : ℤ} (h : JobsOk s) : JobsOk { s with lastExit := lastExit } :=
  h.steady h.numbered (.refl _) rfl rfl

lemma JobsOk.shrink {t : JobTable} {phase : ShellPhase} {lastExit : ℤ} (h : JobsOk s)
    (ht : t.Numbered) (hs : t.pids.Sublist s.table.pids) (hph : ∀ w, phase ≠ .foreground w) :
    JobsOk { s with table := t, phase := phase, lastExit := lastExit } :=
  ⟨ht, h.family, fun p hp => h.known p (hs.subset hp), h.once.sublist hs,
    fun w hw => absurd hw (hph w)⟩

lemma JobsOk.noteStop {pid : ℕ} (h : JobsOk s) :
    JobsOk { s with table := s.table.jobReportStopped pid } :=
  h.steady (h.numbered.reportStopped pid) (by rw [jobReportStopped_pids]) rfl rfl

lemma JobsOk.back {lastExit : ℤ} (h : JobsOk s) :
    JobsOk { s with phase := .prompt, lastExit := lastExit } :=
  h.shrink h.numbered (.refl _) (by simp)

lemma JobsOk.grow {k : Family} {l : List ℕ} (h : JobsOk s) (hk : k.Ok)
    (hpi : k.pids = s.family.pids ++ l) : JobsOk { s with family := k, phase := .prompt } :=
  ⟨h.numbered, hk, fun p hp => hpi ▸ mem_append_left _ (h.known p hp), h.once, by simp⟩

lemma JobsOk.collected {t : JobTable} {k : Family} {phase : ShellPhase} {lastExit : ℤ} {pid : ℕ}
    (h : JobsOk s) (hnu : t.Numbered) (ht : t.pids = s.table.pids.filter (· ≠ pid))
    (hk : k.pids = s.family.pids.filter (· ≠ pid)) (hn : k.nextPid = s.family.nextPid)
    (hf : ∀ w, phase = .foreground w → FrontOk t k w) : JobsOk ⟨t, k, phase, lastExit⟩ := by
  refine ⟨hnu, ⟨?_, ?_⟩, ?_, ?_, hf⟩
  · rw [hk]
    exact h.family.nodup.filter _
  · intro p hp
    rw [hk] at hp
    rw [hn]
    exact h.family.below p (mem_filter.1 hp).1
  · intro p hp
    rw [ht, mem_filter] at hp
    rw [hk]
    exact mem_filter.2 ⟨h.known p hp.1, hp.2⟩
  · rw [ht]
    exact h.once.filter _

lemma mem_forgotten {t t' : JobTable} {pid : ℕ} (ht : t'.pids = t.pids.filter (· ≠ pid)) :
    ∀ p ∈ t'.pids, p ∈ t.pids := fun p hp => by
  rw [ht] at hp
  exact (mem_filter.1 hp).1

section Front

variable {t t' : JobTable} {k k' : Family} {w : Foreground} {pid : ℕ}

lemma FrontOk.other (h : FrontOk t k w) (ht : t'.pids = t.pids.filter (· ≠ pid))
    (hk : k'.pids = k.pids.filter (· ≠ pid)) (hpid : pid ∉ w.pids) : FrontOk t' k' w := by
  refine ⟨h.nodup, ?_, h.pos, fun hi p hp hmem => h.fresh hi p hp (mem_forgotten ht p hmem)⟩
  rw [h.live]
  congr 2
  refine filter_congr fun p hp => ?_
  have hne : p ≠ pid := fun heq => hpid (heq ▸ hp)
  simp [hk, hne]

lemma FrontOk.mine {status : ℕ} (h : FrontOk t k w) (ht : t'.pids = t.pids.filter (· ≠ pid))
    (hk : k'.pids = k.pids.filter (· ≠ pid)) (hpid : pid ∈ w.pids) (hki : pid ∈ k.pids)
    (hpo : 0 < w.live - 1) :
    FrontOk t' k' { w with status := status, live := w.live - 1 } := by
  refine ⟨h.nodup, ?_, hpo, fun hi p hp hmem => h.fresh hi p hp (mem_forgotten ht p hmem)⟩
  have hf : w.pids.filter (· ∈ k'.pids) = (w.pids.filter (· ∈ k.pids)).erase pid := by
    rw [(h.nodup.filter _).erase_eq_filter, filter_filter]
    refine filter_congr fun p _ => ?_
    rw [hk, Bool.eq_iff_iff]
    simp [and_comm]
  have hmem : pid ∈ w.pids.filter (· ∈ k.pids) := mem_filter.2 ⟨hpid, by simpa using hki⟩
  have hl := length_pos_of_mem hmem
  change w.live - 1 = _
  rw [hf, length_erase_of_mem hmem, h.live]
  omega

end Front

lemma finishForeground_ok {w : Foreground} (h : JobsOk { s with phase := .prompt }) :
    JobsOk (s.finishForeground w) := by
  unfold JobShell.finishForeground
  split_ifs
  · exact h.shrink (h.numbered.removeAt _) (jobRemoveAt_sublist _ _) (by simp)
  · exact h.back

lemma loopForeground_ok {w : Foreground} (h : JobsOk { s with phase := .prompt })
    (hw : 0 < w.live → FrontOk s.table s.family w) : JobsOk (s.loopForeground w) := by
  unfold JobShell.loopForeground
  split_ifs with hl
  · refine ⟨h.numbered, h.family, h.known, h.once, fun w' hw' => ?_⟩
    obtain rfl := ShellPhase.foreground.inj hw'
    exact hw hl
  · exact finishForeground_ok h

lemma waitForeground_ok {pids : List ℕ} {pgid lead jobId : ℕ}
    (h : JobsOk { s with phase := .prompt }) (hn : pids.Nodup)
    (hk : ∀ p ∈ pids, p ∈ s.family.pids)
    (hfresh : jobId = 0 → ∀ p ∈ pids, p ∉ s.table.pids) :
    JobsOk (s.waitForeground pids pgid lead jobId) := by
  refine loopForeground_ok h fun hp => ⟨hn, ?_, hp, hfresh⟩
  rw [filter_eq_self.2 (by simpa using hk)]

end Invariant

section Steps

variable {s : JobShell}

section

variable (h : JobsOk s)
include h

lemma foregroundStop_ok {w : Foreground} {pid st : ℕ} {k : Family}
    (hph : s.phase = .foreground w) (hst : st &&& stoppedBit ≠ 0)
    (hk : k.pids = s.family.pids) (hn : k.nextPid = s.family.nextPid)
    (hw : w.jobId = 0 → pid ∈ w.pids → s.table.jobs.length < maxJobs →
      ∀ p ∈ w.pids, p ∈ s.family.pids) :
    JobsOk ({ s with family := k }.foregroundNews w pid st) := by
  have hs := h.states hk hn
  unfold JobShell.foregroundNews
  rw [if_pos hst]
  by_cases hm : pid ∈ w.pids
  swap
  · simp only [hm, false_and, if_false]
    exact hs.noteStop
  by_cases hi : w.jobId = 0
  swap
  · simp only [hm, hi, and_false, if_false, if_true]
    exact hs.shrink (hs.numbered.reportStopped pid) (by rw [jobReportStopped_pids]) (by simp)
  simp only [hm, hi, and_self, if_true]
  -- the job is added with every pid it started with
  have hf := h.front w hph
  have hpi : ((s.table.jobAdd w.pgid w.pids false).2.jobReportStopped pid).pids = s.table.pids ++
      if maxJobs ≤ s.table.jobs.length then [] else w.pids.take maxStages := by
    rw [jobReportStopped_pids, jobAdd_pids]
  refine ⟨(h.numbered.add _ _ _).reportStopped pid, hs.family, ?_, ?_, by simp⟩
  · intro p hp
    rw [hpi, mem_append] at hp
    refine hk.symm ▸ hp.elim (h.known p) fun hp => ?_
    split_ifs at hp with hfu
    · simp at hp
    · exact hw hi hm (not_le.1 hfu) p (mem_of_mem_take hp)
  · rw [hpi, nodup_append]
    split_ifs
    · simpa using h.once
    · refine ⟨h.once, hf.nodup.sublist (take_sublist _ _), fun p hp q hq heq => ?_⟩
      exact hf.fresh hi q (mem_of_mem_take hq) (heq ▸ hp)

lemma foregroundExit_ok {w : Foreground} {pid st : ℕ} {k : Family}
    (hph : s.phase = .foreground w) (he : st &&& stoppedBit = 0)
    (hpid : pid ∈ s.family.pids) (hk : k.pids = s.family.pids.filter (· ≠ pid))
    (hn : k.nextPid = s.family.nextPid) :
    JobsOk ({ s with family := k }.foregroundNews w pid st) := by
  have hfr := h.front w hph
  have hf := forget_pids h.once pid
  unfold JobShell.foregroundNews
  rw [if_neg (not_not.2 he)]
  by_cases hm : pid ∈ w.pids
  swap
  · rw [if_neg hm]
    refine h.collected (h.numbered.forget pid) hf hk hn fun w' hw' => ?_
    obtain rfl := ShellPhase.foreground.inj (hph.symm.trans hw')
    exact hfr.other hf hk hm
  rw [if_pos hm]
  by_cases hi : w.jobId = 0
  · -- a job without a number is not in the table, so there is nothing to forget
    have hsame : s.table.pids = s.table.pids.filter (· ≠ pid) :=
      (filter_eq_self.2 fun p hp => by
        simpa using fun heq : p = pid => hfr.fresh hi pid hm (heq ▸ hp)).symm
    simp only [hi, ne_eq, not_true_eq_false, if_false]
    exact loopForeground_ok (h.collected h.numbered hsame hk hn (by simp))
      fun hpo => hi ▸ hfr.mine hsame hk hm hpid hpo
  · simp only [ne_eq, hi, not_false_eq_true, if_true]
    exact loopForeground_ok (h.collected (h.numbered.forget pid) hf hk hn (by simp))
      fun hpo => hfr.mine hf hk hm hpid hpo

lemma answerNews_ok {pid : ℕ} (hwh : ¬ StopsHalfDone s (.answer pid)) :
    JobsOk (s.answerNews pid) := by
  unfold JobShell.answerNews
  split_ifs with hpr
  · exact h
  split
  · exact h
  · rename_i st k hne
    obtain ⟨hpid, hn, ⟨he, hk, -⟩ | ⟨hst, hk, hsig⟩⟩ := takeNews_cases hne
    · have hf := forget_pids h.once pid
      unfold JobShell.handleNews
      split
      · rename_i hph
        exact absurd hph hpr
      · simp only [JobShell.reapNews, he, ne_eq, not_true_eq_false, if_false]
        exact h.collected (h.numbered.forget pid) hf hk hn fun w hw => by simp_all
      · rename_i hph
        exact foregroundExit_ok h hph he hpid hk hn
      · simp only [JobShell.waitNews, he, ne_eq, not_true_eq_false, if_false]
        exact h.collected (h.numbered.forget pid) hf hk hn fun w hw => by simp_all
    · have hs := h.states hk hn
      unfold JobShell.handleNews
      split
      · rename_i hph
        exact absurd hph hpr
      · simp only [JobShell.reapNews, hst, ne_eq, not_false_eq_true, if_true]
        exact hs.noteStop
      · rename_i w hph
        refine foregroundStop_ok h hph hst hk hn fun hi hm hr p hp => ?_
        by_contra hg
        refine hwh ?_
        simp only [StopsHalfDone, show s.phase = .foreground w from hph]
        exact ⟨hi, hm, hsig, ⟨p, hp, hg⟩, hr⟩
      · simp only [JobShell.waitNews, hst, ne_eq, not_false_eq_true, if_true]
        exact hs.shrink (hs.numbered.reportStopped pid) (by rw [jobReportStopped_pids]) (by simp)

lemma answerNone_ok : JobsOk s.answerNone := by
  unfold JobShell.answerNone
  split
  · exact h
  · split_ifs
    · exact h.back
    · exact h
  · split_ifs
    · exact finishForeground_ok h.back
    · exact h
  · split_ifs
    · exact h.back
    · exact h

lemma runForeground_ok (gap : ℕ) : JobsOk (s.runForeground gap) := by
  obtain ⟨hok, hpi, hn⟩ := h.family.spawn none gap
  refine waitForeground_ok (h.grow hok hpi) (by simp) (by simp [hpi]) fun _ p hp ho => ?_
  have := h.family.below p (h.known p ho)
  rw [mem_singleton.1 hp] at this
  omega

lemma runPipeline_ok (gaps : List ℕ) : JobsOk (s.runPipeline gaps) := by
  obtain ⟨hok, hpi, hfresh⟩ := h.family.spawnStages none (gaps.take maxStages)
  have hn := hok.nodup
  rw [hpi, nodup_append] at hn
  unfold JobShell.runPipeline
  dsimp only
  split
  · exact h.exitCode
  · rename_i leader rest hs
    rw [hs] at hpi hfresh hn
    refine waitForeground_ok (h.grow hok hpi) hn.2.1 (fun p hp => ?_)
      fun _ p hp ho => hfresh p hp (h.known p ho)
    rw [hpi]
    exact mem_append_right _ hp

lemma runBackground_ok (hph : s.phase = .prompt) (gap : ℕ) : JobsOk (s.runBackground gap) := by
  obtain ⟨hok, hpi, hn⟩ := h.family.spawn none gap
  have ha := jobAdd_pids s.table (s.family.spawn none gap).1 [(s.family.spawn none gap).1] false
  refine ⟨h.numbered.add _ _ _, hok, fun p hp => ?_, ?_, fun w hw => ?_⟩
  · rw [JobShell.runBackground, ha, mem_append] at hp
    rw [JobShell.runBackground, hpi, mem_append]
    refine hp.imp (h.known p) fun hp => ?_
    split_ifs at hp
    · simp at hp
    · exact mem_of_mem_take hp
  · rw [JobShell.runBackground, ha, nodup_append]
    refine ⟨h.once, ?_, fun p hp q hq heq => ?_⟩
    · split_ifs
      · exact nodup_nil
      · exact (nodup_singleton _).sublist (take_sublist _ _)
    · have hq : q = (s.family.spawn none gap).1 := by
        split_ifs at hq
        · simp at hq
        · exact mem_singleton.1 (mem_of_mem_take hq)
      have := h.family.below p (h.known p hp)
      omega
  · simp [JobShell.runBackground, hph] at hw

end

lemma unstop_pids (t : JobTable) (i : ℕ) :
    (t.setJob i fun j => { j with stopped := false }).pids.Sublist t.pids := by
  rw [setJob_pids_same]
  exact fun _ => rfl

lemma fg_ok (h : JobsOk s) (word : List Char) : JobsOk (s.fg word) := by
  unfold JobShell.fg
  split
  · exact h.exitCode
  · rename_i i j hj
    split_ifs
    · exact h.exitCode
    · have hmem : j ∈ s.table.jobs := by
        obtain ⟨i', -, hi'⟩ := Option.bind_eq_some_iff.1 hj
        obtain ⟨j', hj', heq⟩ := Option.map_eq_some_iff.1 hi'
        obtain ⟨-, rfl⟩ := Prod.mk.inj heq
        exact mem_of_getElem? hj'
      have hk := continueGroup_pids s.family j.pgid
      refine waitForeground_ok ((@JobsOk.back s s.lastExit h).steady
        (h.numbered.setJob fun _ => rfl)
        (unstop_pids s.table i) hk rfl) ((nodup_flatMap.1 h.once).1 j hmem) (fun p hp => ?_)
        fun hi => absurd hi (h.numbered.jobs j hmem).ne'
      rw [hk]
      exact h.known p (mem_flatMap.2 ⟨j, hmem, hp⟩)

lemma bg_ok (h : JobsOk s) (word : List Char) (sent : Bool) : JobsOk (s.bg word sent) := by
  unfold JobShell.bg
  split
  · exact h.exitCode
  · rename_i i j hj
    have hn : (s.table.setJob i fun j => { j with stopped := false }).Numbered :=
      h.numbered.setJob fun _ => rfl
    split_ifs
    · exact h.steady hn (unstop_pids s.table i) (continueGroup_pids _ _) rfl
    · exact h.steady hn (unstop_pids s.table i) rfl rfl
    · exact h.exitCode

lemma promptStep_ok (h : JobsOk s) (hp : s.phase = .prompt) (step : JobStep) :
    JobsOk (promptStep s step) := by
  cases step with
  | reap => exact h.shrink h.numbered (Sublist.refl _) (by simp)
  | run gap => exact runForeground_ok h gap
  | pipeline gaps => exact runPipeline_ok h gaps
  | background gap => exact runBackground_ok h hp gap
  | fg word => exact fg_ok h word
  | bg word sent => exact bg_ok h word sent
  | wait =>
    unfold promptStep JobShell.waitBuiltin
    split_ifs
    · exact h.exitCode
    · exact h.shrink h.numbered (Sublist.refl _) (by simp)
  | exits | stops | continues | answer | answerNone => exact h

lemma jobStep_ok {step : JobStep} (h : JobsOk s) (hw : ¬ StopsHalfDone s step) :
    JobsOk (jobStep s step) := by
  cases step with
  | exits pid status => exact h.states (become_pids _ _ _) rfl
  | stops pid sig => exact h.states (become_pids _ _ _) rfl
  | continues pid => exact h.states (become_pids _ _ _) rfl
  | answer pid => exact answerNews_ok h hw
  | answerNone => exact answerNone_ok h
  | reap | run | pipeline | background | fg | bg | wait =>
    unfold jobStep
    split_ifs with hp
    · exact promptStep_ok h hp _
    · exact h

end Steps

section Ends

variable {s : JobShell} {w : Foreground}

lemma JobsOk.live_eq (h : JobsOk s) (hp : s.phase = .foreground w) :
    w.live = (s.family.pids.filter (· ∈ w.pids)).length := by
  have hf := h.front w hp
  have hpe : (w.pids.filter (· ∈ s.family.pids)).Perm (s.family.pids.filter (· ∈ w.pids)) := by
    refine (perm_ext_iff_of_nodup (hf.nodup.filter _) (h.family.nodup.filter _)).2 fun p => ?_
    simp [and_comm]
  rw [hf.live, hpe.length_eq]

lemma takeNews_exited (h : s.family.Ok) {x : Kid} {status : UInt8} (hx : x ∈ s.family.kids)
    (hs : x.state = .exited status) :
    s.family.takeNews x.pid = some (status.toNat,
      { s.family with kids := s.family.kids.filter fun y => decide (y.pid ≠ x.pid) }) := by
  simp [takeNews, h.kid?_eq hx, hs]

lemma answer_exit (h : JobsOk s) (hp : s.phase = .foreground w) {x : Kid} {status : UInt8}
    (hx : x ∈ s.family.kids) (hm : x.pid ∈ w.pids) (hs : x.state = .exited status) :
    (jobStep s (.answer x.pid)).family.kids =
      s.family.kids.filter (fun y => decide (y.pid ≠ x.pid)) ∧
    (jobStep s (.answer x.pid)).phase =
      if 0 < w.live - 1 then .foreground { w with
        status := if x.pid = w.lead then status.toNat else w.status, live := w.live - 1 }
      else .prompt := by
  have hn := takeNews_exited h.family hx hs
  have he : status.toNat &&& stoppedBit = 0 := by
    obtain ⟨-, -, ⟨he, -⟩ | ⟨-, -, sig, hsig⟩⟩ := takeNews_cases hn
    · exact he
    · simp [h.family.kid?_eq hx, hs] at hsig
  simp only [jobStep, JobShell.answerNews, hp, hn, JobShell.handleNews,
    JobShell.foregroundNews, he, hm, JobShell.loopForeground, reduceCtorEq, if_false, if_true,
    ne_eq, not_true_eq_false]
  by_cases hl : 0 < w.live - 1
  · simp only [hl, if_true, and_self]
  · simp only [hl, if_false, JobShell.finishForeground, and_self]

lemma answer_stop (h : JobsOk s) (hp : s.phase = .foreground w) {x : Kid} {sig : Fin 32}
    (hx : x ∈ s.family.kids) (hm : x.pid ∈ w.pids) (hs : x.state = .stopped sig false) :
    (jobStep s (.answer x.pid)).phase = .prompt := by
  have hn : s.family.takeNews x.pid = some (stoppedBit ||| sig.val,
      s.family.become x.pid fun _ => .stopped sig true) := by
    simp [takeNews, h.family.kid?_eq hx, hs]
  simp only [jobStep, JobShell.answerNews, hp, hn, JobShell.handleNews,
    JobShell.foregroundNews, stop_stopped sig, hm, reduceCtorEq, if_false, if_true, ne_eq,
    not_false_eq_true]

/-- When all processes of a job have exited, collecting them in any order ends the wait for it. -/
lemma exits_end (order : List ℕ) (h : JobsOk s) (hp : s.phase = .foreground w) (hi : w.jobId ≠ 0)
    (he : ∀ x ∈ s.family.kids, x.pid ∈ w.pids → ∃ status, x.state = .exited status)
    (hpe : order.Perm (s.family.pids.filter (· ∈ w.pids))) :
    (jobRun s (order.map .answer)).phase = .prompt := by
  induction order generalizing s w with
  | nil =>
    -- the loop would not be running
    have hl := h.live_eq hp
    rw [← hpe.length_eq] at hl
    have := (h.front w hp).pos
    simp only [length_nil] at hl
    omega
  | cons pid order ih =>
    obtain ⟨hpid, hm⟩ := mem_filter.1 (hpe.subset mem_cons_self)
    obtain ⟨x, hx, rfl⟩ := mem_map.1 hpid
    have hm : x.pid ∈ w.pids := by simpa using hm
    obtain ⟨status, hs⟩ := he x hx hm
    obtain ⟨hk, hn⟩ := answer_exit h hp hx hm hs
    have hok : JobsOk (jobStep s (.answer x.pid)) := jobStep_ok h (by simp [StopsHalfDone, hp, hi])
    have hl := h.live_eq hp
    rw [← hpe.length_eq, length_cons] at hl
    by_cases hla : 0 < w.live - 1
    · rw [if_pos hla] at hn
      refine ih hok hn hi (fun y hy => he y ?_) ?_
      · rw [hk] at hy
        exact (mem_filter.1 hy).1
      · have hpi : (jobStep s (.answer x.pid)).family.pids =
            s.family.pids.filter (· ≠ x.pid) := by
          simp [pids, hk, filter_map, comp_def]
        rw [hpi, filter_filter]
        have hc := hpe.erase x.pid
        rw [erase_cons_head, (h.family.nodup.filter _).erase_eq_filter, filter_filter] at hc
        refine hc.trans (Perm.of_eq (filter_congr fun p _ => ?_))
        rw [Bool.eq_iff_iff]
        simp [and_comm]
    · rw [if_neg hla] at hn
      have hni : order = [] := by
        rw [← length_eq_zero_iff]
        omega
      rw [hni]
      exact hn

end Ends

def sampleJobSteps : List JobStep :=
  [.pipeline [0, 0], .stops 6 20, .answer 6, .fg [], .exits 5 0, .answer 5, .exits 6 1, .answer 6]

namespace JobShell

variable {s : JobShell} {w : Foreground} {news : List (ℕ × ℕ)}

lemma reports_prompt (h : s.phase = .prompt) : s.reports news = s := by
  induction news with
  | nil => rfl
  | cons r news ih => rwa [reports, foldl_cons, handleNews, h]

/-- Once all its processes have exited, a job has the status of its lead. -/
lemma reports_foreground (exit : ℕ → UInt8) : ∀ {news : List (ℕ × ℕ)} {s : JobShell}
    {w : Foreground},
    s.phase = .foreground w → w.jobId = 0 → 0 < w.live →
    w.live = (news.filter fun r => decide (r.1 ∈ w.pids)).length →
    (∀ r ∈ news, r.1 ∈ w.pids → r.2 = (exit r.1).toNat) → w.lead ∈ w.pids →
    w.lead ∈ news.map Prod.fst ∨ w.status = (exit w.lead).toNat →
    (s.reports news).lastExit = (exit w.lead).toNat
  | [], s, w, _, _, hli, hle, _, _, _ => by simp at hle; omega
  | r :: news, s, w, hw, hi, hli, hle, he, hl, hst => by
    have hse : s.reports (r :: news) = (s.foregroundNews w r.1 r.2).reports news := by
      rw [reports, foldl_cons, handleNews, hw]
      rfl
    have hre : ∀ x ∈ news, x.1 ∈ w.pids → x.2 = (exit x.1).toNat := fun x hx =>
      he x (mem_cons_of_mem _ hx)
    rw [map_cons, mem_cons] at hst
    rw [hse, foregroundNews]
    by_cases hr : r.1 ∈ w.pids
    · have hr2 := he r mem_cons_self hr
      have hs : w.lead ∈ news.map Prod.fst ∨
          (if r.1 = w.lead then r.2 else w.status) = (exit w.lead).toNat := by
        split_ifs with heq
        · exact .inr (heq ▸ hr2)
        · exact hst.imp_left fun h => h.resolve_left (Ne.symm heq)
      rw [if_neg (by rw [hr2, exit_not_stopped]; simp), if_pos hr, if_neg (by simp [hi])]
      generalize (if r.1 = w.lead then r.2 else w.status) = st at hs ⊢
      rw [loopForeground]
      rw [filter_cons_of_pos (by simpa using hr), length_cons] at hle
      split_ifs with hm
      · exact reports_foreground exit (w := { w with live := w.live - 1, status := st }) rfl hi hm
          (by dsimp only; omega) hre hl hs
      · rw [reports_prompt rfl]
        refine congrArg Nat.cast (hs.resolve_left fun h => ?_)
        obtain ⟨x, hx, hxl⟩ := mem_map.1 h
        have : x ∈ news.filter fun r => decide (r.1 ∈ w.pids) :=
          mem_filter.2 ⟨hx, by simpa [hxl] using hl⟩
        have := length_pos_of_mem this
        dsimp only at hm
        omega
    · have hs := hst.imp_left fun h => h.resolve_left fun heq => hr (heq ▸ hl)
      rw [filter_cons_of_neg (by simpa using hr)] at hle
      simp only [if_neg hr]
      split_ifs <;> exact reports_foreground exit (w := w) hw hi hli hle hre hl hs

end JobShell

open JobShell

/-- A pipeline's status is honest unless a stage but the first cannot be forked and the last one
that was exits with 0. -/
theorem pipeline_honest_iff (s : JobShell) (hp : s.phase = .prompt) (pipesOk : Bool)
    (forks : List (Option ℕ)) (h2 : 2 ≤ forks.length) (exit : ℕ → UInt8)
    (news : List (ℕ × ℕ))
    (hnews : (news.filter fun r => decide (r.1 ∈ s.stagePids pipesOk forks)).Perm
      ((s.stagePids pipesOk forks).map fun p => (p, (exit p).toNat))) :
    (((s.startPipeline pipesOk forks).reports news).lastExit = 0 ↔
      pipesOk = true ∧ (∀ f ∈ forks, f.isSome) ∧
        exit ((s.stagePids pipesOk forks).getLastD 0) = 0) ↔
    pipesOk = false ∨ forks.head? = some none ∨ (∀ f ∈ forks, f.isSome) ∨
      exit ((s.stagePids pipesOk forks).getLastD 0) ≠ 0 := by
  rcases pipesOk with _ | _
  · simp [startPipeline, reports_prompt, hp]
  rcases hpids : s.stagePids true forks with _ | ⟨leader, rest⟩
  · rw [stagePids, if_pos rfl] at hpids
    have hnone : forks.head? = some none := by
      rcases forks with _ | ⟨_ | gap, forks⟩
      · simp at h2
      · rfl
      · simp [maxStages, spawnStages] at hpids
    have hstart : s.startPipeline true forks = { s with lastExit := 1 } := by
      simp only [startPipeline, if_true, runPipeline, hpids]
    have hall : ¬ ∀ f ∈ forks, f.isSome = true := fun h => by
      simpa using h none (mem_of_head? hnone)
    rw [hstart, reports_prompt (by exact hp)]
    simp [hnone, hall]
  · rw [hpids] at hnews
    rw [stagePids, if_pos rfl] at hpids
    have hstart : (s.startPipeline true forks).phase = .foreground
        ⟨leader :: rest, leader, (leader :: rest).getLastD 0, 0, (leader :: rest).length, 0⟩ := by
      simp only [startPipeline, if_true, runPipeline, hpids, waitForeground, loopForeground]
      rw [if_pos (by simp)]
    have hlead : (leader :: rest).getLastD 0 ∈ leader :: rest := by
      rw [getLastD_cons]
      exact getLastD_mem_cons
    have hmem : ∀ p ∈ leader :: rest, (p, (exit p).toNat) ∈ news := fun p hp =>
      mem_of_mem_filter (hnews.mem_iff.2 (mem_map_of_mem hp))
    have hlast := reports_foreground exit hstart rfl (by simp)
      (by rw [hnews.length_eq, length_map]) (fun r hr hin => ?_) hlead
      (.inl (mem_map.2 ⟨_, hmem _ hlead, rfl⟩))
    · rw [hlast, Nat.cast_eq_zero]
      have hne : forks.head? ≠ some none := by
        rintro h
        rcases forks with _ | ⟨_ | gap, forks⟩
        · simp at h2
        · simp [spawnStages] at hpids
        · simp at h
      rw [show (exit ((leader :: rest).getLastD 0)).toNat = 0 ↔
        exit ((leader :: rest).getLastD 0) = 0
        from UInt8.toNat_inj (b := 0)]
      simp only [hne, reduceCtorEq, false_or, true_and]
      tauto
    · have := hnews.mem_iff.1 (mem_filter.2 ⟨hr, by simpa using hin⟩)
      obtain ⟨p, -, rfl⟩ := mem_map.1 this
      rfl

theorem pipeline_honest_two :
    (((startShell 1).startPipeline true [some 0, some 0]).reports [(3, 1), (2, 0)]).lastExit ≠ 0 :=
  ((pipeline_honest_iff (startShell 1) rfl true [some 0, some 0] (by decide)
    (fun p => if p = 3 then 1 else 0) [(3, 1), (2, 0)] (by decide)).2
    (.inr (.inr (.inl (by decide))))).not.2 (by decide)

/-- The second stage cannot be forked, and the first exits with 0. -/
theorem pipeline_hides_fork :
    (((startShell 1).startPipeline true [some 0, none]).reports [(2, 0)]).lastExit = 0 := by
  decide

end EsdumanOS
