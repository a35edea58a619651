import EsdumanOS.Proofs.Mount
import EsdumanOS.ReadOnly

/-!
# A read-only system writes nothing new

At `SEC_LEVEL_IMMUTABLE` every operation of the file system stops at its gate, so the cache only
drains. `init_fs` has no gate: a mount that finds a disk to load or to format writes to it at any
level.
-/

namespace EsdumanOS

open Lib MountState SecLevel Mutation

lemma Mutation.gate_immutable {mounted : Bool} {level : ℕ} (op : Mutation)
    (h : immutable.toNat ≤ level) : op.gate mounted level ≠ .ok := by
  cases op <;> simp only [gate] <;> split_ifs <;> simp_all

/-- Where the two tests that most operations begin with refuse, the result is the error and the
state as it was. -/
lemma gated {σ : Type} {mounted : Bool} {level : SecLevel} {s : σ} {r : Errno × σ}
    (h : (if !mounted then Errno.nodev
      else if immutable.toNat ≤ level.toNat then .rofs else .ok) ≠ .ok) :
    (if !mounted then (.nodev, s) else if .immutable ≤ level then (.rofs, s) else r) =
      (if !mounted then .nodev
        else if immutable.toNat ≤ level.toNat then .rofs else .ok, s) := by
  by_cases hm : (!mounted) = true
  · rw [if_pos hm, if_pos hm]
  · rw [if_neg hm] at h ⊢
    rw [if_neg hm]
    by_cases hl : immutable ≤ level
    · exact (if_pos hl).trans (by rw [if_pos (show _ ≤ level.toNat from hl)])
    · exact absurd (if_neg hl) h

/-- The gate is the test that the operation makes: what it refuses, the operation refuses with the
same error, and leaves the volume. -/
lemma FsOp.run_gate {e : Env} {s : Fs} {op : FsOp} {m : Mutation} (hm : op.mutation = some m)
    (h : m.gate s.mounted e.secLevel.toNat ≠ .ok) :
    op.run e s = (m.gate s.mounted e.secLevel.toNat, s) := by
  cases op with
  | createRaw => simp [FsOp.mutation] at hm
  | create =>
    obtain rfl := Option.some.inj hm
    have hl : immutable ≤ e.secLevel := by
      by_contra hl
      exact h (if_neg hl)
    exact (if_pos hl).trans (Prod.ext (if_pos hl).symm rfl)
  | rename oldName newName parentId =>
    obtain rfl := Option.some.inj hm
    simp only [gate] at h ⊢
    simp only [FsOp.run, fsRename]
    by_cases hn : maxFilename ≤ newName.length
    · simp only [if_pos hn]
      split_ifs <;> rfl
    · simp only [if_neg hn] at h ⊢
      exact gated h
  | mkdir | delete | update | chmod | chown =>
    obtain rfl := Option.some.inj hm
    exact gated h

lemma fsKeyslotRewrap_gate {c : SlotCrypto} {s : KeyState} {oldPass newPass : List UInt8}
    {e : KeyEnv} (h : keyslotRewrap.gate s.mounted e.secLevel.toNat ≠ .ok) :
    fsKeyslotRewrap c s oldPass newPass e =
      (keyslotRewrap.gate s.mounted e.secLevel.toNat, s) :=
  gated h

lemma opsRefused_immutable : OpsRefused .immutable := by
  refine ⟨fun e s op m hm he => ?_, fun c s oldPass newPass e he => ?_⟩
  · have hg := @gate_immutable s.mounted e.secLevel.toNat m (by rw [he])
    rw [FsOp.run_gate hm hg]
    exact ⟨hg, rfl⟩
  · have hg := @gate_immutable s.mounted e.secLevel.toNat .keyslotRewrap (by rw [he])
    rw [fsKeyslotRewrap_gate hg]
    exact ⟨hg, rfl⟩

section Cache

variable {b : Bcache} {io : Io}

lemma bcacheStep_tidy (call : Io × CacheOp) (h : Tidy b) : Tidy (bcacheStep b call) := by
  rcases call with ⟨io, _ | ⟨dev, sector, _ | data⟩ | _ | _ | _⟩
  · exact (bcacheReadSector_drains h _).tidy
  · exact h
  · exact (bcacheWriteSector_log h data).1
  · exact (bcacheFlush_drains h).tidy
  · exact (bcacheFlushDev_drains h).tidy
  · exact (bcacheFlushIfDue_drains h).tidy

lemma bcacheRun_tidy (calls : List (Io × CacheOp)) (h : Tidy b) : Tidy (bcacheRun b calls) :=
  foldl_invariant (fun _ call hb => bcacheStep_tidy call hb) calls h

lemma readSectors_drains (dev : ℕ) : ∀ (sectors : List ℕ) {b : Bcache}, Tidy b →
    Drains b (bcacheRun b (sectors.map fun s => (io, .read dev s (some fun _ => 0))))
  | [], _, h => .refl h
  | s :: sectors, b, h => by
    have hr := @bcacheReadSector_drains b io dev s h (some fun _ => 0)
    exact hr.trans (readSectors_drains dev sectors hr.tidy)

end Cache

section Steps

variable {k : MountState} {io : Io} {e e' : InitEnv}

section

variable (call : Mutation × List CacheOp)
include call

lemma mutate_level : (k.mutate io call).level = k.level := by
  unfold mutate
  split <;> rfl

lemma mutate_tidy (h : Tidy k.cache) : Tidy (k.mutate io call).cache := by
  unfold mutate
  split
  · exact h
  · exact bcacheRun_tidy _ h

lemma mutate_immutable (h : immutable.toNat ≤ k.level) : k.mutate io call = k := by
  unfold mutate
  rw [if_pos (call.1.gate_immutable h)]

end

section

variable (persist)

lemma sysSync_level : (sysSync io persist k).level = k.level := by
  unfold sysSync
  exact @foldl_invariant _ _ (mutate io) (fun k' => k'.level = k.level)
    (fun _ call h => (mutate_level call).trans h) persist k rfl

lemma sysSync_tidy (h : Tidy k.cache) : Tidy (sysSync io persist k).cache := by
  have hf := @foldl_invariant _ _ (mutate io) (fun k' => Tidy k'.cache)
    (fun _ call hk => mutate_tidy call hk) persist k h
  unfold sysSync
  dsimp only
  exact (bcacheFlush_drains hf).tidy

lemma sysSync_immutable (h : immutable.toNat ≤ k.level) (ht : Tidy k.cache) :
    Drains k.cache (sysSync io persist k).cache := by
  have hf : persist.foldl (mutate io) k = k :=
    @foldl_invariant _ _ (mutate io) (fun k' => k' = k)
      (fun _ call hk => by rw [hk]; exact mutate_immutable call h) persist k rfl
  unfold sysSync
  dsimp only
  rw [hf]
  exact bcacheFlush_drains ht

end

lemma flushAll_level : (k.flushAll io).2.level = k.level := by
  unfold flushAll
  dsimp only
  split <;> rfl

lemma flushAll_drains (h : Tidy k.cache) : Drains k.cache (k.flushAll io).2.cache := by
  have hf := @bcacheFlush_drains k.cache io h
  unfold flushAll
  dsimp only
  split <;> dsimp only
  · exact hf
  · exact hf.trans (bcacheFlushDev_drains hf.tidy)

lemma initFs_kernel_tidy : Tidy (k.initFs e).cache := initFs_tidy e.io k.root e.alloc k.cache e.mem

lemma initFs_untouched (h : ¬ InitWrites e k) :
    Untouched k.cache.disk (initFs e.io k.root e.alloc k.cache e.mem).2 := by
  rcases hw : (e.io.dev k.root).hasWrite with _ | _
  · exact initFs_readOnly hw k.cache e.mem
  · rcases initFs_cases e.io k.root e.alloc k.cache e.mem with ⟨-, hu⟩ | ⟨hb, hs, -⟩ | ⟨hm, -⟩
    · exact hu
    · exact absurd ⟨hw, .inr ⟨hb, hs⟩⟩ h
    · exact absurd ⟨hw, .inl hm⟩ h

lemma initFs_drains (h : ¬ InitWrites e k) : Drains k.cache (k.initFs e).cache := by
  have hu := initFs_untouched h
  refine ⟨initFs_kernel_tidy, ?_, ⟨[], ?_, by simp⟩, fun d s => .inl ?_⟩
  · change DirtyData (initFs e.io k.root e.alloc k.cache e.mem).2.cache ⊆ _
    rw [hu.clean]
    exact Set.empty_subset _
  · unfold MountState.initFs
    dsimp only
    rw [hu.log]
  · unfold MountState.initFs
    rw [hu.disk_eq]

lemma moveTo_drains {dev : ℕ} (h : ¬ InitWrites e (k.setRoot e.io dev)) :
    Drains k.cache (k.moveTo e dev).cache :=
  initFs_drains h

lemma not_initWrites_zero (h : k.root = 0) : ¬ InitWrites e k := by
  have hn : diskSectors e.io k.root = 0 := by rw [h]; rfl
  rintro ⟨-, hm | ⟨-, hs⟩⟩
  · unfold initFs at hm
    rw [hn, if_pos (by decide)] at hm
    simp at hm
  · rw [hn] at hs
    revert hs
    decide

end Steps

section Calls

variable {k : MountState} {a : KernelStep}

lemma setSecurityLevel_level (level : ℕ) : k.level ≤ (setSecurityLevel level k).level := by
  unfold setSecurityLevel
  split_ifs with h
  · exact le_rfl
  · exact not_lt.1 h

lemma setSecurityLevel_cache (level : ℕ) : (setSecurityLevel level k).cache = k.cache := by
  unfold setSecurityLevel
  split <;> rfl

lemma sysMount_cases (e e' : InitEnv) (uid : ℕ) (target : Option ℕ) (fileOpen : Bool) :
    (sysMount e e' uid target fileOpen k).2 = k ∨
    (sysMount e e' uid target fileOpen k).2 = (k.flushAll e.io).2 ∨
    ∃ dev, uid = 0 ∧ target = some dev ∧ fileOpen = false ∧ dev ≠ k.root ∧
      (k.flushAll e.io).1 = .ok ∧
      (sysMount e e' uid target fileOpen k).2 =
        let k' := (k.flushAll e.io).2.moveTo e dev
        if !k'.fs.mounted then k'.moveTo e' k.root else k' := by
  unfold sysMount
  rcases target with _ | dev
  · split <;> exact .inl rfl
  · dsimp only
    split_ifs with hu hr ho hf hm
    · exact .inl rfl
    · exact .inl rfl
    · exact .inl rfl
    · exact .inr (.inl rfl)
    · exact .inr (.inr ⟨dev, not_not.1 hu, rfl, by simpa using ho, hr,
        not_not.1 hf, by rw [if_pos hm]⟩)
    · exact .inr (.inr ⟨dev, not_not.1 hu, rfl, by simpa using ho, hr,
        not_not.1 hf, by rw [if_neg hm]⟩)

lemma sysUmount_cases (e : InitEnv) (uid : ℕ) (fileOpen : Bool) :
    (sysUmount e uid fileOpen k).2 = k ∨
    (sysUmount e uid fileOpen k).2 = (k.flushAll e.io).2 ∨
    (sysUmount e uid fileOpen k).2 = (k.flushAll e.io).2.moveTo e 0 := by
  unfold sysUmount
  split_ifs
  · exact .inl rfl
  · exact .inl rfl
  · exact .inl rfl
  · dsimp only
    split_ifs
    · exact .inr (.inl rfl)
    · exact .inr (.inr rfl)

lemma moveTo_level (e : InitEnv) (dev : ℕ) : (k.moveTo e dev).level = k.level := rfl

lemma kernelStep_level (k : MountState) (a : KernelStep) : k.level ≤ (kernelStep k a).level := by
  have hf := @flushAll_level k a.env.io
  unfold kernelStep
  split
  · exact (mutate_level _).ge
  · exact le_rfl
  · exact (sysSync_level _).ge
  · split
    · exact le_rfl
    · exact (sysSync_level _).ge
  · exact le_rfl
  · split
    · exact le_rfl
    · exact setSecurityLevel_level _
  · split_ifs
    · exact le_rfl
    · exact le_rfl
    · exact setSecurityLevel_level _
  · rename_i target fileOpen _
    rcases @sysMount_cases k a.env a.back a.uid target fileOpen with h | h | ⟨dev, -, -, -, -, -, h⟩
    · rw [h]
    · rw [h, hf]
    · rw [h]
      dsimp only
      split
      · rw [moveTo_level, moveTo_level, hf]
      · rw [moveTo_level, hf]
  · rename_i fileOpen _
    rcases @sysUmount_cases k a.env a.uid fileOpen with h | h | h
    · rw [h]
    · rw [h, hf]
    · rw [h, moveTo_level, hf]

lemma kernelStep_tidy (k : MountState) (a : KernelStep) (h : Tidy k.cache) :
    Tidy (kernelStep k a).cache := by
  have hf := (@flushAll_drains k a.env.io h).tidy
  unfold kernelStep
  split
  · exact mutate_tidy _ h
  · exact bcacheRun_tidy _ h
  · exact sysSync_tidy _ h
  · split
    · exact h
    · exact sysSync_tidy _ h
  · exact (bcacheFlushIfDue_drains h).tidy
  · split
    · exact h
    · rw [setSecurityLevel_cache]
      exact h
  · split_ifs
    · exact h
    · exact h
    · rw [setSecurityLevel_cache]
      exact h
  · rename_i target fileOpen _
    rcases @sysMount_cases k a.env a.back a.uid target fileOpen with
      h' | h' | ⟨dev, -, -, -, -, -, h'⟩
    · rw [h']
      exact h
    · rw [h']
      exact hf
    · rw [h']
      dsimp only
      split
      · exact initFs_kernel_tidy
      · exact initFs_kernel_tidy
  · rename_i fileOpen _
    rcases @sysUmount_cases k a.env a.uid fileOpen with h' | h' | h'
    · rw [h']
      exact h
    · rw [h']
      exact hf
    · rw [h']
      exact initFs_kernel_tidy

/-- What goes to a device was dirty before. -/
lemma kernelStep_drains (h : Tidy k.cache) (hl : immutable.toNat ≤ k.level)
    (hok : MountSpares k a) : Drains k.cache (kernelStep k a).cache := by
  have hf := @flushAll_drains k a.env.io h
  unfold kernelStep
  split
  · rw [mutate_immutable _ hl]
    exact .refl h
  · exact readSectors_drains _ _ h
  · exact sysSync_immutable _ hl h
  · split
    · exact .refl h
    · exact sysSync_immutable _ hl h
  · exact bcacheFlushIfDue_drains h
  · split
    · exact .refl h
    · rw [setSecurityLevel_cache]
      exact .refl h
  · split_ifs
    · exact .refl h
    · exact .refl h
    · rw [setSecurityLevel_cache]
      exact .refl h
  · rename_i target fileOpen hc
    rcases @sysMount_cases k a.env a.back a.uid target fileOpen with
      h' | h' | ⟨dev, hu, rfl, rfl, hr, hfl, h'⟩
    · rw [h']
      exact .refl h
    · rw [h']
      exact hf
    · simp only [MountSpares, hc] at hok
      obtain ⟨hmv, hb⟩ := hok hu hr hfl
      have hmo : Drains k.cache ((k.flushAll a.env.io).2.moveTo a.env dev).cache :=
        hf.trans (moveTo_drains hmv)
      rw [h']
      dsimp only
      split
      · rename_i hm
        exact hmo.trans (moveTo_drains (hb (by simpa using hm)))
      · exact hmo
  · rename_i fileOpen _
    rcases @sysUmount_cases k a.env a.uid fileOpen with h' | h' | h'
    · rw [h']
      exact .refl h
    · rw [h']
      exact hf
    · rw [h']
      exact hf.trans (moveTo_drains (not_initWrites_zero rfl))

end Calls

lemma boot_tidy (disk : ℕ → ℕ → Sector) : Tidy (boot disk).cache := by
  intro i hi
  simp [boot, bcacheInit] at hi

lemma kernelRun_tidy (disk : ℕ → ℕ → Sector) (calls : List KernelStep) :
    Tidy (kernelRun (boot disk) calls).cache :=
  foldl_invariant (fun k a hk => kernelStep_tidy k a hk) calls (boot_tidy disk)

lemma Drains.readOnly {k k' : MountState} (h : Drains k.cache k'.cache) (hle : k.level ≤ k'.level) :
    ReadOnly k k' := by
  refine ⟨hle, ?_⟩
  obtain ⟨l, hl, he⟩ := h.log
  refine ⟨l, hl, fun ev hmem => ?_⟩
  obtain ⟨x, ⟨i, hi, rfl⟩, st, rfl⟩ := he ev hmem
  exact ⟨i, st, hi, rfl⟩

/-- At `SEC_LEVEL_IMMUTABLE`, calls whose mounts find nothing to load or format hand the devices
only what was dirty then. The gates of the other calls are those of the operations themselves. -/
theorem kernelRun_readOnly (disk : ℕ → ℕ → Sector) (before after : List KernelStep)
    (hlevel : immutable.toNat ≤ (kernelRun (boot disk) before).level)
    (hok : StepsMeet kernelStep MountSpares (kernelRun (boot disk) before) after) :
    ReadOnly (kernelRun (boot disk) before)
      (kernelRun (kernelRun (boot disk) before) after) ∧ OpsRefused .immutable := by
  refine ⟨?_, opsRefused_immutable⟩
  have ht := kernelRun_tidy disk before
  revert hlevel hok ht
  generalize kernelRun (boot disk) before = k
  intro hlevel hok ht
  obtain ⟨hd, hl⟩ := @foldl_induction _ _ kernelStep MountSpares
    (fun k' => Drains k.cache k'.cache ∧ k.level ≤ k'.level)
    (fun k' a hk hmeet => ⟨hk.1.trans (kernelStep_drains hk.1.tidy (hlevel.trans hk.2) hmeet),
      hk.2.trans (kernelStep_level k' a)⟩) after k ⟨.refl ht, le_rfl⟩ hok
  exact hd.readOnly hl

def mountedSuperblock : Superblock :=
  ⟨fsSuperMagic, fsFormatVersion, 512, 2000, 1, 1, 1, 96, 8, 2, 3, 1, 0⟩

def smallDisk : ℕ → ℕ → Sector := fun _ s =>
  if s = 0 then mbrSector 2064
  else if s = fsPartStartLba + fsSuperSector then .ofBuf mountedSuperblock.byte
  else fun _ => 0

def plainEnv (sectors : ℕ) : InitEnv :=
  ⟨⟨fun _ => ⟨512, sectors, true, true⟩, fun _ => .ok, fun _ _ => 0, 0⟩,
    fun sb => some ⟨0, kmallocBytes (sb.maxEntries * entrySize), .inl (by simp)⟩, fun _ => 0⟩

def plainCall (sectors : ℕ) (call : KernelCall) : KernelStep :=
  ⟨plainEnv sectors, plainEnv sectors, 0, call⟩

/-- A file is not created, and a device too small for a file system is not mounted. -/
theorem kernelRun_readOnly_refused :
    let k := kernelRun (boot smallDisk) [plainCall 10 (.setSecLevel 3)]
    ReadOnly k (kernelRun k [plainCall 10 (.file .createFile [.write 1 0 (some fun _ => 1)]),
      plainCall 10 (.sync []), plainCall 10 (.mount (some 1) false)]) := by
  refine And.left (kernelRun_readOnly smallDisk [plainCall 10 (.setSecLevel 3)] _ (by decide)
    ⟨trivial, trivial,
      fun _ _ _ => ⟨?_, fun _ => not_initWrites_zero (by decide +kernel)⟩, trivial⟩)
  rintro ⟨-, hm | ⟨hblank, -⟩⟩
  · revert hm
    decide +kernel
  · obtain ⟨hread, -⟩ := hblank 0 (by decide)
    revert hread
    decide +kernel

def CacheEvent.isDevWrite : CacheEvent → Bool
  | .accept _ _ _ => false
  | .devWrite _ _ _ _ => true

lemma ReadOnly.log_eq {k k' : MountState} (h : ReadOnly k k')
    (hc : ∀ i, (k.cache.cache i).isDirty = false) : k'.cache.log = k.cache.log := by
  obtain ⟨l, hl, he⟩ := h.log
  rcases l with _ | ⟨ev, l⟩
  · exact hl
  · obtain ⟨i, st, hi, -⟩ := he ev List.mem_cons_self
    simp [hc i] at hi

/-- Mounting a good disk at `SEC_LEVEL_IMMUTABLE` writes its allocation table. -/
theorem kernelRun_mount_writes :
    let k := kernelRun (boot smallDisk) [plainCall 2064 (.setSecLevel 3)]
    let k' := kernelRun k [plainCall 2064 (.mount (some 1) false), plainCall 2064 (.sync [])]
    k.level = immutable.toNat ∧ (∀ i, (k.cache.cache i).isDirty = false) ∧
      k'.cache.log.any CacheEvent.isDevWrite = true ∧ ¬ ReadOnly k k' := by
  have hclean : ∀ i, ((kernelRun (boot smallDisk)
      [plainCall 2064 (.setSecLevel 3)]).cache.cache i).isDirty = false := fun _ => rfl
  refine ⟨by decide, hclean, by decide +kernel, fun h => ?_⟩
  have hlog := congrArg List.length (h.log_eq hclean)
  revert hlog
  decide +kernel

end EsdumanOS
