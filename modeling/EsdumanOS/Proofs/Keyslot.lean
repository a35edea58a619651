import EsdumanOS.Keyslot

/-!
# Changing the passphrase keeps the data key

A slot made by `keyslot_create` is open to its passphrase (`SlotOpens`) and to no other. A rewrap
makes a new slot around the same data key, so along any run the slot stays open to the passphrase of
the last success.
-/

namespace EsdumanOS

open Lib List

variable {c : SlotCrypto} {dek : Bytes 32} {slot : Keyslot} {p q : List UInt8} {e : KeyEnv}

structure SlotOpens (c : SlotCrypto) (dek : Bytes 32) (slot : Keyslot) (p : List UInt8) : Prop where
  usable : passphraseIsUsable p = true
  iterations : slot.iterations = pbkdf2DefaultIterations
  wrapped : slot.wrapped = c.encrypt (keyslotDeriveKek c slot p) slot.iv dek
  tag : slot.tag = c.hmac (keyslotDeriveKek c slot p) (keyslotTagInput slot)

lemma keyslotCreate_cases (c : SlotCrypto) (slot : Keyslot) (p : List UInt8) (dek : Bytes 32)
    (salt : Option (Bytes 32)) (iv : Option (Bytes 16)) :
    ((keyslotCreate c slot p dek salt iv).1 = .ok ∧
        SlotOpens c dek (keyslotCreate c slot p dek salt iv).2 p) ∨
      (keyslotCreate c slot p dek salt iv).1 ≠ .ok := by
  unfold keyslotCreate
  split_ifs with hu
  · exact .inr (by simp)
  rcases salt with _ | salt
  · exact .inr (by simp)
  rcases iv with _ | iv
  · exact .inr (by simp)
  · exact .inl ⟨rfl, by simpa using hu, rfl, rfl, rfl⟩

section

variable (h : SlotOpens c dek slot p)
include h

lemma SlotOpens.present : keyslotIsPresent slot = true := by
  simp [keyslotIsPresent, h.iterations, pbkdf2DefaultIterations]

lemma SlotOpens.acceptable : pbkdf2IterationsAreAcceptable slot.iterations = true := by
  rw [h.iterations]
  decide

lemma SlotOpens.unwrap : keyslotUnwrap c slot p = .inr dek := by
  unfold keyslotUnwrap
  simp only [h.usable, h.acceptable, Bool.not_true, Bool.false_eq_true, ↓reduceIte]
  rw [if_neg (not_not.2 h.tag.symm), h.wrapped, c.decrypt_encrypt]

lemma SlotOpens.unwrap_other (ha : c.Apart slot q p) :
    ∃ err, err ≠ .ok ∧ keyslotUnwrap c slot q = .inl err := by
  unfold keyslotUnwrap
  dsimp only
  split_ifs with hu hc ht
  · exact ⟨.inval, by simp, rfl⟩
  · exact ⟨.inval, by simp, rfl⟩
  · exact ⟨.acces, by simp, rfl⟩
  · rw [ne_eq, not_not, h.tag] at ht
    exact absurd ht ha

end

section Calls

variable {s : KeyState}

lemma fsKeyslotUnlock_opens (hm : s.mounted = true) (h : SlotOpens c dek s.slot p) :
    fsKeyslotUnlock c s p = (.ok, { s with masterKey := some dek }) := by
  unfold fsKeyslotUnlock
  simp [hm, h.present, h.unwrap]

lemma fsKeyslotUnlock_refused (hm : s.mounted = true) (h : SlotOpens c dek s.slot p)
    (ha : c.Apart s.slot q p) :
    (fsKeyslotUnlock c s q).1 ≠ .ok ∧ (fsKeyslotUnlock c s q).2 = s := by
  obtain ⟨err, he, hu⟩ := h.unwrap_other ha
  unfold fsKeyslotUnlock
  simp [hm, h.present, hu, he]

lemma KeyState.save_fields (s : KeyState) (written : Bool) :
    (s.save written).slot = s.slot ∧ (s.save written).mounted = s.mounted ∧
      (written = true → (s.save written).disk = s.slot) := by
  unfold KeyState.save
  split_ifs with hw
  · exact ⟨rfl, rfl, fun _ => rfl⟩
  · exact ⟨rfl, rfl, fun h => absurd h hw⟩

lemma fsKeyslotRewrap_failed {newPass : List UInt8}
    (h : (fsKeyslotRewrap c s p newPass e).1 ≠ .ok) : (fsKeyslotRewrap c s p newPass e).2 = s := by
  unfold fsKeyslotRewrap at h ⊢
  split_ifs at h ⊢
  · rfl
  · rfl
  · rfl
  split at h
  · rfl
  · split at h
    · exact absurd rfl h
    · rfl

lemma fsKeyslotRewrap_opens {newPass : List UInt8} (h : SlotOpens c dek s.slot p)
    (ha : q ≠ p → c.Apart s.slot q p) (hok : (fsKeyslotRewrap c s q newPass e).1 = .ok) :
    let s' := (fsKeyslotRewrap c s q newPass e).2
    s'.mounted = s.mounted ∧ SlotOpens c dek s'.slot newPass ∧
      (e.written = true → s'.disk = s'.slot) := by
  unfold fsKeyslotRewrap at hok ⊢
  split_ifs at hok ⊢
  by_cases hq : q = p
  · subst hq
    rw [h.unwrap] at hok ⊢
    dsimp only at hok ⊢
    rcases keyslotCreate_cases c e.fresh newPass dek e.salt e.iv with ⟨hcr, ho⟩ | hcr
    · rcases hc : keyslotCreate c e.fresh newPass dek e.salt e.iv with ⟨err, fresh⟩
      rw [hc] at hcr ho
      subst hcr
      obtain ⟨hs, hm, hd⟩ := KeyState.save_fields { s with slot := fresh } e.written
      exact ⟨hm, hs ▸ ho, fun hw => (hd hw).trans hs.symm⟩
    · rcases hc : keyslotCreate c e.fresh newPass dek e.salt e.iv with ⟨err, fresh⟩
      cases err <;> simp_all
  · obtain ⟨err, he, hu⟩ := h.unwrap_other (ha hq)
    rw [hu] at hok
    exact absurd hok he

lemma fsKeyslotInstall_opens (hok : (fsKeyslotInstall c s p (some dek) e).1 = .ok) :
    let s' := (fsKeyslotInstall c s p (some dek) e).2
    s'.mounted = true ∧ SlotOpens c dek s'.slot p ∧ (e.written = true → s'.disk = s'.slot) := by
  unfold fsKeyslotInstall at hok ⊢
  split_ifs at hok ⊢ with hm
  dsimp only at hok ⊢
  rcases keyslotCreate_cases c s.slot p dek e.salt e.iv with ⟨hcr, ho⟩ | hcr
  · rcases hc : keyslotCreate c s.slot p dek e.salt e.iv with ⟨err, slot⟩
    rw [hc] at hcr ho
    subst hcr
    obtain ⟨hs, hmo, hd⟩ := KeyState.save_fields { s with slot := slot } e.written
    exact ⟨hmo.trans (by simpa using hm), hs ▸ ho, fun hw => (hd hw).trans hs.symm⟩
  · rcases hc : keyslotCreate c s.slot p dek e.salt e.iv with ⟨err, slot⟩
    cases err <;> simp_all

end Calls

section Runs

/-- Along a run the slot is around the data key and open to the current passphrase, and it is on the
disk as long as every superblock got there. -/
structure KeyInv (c : SlotCrypto) (dek : Bytes 32) (written : Prop) (s : KeySys) : Prop where
  mounted : s.mounted = true
  slotOpens : SlotOpens c dek s.slot s.current
  onDisk : written → s.disk = s.slot

variable {s : KeySys} {written : Prop}

lemma keyStep_inv (call : KeyCall) (ht : c.TagsDiffer s call.tried)
    (hw : written → call.written = true) (h : KeyInv c dek written s) :
    KeyInv c dek written (keyStep c s call) := by
  cases call with
  | rewrap oldPass newPass e =>
    by_cases hok : (fsKeyslotRewrap c s.toKeyState oldPass newPass e).1 = .ok
    · obtain ⟨hm, ho, hd⟩ := fsKeyslotRewrap_opens h.slotOpens ht hok
      simp only [keyStep, if_pos hok]
      exact ⟨hm.trans h.mounted, ho, fun hwr => hd (hw hwr)⟩
    · simp only [keyStep, if_neg hok, fsKeyslotRewrap_failed hok]
      exact h
  | unlock p =>
    simp only [keyStep]
    by_cases hp : p = s.current
    · rw [hp, fsKeyslotUnlock_opens h.mounted h.slotOpens]
      exact ⟨h.mounted, h.slotOpens, h.onDisk⟩
    · have hne : c.Apart s.slot p s.current := ht hp
      rw [(fsKeyslotUnlock_refused h.mounted h.slotOpens hne).2]
      exact h

lemma keyRun_inv (calls : List KeyCall) :
    ∀ {s : KeySys}, StepsMeet (keyStep c) (fun s call => c.TagsDiffer s call.tried) s calls →
      (written → ∀ call ∈ calls, call.written = true) → KeyInv c dek written s →
      KeyInv c dek written (keyRun c s calls) := by
  induction calls with
  | nil => exact fun _ _ h => h
  | cons call calls ih =>
    intro s ht hw h
    exact ih ht.2 (fun hwr x hx => hw hwr x (mem_cons_of_mem _ hx))
      (keyStep_inv call ht.1 (fun hwr => hw hwr call mem_cons_self) h)

/-- After an install and any calls, with tags that tell the passphrases tried from the current one.
The disk has the slot when every superblock was written. -/
theorem keyRun_kept (c : SlotCrypto) (s : KeyState) (p₀ : List UInt8) (dek : Bytes 32) (e : KeyEnv)
    (hinstall : (fsKeyslotInstall c s p₀ (some dek) e).1 = .ok) (calls : List KeyCall)
    (p : List UInt8) (htags : StepsMeet (keyStep c) (fun s call => c.TagsDiffer s call.tried)
      ⟨(fsKeyslotInstall c s p₀ (some dek) e).2, p₀⟩ calls)
    (hp : c.TagsDiffer (keyRun c ⟨(fsKeyslotInstall c s p₀ (some dek) e).2, p₀⟩ calls) p) :
    let s' := keyRun c ⟨(fsKeyslotInstall c s p₀ (some dek) e).2, p₀⟩ calls
    KeyKept c dek s' p ∧
      ((e.written = true ∧ ∀ call ∈ calls, call.written = true) → s'.disk = s'.slot) := by
  obtain ⟨hm, hopens, hdisk⟩ := fsKeyslotInstall_opens hinstall
  have hinv := keyRun_inv calls htags (fun hw => hw.2)
    (⟨hm, hopens, fun hw => hdisk hw.1⟩ : KeyInv c dek
      (e.written = true ∧ ∀ call ∈ calls, call.written = true) ⟨_, p₀⟩)
  refine ⟨⟨fun heq => ?_, fun hne => ?_, fun newPass e' hfail => ?_⟩, hinv.onDisk⟩
  · rw [heq]
    exact fsKeyslotUnlock_opens hinv.mounted hinv.slotOpens
  · exact fsKeyslotUnlock_refused hinv.mounted hinv.slotOpens (hp hne)
  · rw [fsKeyslotRewrap_failed hfail]
    exact ⟨rfl, rfl⟩

def padTo (n : ℕ) (l : List UInt8) : Bytes n :=
  ⟨(l ++ replicate n 0).take n, by simp⟩

def plainCrypto : SlotCrypto where
  kdf p _ _ := padTo 32 p
  encrypt _ _ plain := plain
  decrypt _ _ plain := plain
  hmac key _ := key
  decrypt_encrypt _ _ _ := rfl

def emptySlot : Keyslot := ⟨padTo 32 [], 0, padTo 16 [], padTo 32 [], padTo 32 []⟩

def sampleKeyEnv : KeyEnv := ⟨.normal, some (padTo 32 [7]), some (padTo 16 [8]), emptySlot, true⟩

/-- The passphrase goes from `a` to `bc`; one change uses the old one, and one finds no entropy. -/
def sampleKeyCalls : List KeyCall :=
  [.rewrap (asciiText "a") (asciiText "bc") sampleKeyEnv,
    .rewrap (asciiText "a") (asciiText "d") sampleKeyEnv,
    .rewrap (asciiText "bc") (asciiText "d") { sampleKeyEnv with iv := none }]

theorem keyRun_kept_sample :
    let s : KeySys :=
      ⟨(fsKeyslotInstall plainCrypto ⟨true, emptySlot, emptySlot, none⟩ (asciiText "a")
      (some (padTo 32 [5])) sampleKeyEnv).2, asciiText "a"⟩
    (keyRun plainCrypto s sampleKeyCalls).current = asciiText "bc" ∧
      KeyKept plainCrypto (padTo 32 [5]) (keyRun plainCrypto s sampleKeyCalls) (asciiText "bc") ∧
      KeyKept plainCrypto (padTo 32 [5]) (keyRun plainCrypto s sampleKeyCalls) (asciiText "a") := by
  refine ⟨by decide +kernel, ?_, ?_⟩
  · exact (keyRun_kept plainCrypto _ _ _ _ (by decide +kernel) sampleKeyCalls _
      (by decide +kernel) (by decide +kernel)).1
  · exact (keyRun_kept plainCrypto _ _ _ _ (by decide +kernel) sampleKeyCalls _
      (by decide +kernel) (by decide +kernel)).1

end Runs

end EsdumanOS
