import EsdumanOS.Shadow
import EsdumanOS.Lib.Runs

/-!
# The key slot

The passphrase-protected data key: `keyslot.c` and the calls of `vfs.c` that install, open and
rewrap the slot. PBKDF2, AES-CBC and HMAC-SHA256 are parameters; entropy and disk come with each
call.
-/

namespace EsdumanOS

def keyslotMaxPassphrase : ℕ := 64

/-- The primitives that the slot is made with. -/
structure SlotCrypto where
  kdf : Kdf
  encrypt : Bytes 32 → Bytes 16 → Bytes 32 → Bytes 32
  decrypt : Bytes 32 → Bytes 16 → Bytes 32 → Bytes 32
  hmac : Bytes 32 → List UInt8 → Bytes 32
  decrypt_encrypt : ∀ key iv plain, decrypt key iv (encrypt key iv plain) = plain

structure Keyslot where
  salt : Bytes 32
  iterations : ℕ
  iv : Bytes 16
  wrapped : Bytes 32
  tag : Bytes 32
  deriving DecidableEq

section Slot

variable (c : SlotCrypto)

def passphraseIsUsable (passphrase : List UInt8) : Bool :=
  decide (0 < passphrase.length) && decide (passphrase.length < keyslotMaxPassphrase)

def keyslotTagInput (slot : Keyslot) : List UInt8 :=
  slot.salt.1 ++ slot.iv.1 ++ slot.wrapped.1

def keyslotDeriveKek (slot : Keyslot) (passphrase : List UInt8) : Bytes 32 :=
  c.kdf passphrase slot.salt.1 slot.iterations

/-- `keyslot_create`. The slot is filled in place, so a failure leaves it half written. -/
def keyslotCreate (slot : Keyslot) (passphrase : List UInt8) (dek : Bytes 32)
    (salt : Option (Bytes 32)) (iv : Option (Bytes 16)) : Errno × Keyslot :=
  if !passphraseIsUsable passphrase then (.inval, slot)
  else
    match salt with
    | none => (.io, slot)
    | some salt =>
      let slot := { slot with salt := salt }
      match iv with
      | none => (.io, slot)
      | some iv =>
        let slot := { slot with iv := iv, iterations := pbkdf2DefaultIterations }
        let kek := keyslotDeriveKek c slot passphrase
        let slot := { slot with wrapped := c.encrypt kek slot.iv dek }
        (.ok, { slot with tag := c.hmac kek (keyslotTagInput slot) })

def keyslotUnwrap (slot : Keyslot) (passphrase : List UInt8) : Errno ⊕ Bytes 32 :=
  if !passphraseIsUsable passphrase then .inl .inval
  else if !pbkdf2IterationsAreAcceptable slot.iterations then .inl .inval
  else
    let kek := keyslotDeriveKek c slot passphrase
    if c.hmac kek (keyslotTagInput slot) ≠ slot.tag then .inl .acces
    else .inr (c.decrypt kek slot.iv slot.wrapped)

def keyslotIsPresent (slot : Keyslot) : Bool :=
  decide (slot.iterations ≠ 0)

end Slot

section Calls

/-- The slot in `fs_super` and in sector 0, and `kernel_master_key` once it is available. -/
structure KeyState where
  mounted : Bool
  slot : Keyslot
  disk : Keyslot
  masterKey : Option (Bytes 32)

/-- What a call that makes a slot finds: the level, the entropy, and whether the superblock reaches
the disk. -/
structure KeyEnv where
  secLevel : SecLevel
  salt : Option (Bytes 32)
  iv : Option (Bytes 16)
  fresh : Keyslot
  written : Bool

variable (c : SlotCrypto)

/-- `save_superblock` and `bcache_flush`, as far as the slot goes. -/
def KeyState.save (s : KeyState) (written : Bool) : KeyState :=
  if written then { s with disk := s.slot } else s

/-- `fs_keyslot_install`; `dek` is the data key that the pool gives. -/
def fsKeyslotInstall (s : KeyState) (passphrase : List UInt8) (dek : Option (Bytes 32))
    (e : KeyEnv) : Errno × KeyState :=
  if !s.mounted then (.nodev, s)
  else
    match dek with
    | none => (.io, s)
    | some dek =>
      match keyslotCreate c s.slot passphrase dek e.salt e.iv with
      | (.ok, slot) => (.ok, { { s with slot := slot }.save e.written with masterKey := some dek })
      | (err, slot) => (err, { s with slot := slot })

def fsKeyslotUnlock (s : KeyState) (passphrase : List UInt8) : Errno × KeyState :=
  if !s.mounted then (.nodev, s)
  else if !keyslotIsPresent s.slot then (.inval, s)
  else
    match keyslotUnwrap c s.slot passphrase with
    | .inl err => (err, s)
    | .inr dek => (.ok, { s with masterKey := some dek })

def fsKeyslotRewrap (s : KeyState) (oldPass newPass : List UInt8) (e : KeyEnv) : Errno × KeyState :=
  if !s.mounted then (.nodev, s)
  else if .immutable ≤ e.secLevel then (.rofs, s)
  else if !keyslotIsPresent s.slot then (.inval, s)
  else
    match keyslotUnwrap c s.slot oldPass with
    | .inl err => (err, s)
    | .inr dek =>
      match keyslotCreate c e.fresh newPass dek e.salt e.iv with
      | (.ok, fresh) => (.ok, { s with slot := fresh }.save e.written)
      | (err, _) => (err, s)

end Calls

inductive KeyCall
  | rewrap (oldPass newPass : List UInt8) (e : KeyEnv)
  | unlock (passphrase : List UInt8)

/-- The passphrase that the slot is tried with. -/
def KeyCall.tried : KeyCall → List UInt8
  | .rewrap oldPass _ _ => oldPass
  | .unlock passphrase => passphrase

def KeyCall.written : KeyCall → Bool
  | .rewrap _ _ e => e.written
  | .unlock _ => true

/-- The state with the passphrase of the last install or rewrap that succeeded. -/
structure KeySys extends KeyState where
  current : List UInt8

def keyStep (c : SlotCrypto) (s : KeySys) : KeyCall → KeySys
  | .rewrap oldPass newPass e =>
    let r := fsKeyslotRewrap c s.toKeyState oldPass newPass e
    ⟨r.2, if r.1 = .ok then newPass else s.current⟩
  | .unlock passphrase => ⟨(fsKeyslotUnlock c s.toKeyState passphrase).2, s.current⟩

def keyRun (c : SlotCrypto) (s : KeySys) (calls : List KeyCall) : KeySys :=
  calls.foldl (keyStep c) s

/-- The keys that two passphrases give with the salt and the count of a slot tag it differently. -/
def SlotCrypto.Apart (c : SlotCrypto) (slot : Keyslot) (p q : List UInt8) : Prop :=
  c.hmac (keyslotDeriveKek c slot p) (keyslotTagInput slot) ≠
    c.hmac (keyslotDeriveKek c slot q) (keyslotTagInput slot)

/-- A passphrase that is not the current one is told from it by the tag of the slot. -/
def SlotCrypto.TagsDiffer (c : SlotCrypto) (s : KeySys) (p : List UInt8) : Prop :=
  p ≠ s.current → c.Apart s.slot p s.current

instance (c : SlotCrypto) (s : KeySys) (p : List UInt8) : Decidable (c.TagsDiffer s p) :=
  inferInstanceAs (Decidable (_ → _ ≠ _))

/-- The current passphrase opens the slot and gives the data key; any other is refused. A rewrap
that fails leaves the slot. -/
structure KeyKept (c : SlotCrypto) (dek : Bytes 32) (s : KeySys) (p : List UInt8) : Prop where
  opens : p = s.current →
    fsKeyslotUnlock c s.toKeyState p = (.ok, { s.toKeyState with masterKey := some dek })
  refused : p ≠ s.current →
    (fsKeyslotUnlock c s.toKeyState p).1 ≠ .ok ∧ (fsKeyslotUnlock c s.toKeyState p).2 = s.toKeyState
  failed : ∀ newPass e, (fsKeyslotRewrap c s.toKeyState p newPass e).1 ≠ .ok →
    (fsKeyslotRewrap c s.toKeyState p newPass e).2.slot = s.slot ∧
      (fsKeyslotRewrap c s.toKeyState p newPass e).2.disk = s.disk

end EsdumanOS
