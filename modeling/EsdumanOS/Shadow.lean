import EsdumanOS.Base

/-!
# The shadow file

`create_shadow_entry` and `verify_user_password` of `passwd.c`, with the hex functions of
`security.c`. A string is the list of its bytes before the terminating zero. PBKDF2 and the salt are
parameters.
-/

namespace EsdumanOS

def ascii (c : Char) : UInt8 := c.toNat.toUInt8

def asciiText (s : String) : List UInt8 := s.toList.map ascii

/-- A buffer of `n` bytes. -/
abbrev Bytes (n : ℕ) : Type := { l : List UInt8 // l.length = n }

/-- `pbkdf2_hmac_sha256` with password, salt and iterations. -/
abbrev Kdf : Type := List UInt8 → List UInt8 → ℕ → Bytes 32

/-- `hex_chars[n]`. -/
def hexChar (n : UInt8) : UInt8 :=
  if n < 10 then ascii '0' + n else ascii 'a' + (n - 10)

def bytesToHex : List UInt8 → List UInt8
  | [] => []
  | b :: bs => hexChar ((b >>> 4) &&& 0x0F) :: hexChar (b &&& 0x0F) :: bytesToHex bs

def hexNibble (c : UInt8) : Option UInt8 :=
  if ascii '0' ≤ c ∧ c ≤ ascii '9' then some (c - ascii '0')
  else if ascii 'a' ≤ c ∧ c ≤ ascii 'f' then some (c - ascii 'a' + 10)
  else if ascii 'A' ≤ c ∧ c ≤ ascii 'F' then some (c - ascii 'A' + 10)
  else none

/-- `hex_to_bytes`, for `n` bytes. -/
def hexToBytes : ℕ → List UInt8 → Option (List UInt8)
  | 0, _ => some []
  | n + 1, hi :: lo :: rest =>
    match hexNibble hi, hexNibble lo, hexToBytes n rest with
    | some h, some l, some out => some (((h <<< 4) ||| l) :: out)
    | _, _, _ => none
  | _ + 1, _ => none

/-- The decimal digits of a number that has at most `fuel` of them. -/
def decDigits : ℕ → ℕ → List UInt8
  | 0, _ => []
  | fuel + 1, n =>
    if n = 0 then [] else decDigits fuel (n / 10) ++ [ascii '0' + (n % 10).toUInt8]

/-- `uid_to_str`; an `int` has at most ten digits. -/
def uidToStr (uid : ℤ) : List UInt8 :=
  if uid = 0 then [ascii '0'] else decDigits 10 uid.toNat

/-- A `char` is signed. -/
def charValue (c : UInt8) : ℤ :=
  if c < 128 then c.toNat else (c.toNat : ℤ) - 256

/-- The loop that reads the uid back, in an `int`. -/
def readUid (s : List UInt8) : ℤ :=
  s.foldl (fun uid c => (uid * 10 + (charValue c - charValue (ascii '0'))).bmod (2 ^ 32)) 0

section Entry

def pbkdf2DefaultIterations : ℕ := 600000
def pbkdf2MinIterations : ℕ := pbkdf2DefaultIterations
def pbkdf2MaxIterations : ℕ := 10000000

def pbkdf2IterationsAreAcceptable (iterations : ℕ) : Bool :=
  decide (pbkdf2MinIterations ≤ iterations) && decide (iterations ≤ pbkdf2MaxIterations)

def itersText : List UInt8 :=
  if pbkdf2DefaultIterations = 0 then [ascii '0'] else decDigits 10 pbkdf2DefaultIterations

variable (kdf : Kdf)

/-- `create_shadow_entry`; `salt` is what `derive_shadow_salt` has given. -/
def createShadowEntry (salt : Option (Bytes 16)) (username password : List UInt8)
    (uid bufSize : ℤ) :
    Option (List UInt8) :=
  match salt with
  | none => none
  | some salt =>
    let dk := kdf password salt.1 pbkdf2DefaultIterations
    let line := username ++ asciiText ":$v1$" ++ itersText ++ [ascii '$'] ++ bytesToHex salt.1 ++
      [ascii '$'] ++ bytesToHex dk.1 ++ [ascii ':'] ++ uidToStr uid
    if bufSize ≤ line.length then none else some line

end Entry

section Verify

/-- What the scan of a line has collected; `k` of the source is the length of the current field. -/
structure LineFields where
  colon : ℕ
  user : List UInt8
  hash : List UInt8
  uid : List UInt8
  deriving DecidableEq, Repr

def scanChar (f : LineFields) (c : UInt8) : LineFields :=
  if c = ascii ':' then { f with colon := f.colon + 1 }
  else if f.colon = 0 ∧ f.user.length < 31 then { f with user := f.user ++ [c] }
  else if f.colon = 1 ∧ f.hash.length < 149 then { f with hash := f.hash ++ [c] }
  else if f.colon = 2 ∧ f.uid.length < 15 then { f with uid := f.uid ++ [c] }
  else f

/-- The inner loop of `verify_user_password`. -/
def scanLine (line : List UInt8) : LineFields :=
  line.foldl scanChar ⟨0, [], [], []⟩

def readIterations (digits : List UInt8) : Option ℕ :=
  digits.foldl (fun n c => n.bind fun n =>
    if c < ascii '0' ∨ ascii '9' < c then none else some (u32 (n * 10 + (c - ascii '0').toNat)))
    (some 0)

variable (kdf : Kdf)

/-- The check of a line's hash field: whether the key is the one of the password. -/
def checkHash (hash password : List UInt8) : Except Errno Bool :=
  if hash.take 4 ≠ asciiText "$v1$" then .error .inval
  else
    let digits := (hash.drop 4).takeWhile (· ≠ ascii '$')
    match (hash.drop 4).dropWhile (· ≠ ascii '$') with
    | [] => .error .inval
    | _ :: rest =>
      if digits.length = 0 ∨ 8 < digits.length then .error .inval
      else
        match readIterations digits with
        | none => .error .inval
        | some iterations =>
          if !pbkdf2IterationsAreAcceptable iterations then .error .inval
          else
            let saltHex := rest.takeWhile (· ≠ ascii '$')
            match rest.dropWhile (· ≠ ascii '$') with
            | [] => .error .inval
            | _ :: dkHex =>
              if saltHex.length ≠ 32 then .error .inval
              else if dkHex.length ≠ 64 then .error .inval
              else
                match hexToBytes 16 saltHex, hexToBytes 32 dkHex with
                | some salt, some stored =>
                  .ok (decide ((kdf password salt iterations).1 = stored))
                | _, _ => .error .inval

def checkLine (username password line : List UInt8) : Option (Except Errno ℤ) :=
  let f := scanLine line
  if username = f.user then
    some (match checkHash kdf f.hash password with
      | .error e => .error e
      | .ok true => .ok (readUid f.uid)
      | .ok false => .error .acces)
  else none

/-- The loop of `verify_user_password` over the bytes that are left, with the line so far. -/
def verifyLines (username password : List UInt8) : List UInt8 → List UInt8 → Except Errno ℤ
  | line, [] => (checkLine kdf username password line).getD (.error .noent)
  | line, c :: rest =>
    if c = ascii '\n' then
      match checkLine kdf username password line with
      | some r => r
      | none => verifyLines username password [] rest
    else if c = 0 then (checkLine kdf username password line).getD (.error .noent)
    else verifyLines username password (line ++ [c]) rest

/-- What the kernel finds when it looks for `/etc/shadow`. -/
inductive ShadowFile
  | missing
  | unreadable
  | contents (bytes : List UInt8)

def verifyUserPassword (file : ShadowFile) (username password : List UInt8) : Except Errno ℤ :=
  match file with
  | .missing => .error .noent
  | .unreadable => .error .io
  | .contents bytes => verifyLines kdf username password [] (bytes.take 1023)

end Verify

/-- A call of `create_shadow_entry` that has found a salt. -/
structure Account where
  name : List UInt8
  password : List UInt8
  uid : ℤ
  salt : Bytes 16
  bufSize : ℤ

namespace Account

variable (kdf : Kdf) (a : Account)

def entry : Option (List UInt8) :=
  createShadowEntry kdf (some a.salt) a.name a.password a.uid a.bufSize

structure Plain : Prop where
  name : ∀ c ∈ a.name, c ≠ ascii ':' ∧ c ≠ ascii '\n' ∧ c ≠ 0
  uid : 0 ≤ a.uid ∧ a.uid < 2 ^ 31

def Accepts (password : List UInt8) : Prop :=
  kdf password a.salt.1 pbkdf2DefaultIterations = kdf a.password a.salt.1 pbkdf2DefaultIterations

instance (password : List UInt8) : Decidable (a.Accepts kdf password) :=
  inferInstanceAs (Decidable (_ = _))

def keyEnd : ℕ := a.name.length + 109
def lineEnd : ℕ := a.keyEnd + 1 + (uidToStr a.uid).length

/-- The uid as far as it lies in the first `left` bytes of the line. -/
def uidWithin (left : ℕ) : ℤ := readUid ((uidToStr a.uid).take (left - (a.keyEnd + 1)))

end Account

def shadowText (final : Bool) : List (List UInt8) → List UInt8
  | [] => []
  | [line] => if final then line ++ [ascii '\n'] else line
  | line :: lines => line ++ ascii '\n' :: shadowText final lines

def granted (kdf : Kdf) (accounts : List Account) (user password : List UInt8) : Option ℤ :=
  (accounts.find? fun a => decide (a.name = user ∧ a.Accepts kdf password)).map Account.uid

/-- The uid granted by the first line whose name, cut to 31 characters, is the user, if `left` bytes
reach the end of its key. -/
def decided (kdf : Kdf) (user password : List UInt8) : ℕ → List Account → Option ℤ
  | _, [] => none
  | left, a :: as =>
    if a.name.take 31 = user then
      if a.keyEnd ≤ left ∧ a.Accepts kdf password then some (a.uidWithin left) else none
    else if a.lineEnd < left then decided kdf user password (left - (a.lineEnd + 1)) as
    else none

/-- Verification answers with uid `u` just for a line of that user with uid `u` and the key of the
password. -/
def VerifiesExactly (kdf : Kdf) (accounts : List Account) (file : List UInt8)
    (user password : List UInt8) : Prop :=
  ∀ u : ℤ, 0 ≤ u → (verifyUserPassword kdf (.contents file) user password = .ok u ↔
    ∃ a ∈ accounts, a.name = user ∧ a.uid = u ∧ a.Accepts kdf password)

end EsdumanOS
