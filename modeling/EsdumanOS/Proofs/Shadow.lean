import EsdumanOS.Shadow

/-!
# Password verification against the shadow file

The writer is inverted field by field: hex and decimal text read back as what they were written
from, and a line comes apart into its name, its hash and its uid, each cut where the kernel's buffer
ends. Over all lines this gives the line that decides.
-/

namespace EsdumanOS

open List Account

lemma forall_uint8 {p : UInt8 → Prop} (h : ∀ n : Fin 256, p (UInt8.ofNat n)) (b : UInt8) : p b := by
  have hb := h ⟨b.toNat, b.toNat_lt⟩
  rwa [UInt8.ofNat_toNat] at hb

def Clean (c : UInt8) : Prop := c ≠ ascii ':' ∧ c ≠ ascii '$' ∧ c ≠ ascii '\n' ∧ c ≠ 0

instance : DecidablePred Clean := fun _ => inferInstanceAs (Decidable (_ ∧ _))

lemma hexNibble_hexChar : ∀ b : UInt8,
    hexNibble (hexChar ((b >>> 4) &&& 0x0F)) = some ((b >>> 4) &&& 0x0F) ∧
      hexNibble (hexChar (b &&& 0x0F)) = some (b &&& 0x0F) ∧
      (((b >>> 4) &&& 0x0F) <<< 4) ||| (b &&& 0x0F) = b :=
  forall_uint8 (by decide +kernel)

lemma hexChar_clean : ∀ b : UInt8,
    Clean (hexChar ((b >>> 4) &&& 0x0F)) ∧ Clean (hexChar (b &&& 0x0F)) :=
  forall_uint8 (by decide +kernel)

lemma hexToBytes_bytesToHex : ∀ l : List UInt8, hexToBytes l.length (bytesToHex l) = some l
  | [] => rfl
  | b :: bs => by
    obtain ⟨hhi, hlo, hb⟩ := hexNibble_hexChar b
    simp [bytesToHex, hexToBytes, hhi, hlo, hexToBytes_bytesToHex bs, hb]

@[simp] lemma length_bytesToHex : ∀ l : List UInt8, (bytesToHex l).length = 2 * l.length
  | [] => rfl
  | b :: bs => by
    simp [bytesToHex, length_bytesToHex bs]
    omega

lemma bytesToHex_clean : ∀ l : List UInt8, ∀ c ∈ bytesToHex l, Clean c
  | [], c, hc => absurd hc (by simp [bytesToHex])
  | b :: bs, c, hc => by
    simp only [bytesToHex, mem_cons] at hc
    rcases hc with rfl | rfl | hc
    · exact (hexChar_clean b).1
    · exact (hexChar_clean b).2
    · exact bytesToHex_clean bs c hc

lemma digit_spec : ∀ k : Fin 10, Clean (ascii '0' + (k : ℕ).toUInt8) ∧
    charValue (ascii '0' + (k : ℕ).toUInt8) - charValue (ascii '0') = (k : ℕ) := by
  decide

lemma digit_value {k : ℕ} (hk : k < 10) :
    charValue (ascii '0' + k.toUInt8) - charValue (ascii '0') = k :=
  (digit_spec ⟨k, hk⟩).2

lemma decDigits_clean : ∀ (fuel n : ℕ), ∀ c ∈ decDigits fuel n, Clean c
  | 0, _, c, hc => absurd hc (by simp [decDigits])
  | fuel + 1, n, c, hc => by
    unfold decDigits at hc
    split_ifs at hc with hn
    · exact absurd hc (by simp)
    · rcases mem_append.1 hc with hc | hc
      · exact decDigits_clean fuel (n / 10) c hc
      · rw [mem_singleton.1 hc]
        exact (digit_spec ⟨n % 10, Nat.mod_lt _ (by decide)⟩).1

lemma length_decDigits_le : ∀ (fuel n : ℕ), (decDigits fuel n).length ≤ fuel
  | 0, _ => le_rfl
  | fuel + 1, n => by
    have := length_decDigits_le fuel (n / 10)
    unfold decDigits
    split_ifs
    · simp
    · simpa using this

lemma readUid_append (s : List UInt8) {k : ℕ} (hk : k < 10) :
    readUid (s ++ [ascii '0' + k.toUInt8]) = (readUid s * 10 + k).bmod (2 ^ 32) := by
  unfold readUid
  rw [foldl_append, foldl_cons, foldl_nil, digit_value hk]

lemma readUid_decDigits : ∀ (fuel n : ℕ), n < 10 ^ fuel → n < 2 ^ 31 →
    readUid (decDigits fuel n) = n
  | 0, n, hn, _ => by
    obtain rfl : n = 0 := by simpa using hn
    rfl
  | fuel + 1, n, hn, hi => by
    unfold decDigits
    split_ifs with hz
    · rw [hz]
      rfl
    · have hr : n / 10 < 10 ^ fuel := Nat.div_lt_of_lt_mul (by rwa [pow_succ'] at hn)
      rw [readUid_append _ (Nat.mod_lt _ (by decide)), readUid_decDigits fuel _ hr (by omega),
        Int.bmod_eq_of_le (by omega) (by omega)]
      omega

lemma readUid_take : ∀ (fuel n k : ℕ), n < 10 ^ fuel → n < 2 ^ 31 →
    0 ≤ readUid ((decDigits fuel n).take k) ∧ readUid ((decDigits fuel n).take k) ≤ n
  | 0, n, k, _, _ => by
    simp [decDigits, readUid]
  | fuel + 1, n, k, hn, hi => by
    have hw := readUid_decDigits (fuel + 1) n hn hi
    by_cases hk : (decDigits (fuel + 1) n).length ≤ k
    · rw [take_of_length_le hk, hw]
      omega
    · unfold decDigits at hk ⊢
      split_ifs at hk ⊢ with hz
      · exact absurd (Nat.zero_le k) hk
      · have hr : n / 10 < 10 ^ fuel := Nat.div_lt_of_lt_mul (by rwa [pow_succ'] at hn)
        have hc := readUid_take fuel (n / 10) k hr (by omega)
        rw [take_append_of_le_length (by simpa using hk)]
        omega

lemma uidToStr_clean (uid : ℤ) : ∀ c ∈ uidToStr uid, Clean c := by
  intro c hc
  unfold uidToStr at hc
  split_ifs at hc
  · rw [mem_singleton.1 hc]
    decide
  · exact decDigits_clean _ _ c hc

lemma length_uidToStr_le (uid : ℤ) : (uidToStr uid).length ≤ 10 := by
  unfold uidToStr
  split_ifs
  · decide
  · exact length_decDigits_le 10 _

lemma readUid_uidToStr {uid : ℤ} (h : 0 ≤ uid) (hi : uid < 2 ^ 31) :
    readUid (uidToStr uid) = uid := by
  unfold uidToStr
  split_ifs with hz
  · rw [hz]
    decide
  · rw [readUid_decDigits 10 _ (by omega) (by omega), Int.toNat_of_nonneg h]

lemma readUid_take_uidToStr {uid : ℤ} (h : 0 ≤ uid) (hi : uid < 2 ^ 31) (k : ℕ) :
    0 ≤ readUid ((uidToStr uid).take k) := by
  unfold uidToStr
  split_ifs
  · cases k <;> simp [readUid, charValue, ascii]
  · exact (readUid_take 10 _ k (by omega) (by omega)).1

section Scan

lemma foldl_scanChar (put : List UInt8 → LineFields) {cap : ℕ}
    (hp : ∀ x c, c ≠ ascii ':' →
      scanChar (put x) c = put (if x.length < cap then x ++ [c] else x)) :
    ∀ (cs x : List UInt8), (∀ c ∈ cs, c ≠ ascii ':') → x.length ≤ cap →
      cs.foldl scanChar (put x) = put ((x ++ cs).take cap)
  | [], x, _, hx => by rw [append_nil, take_of_length_le hx]; rfl
  | c :: cs, x, hc, hx => by
    rw [foldl_cons, hp x c (hc c mem_cons_self)]
    have hr : ∀ d ∈ cs, d ≠ ascii ':' := fun d hd => hc d (mem_cons_of_mem c hd)
    split_ifs with hro
    · rw [foldl_scanChar put hp cs _ hr (by simpa using hro), append_assoc, singleton_append]
    · have hf : x.length = cap := by omega
      rw [foldl_scanChar put hp cs x hr hx, take_append_of_le_length hf.ge,
        take_append_of_le_length hf.ge]

variable {name hash uid : List UInt8}

section

variable (hname : ∀ c ∈ name, c ≠ ascii ':')
include hname

lemma scanLine_name : scanLine name = ⟨0, name.take 31, [], []⟩ := by
  refine (foldl_scanChar (fun x => ⟨0, x, [], []⟩) (fun x c hc => ?_) name [] hname
    (Nat.zero_le _)).trans (by rw [nil_append])
  unfold scanChar
  split_ifs <;> simp_all

lemma scanLine_hash (hh : ∀ c ∈ hash, c ≠ ascii ':') :
    scanLine (name ++ ascii ':' :: hash) = ⟨1, name.take 31, hash.take 149, []⟩ := by
  have hf := scanLine_name hname
  unfold scanLine at hf ⊢
  rw [foldl_append, hf, foldl_cons]
  refine (foldl_scanChar (fun x => ⟨1, name.take 31, x, []⟩) (fun x c hc => ?_) hash []
    hh (Nat.zero_le _)).trans (by rw [nil_append])
  unfold scanChar
  split_ifs <;> simp_all

lemma scanLine_uid (hh : ∀ c ∈ hash, c ≠ ascii ':') (hu : ∀ c ∈ uid, c ≠ ascii ':') :
    scanLine (name ++ ascii ':' :: (hash ++ ascii ':' :: uid)) =
      ⟨2, name.take 31, hash.take 149, uid.take 15⟩ := by
  have hf := scanLine_hash hname hh
  unfold scanLine at hf ⊢
  rw [← cons_append, ← append_assoc, foldl_append, hf, foldl_cons]
  refine (foldl_scanChar (fun x => ⟨2, name.take 31, hash.take 149, x⟩) (fun x c hc => ?_)
    uid [] hu (Nat.zero_le _)).trans (by rw [nil_append])
  unfold scanChar
  split_ifs <;> simp_all

end

end Scan

section Hash

variable {kdf : Kdf} {password : List UInt8}

lemma takeWhile_dollar {x y : List UInt8} (hx : ∀ c ∈ x, Clean c) :
    (x ++ ascii '$' :: y).takeWhile (· ≠ ascii '$') = x := by
  rw [takeWhile_append_of_pos fun c hc => by simpa using (hx c hc).2.1,
    takeWhile_cons_of_neg (by simp), append_nil]

lemma dropWhile_dollar {x y : List UInt8} (hx : ∀ c ∈ x, Clean c) :
    (x ++ ascii '$' :: y).dropWhile (· ≠ ascii '$') = ascii '$' :: y := by
  rw [dropWhile_append_of_pos fun c hc => by simpa using (hx c hc).2.1,
    dropWhile_cons_of_neg (by simp)]

def hashText (salt : Bytes 16) (key : Bytes 32) : List UInt8 :=
  asciiText "$v1$" ++ (itersText ++ ascii '$' :: (bytesToHex salt.1 ++
    ascii '$' :: bytesToHex key.1))

lemma itersText_clean : ∀ c ∈ itersText, Clean c := by
  unfold itersText
  exact decDigits_clean _ _

lemma length_hashText (salt : Bytes 16) (key : Bytes 32) : (hashText salt key).length = 108 := by
  have hi : itersText.length = 6 := by decide
  have hv : (asciiText "$v1$").length = 4 := by decide
  simp [hashText, salt.2, key.2, hi, hv]

lemma hashText_ne_colon (salt : Bytes 16) (key : Bytes 32) :
    ∀ c ∈ hashText salt key, c ≠ ascii ':' ∧ c ≠ ascii '\n' ∧ c ≠ 0 := by
  intro c hc
  have hcl : ∀ c, Clean c → c ≠ ascii ':' ∧ c ≠ ascii '\n' ∧ c ≠ 0 := fun c h => ⟨h.1, h.2.2⟩
  have hv : ∀ c ∈ asciiText "$v1$", c ≠ ascii ':' ∧ c ≠ ascii '\n' ∧ c ≠ 0 := by
    simp [asciiText, ascii]
  have hd : ascii '$' ≠ ascii ':' ∧ ascii '$' ≠ ascii '\n' ∧ ascii '$' ≠ 0 := by decide
  simp only [hashText, mem_append, mem_cons] at hc
  rcases hc with hc | hc | rfl | hc | rfl | hc
  · exact hv c hc
  · exact hcl c (itersText_clean c hc)
  · exact hd
  · exact hcl c (bytesToHex_clean _ c hc)
  · exact hd
  · exact hcl c (bytesToHex_clean _ c hc)

lemma checkHash_hashText (salt : Bytes 16) (key : Bytes 32) :
    checkHash kdf (hashText salt key) password =
      .ok (decide (kdf password salt.1 pbkdf2DefaultIterations = key)) := by
  have hv : (asciiText "$v1$").length = 4 := by decide
  have ht : (hashText salt key).take 4 = asciiText "$v1$" := by
    unfold hashText
    rw [← hv, take_left]
  have hd : (hashText salt key).drop 4 = itersText ++ ascii '$' :: (bytesToHex salt.1 ++
      ascii '$' :: bytesToHex key.1) := by
    unfold hashText
    rw [← hv, drop_left]
  have hl : ¬ (itersText.length = 0 ∨ 8 < itersText.length) := by decide
  have hr : readIterations itersText = some pbkdf2DefaultIterations := by decide
  have ha : pbkdf2IterationsAreAcceptable pbkdf2DefaultIterations = true := by decide
  have hs : hexToBytes 16 (bytesToHex salt.1) = some salt.1 := by
    have := hexToBytes_bytesToHex salt.1
    rwa [salt.2] at this
  have hk : hexToBytes 32 (bytesToHex key.1) = some key.1 := by
    have := hexToBytes_bytesToHex key.1
    rwa [key.2] at this
  unfold checkHash
  rw [if_neg (not_not.2 ht), hd, takeWhile_dollar itersText_clean, dropWhile_dollar itersText_clean]
  dsimp only
  rw [if_neg hl, hr]
  dsimp only
  rw [ha, takeWhile_dollar (bytesToHex_clean _), dropWhile_dollar (bytesToHex_clean _)]
  simp [salt.2, key.2, hs, hk, Subtype.ext_iff]

lemma checkHash_ok {hash : List UInt8} {b : Bool} (h : checkHash kdf hash password = .ok b) :
    hash.length = 102 + ((hash.drop 4).takeWhile (· ≠ ascii '$')).length ∧
      (hash.drop 4).dropWhile (· ≠ ascii '$') ≠ [] := by
  unfold checkHash at h
  split_ifs at h with hv
  · have hsum := congrArg length
      (takeWhile_append_dropWhile (p := (· ≠ ascii '$')) (l := hash.drop 4))
    rw [length_append, length_drop] at hsum
    dsimp only at h
    split at h
    · exact absurd h (by simp)
    next x rest hr =>
      refine ⟨?_, by rw [hr]; simp⟩
      rw [hr, length_cons] at hsum
      split at h
      · exact absurd h (by simp)
      split at h
      · exact absurd h (by simp)
      split at h
      · exact absurd h (by simp)
      split at h
      · exact absurd h (by simp)
      next y dkHex hd =>
        have hs' := congrArg length
          (takeWhile_append_dropWhile (p := (· ≠ ascii '$')) (l := rest))
        rw [hd, length_append, length_cons] at hs'
        split_ifs at h with hs hk
        omega

lemma checkHash_cut (kdf : Kdf) (password : List UInt8) (salt : Bytes 16) (key : Bytes 32) {j : ℕ}
    (hj : j < 108) (b : Bool) :
    checkHash kdf ((hashText salt key).take j) password ≠ .ok b := by
  intro h
  obtain ⟨hl, hr⟩ := checkHash_ok h
  rw [length_take, length_hashText] at hl
  -- the digits before the next dollar are those of the whole field
  have hd : (((hashText salt key).take j).drop 4).takeWhile (· ≠ ascii '$') = itersText := by
    have hw : ((hashText salt key).drop 4).takeWhile (· ≠ ascii '$') = itersText := by
      unfold hashText
      rw [show (4 : ℕ) = (asciiText "$v1$").length by decide, drop_left,
        takeWhile_dollar itersText_clean]
    have hs : (hashText salt key).drop 4 = ((hashText salt key).take j).drop 4 ++
        ((hashText salt key).drop 4).drop (j - 4) := by
      rw [drop_take, take_append_drop]
    rw [← hw]
    conv_rhs => rw [hs]
    rw [takeWhile_append, if_neg]
    intro ha
    have hsum := congrArg length
      (takeWhile_append_dropWhile (p := (· ≠ ascii '$')) (l := ((hashText salt key).take j).drop 4))
    rw [length_append, ha] at hsum
    exact hr (length_eq_zero_iff.1 (by omega))
  rw [hd, show itersText.length = 6 by decide] at hl
  omega

end Hash

section Line

variable {kdf : Kdf} {user password text : List UInt8} {a : Account} {u : ℤ}

def Account.hash (kdf : Kdf) (a : Account) : List UInt8 :=
  hashText a.salt (kdf a.password a.salt.1 pbkdf2DefaultIterations)

lemma Account.length_hash (kdf : Kdf) (a : Account) : (a.hash kdf).length = 108 :=
  length_hashText _ _

lemma Account.hash_ne_colon (kdf : Kdf) (a : Account) : ∀ c ∈ a.hash kdf, c ≠ ascii ':' :=
  fun c hc => (hashText_ne_colon _ _ c hc).1

def Account.line (kdf : Kdf) (a : Account) : List UInt8 :=
  a.name ++ ascii ':' :: (a.hash kdf ++ ascii ':' :: uidToStr a.uid)

lemma Account.entry_eq (h : a.entry kdf = some text) : text = a.line kdf := by
  unfold entry createShadowEntry at h
  dsimp only at h
  split_ifs at h
  obtain rfl := Option.some.inj h
  have hv : asciiText ":$v1$" = ascii ':' :: asciiText "$v1$" := by decide
  simp [line, hash, hashText, hv]

lemma Account.length_line (kdf : Kdf) (a : Account) : (a.line kdf).length = a.lineEnd := by
  simp [line, lineEnd, keyEnd, length_hash]
  omega

lemma checkLine_fields {f : LineFields} (h : scanLine text = f) :
    checkLine kdf user password text = some (.ok u) ↔
      user = f.user ∧ checkHash kdf f.hash password = .ok true ∧ readUid f.uid = u := by
  unfold checkLine
  rw [h]
  by_cases hu : user = f.user
  · rw [if_pos hu]
    rcases checkHash kdf f.hash password with e | _ | _ <;> simp [hu]
  · rw [if_neg hu]
    simp [hu]

lemma checkLine_eq_none {f : LineFields} (h : scanLine text = f) :
    checkLine kdf user password text = none ↔ user ≠ f.user := by
  unfold checkLine
  rw [h]
  simp

lemma Account.take_line (kdf : Kdf) (a : Account) (left : ℕ) :
    (a.line kdf).take left =
      if left ≤ a.name.length then a.name.take left
      else if left ≤ a.keyEnd then
        a.name ++ ascii ':' :: (a.hash kdf).take (left - (a.name.length + 1))
      else
        a.name ++ ascii ':' :: (a.hash kdf ++
          ascii ':' :: (uidToStr a.uid).take (left - (a.keyEnd + 1))) := by
  have hl := a.length_hash kdf
  unfold line keyEnd
  split_ifs with hname hk
  · exact take_append_of_le_length hname
  · obtain ⟨j, rfl⟩ := Nat.exists_eq_add_of_lt (not_le.1 hname)
    rw [take_append, take_of_length_le (by omega),
      show a.name.length + j + 1 - a.name.length = j + 1 by omega, take_succ_cons,
      take_append_of_le_length (by omega), show a.name.length + j + 1 - (a.name.length + 1) = j
      by omega]
  · obtain ⟨j, rfl⟩ := Nat.exists_eq_add_of_lt (not_le.1 hk)
    rw [take_append, take_of_length_le (by omega),
      show a.name.length + 109 + j + 1 - a.name.length = (109 + j) + 1 by omega,
      take_succ_cons, take_append, take_of_length_le (by omega), hl,
      show 109 + j - 108 = j + 1 by omega, take_succ_cons,
      show a.name.length + 109 + j + 1 - (a.name.length + 109 + 1) = j by omega]

lemma Account.Plain.uid_take (h : a.Plain) (left : ℕ) : 0 ≤ a.uidWithin left :=
  readUid_take_uidToStr h.uid.1 h.uid.2 _

lemma Account.uidWithin_line (h : a.Plain) {left : ℕ} (hl : a.lineEnd ≤ left) :
    a.uidWithin left = a.uid := by
  unfold lineEnd at hl
  unfold uidWithin
  rw [take_of_length_le (by omega)]
  exact readUid_uidToStr h.uid.1 h.uid.2

lemma checkLine_take (kdf : Kdf) (user password : List UInt8) (u : ℤ) (h : a.Plain) (left : ℕ) :
    checkLine kdf user password ((a.line kdf).take left) = some (.ok u) ↔
      a.name.take 31 = user ∧ a.keyEnd ≤ left ∧ a.Accepts kdf password ∧ a.uidWithin left = u := by
  have hname : ∀ c ∈ a.name, c ≠ ascii ':' := fun c hc => (h.name c hc).1
  have hl := a.length_hash kdf
  have hh := a.hash_ne_colon kdf
  have hu := length_uidToStr_le a.uid
  have hch : checkHash kdf (a.hash kdf) password = .ok true ↔ a.Accepts kdf password := by
    rw [Account.hash, checkHash_hashText]
    simp [Account.Accepts]
  rw [take_line]
  split_ifs with hcu hk
  · -- the line ends within the name: there is no hash to check
    rw [checkLine_fields (scanLine_name fun c hc => hname c (mem_of_mem_take hc))]
    have he : checkHash kdf [] password ≠ .ok true := by
      simp [checkHash, asciiText]
    have hno : ¬ a.keyEnd ≤ left := by
      unfold keyEnd
      omega
    simp [he, hno]
  · rw [checkLine_fields (scanLine_hash hname fun c hc => hh c (mem_of_mem_take hc))]
    rw [take_take, show min 149 (left - (a.name.length + 1)) = left - (a.name.length + 1) by
      unfold keyEnd at hk
      omega]
    by_cases hf : a.keyEnd ≤ left
    · have hj : left - (a.name.length + 1) = 108 := by
        unfold keyEnd at *
        omega
      have hn : a.uidWithin left = readUid [] := by
        unfold uidWithin
        rw [show left - (a.keyEnd + 1) = 0 by omega, take_zero]
      rw [hj, ← hl, take_length, hch, hn]
      simp [hf, eq_comm]
    · have hj : left - (a.name.length + 1) < 108 := by
        unfold keyEnd at *
        omega
      have hb : checkHash kdf ((a.hash kdf).take _) password ≠ _ := checkHash_cut _ _ _ _ hj true
      simp [hb, hf]
  · have hco : ∀ c ∈ (uidToStr a.uid).take (left - (a.keyEnd + 1)), c ≠ ascii ':' :=
      fun c hc => (uidToStr_clean a.uid c (mem_of_mem_take hc)).1
    have hfi : ((uidToStr a.uid).take (left - (a.keyEnd + 1))).take 15 =
        (uidToStr a.uid).take (left - (a.keyEnd + 1)) :=
      take_of_length_le (by rw [length_take]; omega)
    have hr : a.keyEnd ≤ left := by omega
    rw [checkLine_fields (scanLine_uid hname hh hco)]
    rw [hfi, take_of_length_le (show _ ≤ 149 by omega), hch]
    simp [hr, uidWithin, eq_comm]

lemma checkLine_line_none (kdf : Kdf) (user password : List UInt8) (h : a.Plain) :
    checkLine kdf user password (a.line kdf) = none ↔ a.name.take 31 ≠ user := by
  unfold line
  rw [checkLine_eq_none (scanLine_uid (fun c hc => (h.name c hc).1) (a.hash_ne_colon kdf)
    fun c hc => (uidToStr_clean a.uid c hc).1)]
  exact ne_comm

lemma Account.line_clean (kdf : Kdf) (h : a.Plain) :
    ∀ c ∈ a.line kdf, c ≠ ascii '\n' ∧ c ≠ 0 := by
  intro c hc
  have hco : ascii ':' ≠ ascii '\n' ∧ ascii ':' ≠ 0 := by decide
  simp only [line, mem_append, mem_cons] at hc
  rcases hc with hc | rfl | hc | rfl | hc
  · exact (h.name c hc).2
  · exact hco
  · exact (hashText_ne_colon _ _ c hc).2
  · exact hco
  · exact (uidToStr_clean a.uid c hc).2.2

end Line

section File

variable {kdf : Kdf} {user password : List UInt8} {u : ℤ}

lemma verifyLines_append (kdf : Kdf) (user password : List UInt8) {cs : List UInt8}
    (hc : ∀ c ∈ cs, c ≠ ascii '\n' ∧ c ≠ 0) :
    ∀ line rest, verifyLines kdf user password line (cs ++ rest) =
    verifyLines kdf user password (line ++ cs) rest := by
  induction cs with
  | nil =>
    intro line rest
    rw [nil_append, append_nil]
  | cons c cs ih =>
    intro line rest
    obtain ⟨hl, hz⟩ := hc c mem_cons_self
    rw [cons_append, verifyLines, if_neg hl, if_neg hz,
      ih fun d hd => hc d (mem_cons_of_mem c hd), append_assoc, singleton_append]

lemma getD_eq_ok {r : Option (Except Errno ℤ)} :
    r.getD (.error .noent) = .ok u ↔ r = some (.ok u) := by
  cases r <;> simp

lemma verifyLines_last {cs : List UInt8} (hc : ∀ c ∈ cs, c ≠ ascii '\n' ∧ c ≠ 0) :
    verifyLines kdf user password [] cs = .ok u ↔
      checkLine kdf user password cs = some (.ok u) := by
  have hr := verifyLines_append kdf user password hc [] []
  rw [append_nil, nil_append] at hr
  rw [hr, verifyLines, getD_eq_ok]

lemma shadowText_cons (final : Bool) (line : List UInt8) (lines : List (List UInt8)) :
    shadowText final (line :: lines) = line ∧ lines = [] ∨
      shadowText final (line :: lines) = line ++ ascii '\n' :: shadowText final lines := by
  cases lines with
  | nil =>
    cases final with
    | false => exact .inl ⟨rfl, rfl⟩
    | true => exact .inr rfl
  | cons next lines => exact .inr rfl

/-- The character loop decides as the list of accounts does. -/
lemma verifyLines_shadowText (final : Bool) : ∀ (accounts : List Account) (left : ℕ),
    (∀ a ∈ accounts, a.Plain) →
    (verifyLines kdf user password []
        ((shadowText final (accounts.map (line kdf))).take left) = .ok u ↔
      decided kdf user password left accounts = some u)
  | [], left, _ => by
    have he : checkLine kdf user password [] ≠ some (.ok u) := by
      rw [Ne, checkLine_fields rfl]
      simp [scanLine, checkHash, asciiText]
    simp [shadowText, verifyLines_last, he, decided]
  | a :: as, left, h => by
    have ha := h a mem_cons_self
    have hl := length_line kdf a
    have hcl := line_clean kdf ha
    have ih := verifyLines_shadowText final as (left - (a.lineEnd + 1))
      fun b hb => h b (mem_cons_of_mem a hb)
    have hw := checkLine_take kdf user password u ha left
    rw [map_cons, decided]
    by_cases hcu : left ≤ a.lineEnd
    · -- the file, as far as it was read, ends within this line
      have ht : (shadowText final (a.line kdf :: as.map (line kdf))).take left =
          (a.line kdf).take left := by
        rcases shadowText_cons final (a.line kdf) (as.map (line kdf)) with ⟨heq, -⟩ | heq
        · rw [heq]
        · rw [heq, take_append_of_le_length (by omega)]
      rw [ht, verifyLines_last fun c hc => hcl c (mem_of_mem_take hc), hw]
      split_ifs with hu hk hm
      · simp [hu, hk]
      · simp only [hu, true_and, iff_false]
        exact fun hal => hk ⟨hal.1, hal.2.1⟩
      · omega
      · simp [hu]
    · have ht : (a.line kdf).take left = a.line kdf := take_of_length_le (by omega)
      have hk : a.keyEnd ≤ left := by
        unfold lineEnd at hcu
        omega
      rw [ht] at hw
      have hn := checkLine_line_none kdf user password ha
      rcases shadowText_cons final (a.line kdf) (as.map (line kdf)) with ⟨heq, hni⟩ | heq
      · obtain rfl : as = [] := map_eq_nil_iff.1 hni
        rw [heq, ht, verifyLines_last hcl, hw]
        split_ifs with hu hac hm
        · simp [hu, hac]
        · simp only [hu, hk, true_and, iff_false]
          exact fun hal => hac ⟨hk, hal.1⟩
        · simp [hu, decided]
        · simp [hu]
      · have hre : (a.line kdf ++ ascii '\n' :: shadowText final (as.map (line kdf))).take
            left = a.line kdf ++ ascii '\n' ::
              (shadowText final (as.map (line kdf))).take (left - (a.lineEnd + 1)) := by
          rw [take_append, ht, hl, show left - a.lineEnd = (left - (a.lineEnd + 1)) + 1 by
            omega, take_succ_cons]
        rw [heq, hre, verifyLines_append kdf user password hcl, nil_append, verifyLines, if_pos rfl]
        split_ifs with hu hac hm
        · cases hres : checkLine kdf user password (a.line kdf) with
          | none => exact absurd hu (hn.1 hres)
          | some r =>
            rw [hres] at hw
            simpa [hu, hac] using hw
        · cases hres : checkLine kdf user password (a.line kdf) with
          | none => exact absurd hu (hn.1 hres)
          | some r =>
            rw [hres] at hw
            simp only [Option.some.injEq] at hw
            simp only [hw, hu, hk, true_and, iff_false]
            exact fun hal => hac ⟨hk, hal.1⟩
        · rw [hn.2 hu]
          exact ih
        · omega

lemma granted_eq_some {accounts : List Account} (hd : (accounts.map name).Nodup) :
    granted kdf accounts user password = some u ↔
      ∃ a ∈ accounts, a.name = user ∧ a.uid = u ∧ a.Accepts kdf password := by
  unfold granted
  rw [Option.map_eq_some_iff]
  constructor
  · rintro ⟨a, hf, rfl⟩
    have hp := find?_some hf
    simp only [decide_eq_true_eq] at hp
    exact ⟨a, mem_of_find?_eq_some hf, hp.1, rfl, hp.2⟩
  · rintro ⟨a, ha, hname, hu, hac⟩
    have hs : (accounts.find? fun a => decide (a.name = user ∧ a.Accepts kdf password)).isSome :=
      find?_isSome.2 ⟨a, ha, by simp [hname, hac]⟩
    obtain ⟨b, hb⟩ := Option.isSome_iff_exists.1 hs
    have hp := find?_some hb
    simp only [decide_eq_true_eq] at hp
    obtain rfl : b = a := inj_on_of_nodup_map hd (mem_of_find?_eq_some hb) ha
      (hp.1.trans hname.symm)
    exact ⟨b, hb, hu⟩

lemma decided_nonneg : ∀ (accounts : List Account) (left : ℕ), (∀ a ∈ accounts, a.Plain) →
    decided kdf user password left accounts = some u → 0 ≤ u
  | [], _, _, h => absurd h (by simp [decided])
  | a :: as, left, hp, h => by
    unfold decided at h
    split_ifs at h
    · obtain rfl := Option.some.inj h
      exact (hp a mem_cons_self).uid_take left
    · exact decided_nonneg as _ (fun b hb => hp b (mem_cons_of_mem a hb)) h

lemma decided_eq_granted : ∀ (accounts : List Account) (left : ℕ), (∀ a ∈ accounts, a.Plain) →
    (accounts.map name).Nodup → (∀ a ∈ accounts, a.name.length ≤ 31) →
    (shadowText false (accounts.map (line kdf))).length ≤ left →
    decided kdf user password left accounts = granted kdf accounts user password
  | [], _, _, _, _, _ => rfl
  | a :: as, left, hp, hd, hs, hf => by
    have hle := length_line kdf a
    have hname : a.name.take 31 = a.name := take_of_length_le (hs a mem_cons_self)
    rw [map_cons, nodup_cons] at hd
    have hli : a.lineEnd ≤ left ∧ (a.lineEnd < left ∨ as = []) ∧
        (shadowText false (as.map (line kdf))).length ≤ left - (a.lineEnd + 1) := by
      rw [map_cons] at hf
      rcases shadowText_cons false (a.line kdf) (as.map (line kdf)) with ⟨heq, hn⟩ | heq
      · rw [heq] at hf
        obtain rfl : as = [] := map_eq_nil_iff.1 hn
        exact ⟨by omega, .inr rfl, by simp [shadowText]⟩
      · rw [heq, length_append, length_cons] at hf
        omega
    obtain ⟨hl, hm, hr⟩ := hli
    have hk : a.keyEnd ≤ left := by
      unfold lineEnd at hl
      omega
    unfold decided granted
    rw [hname, find?_cons]
    by_cases hu : a.name = user
    · rw [if_pos hu]
      by_cases ha : a.Accepts kdf password
      · rw [if_pos ⟨hk, ha⟩, decide_eq_true ⟨hu, ha⟩]
        exact congrArg some (uidWithin_line (hp a mem_cons_self) hl)
      · rw [if_neg fun h => ha h.2, decide_eq_false fun h => ha h.2]
        refine (Option.map_eq_none_iff.2 (find?_eq_none.2 fun b hb => ?_)).symm
        -- the name is taken, so no other line has it
        have hne : b.name ≠ user := fun hb' =>
          hd.1 (hu ▸ hb' ▸ mem_map_of_mem hb)
        simp [hne]
    · rw [if_neg hu, decide_eq_false fun h => hu h.1]
      rcases hm with hm | rfl
      · rw [if_pos hm]
        exact decided_eq_granted as _ (fun b hb => hp b (mem_cons_of_mem a hb)) hd.2
          (fun b hb => hs b (mem_cons_of_mem a hb)) hr
      · split_ifs <;> rfl

/-- Verification is exact just when the line that decides and the line of the user grant the
same. -/
theorem verifyUserPassword_exact_iff (kdf : Kdf) (accounts : List Account)
    (lines : List (List UInt8)) (final : Bool)
    (hentries : accounts.map (entry kdf) = lines.map some)
    (hplain : ∀ a ∈ accounts, a.Plain) (hdistinct : (accounts.map name).Nodup)
    (user password : List UInt8) :
    VerifiesExactly kdf accounts (shadowText final lines) user password ↔
      decided kdf user password 1023 accounts = granted kdf accounts user password := by
  have hlines : lines = accounts.map (line kdf) := by
    refine ext_getElem? fun i => ?_
    have hi := congrArg (·[i]?) hentries
    rcases hget : accounts[i]? with _ | a <;> rcases hline : lines[i]? with _ | line <;>
      simp [hget, hline] at hi ⊢
    exact entry_eq hi
  have hverify : ∀ u, verifyUserPassword kdf (.contents (shadowText final lines)) user password =
      .ok u ↔ decided kdf user password 1023 accounts = some u := fun u => by
    rw [hlines]
    exact verifyLines_shadowText final accounts 1023 hplain
  unfold VerifiesExactly
  simp only [hverify, ← granted_eq_some hdistinct]
  refine ⟨fun h => Option.ext fun u => ?_, fun h u _ => by rw [h]⟩
  by_cases hu : 0 ≤ u
  · exact h u hu
  · refine ⟨fun hd => absurd (decided_nonneg accounts 1023 hplain hd) hu, fun hg => ?_⟩
    obtain ⟨a, ha, -, huid, -⟩ := (granted_eq_some hdistinct).1 hg
    exact absurd (huid ▸ (hplain a ha).uid.1) hu

def sampleKdf : Kdf := fun password _ _ =>
  ⟨(password ++ replicate 32 0).take 32, by simp⟩

def sampleSalt : Bytes 16 := ⟨replicate 16 0xA5, rfl⟩

def sampleAccount (name : List UInt8) (uid : ℤ) : Account :=
  ⟨name, asciiText "secret", uid, sampleSalt, 512⟩

def sampleAccounts : List Account :=
  [sampleAccount (asciiText "root") 0, sampleAccount (asciiText "esduman") 1000]

theorem verifyUserPassword_exact_sample :
    sampleAccounts.map (entry sampleKdf) =
        (sampleAccounts.map (line sampleKdf)).map some ∧
      (∀ a ∈ sampleAccounts, a.Plain) ∧ (sampleAccounts.map name).Nodup ∧
      VerifiesExactly sampleKdf sampleAccounts
        (shadowText true (sampleAccounts.map (line sampleKdf))) (asciiText "esduman")
        (asciiText "secret") := by
  have hentries : sampleAccounts.map (entry sampleKdf) =
      (sampleAccounts.map (line sampleKdf)).map some := by decide +kernel
  have hplain : ∀ a ∈ sampleAccounts, a.Plain := by
    intro a ha
    simp only [sampleAccounts, mem_cons, not_mem_nil, or_false] at ha
    rcases ha with rfl | rfl
    · exact ⟨by simp [sampleAccount, asciiText, ascii], by simp [sampleAccount]⟩
    · exact ⟨by simp [sampleAccount, asciiText, ascii], by simp [sampleAccount]⟩
  have hdistinct : (sampleAccounts.map name).Nodup := by decide
  exact ⟨hentries, hplain, hdistinct, (verifyUserPassword_exact_iff sampleKdf sampleAccounts _ true
    hentries hplain hdistinct _ _).2
      (decided_eq_granted _ _ hplain hdistinct (by decide) (by decide +kernel))⟩

/-- A name of 32 characters: the account is not found, and its first 31 characters are. -/
theorem verifyUserPassword_cuts_name :
    (sampleAccount (replicate 32 (ascii 'a')) 1000).entry sampleKdf =
        some ((sampleAccount (replicate 32 (ascii 'a')) 1000).line sampleKdf) ∧
      ¬ VerifiesExactly sampleKdf [sampleAccount (replicate 32 (ascii 'a')) 1000]
        (shadowText true [(sampleAccount (replicate 32 (ascii 'a')) 1000).line sampleKdf])
        (replicate 32 (ascii 'a')) (asciiText "secret") ∧
      ¬ VerifiesExactly sampleKdf [sampleAccount (replicate 32 (ascii 'a')) 1000]
        (shadowText true [(sampleAccount (replicate 32 (ascii 'a')) 1000).line sampleKdf])
        (replicate 31 (ascii 'a')) (asciiText "secret") := by
  have hlost : verifyUserPassword sampleKdf (.contents (shadowText true
      [(sampleAccount (replicate 32 (ascii 'a')) 1000).line sampleKdf]))
      (replicate 32 (ascii 'a')) (asciiText "secret") = .error .noent := by decide +kernel
  have hfound : verifyUserPassword sampleKdf (.contents (shadowText true
      [(sampleAccount (replicate 32 (ascii 'a')) 1000).line sampleKdf]))
      (replicate 31 (ascii 'a')) (asciiText "secret") = .ok 1000 := by decide +kernel
  refine ⟨by decide +kernel, fun h => ?_, fun h => ?_⟩
  · have hexpected := (h 1000 (by decide)).2 ⟨_, mem_cons_self, rfl, rfl, rfl⟩
    rw [hlost] at hexpected
    exact absurd hexpected (by simp)
  · obtain ⟨a, ha, hname, -, -⟩ := (h 1000 (by decide)).1 hfound
    rw [mem_singleton.1 ha] at hname
    exact absurd hname (by decide)

end File

end EsdumanOS
