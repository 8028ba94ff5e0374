import HertzBeat.Lib.Base64
import HertzBeat.Lib.CBC
import HertzBeat.Param.Passwords

/-!
# What a decrypted password is

The manager encrypts a password with AES in chained blocks, the key serving as the
initialization vector, and sends the base64 text (`HertzBeat.aesEncode`). AES is any keyed family
of permutations of the blocks here.

* `HertzBeat.aesDecodeWithKey_aesEncode` – with the key it was encrypted under, every password
  is recovered, whatever its length and whatever bytes it ends in.
* `HertzBeat.Replacer.decryptPassword_eq_rightPassword_iff` – which key should be tried second can
  only be seen from the padding, and `removePKCS7Padding` returns a text without one as it is. So
  the right key is used exactly if the text is no cipher text at all, or ends in a padding under
  the current key.
* `HertzBeat.Replacer.preprocessJobPasswords_spares_iff` – `decryptPassword` has no error, so a
  password that neither key decrypts is marked as decrypted.
-/

namespace HertzBeat

open Go (Str BlockCipher Block)

/-! ### The padding -/

section Padding

variable {data text : Str}

/-- A well-formed padding is removed. -/
theorem removePKCS7Padding_of_unpad (h : Go.unpad data = some text) :
    removePKCS7Padding data = text := by
  obtain ⟨n, hpos, hle, rfl⟩ := Go.unpad_eq_some_iff.mp h
  have hlen : (text ++ Go.padding n).length = text.length + n := by simp [Go.padding]
  have hbyte : (UInt8.ofNat n).toNat = n := by
    rw [UInt8.toNat_ofNat']
    exact Nat.mod_eq_of_lt (hle.trans_lt (by decide))
  have hall : (Go.padding n).all (fun c => decide (c.toNat = n)) = true := by
    refine List.all_eq_true.mpr fun c hc => decide_eq_true ?_
    rw [List.eq_of_mem_replicate hc, hbyte]
  have hempty : ¬(text ++ Go.padding n = [] ∨ (text ++ Go.padding n).length < n ∨ n = 0) := by
    rw [← List.length_eq_zero_iff, hlen]
    omega
  simp only [removePKCS7Padding, Go.getLast?_append_padding hpos hle]
  rw [if_neg hempty, hlen, Nat.add_sub_cancel, List.drop_left, if_pos hall, List.take_left]

/-- Without a well-formed padding, nothing is removed or more than a block. -/
theorem length_removePKCS7Padding (h : Go.unpad data = none) :
    (removePKCS7Padding data).length = data.length ∨
      (removePKCS7Padding data).length + Go.blockSize < data.length := by
  simp only [removePKCS7Padding]
  split_ifs with hempty hall
  · exact .inl rfl
  · -- the bytes are those of a padding, so their number can only be too large for one
    obtain ⟨hne, hle, hpos⟩ : data ≠ [] ∧ (data.getLast?.getD 0).toNat ≤ data.length ∧
        (data.getLast?.getD 0).toNat ≠ 0 := by
      simpa only [not_or, not_lt] using hempty
    have hpadding : data.drop (data.length - (data.getLast?.getD 0).toNat) =
        Go.padding (data.getLast?.getD 0).toNat := by
      refine List.eq_replicate_iff.mpr ⟨by rw [List.length_drop]; omega, fun c hc => ?_⟩
      rw [← of_decide_eq_true (List.all_eq_true.mp hall c hc), UInt8.ofNat_toNat]
    have hlarge : ¬(data.getLast?.getD 0).toNat ≤ Go.blockSize := by
      intro hsmall
      simp only [Go.unpad] at h
      rw [if_pos ⟨Nat.pos_of_ne_zero hpos, hsmall, hle, hpadding⟩] at h
      exact absurd h (by simp)
    rw [List.length_take]
    omega
  · exact .inl rfl

end Padding

/-! ### Cipher texts -/

/-- The blocks of a cipher text: what a base64 text stands for, if it is a positive whole number
of blocks. -/
def cipherBlocks (s : Str) : Option Str :=
  (Go.base64Decode s).filter fun bytes => decide (bytes ≠ [] ∧ Go.blockSize ∣ bytes.length)

/-- The decryption of blocks, with whatever padding there is. -/
def decryptBlocks (aes : BlockCipher) (key bytes : Str) : Str :=
  Go.cbcDecrypt (aes.decrypt key) (bytes.length / Go.blockSize) key bytes

/-- **The plaintext of a text under a key**, if it has one: it has to be a cipher text, and its
decryption has to end in a well-formed padding. -/
def plaintext (aes : BlockCipher) (key s : Str) : Option Str :=
  (cipherBlocks s).bind fun bytes => Go.unpad (decryptBlocks aes key bytes)

section CipherText

variable {aes : BlockCipher} {key s bytes : Str}

theorem cipherBlocks_eq_some_iff :
    cipherBlocks s = some bytes ↔
      Go.base64Decode s = some bytes ∧ bytes ≠ [] ∧ Go.blockSize ∣ bytes.length := by
  rw [cipherBlocks, Option.filter_eq_some_iff, decide_eq_true_iff]

/-- The length that is checked is that of a positive whole number of blocks. -/
theorem dataLength_iff :
    (bytes.length < Go.blockSize ∨ bytes.length % Go.blockSize ≠ 0) ↔
      ¬(bytes ≠ [] ∧ Go.blockSize ∣ bytes.length) := by
  rw [← List.length_pos_iff, Nat.dvd_iff_mod_eq_zero]
  simp only [Go.blockSize]
  omega

/-- A cipher text is decrypted, without an error. -/
theorem aesDecodeWithKey_of_blocks (hkey : key.length = Go.blockSize)
    (h : cipherBlocks s = some bytes) :
    aesDecodeWithKey aes s key = .ok (removePKCS7Padding (decryptBlocks aes key bytes)) := by
  obtain ⟨hdecode, hblocks⟩ := cipherBlocks_eq_some_iff.mp h
  have hlength : key.length = 16 := hkey
  rw [aesDecodeWithKey, if_neg (not_not.mpr hlength)]
  simp only [hdecode]
  rw [if_neg (dataLength_iff.not.mpr (not_not.mpr hblocks))]
  rfl

/-- Any other text is an error, whatever the key. -/
theorem aesDecodeWithKey_of_no_blocks (h : cipherBlocks s = none) :
    ∃ e, aesDecodeWithKey aes s key = .error e := by
  rw [aesDecodeWithKey]
  split_ifs with hkey
  · exact ⟨_, rfl⟩
  · cases hdecode : Go.base64Decode s with
    | none => exact ⟨_, rfl⟩
    | some bytes =>
      have hblocks : ¬(bytes ≠ [] ∧ Go.blockSize ∣ bytes.length) := fun hb => by
        rw [cipherBlocks_eq_some_iff.mpr ⟨hdecode, hb⟩] at h
        exact absurd h (by simp)
      simp only [if_pos (dataLength_iff.mpr hblocks)]
      exact ⟨_, rfl⟩

theorem aesDecode_of_no_blocks (h : cipherBlocks s = none) :
    ∃ e, aesDecode aes key s = .error e := by
  rw [aesDecode]
  split_ifs
  · exact ⟨_, rfl⟩
  · exact aesDecodeWithKey_of_no_blocks h

/-- **A text is decrypted exactly if it is a cipher text**, once a key has the right length. -/
theorem aesDecodeWithKey_error_iff (hkey : key.length = Go.blockSize) :
    (∃ e, aesDecodeWithKey aes s key = .error e) ↔ cipherBlocks s = none := by
  constructor
  · rintro ⟨e, he⟩
    by_contra hne
    obtain ⟨bytes, hbytes⟩ := Option.ne_none_iff_exists'.mp hne
    rw [aesDecodeWithKey_of_blocks hkey hbytes] at he
    exact absurd he (by simp)
  · exact aesDecodeWithKey_of_no_blocks

end CipherText

/-! ### The manager's encryption -/

section Encryption

variable (perm : Block → Equiv.Perm Block) (key : Block)

/-- What the manager sends for a byte string of whole blocks. -/
def encodeBlocks (data : Str) : Str :=
  Go.base64Encode (Go.cbcEncrypt (BlockCipher.encryptBlock perm key)
    (data.length / Go.blockSize) key.toList data)

/-- **What the manager sends for a password**: the base64 text of the padded password, encrypted
under the key, which is also the initialization vector. -/
def aesEncode (password : Str) : Str := encodeBlocks perm key (Go.pad password)

variable {perm key}

/-- Whole blocks are decrypted to what they were. -/
theorem cipherBlocks_encodeBlocks {n : ℕ} {data : Str}
    (hlen : data.length = (n + 1) * Go.blockSize) :
    ∃ bytes, cipherBlocks (encodeBlocks perm key data) = some bytes ∧
      decryptBlocks (.ofPerm perm) key.toList bytes = data := by
  have hkey : key.toList.length = Go.blockSize := key.toList_length
  have hn : data.length / Go.blockSize = n + 1 := by
    rw [hlen]
    exact Nat.mul_div_cancel _ (by decide)
  have hsize := Go.length_cbcEncrypt
    (fun b hb => @BlockCipher.length_encryptBlock perm key b hb) hkey hlen
  refine ⟨_, cipherBlocks_eq_some_iff.mpr ⟨Go.base64Decode_base64Encode _, ?_, ?_⟩, ?_⟩
  · rw [hn, ← List.length_pos_iff, hsize]
    exact Nat.mul_pos n.succ_pos (by decide)
  · rw [hn, hsize]
    exact Nat.dvd_mul_left _ _
  · rw [decryptBlocks, hn, hsize, Nat.mul_div_cancel _ (by decide : 0 < Go.blockSize)]
    exact Go.cbcDecrypt_cbcEncrypt (fun b hb => BlockCipher.length_encryptBlock hb)
      (fun b hb => BlockCipher.decrypt_encryptBlock hb) hkey hlen

/-- **Decryption inverts encryption**: with the key it was encrypted under, every password is
recovered. -/
theorem aesDecodeWithKey_aesEncode (perm : Block → Equiv.Perm Block) (password : Str)
    (key : Block) :
    aesDecodeWithKey (.ofPerm perm) (aesEncode perm key password) key.toList = .ok password := by
  obtain ⟨bytes, hblocks, hdecrypt⟩ :=
    @cipherBlocks_encodeBlocks perm key _ _ (Go.length_pad password)
  rw [aesEncode, aesDecodeWithKey_of_blocks key.toList_length hblocks, hdecrypt,
    removePKCS7Padding_of_unpad (Go.unpad_pad password)]

end Encryption

/-! ### The key that is used -/

namespace Replacer

/-- **What the password of a text is**: its plaintext under the current key, else its plaintext
under the default key, else the text itself. -/
def rightPassword (aes : BlockCipher) (key s : Str) : Str :=
  ((plaintext aes key s).or (plaintext aes defaultKey s)).getD s

/-- The default key is a key. -/
theorem length_defaultKey : defaultKey.length = Go.blockSize := by decide

section RightKey

variable {aes : BlockCipher} {key s bytes : Str}

theorem decryptPassword_of_no_blocks (h : cipherBlocks s = none) :
    decryptPassword aes key s = s := by
  obtain ⟨e, he⟩ := @aesDecode_of_no_blocks aes key s h
  obtain ⟨e', he'⟩ := @aesDecodeWithKey_of_no_blocks aes defaultKey s h
  rw [decryptPassword, he]
  simp only [he']

/-- The current key settles what becomes of a cipher text. -/
theorem decryptPassword_of_blocks (hkey : key.length = Go.blockSize)
    (h : cipherBlocks s = some bytes) :
    decryptPassword aes key s = removePKCS7Padding (decryptBlocks aes key bytes) := by
  have hset : key ≠ [] := by
    rintro rfl
    exact absurd hkey (by decide)
  rw [decryptPassword, aesDecode, if_neg hset, aesDecodeWithKey_of_blocks hkey h]

theorem plaintext_of_blocks (h : cipherBlocks s = some bytes) :
    plaintext aes key s = Go.unpad (decryptBlocks aes key bytes) := by
  rw [plaintext, h, Option.bind_some]

theorem plaintext_of_no_blocks (h : cipherBlocks s = none) : plaintext aes key s = none := by
  rw [plaintext, h, Option.bind_none]

/-- A plaintext is at most a block shorter than the cipher text. -/
theorem length_of_plaintext {text : Str} (h : Go.unpad bytes = some text) :
    text.length < bytes.length ∧ bytes.length ≤ text.length + Go.blockSize := by
  obtain ⟨n, hpos, hle, rfl⟩ := Go.unpad_eq_some_iff.mp h
  rw [List.length_append, Go.padding, List.length_replicate]
  omega

end RightKey

section KeyedFamily

variable {perm : Block → Equiv.Perm Block} {key : Block} {s bytes : Str}

/-- A cipher text and its decryption have one length. -/
theorem length_decryptBlocks {k : Str} (hk : k.length = Go.blockSize)
    (hbytes : Go.blockSize ∣ bytes.length) :
    (decryptBlocks (.ofPerm perm) k bytes).length = bytes.length := by
  have hlen : bytes.length = bytes.length / Go.blockSize * Go.blockSize :=
    (Nat.div_mul_cancel hbytes).symm
  have hdecrypt := Go.length_cbcDecrypt
    (fun b hb => @BlockCipher.length_decrypt_ofPerm perm ⟨k, hk⟩ b hb) hk hlen
  exact hdecrypt.trans hlen.symm

/-- The text that is returned for want of a padding is never the right one: it has the length of
no plaintext, and is shorter than the cipher text. -/
theorem removePKCS7Padding_ne_rightPassword (hblocks : cipherBlocks s = some bytes)
    (hnone : plaintext (.ofPerm perm) key.toList s = none) :
    removePKCS7Padding (decryptBlocks (.ofPerm perm) key.toList bytes) ≠
      rightPassword (.ofPerm perm) key.toList s := by
  obtain ⟨hdecode, hne, hdvd⟩ := cipherBlocks_eq_some_iff.mp hblocks
  have hraw := @length_decryptBlocks perm bytes _ key.toList_length hdvd
  have hdefault := @length_decryptBlocks perm bytes _ length_defaultKey hdvd
  have hcode := length_removePKCS7Padding ((plaintext_of_blocks hblocks).symm.trans hnone)
  have hs := Go.length_lt_of_base64Decode hdecode hne
  intro heq
  rw [rightPassword, hnone, Option.none_or] at heq
  cases hplain : plaintext (.ofPerm perm) defaultKey s with
  | none =>
    rw [hplain, Option.getD_none] at heq
    rw [heq, hraw] at hcode
    omega
  | some text =>
    rw [hplain, Option.getD_some] at heq
    have htext := length_of_plaintext ((plaintext_of_blocks hblocks).symm.trans hplain)
    rw [heq, hraw] at hcode
    rw [hdefault] at htext
    omega

/-- **The right key is used exactly for the texts that are no cipher texts, and for those that end
in a padding under the current key.** The default key is never tried on a cipher text. -/
theorem decryptPassword_eq_rightPassword_iff (perm : Block → Equiv.Perm Block) (key : Block)
    (s : Str) :
    decryptPassword (.ofPerm perm) key.toList s = rightPassword (.ofPerm perm) key.toList s ↔
      cipherBlocks s = none ∨ (plaintext (.ofPerm perm) key.toList s).isSome := by
  cases hblocks : cipherBlocks s with
  | none =>
    refine iff_of_true ?_ (.inl rfl)
    rw [decryptPassword_of_no_blocks hblocks, rightPassword, plaintext_of_no_blocks hblocks,
      plaintext_of_no_blocks hblocks]
    rfl
  | some bytes =>
    rw [decryptPassword_of_blocks key.toList_length hblocks]
    cases hplain : plaintext (.ofPerm perm) key.toList s with
    | none =>
      refine iff_of_false (removePKCS7Padding_ne_rightPassword hblocks hplain) ?_
      simp
    | some text =>
      refine iff_of_true ?_ (.inr rfl)
      rw [rightPassword, hplain,
        removePKCS7Padding_of_unpad ((plaintext_of_blocks hblocks).symm.trans hplain)]
      rfl

/-- A keyed family to compute with: the bytes of the key are added to those of the block. -/
def addKey (key : Block) : Equiv.Perm Block where
  toFun block := List.Vector.map₂ (· + ·) block key
  invFun block := List.Vector.map₂ (· - ·) block key
  left_inv block := by
    ext i
    simp
  right_inv block := by
    ext i
    simp

/-- A password encrypted under the default key is not recovered under another one. -/
theorem decryptPassword_defaultKey_ne :
    aesDecodeWithKey (.ofPerm addKey) (aesEncode addKey ⟨defaultKey, by decide⟩ (Go.str "secret"))
        defaultKey = .ok (Go.str "secret") ∧
      rightPassword (.ofPerm addKey) (Go.str "0123456789abcdef")
        (aesEncode addKey ⟨defaultKey, by decide⟩ (Go.str "secret")) = Go.str "secret" ∧
      decryptPassword (.ofPerm addKey) (Go.str "0123456789abcdef")
        (aesEncode addKey ⟨defaultKey, by decide⟩ (Go.str "secret")) ≠ Go.str "secret" := by
  decide

/-- **No cipher is exempt**: under every key of every keyed family there are texts for which the
wrong key is used. -/
theorem exists_decryptPassword_ne_rightPassword (perm : Block → Equiv.Perm Block) (key : Block) :
    ∃ s, decryptPassword (.ofPerm perm) key.toList s ≠
      rightPassword (.ofPerm perm) key.toList s := by
  -- a block of zeros, which end in no padding
  obtain ⟨bytes, hblocks, hdecrypt⟩ := @cipherBlocks_encodeBlocks perm key 0
    (List.replicate Go.blockSize 0) (by decide)
  refine ⟨encodeBlocks perm key (List.replicate Go.blockSize 0), fun heq => ?_⟩
  have hpadding : Go.unpad (List.replicate Go.blockSize 0) = none := by decide
  rw [decryptPassword_of_blocks key.toList_length hblocks] at heq
  refine removePKCS7Padding_ne_rightPassword hblocks ?_ heq
  rw [plaintext_of_blocks hblocks, hdecrypt, hpadding]

end KeyedFamily

/-! ### Passwords that cannot be decrypted -/

section Preprocess

variable (aes : BlockCipher) (secretKey : Str)

/-- A password that can be decrypted neither with the secret nor with the default key. -/
def Fails (config : Configmap) : Prop :=
  config.type = 2 ∧ ∃ s, config.value = .str s ∧ (∃ e, aesDecode aes secretKey s = .error e) ∧
    ∃ e, aesDecodeWithKey aes s defaultKey = .error e

/-- An entry that is not to be changed: a password that cannot be decrypted, or no password. -/
def Spared (config : Configmap) : Prop :=
  Fails aes secretKey config ∨ config.type ≠ 2 ∨ ∀ s, config.value ≠ .str s

variable {aes secretKey}

/-- Whether a password can be decrypted does not depend on the keys. -/
theorem fails_iff {config : Configmap} :
    Fails aes secretKey config ↔
      config.type = 2 ∧ ∃ s, config.value = .str s ∧ cipherBlocks s = none := by
  refine and_congr_right fun _ => exists_congr fun s => and_congr_right fun _ => ?_
  rw [aesDecodeWithKey_error_iff length_defaultKey]
  exact ⟨And.right, fun h => ⟨aesDecode_of_no_blocks h, h⟩⟩

/-- An entry that is no password is kept. -/
theorem preprocessConfig_of_not_password {config : Configmap}
    (h : config.type ≠ 2 ∨ ∀ s, config.value ≠ .str s) :
    preprocessConfig aes secretKey config = config := by
  unfold preprocessConfig
  split
  · rename_i s htype hvalue
    exact (h.elim (absurd htype) fun hs => absurd hvalue (hs s))
  · rfl

/-- A password that fails becomes an ordinary string. -/
theorem type_preprocessConfig_of_fails {config : Configmap} (h : Fails aes secretKey config) :
    (preprocessConfig aes secretKey config).type = 1 := by
  obtain ⟨htype, s, hvalue, -⟩ := h
  obtain ⟨key, value, type, option⟩ := config
  obtain rfl : type = 2 := htype
  obtain rfl : value = .str s := hvalue
  rfl

/-- The entry at a position of the configmap. -/
def configAt (job : Job) (i : ℕ) : Option Configmap := job.configmap.bind (·[i]?)

theorem configAt_preprocessJobPasswords (job : Job) (i : ℕ) :
    configAt (preprocessJobPasswords aes secretKey job) i =
      (configAt job i).map (preprocessConfig aes secretKey) := by
  unfold configAt preprocessJobPasswords
  cases job.configmap with
  | none => rfl
  | some configmap => exact List.getElem?_map

/-- **The entries that are not to be changed are kept exactly if no password fails**: one that
does loses the mark of a password. -/
theorem preprocessJobPasswords_spares_iff (aes : BlockCipher) (secretKey : Str) (job : Job) :
    (∀ i config, configAt job i = some config → Spared aes secretKey config →
        configAt (preprocessJobPasswords aes secretKey job) i = some config) ↔
      ∀ i config, configAt job i = some config → ¬Fails aes secretKey config := by
  constructor
  · intro hspares i config hconfig hfails
    have hkept := hspares i config hconfig (.inl hfails)
    rw [configAt_preprocessJobPasswords, hconfig, Option.map_some, Option.some_inj] at hkept
    have htype := type_preprocessConfig_of_fails hfails
    rw [hkept, hfails.1] at htype
    exact absurd htype (by decide)
  · intro hnone i config hconfig hspared
    rw [configAt_preprocessJobPasswords, hconfig, Option.map_some]
    exact congrArg some (preprocessConfig_of_not_password
      (hspared.resolve_left (hnone i config hconfig)))

/-- A password that the manager has not encrypted. -/
def unencrypted : Configmap :=
  { key := Go.str "password", value := .str (Go.str "p@ss"), type := 2 }

/-- A job with this password. -/
def onePassword : Job := { Job.bare 7 true 60 with configmap := some [unencrypted] }

/-- It is not base64, and it is marked as decrypted. -/
theorem preprocessJobPasswords_unencrypted :
    configAt onePassword 0 = some unencrypted ∧ Fails (.ofPerm addKey) [] unencrypted ∧
      configAt (preprocessJobPasswords (.ofPerm addKey) [] onePassword) 0 ≠ some unencrypted := by
  refine ⟨rfl, fails_iff.mpr ⟨rfl, Go.str "p@ss", rfl, by decide⟩, fun heq => ?_⟩
  have htype : some (1 : ℤ) = some 2 := congrArg (Option.map Configmap.type) heq
  exact absurd htype (by decide)

end Preprocess

end Replacer

end HertzBeat
