import HertzBeat.Lib.Encoding
import Mathlib.Data.Vector.MapLemmas
import Mathlib.Logic.Equiv.Defs

/-!
# Chains of blocks under a keyed family of permutations

The cipher of `Go.cbcDecrypt` is any function of a key and a block. Here it is what a cipher is
meant to be, a family of permutations of the blocks, one for each key (`Go.BlockCipher.ofPerm`),
which gives it an encryption. A text of any length is padded to whole blocks first.

* `Go.cbcDecrypt_cbcEncrypt` – a chain of blocks is decrypted to what was encrypted;
* `Go.unpad_eq_some_iff` – the texts that end in a padding, and `Go.unpad_pad`, that a padded
  text is one of them.
-/

namespace Go

/-! ### Ciphers -/

/-- A block. Keys have the size of a block. -/
abbrev Block := List.Vector UInt8 blockSize

namespace BlockCipher

/-- The cipher of a family of permutations of the blocks, one for each key. Byte strings that
are not blocks are left alone. -/
def ofPerm (perm : Block → Equiv.Perm Block) : BlockCipher where
  decrypt key block :=
    if h : key.length = blockSize ∧ block.length = blockSize then
      ((perm ⟨key, h.1⟩).symm ⟨block, h.2⟩).toList
    else block

/-- The encryption of a block. -/
def encryptBlock (perm : Block → Equiv.Perm Block) (key : Block) (block : Str) : Str :=
  if h : block.length = blockSize then (perm key ⟨block, h⟩).toList else block

variable {perm : Block → Equiv.Perm Block} {key : Block} {block : Str}

theorem length_encryptBlock (h : block.length = blockSize) :
    (encryptBlock perm key block).length = blockSize := by
  rw [encryptBlock, dif_pos h]
  exact List.Vector.toList_length _

theorem length_decrypt_ofPerm (h : block.length = blockSize) :
    ((ofPerm perm).decrypt key.toList block).length = blockSize := by
  have hkey : key.toList.length = blockSize := key.toList_length
  simp only [ofPerm, hkey, h, and_self, dite_true]
  exact List.Vector.toList_length _

/-- **Decryption inverts encryption**, block by block. -/
theorem decrypt_encryptBlock (h : block.length = blockSize) :
    (ofPerm perm).decrypt key.toList (encryptBlock perm key block) = block := by
  have hkey : key.toList.length = blockSize := key.toList_length
  have henc := @length_encryptBlock perm key block h
  simp only [ofPerm, hkey, henc, and_self, dite_true]
  have hblock : (⟨encryptBlock perm key block, henc⟩ : Block) = perm key ⟨block, h⟩ := by
    apply Subtype.ext
    simp only [encryptBlock, h, dite_true]
    rfl
  rw [hblock]
  exact congrArg List.Vector.toList ((perm key).symm_apply_apply ⟨block, h⟩)

end BlockCipher

/-! ### Chains -/

/-- Encrypt a chain of `n` blocks: each is combined with the cipher text of the one before it, the
first with the initialization vector. -/
def cbcEncrypt (encryptBlock : Str → Str) : ℕ → Str → Str → Str
  | 0, _, _ => []
  | n + 1, previous, data =>
    let block := encryptBlock (List.zipWith (· ^^^ ·) (data.take blockSize) previous)
    block ++ cbcEncrypt encryptBlock n block (data.drop blockSize)

/-- Combining twice with one string gives the string there was. -/
theorem zipWith_xor_cancel {a b : Str} (h : a.length ≤ b.length) :
    List.zipWith (· ^^^ ·) (List.zipWith (· ^^^ ·) a b) b = a := by
  induction a generalizing b with
  | nil => rfl
  | cons x a ih =>
    obtain ⟨y, b, rfl⟩ := List.exists_cons_of_length_pos (by
      rw [List.length_cons] at h
      omega : 0 < b.length)
    simp only [List.zipWith_cons_cons, UInt8.xor_assoc, UInt8.xor_self, UInt8.xor_zero]
    rw [ih (by simpa using h)]

section Chain

variable {encryptBlock decryptBlock : Str → Str} {n : ℕ} {previous data : Str}

/-- The blocks of a chain. -/
theorem length_take_blockSize (h : data.length = (n + 1) * blockSize) :
    (data.take blockSize).length = blockSize ∧ (data.drop blockSize).length = n * blockSize := by
  rw [List.length_take, List.length_drop, h]
  constructor
  · exact Nat.min_eq_left (Nat.le_mul_of_pos_left _ n.succ_pos)
  · rw [Nat.succ_mul, Nat.add_sub_cancel]

theorem length_cbcEncrypt
    (henc : ∀ b : Str, b.length = blockSize → (encryptBlock b).length = blockSize)
    (hprev : previous.length = blockSize) (hdata : data.length = n * blockSize) :
    (cbcEncrypt encryptBlock n previous data).length = n * blockSize := by
  induction n generalizing previous data with
  | zero => exact (Nat.zero_mul _).symm
  | succ n ih =>
    obtain ⟨htake, hdrop⟩ := length_take_blockSize hdata
    have hblock := henc _ (by
      rw [List.length_zipWith, htake, hprev, Nat.min_self] :
        (List.zipWith (· ^^^ ·) (data.take blockSize) previous).length = blockSize)
    rw [cbcEncrypt, List.length_append, hblock, ih hblock hdrop, Nat.succ_mul, Nat.add_comm]

theorem length_cbcDecrypt
    (hdec : ∀ b : Str, b.length = blockSize → (decryptBlock b).length = blockSize)
    (hprev : previous.length = blockSize) (hdata : data.length = n * blockSize) :
    (cbcDecrypt decryptBlock n previous data).length = n * blockSize := by
  induction n generalizing previous data with
  | zero => exact (Nat.zero_mul _).symm
  | succ n ih =>
    obtain ⟨htake, hdrop⟩ := length_take_blockSize hdata
    rw [cbcDecrypt, List.length_append, List.length_zipWith, hdec _ htake, hprev, Nat.min_self,
      ih htake hdrop, Nat.succ_mul, Nat.add_comm]

/-- **A chain is decrypted to what was encrypted**, by induction on the number of blocks: the
block that is fed on is the same in both directions, the cipher text. -/
theorem cbcDecrypt_cbcEncrypt
    (henc : ∀ b : Str, b.length = blockSize → (encryptBlock b).length = blockSize)
    (hdec : ∀ b : Str, b.length = blockSize → decryptBlock (encryptBlock b) = b)
    (hprev : previous.length = blockSize) (hdata : data.length = n * blockSize) :
    cbcDecrypt decryptBlock n previous (cbcEncrypt encryptBlock n previous data) = data := by
  induction n generalizing previous data with
  | zero =>
    rw [Nat.zero_mul, List.length_eq_zero_iff] at hdata
    rw [hdata]
    rfl
  | succ n ih =>
    obtain ⟨htake, hdrop⟩ := length_take_blockSize hdata
    have hmixed : (List.zipWith (· ^^^ ·) (data.take blockSize) previous).length = blockSize := by
      rw [List.length_zipWith, htake, hprev, Nat.min_self]
    have hblock := henc _ hmixed
    rw [cbcEncrypt, cbcDecrypt, List.take_left' hblock, List.drop_left' hblock, hdec _ hmixed,
      zipWith_xor_cancel (htake.trans hprev.symm).le, ih hblock hdrop, List.take_append_drop]

end Chain

/-! ### Padding -/

/-- `n` bytes that each hold their number. -/
def padding (n : ℕ) : Str := List.replicate n (UInt8.ofNat n)

/-- The PKCS7 padding of a text: at least one byte, and as many as fill its last block. -/
def pad (data : Str) : Str := data ++ padding (blockSize - data.length % blockSize)

/-- Take a well-formed padding off: up to a block of bytes that each hold their number. -/
def unpad (data : Str) : Option Str :=
  let n := (data.getLast?.getD 0).toNat
  if 0 < n ∧ n ≤ blockSize ∧ n ≤ data.length ∧ data.drop (data.length - n) = padding n then
    some (data.take (data.length - n))
  else none

theorem length_pad (data : Str) :
    (pad data).length = (data.length / blockSize + 1) * blockSize := by
  have hmod := Nat.mod_lt data.length (by decide : 0 < blockSize)
  have hdiv := Nat.div_add_mod' data.length blockSize
  rw [pad, padding, List.length_append, List.length_replicate, Nat.succ_mul]
  omega

/-- The last byte of a padding holds its number. -/
theorem getLast?_append_padding {data : Str} {n : ℕ} (hpos : 0 < n) (hle : n ≤ blockSize) :
    ((data ++ padding n).getLast?.getD 0).toNat = n := by
  have hlast : (padding n).getLast? = some (UInt8.ofNat n) := by
    rw [padding, List.getLast?_replicate, if_neg hpos.ne']
  rw [List.getLast?_append, hlast, Option.some_or, Option.getD_some, UInt8.toNat_ofNat']
  exact Nat.mod_eq_of_lt (hle.trans_lt (by decide))

/-- **What is taken off is a padding**: the text is what is left, followed by up to a block of
bytes that each hold their number. -/
theorem unpad_eq_some_iff {data text : Str} :
    unpad data = some text ↔ ∃ n, 0 < n ∧ n ≤ blockSize ∧ data = text ++ padding n := by
  constructor
  · intro h
    simp only [unpad] at h
    split_ifs at h with hpadded
    obtain ⟨hpos, hle, -, hdrop⟩ := hpadded
    cases h
    exact ⟨_, hpos, hle, by rw [← hdrop, List.take_append_drop]⟩
  · rintro ⟨n, hpos, hle, rfl⟩
    have hlen : (text ++ padding n).length - n = text.length := by
      rw [List.length_append, padding, List.length_replicate, Nat.add_sub_cancel]
    simp only [unpad, getLast?_append_padding hpos hle, hlen, List.drop_left, List.take_left]
    rw [if_pos ⟨hpos, hle, by simp [padding], trivial⟩]

/-- **The padding of a text is taken off again.** -/
@[simp] theorem unpad_pad (data : Str) : unpad (pad data) = some data := by
  have hmod := Nat.mod_lt data.length (by decide : 0 < blockSize)
  exact unpad_eq_some_iff.mpr ⟨_, by omega, Nat.sub_le _ _, rfl⟩

end Go
