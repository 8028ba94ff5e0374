import HertzBeat.Lib.Go

/-!
# Base64 and cipher block chaining

What the source takes from its library to read an encrypted string: the standard
base64 decoder, and the decryption of a chain of blocks under a block cipher.

The block cipher itself stays a parameter, `Go.BlockCipher`: nothing here depends on
what it does to a block.
-/

namespace Go

/-! ### Base64 -/

/-- The value of a letter of the standard alphabet. -/
def base64Value (c : UInt8) : Option ℕ :=
  if 65 ≤ c ∧ c ≤ 90 then some (c.toNat - 65)
  else if 97 ≤ c ∧ c ≤ 122 then some (c.toNat - 71)
  else if 48 ≤ c ∧ c ≤ 57 then some (c.toNat + 4)
  else if c = 43 then some 62
  else if c = 47 then some 63
  else none

/-- The decoder on groups of four letters. The padding letter `=` may end the last
group; bits beyond the last whole byte are ignored. -/
def base64Groups : Str → Option Str
  | [] => some []
  | a :: b :: c :: d :: rest =>
    match base64Value a, base64Value b, base64Value c, base64Value d with
    | some a, some b, some c, some d => do
      let n := a * 2 ^ 18 + b * 2 ^ 12 + c * 2 ^ 6 + d
      let bytes ← base64Groups rest
      return UInt8.ofNat (n / 2 ^ 16) :: UInt8.ofNat (n / 2 ^ 8) :: UInt8.ofNat n :: bytes
    | some a, some b, some c, none =>
      let n := a * 2 ^ 12 + b * 2 ^ 6 + c
      if d = 61 ∧ rest = [] then some [UInt8.ofNat (n / 2 ^ 10), UInt8.ofNat (n / 2 ^ 2)] else none
    | some a, some b, none, none =>
      if c = 61 ∧ d = 61 ∧ rest = [] then some [UInt8.ofNat (a * 2 ^ 2 + b / 2 ^ 4)] else none
    | _, _, _, _ => none
  | _ => none

/-- `base64.StdEncoding.DecodeString`: line breaks are skipped. `none` is an error. -/
def base64Decode (s : Str) : Option Str :=
  base64Groups (s.filter fun c => c ≠ 10 ∧ c ≠ 13)

example : base64Decode (str "YW55IGNh\ncm5hbA==") = some (str "any carnal") := by decide +kernel

/-! ### Block ciphers -/

/-- A block cipher, as far as it is used to decrypt: the decryption of a block under a
key. -/
structure BlockCipher where
  decrypt : Str → Str → Str

/-- The size of a block of AES, in bytes. -/
def blockSize : ℕ := 16

/-- Decrypt a chain of `n` blocks: each is decrypted and combined with the one before
it, the first with the initialization vector. -/
def cbcDecrypt (decryptBlock : Str → Str) : ℕ → Str → Str → Str
  | 0, _, _ => []
  | n + 1, previous, data =>
    let block := data.take blockSize
    List.zipWith (· ^^^ ·) (decryptBlock block) previous ++
      cbcDecrypt decryptBlock n block (data.drop blockSize)

end Go
