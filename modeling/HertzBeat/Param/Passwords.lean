import HertzBeat.Lib.Encoding
import HertzBeat.Types.Job

/-!
# Decrypting the passwords of a job

`internal/util/crypto`, and the part of the parameter replacer that uses it. The
manager encrypts passwords with AES under a key that it announces; a job that comes
in has its passwords decrypted once, before it is scheduled.

The secret is one value for the whole collector, so every function that reads it
takes it as an argument. The texts of the errors are only ever logged and are left
out.
-/

namespace HertzBeat

open Go (Str BlockCipher)

/-! ### AES -/

/-- The errors of a decryption. -/
inductive AESError where
  /-- No secret has been set. -/
  | keyNotSet
  /-- The key does not have 16 bytes. -/
  | keyLength
  /-- The data is not base64. -/
  | base64
  /-- The data is not a positive number of whole blocks. -/
  | dataLength
  deriving DecidableEq, Repr

/-- `removePKCS7Padding`: data that does not end in a padding is returned as it is. -/
def removePKCS7Padding (data : Str) : Str :=
  let paddingLen := (data.getLast?.getD 0).toNat
  if data = [] ∨ data.length < paddingLen ∨ paddingLen = 0 then data
  else if (data.drop (data.length - paddingLen)).all (·.toNat = paddingLen) then
    data.take (data.length - paddingLen)
  else data

variable (aes : BlockCipher)

/-- `AesDecodeWithKey`. The key is also the initialization vector. -/
def aesDecodeWithKey (encryptedData key : Str) : Except AESError Str :=
  if key.length ≠ 16 then .error .keyLength
  else match Go.base64Decode encryptedData with
    | none => .error .base64
    | some bytes =>
      if bytes.length < Go.blockSize ∨ bytes.length % Go.blockSize ≠ 0 then .error .dataLength
      else .ok (removePKCS7Padding
        (Go.cbcDecrypt (aes.decrypt key) (bytes.length / Go.blockSize) key bytes))

/-- `AesDecode`, with the secret that is set; empty is not set. -/
def aesDecode (secretKey encryptedData : Str) : Except AESError Str :=
  if secretKey = [] then .error .keyNotSet else aesDecodeWithKey aes encryptedData secretKey

namespace Replacer

/-- The key that is tried when the secret fails. -/
def defaultKey : Str := Go.str "tomSun28HaHaHaHa"

/-- `decryptPassword`, which has no error: what cannot be decrypted is returned. -/
def decryptPassword (secretKey encryptedPassword : Str) : Str :=
  match aesDecode aes secretKey encryptedPassword with
  | .ok result => result
  | .error _ =>
    match aesDecodeWithKey aes encryptedPassword defaultKey with
    | .ok result => result
    | .error _ => encryptedPassword

/-- One turn of the loop of `PreprocessJobPasswords`: a password becomes a string. -/
def preprocessConfig (secretKey : Str) (config : Configmap) : Configmap :=
  match config.type, config.value with
  | 2, .str encryptedValue =>
    { config with value := .str (decryptPassword aes secretKey encryptedValue), type := 1 }
  | _, _ => config

/-- `PreprocessJobPasswords`. -/
def preprocessJobPasswords (secretKey : Str) (job : Job) : Job :=
  { job with configmap := job.configmap.map (List.map (preprocessConfig aes secretKey)) }

end Replacer

end HertzBeat
