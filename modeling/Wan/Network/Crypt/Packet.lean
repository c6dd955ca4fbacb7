import Wan.Library.Text

/-!
# `ArcaneSymmetric` of `Crypt/Encryption.hpp`

The encrypted packets.  Crypto++ is given by the operations that the functions call: the
Base64 filters, the key derivation, the ciphers, which may throw, and the message
authentication code.  The random salt and initialization vector are arguments.  Every
access to a packet is checked, so that an access outside would be seen as an error of its
own.
-/

namespace Wan.Network.Encryption

open Wan.Library

/-- Bytes of a fixed number. -/
structure Block (size : Nat) where
  bytes : Bytes
  length_bytes : bytes.length = size

/-- The operations of Crypto++ that the packets use. A cipher takes the key, the
initialization vector and the text, and throws an exception with a text of its own. -/
structure CryptoLibrary where
  toBase64 : Bytes → Bytes
  fromBase64 : Bytes → Except String Bytes
  /-- Password, salt, number of key bytes and number of iterations. -/
  pbkdf2 : Bytes → Bytes → Nat → Nat → Bytes
  aesGcmEncrypt : Bytes → Bytes → Bytes → Except String Bytes
  aesGcmDecrypt : Bytes → Bytes → Bytes → Except String Bytes
  aesCbcEncrypt : Bytes → Bytes → Bytes → Except String Bytes
  aesCbcDecrypt : Bytes → Bytes → Bytes → Except String Bytes
  aesCtrEncrypt : Bytes → Bytes → Bytes → Except String Bytes
  aesCtrDecrypt : Bytes → Bytes → Bytes → Except String Bytes
  twofishCtrEncrypt : Bytes → Bytes → Bytes → Except String Bytes
  twofishCtrDecrypt : Bytes → Bytes → Bytes → Except String Bytes
  /-- HMAC-SHA256 of a key and a message. -/
  hmac : Bytes → Bytes → Bytes

/-- What a function throws; `outOfBounds` stands for an access behind the end of a packet. -/
inductive CryptoError where
  | runtime (what : String)
  | invalidArgument (what : String)
  | library (what : String)
  | outOfBounds (position : Nat)
  deriving DecidableEq, Repr

/-- `Binary`. -/
inductive Binary where
  | algAesGcm
  | algAesCbc
  | algAesCtr
  | algTwofishCtr
  deriving DecidableEq, Repr

/-- The byte of an algorithm. -/
def Binary.value : Binary → UInt8
  | .algAesGcm => 1
  | .algAesCbc => 2
  | .algAesCtr => 3
  | .algTwofishCtr => 4

section Helpers

/-- `Bin[Position]`. -/
def byteAt (bin : Bytes) (position : Nat) : Except CryptoError UInt8 :=
  match bin[position]? with
  | some byte => .ok byte
  | none => .error (.outOfBounds position)

/-- So many bytes from a position on. -/
def bytesAt (bin : Bytes) (position count : Nat) : Except CryptoError Bytes :=
  if position + count ≤ bin.length then .ok ((bin.drop position).take count)
  else .error (.outOfBounds position)

/-- `Bin.substr(Position)`. -/
def substr (bin : Bytes) (position : Nat) : Except CryptoError Bytes :=
  if position ≤ bin.length then .ok (bin.drop position) else .error (.outOfBounds position)

/-- A check that throws a `runtime_error`. -/
def require (condition : Bool) (what : String) : Except CryptoError Unit :=
  if condition then .ok () else .error (.runtime what)

/-- `AppendUint32`. -/
def appendUint32 (output : Bytes) (value : UInt32) : Bytes :=
  output ++ ([0, 8, 16, 24] : List UInt32).map fun shift => ((value >>> shift) &&& 0xff).toUInt8

/-- `ReadUint32`. -/
def readUint32 (input : Bytes) (position : Nat) : Except CryptoError (Option UInt32) :=
  if input.length < position ∨ input.length - position < 4 then .ok none
  else do
    let first ← byteAt input position
    let second ← byteAt input (position + 1)
    let third ← byteAt input (position + 2)
    let fourth ← byteAt input (position + 3)
    return some (first.toUInt32 ||| second.toUInt32 <<< 8 ||| third.toUInt32 <<< 16 |||
      fourth.toUInt32 <<< 24)

/-- `ConstantTimeEqual`. -/
def constantTimeEqual (left right : Bytes) : Bool :=
  left.length = right.length &&
    (left.zip right).foldl (fun difference pair => difference ||| (pair.1 ^^^ pair.2)) 0 =
      (0 : UInt8)

/-- `DeriveKeyFromPassword`. -/
def deriveKeyFromPassword (library : CryptoLibrary) (pass salt : Bytes) (keyLen : Nat)
    (iterations : Nat) : Except CryptoError Bytes :=
  if salt = [] ∨ keyLen = 0 ∨ iterations = 0 then
    .error (.invalidArgument "PBKDF2 requires non-empty salt and output with positive iterations")
  else .ok (library.pbkdf2 pass salt keyLen iterations)

/-- Exceptions of Crypto++ that are caught and thrown again with a text in front. -/
def rethrow (front : String) : Except String Bytes → Except CryptoError Bytes
  | .ok bytes => .ok bytes
  | .error what => .error (.runtime (front ++ what))

/-- `FromBase64`, whose exceptions are not caught. -/
def fromBase64 (library : CryptoLibrary) (text : Bytes) : Except CryptoError Bytes :=
  match library.fromBase64 text with
  | .ok bytes => .ok bytes
  | .error what => .error (.library what)

end Helpers

section Gcm

/-- What is cut out of an AES-GCM packet. -/
structure GcmFrame where
  salt : Bytes
  iv : Bytes
  cipherAndTag : Bytes

variable (library : CryptoLibrary)

/-- `AesGcmEncrypt`. -/
def aesGcmEncrypt (salt : Block 16) (iv : Block 12) (plaintext pass : Bytes) :
    Except CryptoError Bytes := do
  let key ← deriveKeyFromPassword library pass salt.bytes 32 200000
  let cipherAndTag ← rethrow "AESGCM encrypt error: " (library.aesGcmEncrypt key iv.bytes plaintext)
  return library.toBase64 (Bytes.text "CW" ++ [Binary.algAesGcm.value] ++ salt.bytes ++ [12] ++
    iv.bytes ++ [16] ++ cipherAndTag)

/-- The checks of `AesGcmDecrypt` before the key is derived. -/
def gcmFraming (bin : Bytes) : Except CryptoError GcmFrame := do
  require (2 + 1 + 16 + 1 + 12 + 1 + 16 ≤ bin.length) "Invalid ciphertext (too short)"
  let first ← byteAt bin 0
  require (first = Bytes.char 'C') "Invalid format"
  let second ← byteAt bin 1
  require (second = Bytes.char 'W') "Invalid format"
  let alg ← byteAt bin 2
  require (alg = Binary.algAesGcm.value) "Algorithm mismatch (expect AES-GCM)"
  require (19 + 1 ≤ bin.length) "Invalid ciphertext (missing IV length)"
  let ivLen ← byteAt bin 19
  require (ivLen = 12 && 20 + ivLen.toNat + 1 ≤ bin.length) "Invalid ciphertext (invalid IV)"
  let tagLen ← byteAt bin (20 + ivLen.toNat)
  require (tagLen = 16 && 21 + ivLen.toNat + tagLen.toNat ≤ bin.length)
    "Invalid ciphertext (invalid tag)"
  let cipherAndTag ← substr bin (21 + ivLen.toNat)
  let salt ← bytesAt bin 3 16
  let iv ← bytesAt bin 20 ivLen.toNat
  return ⟨salt, iv, cipherAndTag⟩

/-- `AesGcmDecrypt`. -/
def aesGcmDecrypt (cipherB64 pass : Bytes) : Except CryptoError Bytes := do
  let bin ← fromBase64 library cipherB64
  let frame ← gcmFraming bin
  let key ← deriveKeyFromPassword library pass frame.salt 32 200000
  rethrow "AESGCM decrypt error: " (library.aesGcmDecrypt key frame.iv frame.cipherAndTag)

end Gcm

section Hmac

/-- A cipher with a message authentication code, and the texts of its errors. -/
structure HmacScheme where
  algorithm : Binary
  encrypt : Bytes → Bytes → Bytes → Except String Bytes
  decrypt : Bytes → Bytes → Bytes → Except String Bytes
  encryptError : String
  decryptError : String
  tooShort : String
  algorithmMismatch : String
  macLengthMissing : String
  macMissing : String
  macMismatch : String

/-- What is cut out of a packet with a message authentication code. -/
structure HmacFrame where
  salt : Bytes
  iv : Bytes
  mac : Bytes
  ciphertext : Bytes

/-- The binary packet of these parts. -/
def HmacFrame.packet (frame : HmacFrame) (algorithm : Binary) : Bytes :=
  appendUint32 (Bytes.text "CW" ++ [algorithm.value] ++ frame.salt ++ [16] ++ frame.iv)
    frame.mac.length.toUInt32 ++ frame.mac ++ frame.ciphertext

/-- The checks before the keys are derived. -/
def HmacScheme.framing (scheme : HmacScheme) (bin : Bytes) : Except CryptoError HmacFrame := do
  require (2 + 1 + 16 + 1 + 16 + 4 ≤ bin.length) scheme.tooShort
  let first ← byteAt bin 0
  require (first = Bytes.char 'C') "Invalid format"
  let second ← byteAt bin 1
  require (second = Bytes.char 'W') "Invalid format"
  let alg ← byteAt bin 2
  require (alg = scheme.algorithm.value) scheme.algorithmMismatch
  require (19 + 1 ≤ bin.length) "Invalid ciphertext (missing IV length)"
  let ivLen ← byteAt bin 19
  require (ivLen = 16 && 20 + ivLen.toNat + 4 ≤ bin.length) "Invalid ciphertext (invalid IV)"
  let some macLen ← readUint32 bin (20 + ivLen.toNat) | .error (.runtime scheme.macLengthMissing)
  let position := 20 + ivLen.toNat + 4
  require (macLen = 32 && macLen.toNat ≤ bin.length - position) scheme.macMissing
  let mac ← bytesAt bin position macLen.toNat
  let ciphertext ← substr bin (position + macLen.toNat)
  let salt ← bytesAt bin 3 16
  let iv ← bytesAt bin 20 ivLen.toNat
  return ⟨salt, iv, mac, ciphertext⟩

variable (library : CryptoLibrary)

/-- What the three `Encrypt` functions do. -/
def HmacScheme.encryptPacket (scheme : HmacScheme) (salt : Block 16) (iv : Block 16)
    (plaintext pass : Bytes) : Except CryptoError Bytes := do
  let key ← deriveKeyFromPassword library pass salt.bytes 32 200000
  let ciphertext ← rethrow scheme.encryptError (scheme.encrypt key iv.bytes plaintext)
  let macKey ← deriveKeyFromPassword library pass salt.bytes 32 200000
  let mac := library.hmac macKey (iv.bytes ++ ciphertext)
  return library.toBase64
    (HmacFrame.packet ⟨salt.bytes, iv.bytes, mac, ciphertext⟩ scheme.algorithm)

/-- What the three `Decrypt` functions do. -/
def HmacScheme.decryptPacket (scheme : HmacScheme) (b64 pass : Bytes) :
    Except CryptoError Bytes := do
  let bin ← fromBase64 library b64
  let frame ← scheme.framing bin
  let macKey ← deriveKeyFromPassword library pass frame.salt 32 200000
  let macCheck := library.hmac macKey (frame.iv ++ frame.ciphertext)
  require (constantTimeEqual frame.mac macCheck) scheme.macMismatch
  let key ← deriveKeyFromPassword library pass frame.salt 32 200000
  rethrow scheme.decryptError (scheme.decrypt key frame.iv frame.ciphertext)

/-- The scheme of `AesCbcEncrypt` and `AesCbcDecrypt`. -/
def aesCbc : HmacScheme where
  algorithm := .algAesCbc
  encrypt := library.aesCbcEncrypt
  decrypt := library.aesCbcDecrypt
  encryptError := "AESCBC encrypt error: "
  decryptError := "AESCBC decrypt error: "
  tooShort := "Invalid ciphertext (AESCBC too short)"
  algorithmMismatch := "Algorithm mismatch (expect AES-CBC)"
  macLengthMissing := "Invalid ciphertext (mac length missing)"
  macMissing := "Invalid ciphertext (mac missing)"
  macMismatch := "AESCBC HMAC mismatch - integrity failure"

/-- The scheme of `AesCtrEncrypt` and `AesCtrDecrypt`. -/
def aesCtr : HmacScheme where
  algorithm := .algAesCtr
  encrypt := library.aesCtrEncrypt
  decrypt := library.aesCtrDecrypt
  encryptError := "AESCTR encrypt error: "
  decryptError := "AESCTR decrypt error: "
  tooShort := "Invalid ciphertext (AESCTR too short)"
  algorithmMismatch := "Algorithm mismatch (expect AES-CTR)"
  macLengthMissing := "Invalid ciphertext (MAC length missing)"
  macMissing := "Invalid ciphertext (invalid MAC)"
  macMismatch := "AESCTR HMAC mismatch - integrity failure"

/-- The scheme of `TwofishCtrEncrypt` and `TwofishCtrDecrypt`. -/
def twofishCtr : HmacScheme where
  algorithm := .algTwofishCtr
  encrypt := library.twofishCtrEncrypt
  decrypt := library.twofishCtrDecrypt
  encryptError := "TwofishCTR encrypt error: "
  decryptError := "TwofishCTR decrypt error: "
  tooShort := "Invalid Twofish ciphertext"
  algorithmMismatch := "Algorithm mismatch (expect Twofish-CTR)"
  macLengthMissing := "Invalid ciphertext (MAC length missing)"
  macMissing := "Invalid ciphertext (invalid MAC)"
  macMismatch := "Twofish HMAC mismatch"

/-- `AesCbcEncrypt`. -/
def aesCbcEncrypt := (aesCbc library).encryptPacket library

/-- `AesCbcDecrypt`. -/
def aesCbcDecrypt := (aesCbc library).decryptPacket library

/-- `AesCtrEncrypt`. -/
def aesCtrEncrypt := (aesCtr library).encryptPacket library

/-- `AesCtrDecrypt`. -/
def aesCtrDecrypt := (aesCtr library).decryptPacket library

/-- `TwofishCtrEncrypt`. -/
def twofishCtrEncrypt := (twofishCtr library).encryptPacket library

/-- `TwofishCtrDecrypt`. -/
def twofishCtrDecrypt := (twofishCtr library).decryptPacket library

end Hmac

end Wan.Network.Encryption
