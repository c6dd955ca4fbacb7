import Wan.Network.Crypt.Framing

/-!
# Decryption of packets

Packets are decrypted to their plaintexts when the ciphers are.  The message
authentication code covers the initialization vector and the ciphertext but not the
algorithm, and all schemes derive the same keys, so a packet passes as one of another
scheme when its algorithm byte is replaced.
-/

namespace Wan.Network.Encryption

open Wan.Library

/-- Decryption inverts encryption, for keys of 32 bytes. -/
def Inverts (encrypt decrypt : Bytes → Bytes → Bytes → Except String Bytes) (ivLen : Nat) : Prop :=
  ∀ key iv plaintext, key.length = 32 → iv.length = ivLen →
    ∃ text, encrypt key iv plaintext = .ok text ∧ decrypt key iv text = .ok plaintext

/-- A stream cipher decrypts every text. -/
def Streams (decrypt : Bytes → Bytes → Bytes → Except String Bytes) (ivLen : Nat) : Prop :=
  ∀ key iv text, key.length = 32 → iv.length = ivLen →
    ∃ plaintext, decrypt key iv text = .ok plaintext

/-- What the documentation of Crypto++ promises: decoding inverts encoding, keys and codes
have their sizes, AES-GCM appends a tag of 16 bytes, and the ciphers are inverted. -/
structure CryptoLibrary.Lawful (library : CryptoLibrary) : Prop where
  fromBase64_toBase64 : ∀ raw, library.fromBase64 (library.toBase64 raw) = .ok raw
  length_pbkdf2 : ∀ pass salt keyLen iterations,
    (library.pbkdf2 pass salt keyLen iterations).length = keyLen
  length_hmac : ∀ key message, (library.hmac key message).length = 32
  length_aesGcm : ∀ {key iv plaintext text}, library.aesGcmEncrypt key iv plaintext = .ok text →
    16 ≤ text.length
  aesGcm : Inverts library.aesGcmEncrypt library.aesGcmDecrypt 12
  aesCbc : Inverts library.aesCbcEncrypt library.aesCbcDecrypt 16
  aesCtr : Inverts library.aesCtrEncrypt library.aesCtrDecrypt 16
  twofishCtr : Inverts library.twofishCtrEncrypt library.twofishCtrDecrypt 16

variable {library : CryptoLibrary} {scheme other : HmacScheme} {frame : HmacFrame}
  {plaintext pass bytes : Bytes}

theorem constantTimeEqual_self : constantTimeEqual bytes bytes = true := by
  have none : ∀ bytes : Bytes, (bytes.zip bytes).foldl
      (fun difference pair => difference ||| (pair.1 ^^^ pair.2)) 0 = (0 : UInt8) := by
    intro bytes
    induction bytes with
    | nil => rfl
    | cons byte bytes ih =>
        rw [List.zip_cons_cons, List.foldl_cons, UInt8.xor_self, UInt8.or_self]
        exact ih
  rw [constantTimeEqual, none]
  simp

theorem deriveKeyFromPassword_block {salt : Bytes} (length : salt.length = 16) :
    deriveKeyFromPassword library pass salt 32 200000 =
      .ok (library.pbkdf2 pass salt 32 200000) := by
  rw [deriveKeyFromPassword, if_neg]
  rw [← List.length_eq_zero_iff, length]
  decide

theorem fromBase64_toBase64 (lawful : library.Lawful) :
    fromBase64 library (library.toBase64 bytes) = .ok bytes := by
  rw [fromBase64, lawful.fromBase64_toBase64]

section Gcm

/-- AES-GCM packets are decrypted. -/
theorem aesGcmDecrypt_encrypt (lawful : library.Lawful) (salt : Block 16) (iv : Block 12)
    (plaintext pass : Bytes) : ∃ packet, aesGcmEncrypt library salt iv plaintext pass = .ok packet ∧
      aesGcmDecrypt library packet pass = .ok plaintext := by
  have key : deriveKeyFromPassword library pass salt.bytes 32 200000 = _ :=
    deriveKeyFromPassword_block salt.length_bytes
  rcases lawful.aesGcm _ iv.bytes plaintext (lawful.length_pbkdf2 pass salt.bytes 32 200000)
    iv.length_bytes with ⟨text, encrypted, decrypted⟩
  have valid : GcmFrame.Valid ⟨salt.bytes, iv.bytes, text⟩ :=
    ⟨salt.length_bytes, iv.length_bytes, lawful.length_aesGcm encrypted⟩
  refine ⟨library.toBase64 (GcmFrame.packet ⟨salt.bytes, iv.bytes, text⟩), ?_, ?_⟩
  · rw [aesGcmEncrypt, key]
    change (rethrow _ (library.aesGcmEncrypt _ _ _) >>= _) = _
    rw [encrypted]
    rfl
  · rw [aesGcmDecrypt, fromBase64_toBase64 lawful]
    change (gcmFraming _ >>= _) = _
    rw [gcmFraming_eq_ok.mpr ⟨valid, rfl⟩]
    change (deriveKeyFromPassword library pass salt.bytes 32 200000 >>= _) = _
    rw [key]
    change rethrow _ (library.aesGcmDecrypt _ _ _) = _
    rw [decrypted]
    rfl

end Gcm

section Hmac

/-- A packet with the right code is accepted when the cipher decrypts its text. -/
theorem HmacScheme.decryptPacket_packet (lawful : library.Lawful) (valid : frame.Valid)
    (mac : frame.mac = library.hmac (library.pbkdf2 pass frame.salt 32 200000)
      (frame.iv ++ frame.ciphertext))
    (decrypted : scheme.decrypt (library.pbkdf2 pass frame.salt 32 200000) frame.iv
      frame.ciphertext = .ok plaintext) :
    scheme.decryptPacket library (library.toBase64 (frame.packet scheme.algorithm)) pass =
      .ok plaintext := by
  have key : deriveKeyFromPassword library pass frame.salt 32 200000 = _ :=
    deriveKeyFromPassword_block valid.salt
  rw [decryptPacket, fromBase64_toBase64 lawful]
  change (scheme.framing _ >>= _) = _
  rw [framing_eq_ok.mpr ⟨valid, rfl⟩]
  change (deriveKeyFromPassword library pass frame.salt 32 200000 >>= _) = _
  rw [key]
  change (require (constantTimeEqual frame.mac (library.hmac _ _)) _ >>= _) = _
  rw [← mac, constantTimeEqual_self]
  change rethrow _ (scheme.decrypt _ _ _) = _
  rw [decrypted]
  rfl

/-- What a scheme writes. -/
theorem HmacScheme.exists_packet (lawful : library.Lawful)
    (inverts : Inverts scheme.encrypt scheme.decrypt 16) (salt iv : Block 16)
    (plaintext pass : Bytes) :
    ∃ frame : HmacFrame, frame.Valid ∧
      scheme.encryptPacket library salt iv plaintext pass =
        .ok (library.toBase64 (frame.packet scheme.algorithm)) ∧
      frame.mac = library.hmac (library.pbkdf2 pass frame.salt 32 200000)
        (frame.iv ++ frame.ciphertext) ∧
      scheme.decrypt (library.pbkdf2 pass frame.salt 32 200000) frame.iv frame.ciphertext =
        .ok plaintext := by
  have key : deriveKeyFromPassword library pass salt.bytes 32 200000 = _ :=
    deriveKeyFromPassword_block salt.length_bytes
  rcases inverts _ iv.bytes plaintext (lawful.length_pbkdf2 pass salt.bytes 32 200000)
    iv.length_bytes with ⟨text, encrypted, decrypted⟩
  refine ⟨⟨salt.bytes, iv.bytes, library.hmac (library.pbkdf2 pass salt.bytes 32 200000)
    (iv.bytes ++ text), text⟩, ?_, ?_, rfl, decrypted⟩
  · exact ⟨salt.length_bytes, iv.length_bytes, lawful.length_hmac _ _⟩
  · rw [encryptPacket, key]
    change (rethrow _ (scheme.encrypt _ _ _) >>= _) = _
    rw [encrypted]
    rfl

theorem HmacScheme.decryptPacket_encryptPacket (lawful : library.Lawful)
    (inverts : Inverts scheme.encrypt scheme.decrypt 16) (salt iv : Block 16)
    (plaintext pass : Bytes) :
    ∃ packet, scheme.encryptPacket library salt iv plaintext pass = .ok packet ∧
      scheme.decryptPacket library packet pass = .ok plaintext := by
  rcases exists_packet lawful inverts salt iv plaintext pass with
    ⟨frame, valid, written, mac, decrypted⟩
  exact ⟨_, written, decryptPacket_packet lawful valid mac decrypted⟩

end Hmac

/-- The schemes with a message authentication code. -/
def hmacSchemes (library : CryptoLibrary) : List HmacScheme :=
  [aesCbc library, aesCtr library, twofishCtr library]

/-- Every scheme decrypts what it encrypts, and the checks of every scheme stay inside the
packet and let pass exactly the layout. -/
theorem packets_framed (lawful : library.Lawful) :
    (∀ salt iv plaintext pass, ∃ packet, aesGcmEncrypt library salt iv plaintext pass = .ok packet ∧
      aesGcmDecrypt library packet pass = .ok plaintext) ∧
    (∀ salt iv plaintext pass, ∃ packet, aesCbcEncrypt library salt iv plaintext pass = .ok packet ∧
      aesCbcDecrypt library packet pass = .ok plaintext) ∧
    (∀ salt iv plaintext pass, ∃ packet, aesCtrEncrypt library salt iv plaintext pass = .ok packet ∧
      aesCtrDecrypt library packet pass = .ok plaintext) ∧
    (∀ salt iv plaintext pass, ∃ packet,
      twofishCtrEncrypt library salt iv plaintext pass = .ok packet ∧
      twofishCtrDecrypt library packet pass = .ok plaintext) ∧
    (∀ bin, Never OutOfBounds (gcmFraming bin) ∧
      ∀ frame, gcmFraming bin = .ok frame ↔ frame.Valid ∧ bin = frame.packet) ∧
    ∀ scheme ∈ hmacSchemes library, ∀ bin, Never OutOfBounds (scheme.framing bin) ∧
      ∀ frame, scheme.framing bin = .ok frame ↔ frame.Valid ∧ bin = frame.packet scheme.algorithm :=
  ⟨aesGcmDecrypt_encrypt lawful,
    (aesCbc library).decryptPacket_encryptPacket lawful lawful.aesCbc,
    (aesCtr library).decryptPacket_encryptPacket lawful lawful.aesCtr,
    (twofishCtr library).decryptPacket_encryptPacket lawful lawful.twofishCtr,
    fun _ => ⟨never_gcmFraming, fun _ => gcmFraming_eq_ok⟩,
    fun scheme _ _ => ⟨scheme.never_framing, fun _ => scheme.framing_eq_ok⟩⟩

/-- The key of the empty password and a zero salt. -/
def sampleKey : Bytes := [72, 110, 142, 184, 214, 184, 202, 200, 123, 154, 200, 110, 121, 67, 174,
  236, 165, 7, 188, 209, 204, 47, 251, 149, 142, 39, 42, 48, 11, 46, 218, 136]

/-- The code of a zero initialization vector under this key. -/
def sampleMac : Bytes := [11, 9, 207, 125, 184, 29, 30, 118, 31, 73, 211, 215, 153, 240, 160, 241,
  112, 52, 96, 206, 33, 106, 221, 47, 239, 158, 31, 80, 49, 110, 233, 160]

/-- Sixteen zero bytes. -/
def zeros : Block 16 := ⟨List.replicate 16 0, rfl⟩

/-- The AES-CTR packet of the empty plaintext with these parts. -/
def samplePacket : Bytes := HmacFrame.packet ⟨zeros.bytes, zeros.bytes, sampleMac, []⟩ .algAesCtr

/-- Its encoding. -/
def sampleText : Bytes := Bytes.text
  "Q1cDAAAAAAAAAAAAAAAAAAAAABAAAAAAAAAAAAAAAAAAAAAAIAAAAAsJz324HR52H0nT15nwoPFwNGDOIWrdL++eH1Axbumg"

/-- A library with toy ciphers, whose key, code and encoding are the real ones for the
empty password and plaintext and for zero bytes as salt and initialization vector. -/
def sampleLibrary : CryptoLibrary where
  toBase64 raw := if raw = samplePacket then sampleText else 0 :: raw
  fromBase64 text := .ok (if text = sampleText then samplePacket else text.tail)
  pbkdf2 _ _ keyLen _ := if keyLen = 32 then sampleKey else List.replicate keyLen 0
  aesGcmEncrypt _ _ plaintext := .ok (plaintext ++ List.replicate 16 0)
  aesGcmDecrypt _ _ text := .ok (text.take (text.length - 16))
  aesCbcEncrypt _ _ plaintext := .ok plaintext
  aesCbcDecrypt _ _ text := .ok text
  aesCtrEncrypt _ _ plaintext := .ok (plaintext.map (· ^^^ 1))
  aesCtrDecrypt _ _ text := .ok (text.map (· ^^^ 1))
  twofishCtrEncrypt _ _ plaintext := .ok (plaintext.map (· ^^^ 2))
  twofishCtrDecrypt _ _ text := .ok (text.map (· ^^^ 2))
  hmac key message :=
    if key = sampleKey ∧ message = zeros.bytes then sampleMac
    else (message ++ key ++ List.replicate 32 0).take 32

theorem head_sampleText : sampleText.head? = some 81 :=
  congrArg List.head? (Bytes.text_ofList [
    'Q', '1', 'c', 'D', 'A', 'A', 'A', 'A', 'A', 'A', 'A', 'A', 'A', 'A', 'A', 'A', 'A', 'A',
    'A', 'A', 'A', 'A', 'A', 'A', 'A', 'B', 'A', 'A', 'A', 'A', 'A', 'A', 'A', 'A', 'A', 'A',
    'A', 'A', 'A', 'A', 'A', 'A', 'A', 'A', 'A', 'A', 'A', 'A', 'I', 'A', 'A', 'A', 'A', 'A',
    's', 'J', 'z', '3', '2', '4', 'H', 'R', '5', '2', 'H', '0', 'n', 'T', '1', '5', 'n', 'w',
    'o', 'P', 'F', 'w', 'N', 'G', 'D', 'O', 'I', 'W', 'r', 'd', 'L', '+', '+', 'e', 'H', '1',
    'A', 'x', 'b', 'u', 'm', 'g'])

theorem xor_xor_map (mask : UInt8) (bytes : Bytes) :
    (bytes.map (· ^^^ mask)).map (· ^^^ mask) = bytes := by
  rw [List.map_map]
  conv_rhs => rw [← List.map_id bytes]
  apply List.map_congr_left
  intro byte _
  change byte ^^^ mask ^^^ mask = byte
  rw [UInt8.xor_assoc, UInt8.xor_self, UInt8.xor_zero]

theorem sampleLibrary_lawful : sampleLibrary.Lawful where
  fromBase64_toBase64 := by
    intro raw
    by_cases sample : raw = samplePacket
    · have encoded : sampleLibrary.toBase64 raw = sampleText := if_pos sample
      rw [encoded, sample]
      exact congrArg Except.ok (if_pos rfl)
    · have encoded : sampleLibrary.toBase64 raw = 0 :: raw := if_neg sample
      rw [encoded]
      apply congrArg Except.ok
      apply if_neg
      intro same
      have head := congrArg List.head? same
      rw [head_sampleText] at head
      cases head
  length_pbkdf2 := by
    intro pass salt keyLen iterations
    change (if keyLen = 32 then sampleKey else List.replicate keyLen 0).length = keyLen
    split
    next size => rw [size]; rfl
    next => exact List.length_replicate
  length_hmac := by
    intro key message
    change (if key = sampleKey ∧ message = zeros.bytes then sampleMac else _).length = 32
    split
    · rfl
    · rw [List.length_take, List.length_append, List.length_replicate]
      omega
  length_aesGcm := by
    intro key iv plaintext text encrypted
    cases encrypted
    rw [List.length_append, List.length_replicate]
    omega
  aesGcm key iv plaintext _ _ := by
    refine ⟨_, rfl, congrArg Except.ok ?_⟩
    rw [List.length_append, List.length_replicate, Nat.add_sub_cancel, List.take_left]
  aesCbc key iv plaintext _ _ := ⟨_, rfl, rfl⟩
  aesCtr key iv plaintext _ _ := ⟨_, rfl, congrArg Except.ok (xor_xor_map 1 plaintext)⟩
  twofishCtr key iv plaintext _ _ := ⟨_, rfl, congrArg Except.ok (xor_xor_map 2 plaintext)⟩

/-- The real packet of the empty plaintext. -/
theorem packets_framed_example :
    aesCtrEncrypt sampleLibrary zeros zeros [] [] = .ok sampleText ∧
      aesCtrDecrypt sampleLibrary sampleText [] = .ok [] := by
  have written : aesCtrEncrypt sampleLibrary zeros zeros [] [] = .ok sampleText := by decide +kernel
  rcases (packets_framed sampleLibrary_lawful).2.2.1 zeros zeros [] [] with ⟨packet, same, read⟩
  rw [written] at same
  rw [← Except.ok.inj same] at read
  exact ⟨written, read⟩

theorem Binary.value_injective {first second : Binary} (same : first.value = second.value) :
    first = second := by
  cases first <;> cases second <;> first | rfl | exact absurd same (by decide)

/-- Packets of different algorithms differ. -/
theorem HmacFrame.Valid.packet_ne (valid : frame.Valid) {first second : Binary}
    (different : first ≠ second) : frame.packet first ≠ frame.packet second := by
  intro same
  have one := (valid.eq_packet_iff.mp (Eq.refl (frame.packet first))).2.2.1
  have two := (valid.eq_packet_iff.mp same).2.2.1
  rw [one] at two
  exact different (Binary.value_injective (Option.some.inj two))

/-- A stream cipher accepts the packet of another scheme under its own algorithm byte. -/
theorem HmacScheme.accepts_relabelled (lawful : library.Lawful) (streams : Streams other.decrypt 16)
    (inverts : Inverts scheme.encrypt scheme.decrypt 16)
    (different : other.algorithm ≠ scheme.algorithm)
    (salt iv : Block 16) (plaintext pass : Bytes) : ∃ frame : HmacFrame,
      scheme.encryptPacket library salt iv plaintext pass =
        .ok (library.toBase64 (frame.packet scheme.algorithm)) ∧
      frame.packet other.algorithm ≠ frame.packet scheme.algorithm ∧
      ∃ accepted,
        other.decryptPacket library (library.toBase64 (frame.packet other.algorithm)) pass =
          .ok accepted := by
  rcases exists_packet lawful inverts salt iv plaintext pass with ⟨frame, valid, written, mac, _⟩
  rcases streams (library.pbkdf2 pass frame.salt 32 200000) frame.iv frame.ciphertext
    (lawful.length_pbkdf2 ..) valid.iv with ⟨accepted, decrypted⟩
  exact ⟨frame, written, valid.packet_ne different, accepted,
    decryptPacket_packet lawful valid mac decrypted⟩

/-- Every packet of a scheme is accepted by another scheme when only its algorithm byte is
replaced. -/
theorem relabelled_accepted (lawful : library.Lawful)
    (aesStreams : Streams library.aesCtrDecrypt 16)
    (twofishStreams : Streams library.twofishCtrDecrypt 16) :
    ∀ scheme ∈ hmacSchemes library, ∀ salt iv plaintext pass, ∃ other ∈ hmacSchemes library,
      ∃ frame : HmacFrame,
        scheme.encryptPacket library salt iv plaintext pass =
          .ok (library.toBase64 (frame.packet scheme.algorithm)) ∧
        frame.packet other.algorithm ≠ frame.packet scheme.algorithm ∧
        ∃ accepted,
          other.decryptPacket library (library.toBase64 (frame.packet other.algorithm)) pass =
            .ok accepted := by
  intro scheme member salt iv plaintext pass
  have isAes : aesCtr library ∈ hmacSchemes library := .tail _ (.head _)
  have isTwofish : twofishCtr library ∈ hmacSchemes library := .tail _ (.tail _ (.head _))
  rw [hmacSchemes, List.mem_cons, List.mem_cons, List.mem_singleton] at member
  rcases member with rfl | rfl | rfl
  · exact ⟨_, isAes, HmacScheme.accepts_relabelled lawful aesStreams lawful.aesCbc
      (by decide : Binary.algAesCtr ≠ .algAesCbc) salt iv plaintext pass⟩
  · exact ⟨_, isTwofish, HmacScheme.accepts_relabelled lawful twofishStreams lawful.aesCtr
      (by decide : Binary.algTwofishCtr ≠ .algAesCtr) salt iv plaintext pass⟩
  · exact ⟨_, isAes, HmacScheme.accepts_relabelled lawful aesStreams lawful.twofishCtr
      (by decide : Binary.algAesCtr ≠ .algTwofishCtr) salt iv plaintext pass⟩

theorem streams_map (mask : UInt8) (ivLen : Nat) :
    Streams (fun _ _ text => .ok (text.map (· ^^^ mask))) ivLen :=
  fun _ _ _ _ _ => ⟨_, rfl⟩

theorem relabelled_accepted_example : ∃ other ∈ hmacSchemes sampleLibrary, ∃ frame : HmacFrame,
    aesCtrEncrypt sampleLibrary zeros zeros [] [] =
      .ok (sampleLibrary.toBase64 (frame.packet .algAesCtr)) ∧
    frame.packet other.algorithm ≠ frame.packet .algAesCtr ∧
    ∃ accepted, other.decryptPacket sampleLibrary
      (sampleLibrary.toBase64 (frame.packet other.algorithm)) [] = .ok accepted :=
  relabelled_accepted sampleLibrary_lawful (streams_map 1 16) (streams_map 2 16)
    (aesCtr sampleLibrary)
    (.tail _ (.head _)) zeros zeros [] []

/-- An AES-CTR packet that is decrypted to something else by Twofish-CTR. -/
theorem relabelled_not_rejected : ∃ frame : HmacFrame,
    aesCtrEncrypt sampleLibrary zeros zeros (Bytes.text "secret") (Bytes.text "password") =
      .ok (sampleLibrary.toBase64 (frame.packet .algAesCtr)) ∧
    frame.packet .algTwofishCtr ≠ frame.packet .algAesCtr ∧
    ∃ accepted, twofishCtrDecrypt sampleLibrary
        (sampleLibrary.toBase64 (frame.packet .algTwofishCtr)) (Bytes.text "password") =
          .ok accepted ∧
      accepted ≠ Bytes.text "secret" := by
  refine ⟨⟨zeros.bytes, zeros.bytes, sampleLibrary.hmac sampleKey
      (zeros.bytes ++ (Bytes.text "secret").map (· ^^^ 1)), (Bytes.text "secret").map (· ^^^ 1)⟩,
    ?_, ?_, (Bytes.text "secret").map (· ^^^ 3), ?_, ?_⟩
  · decide +kernel
  · decide +kernel
  · decide +kernel
  · decide

end Wan.Network.Encryption
