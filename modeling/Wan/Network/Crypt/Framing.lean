import Wan.Library.Layout
import Wan.Network.Crypt.Packet

/-!
# The framing of packets

The checks at the start of each `Decrypt` function stay inside the packet, and let pass
exactly the packets of the layout that the matching `Encrypt` function writes.
-/

namespace Wan.Network.Encryption

open Wan.Library

variable {bin part : Bytes} {position count : Nat} {byte expected : UInt8} {condition : Bool}
  {what : String} {value : Unit} {A : Type} {result : A} {test : UInt8 → Bool}

/-- The exceptions that stand for an access outside. -/
def OutOfBounds (exception : CryptoError) : Prop := ∃ position, exception = .outOfBounds position

section Accesses

theorem require_eq_ok : require condition what = .ok value ↔ condition = true := by
  cases condition with
  | false => exact iff_of_false nofun nofun
  | true => exact iff_of_true rfl rfl

theorem byteAt_eq_ok : byteAt bin position = .ok byte ↔ bin[position]? = some byte := by
  rw [byteAt]
  cases found : bin[position]? with
  | none => exact iff_of_false nofun nofun
  | some other =>
      constructor
      · intro same
        cases same
        rfl
      · intro same
        cases same
        rfl

theorem bytesAt_eq_ok : bytesAt bin position count = .ok part ↔
    position + count ≤ bin.length ∧ (bin.drop position).take count = part := by
  rw [bytesAt]
  split
  next inside =>
    constructor
    · intro same
      cases same
      exact ⟨inside, rfl⟩
    · intro parts
      rw [parts.2]
  next outside => exact iff_of_false nofun fun parts => outside parts.1

theorem substr_eq_ok : substr bin position = .ok part ↔
    position ≤ bin.length ∧ bin.drop position = part := by
  rw [substr]
  split
  next inside =>
    constructor
    · intro same
      cases same
      exact ⟨inside, rfl⟩
    · intro parts
      rw [parts.2]
  next outside => exact iff_of_false nofun fun parts => outside parts.1

/-- A check in front of the rest. -/
theorem checked_eq_ok {next : Except CryptoError A} :
    (require condition what >>= fun _ => next) = .ok result ↔
      condition = true ∧ next = .ok result := by
  rw [bind_eq_ok]
  constructor
  · intro done
    rcases done with ⟨_, holds, done⟩
    exact ⟨require_eq_ok.mp holds, done⟩
  · intro parts
    exact ⟨(), require_eq_ok.mpr parts.1, parts.2⟩

/-- A byte that has to be the expected one, and to pass a test. -/
theorem tested_eq_ok {next : UInt8 → Except CryptoError A} :
    (byteAt bin position >>= fun byte =>
        require (decide (byte = expected) && test byte) what >>= fun _ => next byte) =
      .ok result ↔
      bin[position]? = some expected ∧ test expected = true ∧ next expected = .ok result := by
  rw [bind_eq_ok]
  constructor
  · intro done
    rcases done with ⟨byte, found, done⟩
    rw [checked_eq_ok, Bool.and_eq_true, decide_eq_true_eq] at done
    rcases done with ⟨⟨rfl, passed⟩, done⟩
    exact ⟨byteAt_eq_ok.mp found, passed, done⟩
  · intro parts
    rcases parts with ⟨found, passed, done⟩
    refine ⟨expected, byteAt_eq_ok.mpr found, checked_eq_ok.mpr ⟨?_, done⟩⟩
    rw [passed, decide_eq_true rfl]
    rfl

/-- A byte that has to be the expected one. -/
theorem expected_eq_ok {next : Except CryptoError A} :
    (byteAt bin position >>= fun byte =>
        require (decide (byte = expected)) what >>= fun _ => next) = .ok result ↔
      bin[position]? = some expected ∧ next = .ok result := by
  rw [bind_eq_ok]
  constructor
  · intro done
    rcases done with ⟨byte, found, done⟩
    rw [checked_eq_ok, decide_eq_true_eq] at done
    rcases done with ⟨rfl, done⟩
    exact ⟨byteAt_eq_ok.mp found, done⟩
  · intro parts
    exact ⟨expected, byteAt_eq_ok.mpr parts.1, checked_eq_ok.mpr ⟨decide_eq_true rfl, parts.2⟩⟩

theorem never_require : Never OutOfBounds (require condition what) := by
  cases condition with
  | false =>
      intro exception thrown outside
      rcases outside with ⟨position, rfl⟩
      cases thrown
  | true => exact never_ok

theorem never_byteAt (inside : position < bin.length) :
    Never OutOfBounds (byteAt bin position) := by
  rw [byteAt, List.getElem?_eq_getElem inside]
  exact never_ok

theorem never_bytesAt (inside : position + count ≤ bin.length) :
    Never OutOfBounds (bytesAt bin position count) := by
  rw [bytesAt, if_pos inside]
  exact never_ok

theorem never_substr (inside : position ≤ bin.length) :
    Never OutOfBounds (substr bin position) := by
  rw [substr, if_pos inside]
  exact never_ok

theorem never_checked {next : Except CryptoError A}
    (rest : condition = true → Never OutOfBounds next) :
    Never OutOfBounds (require condition what >>= fun _ => next) := by
  apply never_require.bind
  intro _ holds
  exact rest (require_eq_ok.mp holds)

theorem never_tested {next : UInt8 → Except CryptoError A} (inside : position < bin.length)
    (rest : ∀ byte, test byte = true → Never OutOfBounds (next byte)) :
    Never OutOfBounds (byteAt bin position >>= fun byte =>
      require (decide (byte = expected) && test byte) what >>= fun _ => next byte) := by
  apply (never_byteAt inside).bind
  intro byte _
  apply never_checked
  intro passed
  exact rest byte (Bool.and_eq_true_iff.mp passed).2

theorem never_expected {next : Except CryptoError A} (inside : position < bin.length)
    (rest : Never OutOfBounds next) :
    Never OutOfBounds (byteAt bin position >>= fun byte =>
      require (decide (byte = expected)) what >>= fun _ => next) := by
  apply (never_byteAt inside).bind
  intro byte _
  exact never_checked fun _ => rest

/-- `ReadUint32` checks its position itself. -/
theorem never_readUint32 : Never OutOfBounds (readUint32 bin position) := by
  rw [readUint32]
  split
  · exact never_ok
  next inside =>
  rw [not_or] at inside
  apply (never_byteAt (by omega)).bind
  intro first _
  apply (never_byteAt (by omega)).bind
  intro second _
  apply (never_byteAt (by omega)).bind
  intro third _
  apply (never_byteAt (by omega)).bind
  intro fourth _
  exact never_ok

/-- The number 32 at a position. -/
theorem readUint32_eq_32 : readUint32 bin position = .ok (some 32) ↔
    bin[position]? = some 32 ∧ bin[position + 1]? = some 0 ∧ bin[position + 2]? = some 0 ∧
      bin[position + 3]? = some 0 := by
  rw [readUint32]
  split
  next short =>
    apply iff_of_false nofun
    intro bytes
    have inside := (List.getElem?_eq_some_iff.mp bytes.2.2.2).1
    omega
  next inside =>
  constructor
  · intro read
    rcases bind_eq_ok.mp read with ⟨first, at0, read⟩
    rcases bind_eq_ok.mp read with ⟨second, at1, read⟩
    rcases bind_eq_ok.mp read with ⟨third, at2, read⟩
    rcases bind_eq_ok.mp read with ⟨fourth, at3, read⟩
    have number := Bytes.toNat_littleEndian first second third fourth
    have same : first.toUInt32 ||| second.toUInt32 <<< 8 ||| third.toUInt32 <<< 16 |||
        fourth.toUInt32 <<< 24 = 32 := Option.some.inj (Except.ok.inj read)
    rw [same] at number
    have thirtyTwo : (32 : UInt32).toNat = 32 := rfl
    rw [byteAt_eq_ok] at at0 at1 at2 at3
    rw [at0, at1, at2, at3]
    have isFirst : first = 32 := UInt8.toNat_inj.mp (by change _ = 32; omega)
    have isSecond : second = 0 := UInt8.toNat_inj.mp (by change _ = 0; omega)
    have isThird : third = 0 := UInt8.toNat_inj.mp (by change _ = 0; omega)
    have isFourth : fourth = 0 := UInt8.toNat_inj.mp (by change _ = 0; omega)
    rw [isFirst, isSecond, isThird, isFourth]
    exact ⟨rfl, rfl, rfl, rfl⟩
  · intro bytes
    rw [bind_eq_ok]
    refine ⟨32, byteAt_eq_ok.mpr bytes.1, bind_eq_ok.mpr ⟨0, byteAt_eq_ok.mpr bytes.2.1,
      bind_eq_ok.mpr ⟨0, byteAt_eq_ok.mpr bytes.2.2.1,
        bind_eq_ok.mpr ⟨0, byteAt_eq_ok.mpr bytes.2.2.2, ?_⟩⟩⟩⟩
    rfl

end Accesses

section Hmac

variable {scheme : HmacScheme} {frame : HmacFrame}

/-- The parts of a packet have the lengths of the layout. -/
structure HmacFrame.Valid (frame : HmacFrame) : Prop where
  salt : frame.salt.length = 16
  iv : frame.iv.length = 16
  mac : frame.mac.length = 32

/-- A packet, position by position. -/
theorem HmacFrame.Valid.eq_packet_iff (valid : frame.Valid) {algorithm : Binary} :
    bin = frame.packet algorithm ↔
      bin[0]? = some (Bytes.char 'C') ∧ bin[1]? = some (Bytes.char 'W') ∧
      bin[2]? = some algorithm.value ∧ (bin.drop 3).take 16 = frame.salt ∧ bin[19]? = some 16 ∧
      (bin.drop 20).take 16 = frame.iv ∧ bin[36]? = some 32 ∧ bin[37]? = some 0 ∧
      bin[38]? = some 0 ∧ bin[39]? = some 0 ∧ (bin.drop 40).take 32 = frame.mac ∧
      bin.drop 72 = frame.ciphertext := by
  have length :
      appendUint32 (Bytes.text "CW" ++ [algorithm.value] ++ frame.salt ++ [16] ++ frame.iv)
        frame.mac.length.toUInt32 = Bytes.text "CW" ++ [algorithm.value] ++ frame.salt ++ [16] ++
        frame.iv ++ [32, 0, 0, 0] := by
    rw [appendUint32, valid.mac]
    rfl
  have packet : frame.packet algorithm = Bytes.char 'C' :: Bytes.char 'W' :: algorithm.value ::
      (frame.salt ++ (16 :: (frame.iv ++
        (32 :: 0 :: 0 :: 0 :: (frame.mac ++ frame.ciphertext))))) := by
    have magic : Bytes.text "CW" = [Bytes.char 'C', Bytes.char 'W'] := by decide
    rw [HmacFrame.packet, length, magic]
    simp only [List.append_assoc, List.cons_append, List.nil_append]
  rw [packet]
  conv_lhs => rw [← List.drop_zero (l := bin)]
  rw [Bytes.drop_eq_cons_iff, Bytes.drop_eq_cons_iff, Bytes.drop_eq_cons_iff,
    Bytes.drop_eq_append_iff, Bytes.drop_eq_cons_iff, Bytes.drop_eq_append_iff,
    Bytes.drop_eq_cons_iff, Bytes.drop_eq_cons_iff, Bytes.drop_eq_cons_iff,
    Bytes.drop_eq_cons_iff, Bytes.drop_eq_append_iff, valid.salt, valid.iv, valid.mac]

/-- The checks let pass exactly the packets of the scheme. -/
theorem HmacScheme.framing_eq_ok : scheme.framing bin = .ok frame ↔
    frame.Valid ∧ bin = frame.packet scheme.algorithm := by
  have sixteen : (16 : UInt8).toNat = 16 := rfl
  have thirtyTwo : (32 : UInt32).toNat = 32 := rfl
  rw [framing, checked_eq_ok, expected_eq_ok, expected_eq_ok, expected_eq_ok, checked_eq_ok,
    tested_eq_ok, sixteen]
  constructor
  · intro done
    rcases done with ⟨long, at0, at1, at2, _, at19, _, done⟩
    rw [decide_eq_true_eq] at long
    rcases bind_eq_ok.mp done with ⟨found, at36, done⟩
    cases found with
    | none => cases done
    | some macLen =>
        rcases checked_eq_ok.mp done with ⟨isMac, done⟩
        rcases bind_eq_ok.mp done with ⟨mac, at40, done⟩
        rcases bind_eq_ok.mp done with ⟨ciphertext, at72, done⟩
        rcases bind_eq_ok.mp done with ⟨salt, at3, done⟩
        rcases bind_eq_ok.mp done with ⟨iv, at20, finished⟩
        rw [Bool.and_eq_true, decide_eq_true_eq] at isMac
        rcases isMac with ⟨rfl, _⟩
        rw [bytesAt_eq_ok] at at40 at3 at20
        rw [substr_eq_ok] at at72
        rw [thirtyTwo] at at40 at72
        cases finished
        have valid : HmacFrame.Valid ⟨salt, iv, mac, ciphertext⟩ := by
          constructor
          · rw [← at3.2, List.length_take, List.length_drop]
            omega
          · rw [← at20.2, List.length_take, List.length_drop]
            omega
          · rw [← at40.2, List.length_take, List.length_drop]
            omega
        rcases readUint32_eq_32.mp at36 with ⟨at36, at37, at38, at39⟩
        exact ⟨valid, valid.eq_packet_iff.mpr ⟨at0, at1, at2, at3.2, at19, at20.2, at36, at37, at38,
          at39, at40.2, at72.2⟩⟩
  · intro layout
    rcases layout with ⟨valid, packet⟩
    rcases valid.eq_packet_iff.mp packet with
      ⟨at0, at1, at2, at3, at19, at20, at36, at37, at38, at39, at40, at72⟩
    have long : 72 ≤ bin.length := by
      have mac := valid.mac
      rw [← at40, List.length_take, List.length_drop] at mac
      omega
    have macLen := readUint32_eq_32.mpr ⟨at36, at37, at38, at39⟩
    have macFits : (32 : UInt32).toNat ≤ bin.length - 40 := by
      rw [thirtyTwo]
      omega
    have salt : bytesAt bin 3 16 = .ok frame.salt := bytesAt_eq_ok.mpr ⟨by omega, at3⟩
    have iv : bytesAt bin 20 16 = .ok frame.iv := bytesAt_eq_ok.mpr ⟨by omega, at20⟩
    have mac : bytesAt bin 40 32 = .ok frame.mac := bytesAt_eq_ok.mpr ⟨by omega, at40⟩
    have ciphertext : substr bin 72 = .ok frame.ciphertext := substr_eq_ok.mpr ⟨by omega, at72⟩
    refine ⟨decide_eq_true (by omega), at0, at1, at2, decide_eq_true (by omega), at19,
      decide_eq_true (by omega), ?_⟩
    refine bind_eq_ok.mpr ⟨_, macLen, checked_eq_ok.mpr ⟨?_, ?_⟩⟩
    · exact Bool.and_eq_true_iff.mpr ⟨decide_eq_true rfl, decide_eq_true macFits⟩
    refine bind_eq_ok.mpr ⟨_, mac, ?_⟩
    refine bind_eq_ok.mpr ⟨_, ciphertext, ?_⟩
    refine bind_eq_ok.mpr ⟨_, salt, ?_⟩
    refine bind_eq_ok.mpr ⟨_, iv, ?_⟩
    rfl

/-- The checks stay inside the packet. -/
theorem HmacScheme.never_framing : Never OutOfBounds (scheme.framing bin) := by
  rw [framing]
  apply never_checked
  intro long
  rw [decide_eq_true_eq] at long
  apply never_expected (by omega)
  apply never_expected (by omega)
  apply never_expected (by omega)
  apply never_checked
  intro _
  apply never_tested (by omega)
  intro ivLen ivFits
  rw [decide_eq_true_eq] at ivFits
  apply never_readUint32.bind
  intro found _
  cases found with
  | none =>
      intro exception thrown outside
      rcases outside with ⟨position, rfl⟩
      cases thrown
  | some macLen =>
      apply never_checked
      intro isMac
      rw [Bool.and_eq_true, decide_eq_true_eq, decide_eq_true_eq] at isMac
      apply (never_bytesAt (by omega)).bind
      intro mac _
      apply (never_substr (by omega)).bind
      intro ciphertext _
      apply (never_bytesAt (by omega)).bind
      intro salt _
      apply (never_bytesAt (by omega)).bind
      intro iv _
      exact never_ok

end Hmac

section Gcm

variable {frame : GcmFrame}

/-- The parts of a packet have the lengths of the layout; the tag is the end of the last
part. -/
structure GcmFrame.Valid (frame : GcmFrame) : Prop where
  salt : frame.salt.length = 16
  iv : frame.iv.length = 12
  tag : 16 ≤ frame.cipherAndTag.length

/-- The binary packet of these parts. -/
def GcmFrame.packet (frame : GcmFrame) : Bytes :=
  Bytes.text "CW" ++ [Binary.algAesGcm.value] ++ frame.salt ++ [12] ++ frame.iv ++ [16] ++
    frame.cipherAndTag

/-- A packet, position by position. -/
theorem GcmFrame.Valid.eq_packet_iff (valid : frame.Valid) : bin = frame.packet ↔
    bin[0]? = some (Bytes.char 'C') ∧ bin[1]? = some (Bytes.char 'W') ∧
    bin[2]? = some Binary.algAesGcm.value ∧ (bin.drop 3).take 16 = frame.salt ∧
    bin[19]? = some 12 ∧ (bin.drop 20).take 12 = frame.iv ∧ bin[32]? = some 16 ∧
    bin.drop 33 = frame.cipherAndTag := by
  have packet : frame.packet = Bytes.char 'C' :: Bytes.char 'W' :: Binary.algAesGcm.value ::
      (frame.salt ++ (12 :: (frame.iv ++ (16 :: frame.cipherAndTag)))) := by
    have magic : Bytes.text "CW" = [Bytes.char 'C', Bytes.char 'W'] := by decide
    rw [GcmFrame.packet, magic]
    simp only [List.append_assoc, List.cons_append, List.nil_append]
  rw [packet]
  conv_lhs => rw [← List.drop_zero (l := bin)]
  rw [Bytes.drop_eq_cons_iff, Bytes.drop_eq_cons_iff, Bytes.drop_eq_cons_iff,
    Bytes.drop_eq_append_iff, Bytes.drop_eq_cons_iff, Bytes.drop_eq_append_iff,
    Bytes.drop_eq_cons_iff, valid.salt, valid.iv]

/-- The checks let pass exactly the packets of the layout. -/
theorem gcmFraming_eq_ok : gcmFraming bin = .ok frame ↔ frame.Valid ∧ bin = frame.packet := by
  have twelve : (12 : UInt8).toNat = 12 := rfl
  have sixteen : (16 : UInt8).toNat = 16 := rfl
  rw [gcmFraming, checked_eq_ok, expected_eq_ok, expected_eq_ok, expected_eq_ok, checked_eq_ok,
    tested_eq_ok, tested_eq_ok, twelve, sixteen]
  constructor
  · intro done
    rcases done with ⟨long, at0, at1, at2, _, at19, _, at32, tagFits, done⟩
    rw [decide_eq_true_eq] at long tagFits
    rcases bind_eq_ok.mp done with ⟨cipherAndTag, at33, done⟩
    rcases bind_eq_ok.mp done with ⟨salt, at3, done⟩
    rcases bind_eq_ok.mp done with ⟨iv, at20, finished⟩
    rw [bytesAt_eq_ok] at at3 at20
    rw [substr_eq_ok] at at33
    cases finished
    have valid : GcmFrame.Valid ⟨salt, iv, cipherAndTag⟩ := by
      constructor
      · rw [← at3.2, List.length_take, List.length_drop]
        omega
      · rw [← at20.2, List.length_take, List.length_drop]
        omega
      · rw [← at33.2, List.length_drop]
        omega
    exact ⟨valid, valid.eq_packet_iff.mpr ⟨at0, at1, at2, at3.2, at19, at20.2, at32, at33.2⟩⟩
  · intro layout
    rcases layout with ⟨valid, packet⟩
    rcases valid.eq_packet_iff.mp packet with ⟨at0, at1, at2, at3, at19, at20, at32, at33⟩
    have long : 49 ≤ bin.length := by
      have tag := valid.tag
      rw [← at33, List.length_drop] at tag
      omega
    have salt : bytesAt bin 3 16 = .ok frame.salt := bytesAt_eq_ok.mpr ⟨by omega, at3⟩
    have iv : bytesAt bin 20 12 = .ok frame.iv := bytesAt_eq_ok.mpr ⟨by omega, at20⟩
    have cipherAndTag : substr bin 33 = .ok frame.cipherAndTag := substr_eq_ok.mpr ⟨by omega, at33⟩
    refine ⟨decide_eq_true (by omega), at0, at1, at2, decide_eq_true (by omega), at19,
      decide_eq_true (by omega), at32, decide_eq_true (by omega), ?_⟩
    refine bind_eq_ok.mpr ⟨_, cipherAndTag, ?_⟩
    refine bind_eq_ok.mpr ⟨_, salt, ?_⟩
    refine bind_eq_ok.mpr ⟨_, iv, ?_⟩
    rfl

/-- The checks stay inside the packet. -/
theorem never_gcmFraming : Never OutOfBounds (gcmFraming bin) := by
  rw [gcmFraming]
  apply never_checked
  intro long
  rw [decide_eq_true_eq] at long
  apply never_expected (by omega)
  apply never_expected (by omega)
  apply never_expected (by omega)
  apply never_checked
  intro _
  apply never_tested (by omega)
  intro ivLen ivFits
  rw [decide_eq_true_eq] at ivFits
  apply never_tested (by omega)
  intro tagLen tagFits
  rw [decide_eq_true_eq] at tagFits
  apply (never_substr (by omega)).bind
  intro cipherAndTag _
  apply (never_bytesAt (by omega)).bind
  intro salt _
  apply (never_bytesAt (by omega)).bind
  intro iv _
  exact never_ok

end Gcm

end Wan.Network.Encryption
