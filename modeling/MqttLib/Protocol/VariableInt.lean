/-
MqttLib.Protocol.VariableInt

Variable byte integers (`encoding/variable_int.rs`), and the frames of a stream, whose
headers have one (`packet.rs`).
-/

import MqttLib.Protocol.Framing
import Mathlib.Tactic.IntervalCases
import Mathlib.Tactic.Ring

namespace MqttLib.Protocol.VariableInt

open Framing

/-- The loop of `encode`. -/
def encode (val : Nat) : List UInt8 :=
  if val / 128 = 0 then [UInt8.ofNat (val % 128)]
  else (UInt8.ofNat (val % 128) ||| 0x80) :: encode (val / 128)

def encodeVariableInt (value : Nat) : Except MqttError (List UInt8) :=
  if value > 268435455 then
    .error (.protocolError s!"Variable integer value {value} exceeds maximum 268435455")
  else .ok (encode value)

def encodedSize (value : Nat) : Nat :=
  if value ≤ 127 then 1 else if value ≤ 16383 then 2 else if value ≤ 2097151 then 3 else 4

def variableIntLen (value : Nat) : Nat := encodedSize (min value 268435455)

/-- The loop of `decode`; nothing if a `u32` overflows. -/
def decode (value multiplier byteCount : Nat) :
    List UInt8 → Option (Except MqttError (Nat × List UInt8))
  | [] => some (.error (.malformedPacket "Insufficient bytes for variable integer"))
  | byte :: rest =>
    if byteCount + 1 > 4 then some (.error (.malformedPacket "Variable integer exceeds 4 bytes"))
    else
      let value := value + (byte &&& 0x7F).toNat * multiplier
      if value ≥ 2 ^ 32 then none
      else if byte &&& 0x80 = 0 then
        if value > 268435455 then
          some (.error (.malformedPacket s!"Variable integer value {value} exceeds maximum"))
        else some (.ok (value, rest))
      else if multiplier * 128 ≥ 2 ^ 32 then none
      else if multiplier * 128 > 128 * 128 * 128 then
        some (.error (.malformedPacket "Variable integer overflow"))
      else decode value (multiplier * 128) (byteCount + 1) rest

/-- The sum of the bytes' low bits in base 128. -/
def sum128 : List UInt8 → Nat
  | [] => 0
  | byte :: rest => (byte &&& 0x7F).toNat + 128 * sum128 rest

theorem low_lt (byte : UInt8) : (byte &&& 0x7F).toNat < 128 := by
  rw [UInt8.toNat_and]
  exact Nat.lt_of_le_of_lt Nat.and_le_right (by decide)

theorem sum128_lt (bytes : List UInt8) : sum128 bytes < 128 ^ bytes.length := by
  induction bytes with
  | nil => exact Nat.one_pos
  | cons byte rest ih =>
    have hlow := low_lt byte
    rw [sum128, List.length_cons, Nat.pow_succ]
    omega

/-- A byte with and without the continuation bit. -/
theorem low_bits : ∀ m < 128, (UInt8.ofNat m &&& 0x7F).toNat = m ∧ UInt8.ofNat m &&& 0x80 = 0 ∧
    ((UInt8.ofNat m ||| 0x80) &&& 0x7F).toNat = m ∧ (UInt8.ofNat m ||| 0x80) &&& 0x80 ≠ 0 := by
  decide

variable {value k n : Nat} {byte : UInt8} {bytes rest : List UInt8}

theorem next_lt (byte : UInt8) (hvalue : value < 128 ^ k) :
    value + (byte &&& 0x7F).toNat * 128 ^ k < 128 ^ (k + 1) := by
  have hlow := Nat.mul_le_mul_right (128 ^ k) (Nat.le_of_lt_succ (low_lt byte))
  rw [Nat.pow_succ]
  omega

/-- One turn of the loop: nothing overflows, and only the fourth byte is too many. -/
theorem decode_cons (hk : k ≤ 3) (hvalue : value < 128 ^ k) :
    decode value (128 ^ k) k (byte :: rest) =
      if byte &&& 0x80 = 0 then some (.ok (value + (byte &&& 0x7F).toNat * 128 ^ k, rest))
      else if k = 3 then some (.error (.malformedPacket "Variable integer overflow"))
      else decode (value + (byte &&& 0x7F).toNat * 128 ^ k) (128 ^ (k + 1)) (k + 1) rest := by
  have hnext := next_lt byte hvalue
  have hpow : 128 ^ (k + 1) ≤ 128 ^ 4 := Nat.pow_le_pow_right (by omega) (by omega)
  have hlast : 128 ^ (k + 1) > 128 * 128 * 128 ↔ k = 3 := by interval_cases k <;> decide
  rw [decode, if_neg (by omega)]
  dsimp only
  generalize value + _ * _ = next at hnext ⊢
  rw [← Nat.pow_succ, if_neg (show ¬ next ≥ 2 ^ 32 by omega),
    if_neg (show ¬ next > 268435455 by omega), if_neg (show ¬ 128 ^ (k + 1) ≥ 2 ^ 32 by omega)]
  simp only [hlast]

/-- Nothing overflows, and what is decoded is the sum of the bytes read. -/
theorem decode_cases (value : Nat) (bytes : List UInt8) (hk : k ≤ 3) (hvalue : value < 128 ^ k) :
    ∃ answer, decode value (128 ^ k) k bytes = some answer ∧
      ∀ v rest, answer = .ok (v, rest) → ∃ used, bytes = used ++ rest ∧ used ≠ [] ∧
        used.length + k ≤ 4 ∧ v = value + sum128 used * 128 ^ k := by
  induction bytes generalizing value k with
  | nil => exact ⟨_, rfl, nofun⟩
  | cons byte bytes ih =>
    rw [decode_cons hk hvalue]
    split
    · refine ⟨_, rfl, fun v rest h => ?_⟩
      cases h
      exact ⟨[byte], rfl, nofun, by rw [List.length_singleton]; omega, rfl⟩
    · split
      · exact ⟨_, rfl, nofun⟩
      · obtain ⟨answer, hans, hused⟩ := ih _ (by omega) (next_lt byte hvalue)
        refine ⟨answer, hans, fun v rest h => ?_⟩
        obtain ⟨used, rfl, -, hlen, rfl⟩ := hused v rest h
        refine ⟨byte :: used, rfl, nofun, by rw [List.length_cons]; omega, ?_⟩
        rw [sum128, Nat.pow_succ]
        ring

/-- The reader of the fixed header decodes the same value. -/
theorem decodeVariableInt_eq {multiplier : Nat} {answer : Except MqttError (Nat × List UInt8)}
    (h : decode value multiplier k bytes = some answer) :
    decodeVariableInt value multiplier k bytes = answer.map Prod.fst := by
  fun_induction decode value multiplier k bytes <;> grind [decodeVariableInt, Except.map]

theorem decode_encode (value : Nat) (rest : List UInt8) (hk : k ≤ 3) (hvalue : value < 128 ^ k)
    (hn : n < 128 ^ (4 - k)) :
    decode value (128 ^ k) k (encode n ++ rest) = some (.ok (value + n * 128 ^ k, rest)) := by
  -- digit by digit: what is left to write is what the next turns read
  fun_induction encode n generalizing value k with
  | case1 n h =>
    obtain ⟨hlow, hlast, -⟩ := low_bits (n % 128) (Nat.mod_lt n (by decide))
    rw [List.cons_append, decode_cons hk hvalue, if_pos hlast, hlow, Nat.mod_eq_of_lt (by omega)]
    rfl
  | case2 n h ih =>
    obtain ⟨-, -, hlow, hmore⟩ := low_bits (n % 128) (Nat.mod_lt n (by decide))
    have hk' : k ≠ 3 := by
      rintro rfl
      omega
    have hn' : n / 128 < 128 ^ (4 - (k + 1)) := by
      rw [show 4 - k = 4 - (k + 1) + 1 by omega, Nat.pow_succ] at hn
      omega
    have hnext := next_lt (UInt8.ofNat (n % 128) ||| 0x80) hvalue
    rw [List.cons_append, decode_cons hk hvalue, if_neg hmore, if_neg hk',
      ih _ (by omega) hnext hn', hlow, Nat.pow_succ, Nat.add_assoc]
    congr 4
    nth_rewrite 3 [← Nat.mod_add_div n 128]
    ring

/-- The encoding has as many bytes as the value has digits. -/
theorem encode_length (n : Nat) :
    ∃ m, (encode n).length = m + 1 ∧ n < 128 ^ (m + 1) ∧ (m = 0 ∨ 128 ^ m ≤ n) := by
  fun_induction encode n with
  | case1 n h => exact ⟨0, rfl, by omega, .inl rfl⟩
  | case2 n h ih =>
    obtain ⟨m, hm, hlt, hle⟩ := ih
    refine ⟨m + 1, by rw [List.length_cons, hm], by rw [Nat.pow_succ]; omega, .inr ?_⟩
    rcases hle with rfl | hle <;> rw [Nat.pow_succ] <;> omega

theorem variableIntLen_eq (hn : n < 128 ^ 4) : variableIntLen n = (encode n).length := by
  obtain ⟨m, hm, hlt, hle⟩ := encode_length n
  have hm4 : m < 4 := by
    by_contra hlong
    have := Nat.pow_le_pow_right (show 0 < 128 by decide) (Nat.le_of_not_lt hlong)
    omega
  rw [hm, variableIntLen, encodedSize, Nat.min_eq_left (by omega)]
  interval_cases m <;> grind

/-- Every value that fits in four bytes is written in the shortest form and read back, whatever
follows it; every byte string that is decoded gives the base-128 sum of the bytes read. -/
theorem variable_int_exact (bytes : List UInt8) :
    (∀ n ≤ 268435455, ∃ written, encodeVariableInt n = .ok written ∧
      variableIntLen n = written.length ∧
        ∀ rest, decode 0 1 0 (written ++ rest) = some (.ok (n, rest)) ∧
        ∀ other, decode 0 1 0 (other ++ rest) = some (.ok (n, rest)) →
          written.length ≤ other.length) ∧
    ∃ answer, decode 0 1 0 bytes = some answer ∧ ∀ v rest, answer = .ok (v, rest) →
      ∃ used, bytes = used ++ rest ∧ used.length ≤ 4 ∧ v = sum128 used := by
  refine ⟨fun n hn => ⟨encode n, if_neg (by omega), variableIntLen_eq (by omega), fun rest => ?_⟩,
    ?_⟩
  · constructor
    · have := decode_encode 0 rest (Nat.zero_le 3) zero_lt_one (show n < 128 ^ 4 by omega)
      rwa [Nat.pow_zero, Nat.mul_one, Nat.zero_add] at this
    · intro other hother
      obtain ⟨answer, hanswer, hused⟩ := decode_cases 0 (other ++ rest) (Nat.zero_le 3)
        zero_lt_one
      rw [Nat.pow_zero, hother] at hanswer
      obtain ⟨used, heq, hne, -, hsum⟩ := hused n rest (Option.some.inj hanswer.symm)
      obtain rfl := List.append_cancel_right heq
      rw [Nat.pow_zero, Nat.mul_one, Nat.zero_add] at hsum
      obtain ⟨m, hm, -, rfl | hle⟩ := encode_length n
      · rw [hm]
        exact List.length_pos_iff.mpr hne
      · have := Nat.pow_lt_pow_iff_right (show 1 < 128 by decide) |>.mp
          (Nat.lt_of_le_of_lt hle (hsum ▸ sum128_lt other))
        omega
  · obtain ⟨answer, hanswer, hused⟩ := decode_cases 0 bytes (Nat.zero_le 3) zero_lt_one
    refine ⟨answer, hanswer, fun v rest h => ?_⟩
    obtain ⟨used, heq, -, hlength, hsum⟩ := hused v rest h
    exact ⟨used, heq, hlength, by simpa using hsum⟩

theorem lengthEnd_encode {index : Nat} (h : index + (encode n).length ≤ 5) :
    lengthEnd index (encode n ++ rest) = .ok (some (index + (encode n).length)) := by
  fun_induction encode n generalizing index with
  | case1 n =>
    obtain ⟨-, hlast, -⟩ := low_bits (n % 128) (Nat.mod_lt n (by decide))
    rw [List.cons_append, lengthEnd, if_pos hlast]
    rfl
  | case2 n _ ih =>
    obtain ⟨-, -, -, hmore⟩ := low_bits (n % 128) (Nat.mod_lt n (by decide))
    obtain ⟨m, hm, -⟩ := encode_length (n / 128)
    rw [List.length_cons] at h ⊢
    rw [List.cons_append, lengthEnd, if_neg hmore, if_neg (by omega), ih (by omega),
      Nat.add_assoc, Nat.add_comm 1]

end MqttLib.Protocol.VariableInt

/-! ## Frames -/

namespace MqttLib.Protocol.Framing

open VariableInt Reader List

def PacketType.toU8 : PacketType → UInt8
  | .connect => 1 | .connAck => 2 | .publish => 3 | .pubAck => 4 | .pubRec => 5 | .pubRel => 6
  | .pubComp => 7 | .subscribe => 8 | .subAck => 9 | .unsubscribe => 10 | .unsubAck => 11
  | .pingReq => 12 | .pingResp => 13 | .disconnect => 14 | .auth => 15

def FixedHeader.encode (h : FixedHeader) : Except MqttError (List UInt8) :=
  (encodeVariableInt h.remainingLength).map
    ((h.packetType.toU8 <<< 4 ||| h.flags &&& 0x0F) :: ·)

/-- The two halves of the first byte. -/
theorem first_byte (t : PacketType) : ∀ m < 16,
    (t.toU8 <<< 4 ||| UInt8.ofNat m &&& 0x0F) >>> 4 &&& 0x0F = t.toU8 ∧
      (t.toU8 <<< 4 ||| UInt8.ofNat m &&& 0x0F) &&& 0x0F = UInt8.ofNat m := by
  cases t <;> decide

/-- A header that is written is found at the front of the buffer, and read back. -/
theorem FixedHeader.decode_encode {h : FixedHeader} {bytes : List UInt8} (rest : List UInt8)
    (hflags : h.flags.toNat < 16) (hwritten : h.encode = .ok bytes) :
    fixedHeaderLen (bytes ++ rest) = .ok (some bytes.length) ∧
      FixedHeader.decode bytes = .ok h := by
  unfold encode encodeVariableInt at hwritten
  split_ifs at hwritten with hmax
  · cases hwritten
  cases hwritten
  obtain ⟨htype, hlow⟩ := first_byte h.packetType h.flags.toNat hflags
  rw [UInt8.ofNat_toNat] at htype hlow
  constructor
  · have hshort : (VariableInt.encode h.remainingLength).length ≤ 4 := by
      rw [← variableIntLen_eq (by omega), variableIntLen, encodedSize]
      split_ifs <;> decide
    show lengthEnd 1 (VariableInt.encode _ ++ rest) = _
    rw [lengthEnd_encode (by omega), length_cons, Nat.add_comm]
  · have hread := VariableInt.decode_encode 0 [] (Nat.zero_le 3) zero_lt_one
      (show h.remainingLength < 128 ^ 4 by omega)
    rw [Nat.pow_zero, append_nil, Nat.mul_one, Nat.zero_add] at hread
    simp only [FixedHeader.decode, htype, hlow, decodeVariableInt_eq hread]
    cases h
    cases ‹PacketType› <;> rfl

variable {π : Type*} {r : Reader π}

/-- A packet on the wire: its header as it is encoded, and a body of the announced length,
which the reader takes and decodes. -/
structure Frame (r : Reader π) where
  header : FixedHeader
  bytes : List UInt8
  body : List UInt8
  packet : π
  flags : header.flags.toNat < 16
  written : header.encode = .ok bytes
  length : body.length = header.remainingLength
  fits : (bytes ++ body).length ≤ r.maxPacketSize
  decoded : r.decodeBody header body = .ok packet

theorem Frame.decode (f : Frame r) (rest : List UInt8) :
    r.decodeBufferedPacket (f.bytes ++ f.body ++ rest) = .ok (some (f.packet, rest)) := by
  have hlength : f.bytes.length + f.header.remainingLength = (f.bytes ++ f.body).length := by
    rw [length_append, f.length]
  obtain ⟨hlen, hheader⟩ := FixedHeader.decode_encode (f.body ++ rest) f.flags f.written
  have hframe : r.bufferedFrame (f.bytes ++ f.body ++ rest) =
      .ok (some (f.bytes.length, f.header)) := by
    rw [append_assoc]
    simp only [bufferedFrame, hlen, take_left, hheader, hlength, if_neg (Nat.not_lt.mpr f.fits)]
  rw [decodeBufferedPacket, hframe]
  dsimp only
  rw [hlength, take_left, drop_left, drop_left, if_neg (by simp), f.decoded]
  rfl

/-- Packets that are written one after the other are read back in that order, however the
stream is cut into chunks, and nothing is left over. -/
theorem written_packets_read (frames : List (Frame r)) (chunks : List (List UInt8))
    (hstream : chunks.flatten = frames.flatMap fun f => f.bytes ++ f.body) :
    r.readPackets chunks = (frames.map Frame.packet, .ok []) := by
  rw [readPackets_eq, hstream]
  clear hstream
  induction frames with
  | nil => exact (readPackets_eq (r := r) []).symm
  | cons f frames ih =>
    -- the reader takes the first frame, and the others are left in the buffer
    rw [flatMap_cons, drain_of_packet (f.decode _), ih]
    rfl

/-- Two PINGREQ packets in three chunks. -/
theorem written_pings_read : readPackets (⟨fun h _ => .ok h.packetType.toU8, 2⟩ : Reader UInt8)
    [[0xC0], [0, 0xC0], [0]] = ([12, 12], .ok []) :=
  let ping : Frame _ := ⟨⟨.pingReq, 0, 0⟩, [0xC0, 0], [], _, by decide, by
    rw [FixedHeader.encode, encodeVariableInt, VariableInt.encode]
    rfl, rfl, by decide, rfl⟩
  written_packets_read [ping, ping] _ rfl

end MqttLib.Protocol.Framing
