/-
MqttLib.Protocol.Framing

The buffered reader (`transport/packet_io.rs`): bytes arrive in chunks, and whole packets
are cut off the front of the buffer (`FixedHeader` of `packet.rs`, `variable_int.rs`).  The
decoder of a packet's body, with its protocol version, is a parameter.
-/

import MqttLib.Protocol.Types

namespace MqttLib.Protocol.Framing

open List

inductive PacketType where
  | connect | connAck | publish | pubAck | pubRec | pubRel | pubComp | subscribe | subAck
  | unsubscribe | unsubAck | pingReq | pingResp | disconnect | auth

def PacketType.fromU8 (value : UInt8) : Option PacketType :=
  [none, some connect, some connAck, some publish, some pubAck, some pubRec, some pubRel,
    some pubComp, some subscribe, some subAck, some unsubscribe, some unsubAck, some pingReq,
    some pingResp, some disconnect, some auth].getD value.toNat none

structure FixedHeader where
  packetType : PacketType
  flags : UInt8
  remainingLength : Nat

/-- The loop of `decode_variable_int`. -/
def decodeVariableInt (value multiplier byteCount : Nat) : List UInt8 → Except MqttError Nat
  | [] => .error (.malformedPacket "Insufficient bytes for variable integer")
  | byte :: rest =>
    if byteCount + 1 > 4 then .error (.malformedPacket "Variable integer exceeds 4 bytes")
    else
      let value := value + (byte &&& 0x7F).toNat * multiplier
      if byte &&& 0x80 = 0 then
        if value > 268435455 then
          .error (.malformedPacket s!"Variable integer value {value} exceeds maximum")
        else .ok value
      else if multiplier * 128 > 128 * 128 * 128 then
        .error (.malformedPacket "Variable integer overflow")
      else decodeVariableInt value (multiplier * 128) (byteCount + 1) rest

def FixedHeader.decode : List UInt8 → Except MqttError FixedHeader
  | [] => .error (.malformedPacket "No data for fixed header")
  | byte1 :: rest =>
    let packetTypeVal := byte1 >>> 4 &&& 0x0F
    match PacketType.fromU8 packetTypeVal with
    | none => .error (.invalidPacketType packetTypeVal)
    | some packetType => (decodeVariableInt 0 1 0 rest).map (⟨packetType, byte1 &&& 0x0F, ·⟩)

/-- The loop of `fixed_header_len`. -/
def lengthEnd (index : Nat) : List UInt8 → Except MqttError (Option Nat)
  | [] => .ok none
  | byte :: rest =>
    if byte &&& 0x80 = 0 then .ok (some (index + 1))
    else if index = 4 then .error (.malformedPacket "Invalid remaining length encoding")
    else lengthEnd (index + 1) rest

def fixedHeaderLen (buf : List UInt8) : Except MqttError (Option Nat) := lengthEnd 1 buf.tail

/-- A reader: how it decodes the body of a packet, and the largest packet it takes. -/
structure Reader (π : Type*) where
  decodeBody : FixedHeader → List UInt8 → Except MqttError π
  maxPacketSize : Nat

namespace Reader

variable {π : Type*} (r : Reader π)

def bufferedFrame (buf : List UInt8) : Except MqttError (Option (Nat × FixedHeader)) :=
  match fixedHeaderLen buf with
  | .error e => .error e
  | .ok none => .ok none
  | .ok (some headerLen) =>
    match FixedHeader.decode (buf.take headerLen) with
    | .error e => .error e
    | .ok header =>
      let frameLen := headerLen + header.remainingLength
      if frameLen > r.maxPacketSize then .error (.packetTooLarge frameLen r.maxPacketSize)
      else .ok (some (headerLen, header))

/-- `decode_buffered_packet`: the packet at the front and the rest of the buffer. -/
def decodeBufferedPacket (buf : List UInt8) : Except MqttError (Option (π × List UInt8)) :=
  match r.bufferedFrame buf with
  | .error e => .error e
  | .ok none => .ok none
  | .ok (some (headerLen, header)) =>
    let frameLen := headerLen + header.remainingLength
    if buf.length < frameLen then .ok none
    else (r.decodeBody header ((buf.take frameLen).drop headerLen)).map fun packet =>
      some (packet, buf.drop frameLen)

/-! ## One step -/

variable {r} {buf rest : List UInt8} {headerLen : Nat} {header : FixedHeader} {packet : π}
  {bytes : List UInt8}

theorem lengthEnd_append {index : Nat} (more : List UInt8) (h : lengthEnd index bytes ≠ .ok none) :
    lengthEnd index (bytes ++ more) = lengthEnd index bytes := by
  induction bytes generalizing index with
  | nil => exact absurd rfl h
  | cons _ _ ih =>
    simp only [cons_append, lengthEnd] at h ⊢
    split_ifs at h ⊢ with hend hlast
    · rfl
    · rfl
    · exact ih h

theorem lengthEnd_le {index : Nat} (h : lengthEnd index bytes = .ok (some headerLen)) :
    index < headerLen ∧ headerLen ≤ index + bytes.length := by
  induction bytes generalizing index with
  | nil => cases h
  | cons _ _ ih =>
    simp only [lengthEnd] at h
    rw [length_cons]
    split_ifs at h with hend hlast
    · cases h
      omega
    · have := ih h
      omega

theorem fixedHeaderLen_le (h : fixedHeaderLen buf = .ok (some headerLen)) :
    0 < headerLen ∧ headerLen ≤ buf.length := by
  cases buf with
  | nil => cases h
  | cons _ rest =>
    have : 1 < headerLen ∧ headerLen ≤ 1 + rest.length := lengthEnd_le h
    rw [length_cons]
    omega

theorem header_of_frame (h : r.bufferedFrame buf = .ok (some (headerLen, header))) :
    fixedHeaderLen buf = .ok (some headerLen) ∧
      FixedHeader.decode (buf.take headerLen) = .ok header := by
  unfold bufferedFrame at h
  split at h
  · cases h
  · cases h
  · split at h
    · cases h
    · dsimp only at h
      split_ifs at h
      cases h
      exact ⟨‹_›, ‹_›⟩

theorem fixedHeaderLen_append (more : List UInt8) (h : fixedHeaderLen buf ≠ .ok none) :
    fixedHeaderLen (buf ++ more) = fixedHeaderLen buf := by
  cases buf with
  | nil => exact absurd rfl h
  | cons _ _ => exact lengthEnd_append more h

/-- A header that is there does not change with the bytes behind it. -/
theorem bufferedFrame_append (more : List UInt8) (h : r.bufferedFrame buf ≠ .ok none) :
    r.bufferedFrame (buf ++ more) = r.bufferedFrame buf := by
  have hknown : fixedHeaderLen buf ≠ .ok none := by
    intro hnone
    rw [bufferedFrame, hnone] at h
    exact h rfl
  unfold bufferedFrame
  rw [fixedHeaderLen_append more hknown]
  split
  · rfl
  · rfl
  · rename_i headerLen hend
    rw [take_append_of_le_length (fixedHeaderLen_le hend).2]

section

variable (h : r.decodeBufferedPacket buf = .ok (some (packet, rest)))
include h

/-- A packet takes its fixed header and the remaining length that this announces. -/
theorem frame_of_decode :
    ∃ headerLen header, r.bufferedFrame buf = .ok (some (headerLen, header)) ∧
      rest = buf.drop (headerLen + header.remainingLength) ∧
      headerLen + header.remainingLength + rest.length = buf.length := by
  unfold decodeBufferedPacket at h
  split at h
  · cases h
  · cases h
  · rename_i headerLen header hframe
    by_cases hshort : buf.length < headerLen + header.remainingLength
    · rw [if_pos hshort] at h
      cases h
    · rw [if_neg hshort] at h
      cases hbody : r.decodeBody header
        ((buf.take (headerLen + header.remainingLength)).drop headerLen) with
      | error e =>
        rw [hbody] at h
        cases h
      | ok _ =>
        rw [hbody] at h
        cases h
        refine ⟨headerLen, header, hframe, rfl, ?_⟩
        rw [length_drop]
        omega

theorem length_rest : rest.length < buf.length := by
  obtain ⟨headerLen, header, hframe, -, hlen⟩ := frame_of_decode h
  have := (fixedHeaderLen_le (header_of_frame hframe).1).1
  omega

end

/-- What has been decoded does not change with the bytes behind it. -/
theorem decode_append {decoded : Except MqttError (Option (π × List UInt8))} (more : List UInt8)
    (hdec : r.decodeBufferedPacket buf = decoded) (h : decoded ≠ .ok none) :
    r.decodeBufferedPacket (buf ++ more) =
      decoded.map (Option.map fun decoded => (decoded.1, decoded.2 ++ more)) := by
  subst hdec
  have hknown : r.bufferedFrame buf ≠ .ok none := by
    intro hnone
    rw [decodeBufferedPacket, hnone] at h
    exact h rfl
  unfold decodeBufferedPacket at h ⊢
  rw [bufferedFrame_append more hknown]
  split
  · rfl
  · rfl
  · rename_i headerLen header hframe
    rw [hframe] at h
    have hle : headerLen + header.remainingLength ≤ buf.length := by
      by_contra hshort
      exact h (if_pos (by omega))
    dsimp only
    rw [if_neg (by rw [length_append]; omega), if_neg (by omega),
      take_append_of_le_length hle, drop_append_of_le_length hle]
    cases r.decodeBody header _ <;> rfl

variable (r)

/-- The packets that are in the buffer, and what is left when the reader has to wait. -/
def drain (buf : List UInt8) : List π × Except MqttError (List UInt8) :=
  match _h : r.decodeBufferedPacket buf with
  | .error e => ([], .error e)
  | .ok none => ([], .ok buf)
  | .ok (some (packet, rest)) => (packet :: (drain rest).1, (drain rest).2)
termination_by buf.length
decreasing_by all_goals exact length_rest _h

/-- A chunk arrives. -/
def readChunk (state : List π × Except MqttError (List UInt8)) (chunk : List UInt8) :
    List π × Except MqttError (List UInt8) :=
  match state.2 with
  | .error _ => state
  | .ok buf => (state.1 ++ (r.drain (buf ++ chunk)).1, (r.drain (buf ++ chunk)).2)

/-- The calls of `read_packet_reusing_buffer` until one fails or waits for a chunk. -/
def readPackets (chunks : List (List UInt8)) : List π × Except MqttError (List UInt8) :=
  chunks.foldl r.readChunk ([], .ok [])

variable {r}

theorem drain_of_error {e : MqttError} (h : r.decodeBufferedPacket buf = .error e) :
    r.drain buf = ([], .error e) := by
  rw [drain]
  split <;> simp_all

theorem drain_of_packet (h : r.decodeBufferedPacket buf = .ok (some (packet, rest))) :
    r.drain buf = (packet :: (r.drain rest).1, (r.drain rest).2) := by
  rw [drain]
  split <;> simp_all

theorem readChunk_drain (buf more : List UInt8) :
    r.readChunk (r.drain buf) more = r.drain (buf ++ more) := by
  fun_induction r.drain buf with
  | case1 buf e h =>
    rw [drain_of_error (decode_append more h nofun)]
    rfl
  | case2 buf h => rfl
  | case3 buf _ rest h ih =>
    rw [drain_of_packet (decode_append more h nofun), ← ih]
    rcases r.drain rest with ⟨_, e | _⟩ <;> rfl

theorem foldl_readChunk (buf : List UInt8) (chunks : List (List UInt8)) :
    chunks.foldl r.readChunk (r.drain buf) = r.drain (buf ++ chunks.flatten) := by
  induction chunks generalizing buf with
  | nil => simp
  | cons _ chunks ih =>
    rw [foldl_cons, readChunk_drain, ih, flatten_cons, append_assoc]

theorem readPackets_eq (chunks : List (List UInt8)) :
    r.readPackets chunks = r.drain chunks.flatten := by
  have hemp : r.drain [] = ([], .ok []) := by
    rw [drain]
    rfl
  rw [readPackets, ← hemp, foldl_readChunk, nil_append]

/-- The stream is the bytes of the packets read and a rest, at which the reader waits or fails. -/
def Accounts (r : Reader π) (stream : List UInt8)
    (result : List π × Except MqttError (List UInt8)) : Prop :=
  ∃ frames rest, stream = frames.flatten ++ rest ∧
    Forall₂ (fun frame packet => r.decodeBufferedPacket frame = .ok (some (packet, [])))
      frames result.1 ∧
    r.decodeBufferedPacket rest = result.2.map (fun _ => none) ∧
    ∀ buf, result.2 = .ok buf → buf = rest

end Reader

end MqttLib.Protocol.Framing
