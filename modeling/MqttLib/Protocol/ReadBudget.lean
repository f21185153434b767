/-
MqttLib.Protocol.ReadBudget

Readers that share one budget of bytes (`transport/packet_io.rs`,
`read_packet_within_budget`).  A frame longer than a chunk is read only with permits for its
whole length, which go out with the packet.  A read may be dropped at its two awaits and
started again: the buffer and the reservation stay.  No caller goes on after an error.
-/

import Mathlib.Algebra.GroupWithZero.Nat
import MqttLib.Foundation.Reachable
import MqttLib.Foundation.Census
import MqttLib.Protocol.Framing

namespace MqttLib.Protocol.Framing

/-! ## The readers -/

def Reader.announcedFrameLen {π : Type*} (r : Reader π) (buf : List UInt8) :
    Except MqttError (Option Nat) :=
  (r.bufferedFrame buf).map (Option.map fun frame => frame.1 + frame.2.remainingLength)

namespace ReadBudget

open Foundation Function Reader List

/-- `READ_CHUNK`. -/
def readChunkLen : Nat := 4096

/-- Where a read is: at the top of its loop, at one of its awaits, or over with an error. -/
inductive Phase where
  | idle
  | acquiring (count : Nat)
  | reading
  | failed
  deriving DecidableEq

/-- A stream with its share of the budget. -/
structure Stream where
  readBuffer : List UInt8 := []
  reserved : Option Nat := none
  phase : Phase := .idle

/-- `returned` has the length of every packet with the permit that came with it, and `held` the
permits of those that have not been dropped. -/
structure State (ι : Type*) where
  available : Nat
  streams : ι → Stream := fun _ => {}
  held : List Nat := []
  returned : List (Nat × Option Nat) := []

inductive Action (ι π : Type*) where
  /-- A read goes on, or is started, with the decoder of the protocol version it is for. -/
  | poll (i : ι) (r : Reader π)
  | acquire (i : ι) (r : Reader π)
  | read (i : ι) (chunk : List UInt8)
  /-- The read is dropped at an await, or the await fails. -/
  | interrupt (i : ι) (fails : Bool)
  /-- A stream goes with its share.  The next one starts with what has been read behind its
  flow header. -/
  | reopen (i : ι) (leftover : List UInt8)
  | drop (count : Nat)

variable {π ι : Type*} [DecidableEq ι]

section

variable (limit : Nat) (s : State ι)

def State.set (i : ι) (x : Stream) : State ι := { s with streams := update s.streams i x }

/-- The loop behind the reservation.  What an error leaves of the buffer is not read again. -/
def State.decode (i : ι) (r : Reader π) : State ι :=
  let x := s.streams i
  match r.decodeBufferedPacket x.readBuffer with
  | .error _ => s.set i { x with phase := .failed }
  | .ok none => s.set i { x with phase := .reading }
  | .ok (some (_, rest)) =>
    { s.set i { readBuffer := rest } with
      held := x.reserved.toList ++ s.held
      returned := (x.readBuffer.length - rest.length, x.reserved) :: s.returned }

def act : Action ι π → Option (State ι)
  | .poll i r =>
    let x := s.streams i
    if x.phase ≠ .idle then none
    else match r.announcedFrameLen x.readBuffer with
      | .error _ => some (s.set i { x with phase := .failed })
      | .ok none => some (s.decode i r)
      | .ok (some frameLen) =>
        -- `ReadShare::reserve`
        if x.reserved.isSome || frameLen ≤ readChunkLen then some (s.decode i r)
        else if frameLen > limit || frameLen ≥ 2 ^ 32 then
          some (s.set i { x with phase := .failed })
        else some (s.set i { x with phase := .acquiring frameLen })
  | .acquire i r =>
    match (s.streams i).phase with
    | .acquiring count =>
      if s.available < count then none
      else
        let x := { s.streams i with reserved := some count, phase := .idle }
        some (State.decode { s.set i x with available := s.available - count } i r)
    | _ => none
  | .read i chunk =>
    let x := s.streams i
    if x.phase = .reading ∧ chunk ≠ [] ∧ chunk.length ≤ readChunkLen then
      some (s.set i { x with readBuffer := x.readBuffer ++ chunk, phase := .idle })
    else none
  | .interrupt i fails =>
    if (s.streams i).phase = .idle ∨ (s.streams i).phase = .failed then none
    else some (s.set i { s.streams i with phase := if fails then .failed else .idle })
  | .reopen i leftover =>
    if leftover.length ≤ 32 then
      some { s.set i { readBuffer := leftover } with
        available := s.available + (s.streams i).reserved.getD 0 }
    else none
  | .drop count =>
    if count ∈ s.held then
      some { s with available := s.available + count, held := s.held.erase count }
    else none

end

/-! ## Frames -/

variable {limit : Nat} {s s' : State ι} {buf : List UInt8} {m n : Nat} {r : Reader π} {i : ι}

/-- The buffer starts with the header of a frame of this length. -/
def Announces (buf : List UInt8) (n : Nat) : Prop :=
  ∃ headerLen header, fixedHeaderLen buf = .ok (some headerLen) ∧
    FixedHeader.decode (buf.take headerLen) = .ok header ∧ headerLen + header.remainingLength = n

theorem Announces.unique (hm : Announces buf m) (hn : Announces buf n) : m = n := by
  obtain ⟨headerLen, header, hlen, hheader, rfl⟩ := hm
  obtain ⟨headerLen', header', hlen', hheader', rfl⟩ := hn
  cases hlen.symm.trans hlen'
  cases hheader.symm.trans hheader'
  rfl

theorem Announces.append (h : Announces buf n) (more : List UInt8) : Announces (buf ++ more) n := by
  obtain ⟨headerLen, header, hlen, hheader, rfl⟩ := h
  refine ⟨headerLen, header, ?_, ?_, rfl⟩
  · rw [fixedHeaderLen_append more (by simp [hlen]), hlen]
  · rwa [take_append_of_le_length (fixedHeaderLen_le hlen).2]

theorem announces_of_frame {headerLen : Nat} {header : FixedHeader}
    (h : r.bufferedFrame buf = .ok (some (headerLen, header))) :
    Announces buf (headerLen + header.remainingLength) :=
  ⟨headerLen, header, (header_of_frame h).1, (header_of_frame h).2, rfl⟩

theorem announces_of_announcedFrameLen (h : r.announcedFrameLen buf = .ok (some n)) :
    Announces buf n := by
  unfold announcedFrameLen at h
  rcases hframe : r.bufferedFrame buf with e | _ | ⟨headerLen, header⟩ <;> rw [hframe] at h <;>
    cases h
  exact announces_of_frame hframe

theorem length_of_lengthEnd {index : Nat} {bytes : List UInt8} (hindex : index ≤ 4)
    (h : lengthEnd index bytes = .ok none) : index + bytes.length ≤ 4 := by
  induction bytes generalizing index with
  | nil => exact hindex
  | cons _ _ ih =>
    simp only [lengthEnd] at h
    rw [length_cons]
    split_ifs at h with hlast hmax
    · cases h
    · have := ih (by omega) h
      omega

/-- A reader that waits has no header yet, or knows how long the frame is. -/
theorem waits (h : r.decodeBufferedPacket buf = .ok none) :
    (fixedHeaderLen buf = .ok none ∧ buf.length ≤ 4) ∨ ∃ n, Announces buf n ∧ buf.length < n := by
  unfold decodeBufferedPacket at h
  split at h
  · cases h
  · rename_i hframe
    have hnone : fixedHeaderLen buf = .ok none := by
      revert hframe
      unfold bufferedFrame
      split
      · nofun
      · exact fun _ => ‹_›
      · split
        · nofun
        · dsimp only
          split <;> nofun
    refine .inl ⟨hnone, ?_⟩
    cases buf with
    | nil => exact Nat.zero_le _
    | cons _ _ =>
      have := length_of_lengthEnd (by decide) hnone
      rw [length_cons]
      rwa [tail_cons, Nat.add_comm] at this
  · rename_i headerLen header hframe
    refine .inr ⟨_, announces_of_frame hframe, ?_⟩
    by_contra hlong
    dsimp only at h
    rw [if_neg hlong] at h
    revert h
    cases r.decodeBody header _ <;> nofun

/-! ## The invariant -/

/-- A reservation is for the frame at the front of the buffer.  Without one the reader takes a
chunk more only before the end of a frame of one chunk. -/
structure Stream.Fits (x : Stream) : Prop where
  room : x.readBuffer.length < x.reserved.getD readChunkLen + readChunkLen
  reserved : ∀ n, x.reserved = some n → Announces x.readBuffer n
  reading : x.phase = .reading → x.readBuffer.length < x.reserved.getD readChunkLen
  acquiring : ∀ n, x.phase = .acquiring n →
    x.reserved = none ∧ Announces x.readBuffer n ∧ readChunkLen < n

/-- A reader that waits needs what its reservation, or one chunk, allows. -/
theorem Stream.Fits.waiting {x : Stream} (hfits : x.Fits)
    (hrdy : x.reserved = none → ∀ n, Announces x.readBuffer n → n ≤ readChunkLen)
    (hdec : r.decodeBufferedPacket x.readBuffer = .ok none) :
    x.readBuffer.length < x.reserved.getD readChunkLen := by
  cases hres : x.reserved with
  | none =>
    rcases waits hdec with ⟨-, hshort⟩ | ⟨n, hn, hlt⟩
    · exact hshort.trans_lt (by decide)
    · exact hlt.trans_le (hrdy hres n hn)
  | some m =>
    have hm := hfits.reserved m hres
    rcases waits hdec with ⟨hnone, -⟩ | ⟨n, hn, hlt⟩
    · obtain ⟨headerLen, header, hlen, -⟩ := hm
      cases hnone.symm.trans hlen
    · rwa [hm.unique hn]

variable [Fintype ι]

structure Sound (limit : Nat) (s : State ι) : Prop where
  total : s.available + ∑ i, (s.streams i).reserved.getD 0 + s.held.sum = limit
  fits : ∀ i, (s.streams i).Fits
  returned : ∀ entry ∈ s.returned, readChunkLen < entry.1 → entry.2 = some entry.1

section

variable (hs : Sound limit s)
include hs

theorem Sound.set {x : Stream} {available : Nat} (hfits : x.Fits)
    (hperm : available + x.reserved.getD 0 = s.available + (s.streams i).reserved.getD 0) :
    Sound limit { s.set i x with available } where
  total := by
    have hsum := sum_update_add (Finset.mem_univ i) (fun x : Stream => x.reserved.getD 0)
      s.streams x
    have htotal := hs.total
    show available + ∑ j, (update s.streams i x j).reserved.getD 0 + s.held.sum = limit
    omega
  fits := by
    show ∀ j, (update s.streams i x j).Fits
    exact forall_update rfl hfits fun j _ => hs.fits j
  returned := hs.returned

/-- Only the phase changes, and not to one in which something is awaited. -/
theorem Sound.setPhase {phase : Phase} (hreading : phase ≠ .reading)
    (hacquiring : ∀ n, phase ≠ .acquiring n) :
    Sound limit (s.set i { s.streams i with phase }) :=
  hs.set ⟨(hs.fits i).room, (hs.fits i).reserved, fun h => absurd h hreading,
    fun n h => absurd h (hacquiring n)⟩ rfl

theorem Sound.fail : Sound limit (s.set i { s.streams i with phase := .failed }) :=
  hs.setPhase (fun h => by cases h) fun _ h => by cases h

theorem Sound.decode (hrdy : (s.streams i).reserved = none →
      ∀ n, Announces (s.streams i).readBuffer n → n ≤ readChunkLen) :
    Sound limit (s.decode i r) := by
  have hfits := hs.fits i
  unfold State.decode
  dsimp only
  split
  · exact hs.fail
  · rename_i hdec
    exact hs.set ⟨hfits.room, hfits.reserved, fun _ => hfits.waiting hrdy hdec, nofun⟩ rfl
  · rename_i rest hdec
    obtain ⟨headerLen, header, hframe, -, hlength⟩ := frame_of_decode hdec
    have hann := announces_of_frame hframe
    have hroom := hfits.room
    -- the reservation, if there is one, is for this frame
    have hsame : ∀ n, (s.streams i).reserved = some n →
        n = headerLen + header.remainingLength :=
      fun n hn => (hfits.reserved n hn).unique hann
    have hset : Sound limit { s.set i { readBuffer := rest } with
        available := s.available + (s.streams i).reserved.getD 0 } := by
      refine hs.set ⟨?_, nofun, nofun, nofun⟩ rfl
      show rest.length < readChunkLen + readChunkLen
      cases hres : (s.streams i).reserved with
      | none =>
        rw [hres, Option.getD_none] at hroom
        omega
      | some n =>
        rw [hres, Option.getD_some, hsame n hres] at hroom
        omega
    refine ⟨?_, hset.fits, fun entry hent hlong => ?_⟩
    · have htotal := hset.total
      have hperm : (s.streams i).reserved.toList.sum = (s.streams i).reserved.getD 0 := by
        cases (s.streams i).reserved <;> simp
      show s.available + _ + ((s.streams i).reserved.toList ++ s.held).sum = limit
      rw [sum_append, hperm, ← htotal]
      dsimp only [State.set]
      omega
    · rcases mem_cons.mp hent with rfl | hold
      · have hlen : (s.streams i).readBuffer.length - rest.length =
            headerLen + header.remainingLength := by omega
        dsimp only at hlong ⊢
        cases hres : (s.streams i).reserved with
        | none =>
          have := hrdy hres _ hann
          omega
        | some n => rw [hlen, hsame n hres]
      · exact hs.returned entry hold hlong

theorem Sound.poll (hact : act limit s (.poll i r) = some s') : Sound limit s' := by
  simp only [act] at hact
  split at hact
  · cases hact
  split at hact
  · cases hact
    exact hs.fail
  · rename_i hnone
    cases hact
    refine hs.decode fun _ n hn => ?_
    obtain ⟨headerLen, header, hlen, hheader, -⟩ := hn
    simp only [announcedFrameLen, bufferedFrame, hlen, hheader] at hnone
    split at hnone <;> cases hnone
  · rename_i hsome
    have hann := announces_of_announcedFrameLen hsome
    split at hact
    · rename_i hrdy
      cases hact
      refine hs.decode fun hnone n hn => ?_
      rw [hnone] at hrdy
      rw [hn.unique hann]
      simpa using hrdy
    · rename_i hlong
      rw [Bool.or_eq_true, not_or, decide_eq_true_iff, Nat.not_le] at hlong
      split at hact
      · cases hact
        exact hs.fail
      · cases hact
        refine hs.set ⟨(hs.fits i).room, (hs.fits i).reserved, fun h => ?_, fun n hn => ?_⟩ rfl
        · cases h
        cases hn
        exact ⟨by simpa using hlong.1, hann, hlong.2⟩

theorem Sound.acquire (hact : act limit s (.acquire i r) = some s') : Sound limit s' := by
  simp only [act] at hact
  split at hact
  · rename_i count hph
    split at hact
    · cases hact
    cases hact
    obtain ⟨hnone, hann, hlong⟩ := (hs.fits i).acquiring count hph
    have hroom := (hs.fits i).room
    rw [hnone, Option.getD_none] at hroom
    refine Sound.decode (hs.set ⟨?_, fun n hn => ?_, nofun, nofun⟩ ?_) ?_
    · show (s.streams i).readBuffer.length < count + readChunkLen
      omega
    · cases hn
      exact hann
    · rw [hnone]
      show s.available - count + count = s.available + 0
      omega
    · intro h
      simp [State.set] at h
  · cases hact

theorem Sound.step {a : Action ι π} (hact : act limit s a = some s') : Sound limit s' := by
  cases a with
  | poll i r => exact hs.poll hact
  | acquire i r => exact hs.acquire hact
  | read i chunk =>
    simp only [act] at hact
    obtain ⟨hread, rfl⟩ := Option.ite_some_none_eq_some.mp hact
    have hfits := hs.fits i
    have hroom := hfits.reading hread.1
    refine hs.set ⟨?_, fun n hn => (hfits.reserved n hn).append chunk, nofun, nofun⟩ rfl
    rw [length_append]
    have := hread.2.2
    dsimp only
    omega
  | interrupt i fails =>
    simp only [act] at hact
    split at hact
    · cases hact
    · cases hact
      cases fails <;> exact hs.setPhase nofun nofun
  | reopen i leftover =>
    simp only [act] at hact
    obtain ⟨hshort, rfl⟩ := Option.ite_some_none_eq_some.mp hact
    refine hs.set ⟨?_, nofun, nofun, nofun⟩ rfl
    show leftover.length < readChunkLen + readChunkLen
    exact hshort.trans_lt (by decide)
  | drop _ =>
    simp only [act] at hact
    obtain ⟨hmem, rfl⟩ := Option.ite_some_none_eq_some.mp hact
    refine ⟨?_, hs.fits, hs.returned⟩
    have htotal := hs.total
    have hsum := sum_erase hmem
    dsimp only
    omega

end

/-- Whatever the readers receive, and however their steps, cancelled reads and dropped permits
interleave: the permits of readers and returned packets are within the limit, a buffer has
at most a chunk more than the reserved frame, or fewer than two chunks without a
reservation, and a packet longer than a chunk comes with a permit for its whole length. -/
theorem readers_within_budget
    (hrun : Reachable (act limit) (fun _ (_ : Action ι π) => True) { available := limit } s) :
    ∑ i, (s.streams i).reserved.getD 0 + s.held.sum ≤ limit ∧
    (∀ i n, (s.streams i).reserved = some n →
      (s.streams i).readBuffer.length ≤ n + readChunkLen) ∧
    (∀ i, (s.streams i).reserved = none →
      (s.streams i).readBuffer.length < 2 * readChunkLen) ∧
    ∀ entry ∈ s.returned, readChunkLen < entry.1 → entry.2 = some entry.1 := by
  have hs : Sound limit s := by
    have hempty : Stream.Fits {} := ⟨by decide, nofun, nofun, nofun⟩
    refine hrun.invariant ⟨by simp, fun _ => hempty, nofun⟩ ?_
    exact fun s a _ hs _ hact => hs.step hact
  refine ⟨?_, fun i n hn => ?_, fun i hnone => ?_, hs.returned⟩
  · have := hs.total
    omega
  · have := (hs.fits i).room
    rw [hn, Option.getD_some] at this
    omega
  · have := (hs.fits i).room
    rw [hnone, Option.getD_none] at this
    omega

/-- The header of a frame of 4103 bytes is read, and permits for the frame are acquired. -/
def readHeader : List (Action Unit Unit) :=
  let r := ⟨fun _ _ => .ok (), 268435455⟩
  [.poll () r, .read () [0x30, 0x84, 0x20], .poll () r, .acquire () r]

theorem large_frame_within_budget :
    ∃ s, follow (act 5000) { available := 5000 } readHeader = some s ∧
      (s.streams ()).reserved = some 4103 ∧ s.available = 897 ∧
      ∑ i, (s.streams i).reserved.getD 0 + s.held.sum ≤ 5000 := by
  have hfollow : follow (act 5000) { available := 5000 } readHeader = some _ := rfl
  have hrun := Reachable.start.follow (fun _ _ _ => trivial) hfollow
  exact ⟨_, hfollow, rfl, rfl, (readers_within_budget hrun).1⟩

end ReadBudget

end MqttLib.Protocol.Framing
