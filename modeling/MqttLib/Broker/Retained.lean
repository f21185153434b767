/-
MqttLib.Broker.Retained

Retained messages (`handle_retain_storage` of `router.rs`).  Every publish with the retain
flag changes the map in memory, under its lock, and then the storage backend, when the lock
has been released; publishes are routed concurrently.  A step is one awaited operation of
one call.
-/

import MqttLib.Foundation.Reachable
import MqttLib.Storage.Messages

namespace MqttLib.Broker.Retained

open Foundation Protocol Storage Table

/-! ## The map -/

/-- `max_retained_message_size` and `max_retained_messages`; 0 is no limit. -/
structure Limits where
  maxSize : Nat := 0
  maxCount : Nat := 0
  deriving DecidableEq

/-- The message a publish retains; an empty payload clears the topic. -/
def retainedMessage (publish : PublishPacket) (now : SystemTime) : Option RetainedMessage :=
  if publish.payload.isEmpty then none else some (RetainedMessage.new publish now)

def overLimit (retained : Table String RetainedMessage) (publish : PublishPacket)
    (limits : Limits) : Bool :=
  let tooLarge := limits.maxSize > 0 && publish.payload.length > limits.maxSize
  let storeFull := limits.maxCount > 0 && (retained.lookup publish.topicName).isNone &&
    retained.entries.card ≥ limits.maxCount
  tooLarge || storeFull

/-- The section under the lock of the map; over a limit nothing is retained. -/
def updateMap (retained : Table String RetainedMessage) (publish : PublishPacket)
    (message : Option RetainedMessage) (limits : Limits) (limitsApply : Bool) :
    Option (Table String RetainedMessage) :=
  match message with
  | none => some (retained.set publish.topicName none)
  | some m =>
    if limitsApply && overLimit retained publish limits then none
    else some (retained.set publish.topicName (some m))

theorem updateMap_cases {retained retained' : Table String RetainedMessage}
    {publish : PublishPacket} {message : Option RetainedMessage} {limits : Limits}
    {limitsApply : Bool}
    (hupd : updateMap retained publish message limits limitsApply = some retained') :
    retained' = retained.set publish.topicName message := by
  unfold updateMap at hupd
  cases message with
  | none => exact (Option.some.inj hupd).symm
  | some m =>
    dsimp only at hupd
    split at hupd
    · cases hupd
    · exact (Option.some.inj hupd).symm

/-! ## Concurrent calls -/

structure RetainedSetEvent where
  topic : String
  payload : Bytes
  qos : QoS
  cleared : Bool
  deriving DecidableEq

def RetainedSetEvent.of (publish : PublishPacket) : RetainedSetEvent :=
  ⟨publish.topicName, publish.payload, publish.qos, publish.payload.isEmpty⟩

/-- Where a call of `handle_retain_storage` stands: before the lock, before the storage
backend, before the event handler. -/
inductive Call where
  | idle
  | locking (publish : PublishPacket) (message : Option RetainedMessage) (limits : Limits)
      (limitsApply : Bool)
  | storing (publish : PublishPacket) (message : Option RetainedMessage)
  | notifying (publish : PublishPacket)

structure State where
  memory : Table String RetainedMessage := ∅
  stored : Table String RetainedMessage := ∅
  calls : Nat → Call := fun _ => .idle
  events : List RetainedSetEvent := []

def State.setCall (s : State) (c : Nat) (call : Call) : State :=
  { s with calls := Function.update s.calls c call }

inductive Action where
  /-- `route_message` with the retain flag, at a time of the clock. -/
  | route (c : Nat) (publish : PublishPacket) (limits : Limits) (limitsApply : Bool)
      (now : SystemTime)
  | update (c : Nat)
  | store (c : Nat)
  | notify (c : Nat)

/-- One step of a call; the storage backend does not fail. -/
def act (s : State) : Action → Option State
  | .route c publish limits limitsApply now =>
    match s.calls c with
    | .idle =>
      if publish.retain then
        some (s.setCall c (.locking publish (retainedMessage publish now) limits limitsApply))
      else none
    | _ => none
  | .update c =>
    match s.calls c with
    | .locking publish message limits limitsApply =>
      match updateMap s.memory publish message limits limitsApply with
      | none => some (s.setCall c .idle)
      | some memory => some ({ s with memory }.setCall c (.storing publish message))
    | _ => none
  | .store c =>
    match s.calls c with
    | .storing publish message =>
      some ({ s with stored := s.stored.set publish.topicName message }.setCall c
        (.notifying publish))
    | _ => none
  | .notify c =>
    match s.calls c with
    | .notifying publish =>
      some ({ s with events := s.events ++ [RetainedSetEvent.of publish] }.setCall c .idle)
    | _ => none

/-! ## Agreement -/

/-- The topic and the message a call still has to store. -/
def Call.unstored : Call → Option (String × Option RetainedMessage)
  | .storing publish message => some (publish.topicName, message)
  | _ => none

/-- No other call is between the map and the storage with the topic of the map's next
change. -/
def Alone (s : State) : Action → Prop
  | .update c =>
    match s.calls c with
    | .locking publish message limits limitsApply =>
      updateMap s.memory publish message limits limitsApply ≠ none →
        ∀ c' message, (s.calls c').unstored ≠ some (publish.topicName, message)
    | _ => True
  | _ => True

/-- Where memory and storage differ on a topic, one call is about to store what is in
memory. -/
structure Mirrored (s : State) : Prop where
  unstored : ∀ c topic message, (s.calls c).unstored = some (topic, message) →
    s.memory.lookup topic = message
  alone : ∀ c c' topic message message', (s.calls c).unstored = some (topic, message) →
    (s.calls c').unstored = some (topic, message') → c = c'
  settled : ∀ topic, (∀ c message, (s.calls c).unstored ≠ some (topic, message)) →
    s.memory.lookup topic = s.stored.lookup topic

section

variable {s s' : State} {c : Nat} {message : Option RetainedMessage} {publish : PublishPacket}

theorem unstored_setCall {call : Call} {k : Nat} {pair : String × Option RetainedMessage} :
    ((s.setCall c call).calls k).unstored = some pair ↔
      (k = c ∧ call.unstored = some pair) ∨ (k ≠ c ∧ (s.calls k).unstored = some pair) := by
  show (Function.update s.calls c call k).unstored = some pair ↔ _
  by_cases hk : k = c
  · subst hk
    simp
  · simp [hk]

/-- A call that neither had nor has anything to store takes a step of its own. -/
theorem Mirrored.setCall (hmirr : Mirrored s) {call : Call}
    (hold : (s.calls c).unstored = none) (hnew : call.unstored = none) :
    Mirrored (s.setCall c call) := by
  have hsame : ∀ k pair, ((s.setCall c call).calls k).unstored = some pair ↔
      (s.calls k).unstored = some pair := by
    intro k pair
    rw [unstored_setCall, hnew]
    constructor
    · rintro (⟨-, h⟩ | ⟨-, h⟩)
      · cases h
      · exact h
    · intro h
      refine .inr ⟨?_, h⟩
      rintro rfl
      rw [hold] at h
      cases h
  refine ⟨fun k topic message h => hmirr.unstored k topic message ((hsame k _).mp h),
    fun k k' topic message message' h h' =>
      hmirr.alone k k' topic message message' ((hsame k _).mp h) ((hsame k' _).mp h'),
    fun topic h => hmirr.settled topic fun k message hk => h k message ((hsame k _).mpr hk)⟩

/-- The map changes, and the call has it to store. -/
theorem Mirrored.update (hmirr : Mirrored s) (hold : (s.calls c).unstored = none)
    (halone : ∀ c' m, (s.calls c').unstored ≠ some (publish.topicName, m)) :
    Mirrored ({ s with memory := s.memory.set publish.topicName message }.setCall c
      (.storing publish message)) := by
  have hcases : ∀ k topic m,
      ((({ s with memory := s.memory.set publish.topicName message } : State).setCall c
        (.storing publish message)).calls k).unstored = some (topic, m) →
      (k = c ∧ topic = publish.topicName ∧ m = message) ∨
        (topic ≠ publish.topicName ∧ (s.calls k).unstored = some (topic, m)) := by
    intro k topic m h
    rcases unstored_setCall.mp h with ⟨hk, heq⟩ | ⟨hk, heq⟩
    · cases heq
      exact .inl ⟨hk, rfl, rfl⟩
    · refine .inr ⟨?_, heq⟩
      rintro rfl
      exact halone k m heq
  refine ⟨fun k topic m h => ?_, fun k k' topic m m' h h' => ?_, fun topic h => ?_⟩
  · show (s.memory.set publish.topicName message).lookup topic = m
    rcases hcases k topic m h with ⟨-, rfl, rfl⟩ | ⟨hne, heq⟩
    · exact lookup_set_self _ _ _
    · rw [lookup_set_of_ne _ _ hne]
      exact hmirr.unstored k topic m heq
  · rcases hcases k topic m h with ⟨rfl, htopic, -⟩ | ⟨hne, heq⟩
    · rcases hcases k' topic m' h' with ⟨rfl, -, -⟩ | ⟨hne, -⟩
      · rfl
      · exact absurd htopic hne
    · rcases hcases k' topic m' h' with ⟨-, htopic, -⟩ | ⟨-, heq'⟩
      · exact absurd htopic hne
      · exact hmirr.alone k k' topic m m' heq heq'
  · have hne : topic ≠ publish.topicName := by
      rintro rfl
      exact h c message (unstored_setCall.mpr (.inl ⟨rfl, rfl⟩))
    show (s.memory.set publish.topicName message).lookup topic = s.stored.lookup topic
    rw [lookup_set_of_ne _ _ hne]
    refine hmirr.settled topic fun k m hk => ?_
    refine h k m (unstored_setCall.mpr (.inr ⟨?_, hk⟩))
    rintro rfl
    rw [hold] at hk
    cases hk

/-- The storage backend catches up with the map. -/
theorem Mirrored.store (hmirr : Mirrored s) (hcall : s.calls c = .storing publish message) :
    Mirrored ({ s with stored := s.stored.set publish.topicName message }.setCall c
      (.notifying publish)) := by
  have hown : (s.calls c).unstored = some (publish.topicName, message) := by rw [hcall]; rfl
  have hsame : ∀ k pair,
      ((({ s with stored := s.stored.set publish.topicName message } : State).setCall c
        (.notifying publish)).calls k).unstored = some pair ↔
      k ≠ c ∧ (s.calls k).unstored = some pair := by
    intro k pair
    rw [unstored_setCall]
    constructor
    · rintro (⟨-, h⟩ | h)
      · cases h
      · exact h
    · exact fun h => .inr h
  refine ⟨fun k topic m h => hmirr.unstored k topic m ((hsame k _).mp h).2,
    fun k k' topic m m' h h' =>
      hmirr.alone k k' topic m m' ((hsame k _).mp h).2 ((hsame k' _).mp h').2,
    fun topic h => ?_⟩
  show s.memory.lookup topic = (s.stored.set publish.topicName message).lookup topic
  by_cases htopic : topic = publish.topicName
  · subst htopic
    rw [lookup_set_self]
    exact hmirr.unstored c _ message hown
  · rw [lookup_set_of_ne _ _ htopic]
    refine hmirr.settled topic fun k m hk => h k m ((hsame k _).mpr ⟨?_, hk⟩)
    rintro rfl
    rw [hown] at hk
    cases hk
    exact htopic rfl

theorem Mirrored.step {a : Action} (hmirr : Mirrored s) (halone : Alone s a)
    (hact : act s a = some s') : Mirrored s' := by
  cases a with
  | route c publish limits limitsApply _ =>
    dsimp only [act] at hact
    split at hact
    · rename_i hcall
      split at hact
      · cases hact
        exact hmirr.setCall (by rw [hcall]; rfl) rfl
      · cases hact
    · cases hact
  | update c =>
    dsimp only [act] at hact
    split at hact
    · rename_i publish message limits limitsApply hcall
      have hold : (s.calls c).unstored = none := by rw [hcall]; rfl
      dsimp only [Alone] at halone
      rw [hcall] at halone
      split at hact
      · cases hact
        exact hmirr.setCall hold rfl
      · rename_i hupd
        cases hact
        rw [updateMap_cases hupd]
        exact hmirr.update hold (halone (by simp [hupd]))
    · cases hact
  | store c =>
    dsimp only [act] at hact
    split at hact
    · rename_i publish message hcall
      cases hact
      exact hmirr.store hcall
    · cases hact
  | notify c =>
    dsimp only [act] at hact
    split at hact
    · rename_i publish hcall
      cases hact
      have hnotified : Mirrored { s with events := s.events ++ [RetainedSetEvent.of publish] } :=
        ⟨hmirr.unstored, hmirr.alone, hmirr.settled⟩
      exact hnotified.setCall (by rw [show _ = _ from hcall]; rfl) rfl
    · cases hact

end

/-- When all calls have returned, memory and storage hold the same for every topic, if no two
calls with one topic have been between the map and the storage at the same time. -/
theorem retained_agree {s₀ s : State} (hidle : ∀ c, s₀.calls c = .idle)
    (hagree : ∀ topic, s₀.memory.lookup topic = s₀.stored.lookup topic)
    (hrun : Reachable act Alone s₀ s) (hfinished : ∀ c, s.calls c = .idle) (topic : String) :
    s.memory.lookup topic = s.stored.lookup topic := by
  have hstart : Mirrored s₀ := by
    have hnone : ∀ c pair, (s₀.calls c).unstored ≠ some pair := by
      intro c pair h
      rw [hidle c] at h
      cases h
    exact ⟨fun c topic m h => absurd h (hnone c _), fun c _ topic m _ h => absurd h (hnone c _),
      fun topic _ => hagree topic⟩
  have hmirrored := hrun.invariant hstart fun s a _ hinv hmet hact => hinv.step hmet hact
  refine hmirrored.settled topic fun c m h => ?_
  rw [hfinished c] at h
  cases h

/-! ## Two publishes with one topic -/

/-- A publish with the retain flag and one byte. -/
def retaining (byte : UInt8) : PublishPacket :=
  { topicName := "sensors/1", payload := [byte], qos := .atLeastOnce, retain := true }

/-- Two calls one after the other: the second message is in memory and in storage. -/
theorem retained_agree_sequence :
    ∃ s, Reachable act Alone {} s ∧ (∀ c, s.calls c = .idle) ∧
      s.memory.lookup "sensors/1" = s.stored.lookup "sensors/1" ∧
      (s.memory.lookup "sensors/1").map RetainedMessage.payload = some [2] := by
  have hstart : Reachable act Alone {} {} := .start
  have hrun := hstart.follow (by simp [Alone])
    (show follow act _ [.route 0 (retaining 1) {} true 0] = some _ from rfl)
  have hrun := hrun.step (a := .update 0) (by rintro - (_ | c) message h <;> cases h) rfl
  have hrun := hrun.follow (by simp [Alone])
    (show follow act _ [.store 0, .notify 0, .route 1 (retaining 2) {} true 0] = some _ from rfl)
  have hrun := hrun.step (a := .update 1) (by rintro - (_ | _ | c) message h <;> cases h) rfl
  have hrun := hrun.follow (by simp [Alone])
    (show follow act _ [.store 1, .notify 1] = some _ from rfl)
  refine ⟨_, hrun, ?_, retained_agree (fun _ => rfl) (fun _ => rfl) hrun ?_ _, by decide⟩ <;>
    rintro (_ | _ | c) <;> rfl

/-- Both calls are past the map before either is at the storage, which the second reaches
first. -/
def crossedRun : List Action :=
  [.route 0 (retaining 1) {} true 0, .route 1 (retaining 2) {} true 0, .update 0, .update 1,
    .store 1, .notify 1, .store 0, .notify 0]

/-- The second message is in memory and the first one in storage. -/
theorem crossed_calls_disagree :
    ∃ s, follow act {} crossedRun = some s ∧ (∀ c, s.calls c = .idle) ∧
      (s.memory.lookup "sensors/1").map RetainedMessage.payload = some [2] ∧
      (s.stored.lookup "sensors/1").map RetainedMessage.payload = some [1] := by
  obtain ⟨s, hfollow⟩ : ∃ s, follow act {} crossedRun = some s := ⟨_, rfl⟩
  refine ⟨s, hfollow, ?_, ?_, ?_⟩
  · cases hfollow
    intro c
    rcases c with _ | _ | c <;> rfl
  · cases hfollow
    decide
  · cases hfollow
    decide

end MqttLib.Broker.Retained
