/-
MqttLib.Broker.RetainedRestart

Retained messages over a restart of the broker with the file backend: publishes change the
map and the files (`router.rs`, `storage/file_backend.rs`), the map is lost, and
`MessageRouter::initialize` fills it again from the files.
-/

import MqttLib.Broker.Retained
import MqttLib.Storage.RetainedFiles

namespace MqttLib.Broker.RetainedRestart

open Foundation Protocol Storage MqttLib.Storage.RetainedFiles Table Option Finmap Bool
open RetainedMessage
open MqttLib.Broker.Retained

variable {β : Type*}

/-! ## Publishes and the restart -/

/-- The map of the router and the files of the backend. -/
structure State (β : Type*) where
  memory : Table String RetainedMessage := ∅
  files : Table String β := ∅

/-- A publish as it is routed. -/
structure Routed where
  publish : PublishPacket
  limits : Limits := {}
  limitsApply : Bool := true
  now : SystemTime

/-- `handle_retain_storage`, from the map to the files. -/
def route (json : RetainedJson β) (accepts : String → Bool) (s : State β) (r : Routed) : State β :=
  let message := retainedMessage r.publish r.now
  if !r.publish.retain then s
  else
    match updateMap s.memory r.publish message r.limits r.limitsApply with
    | none => s
    | some memory =>
      match message with
      | none => { memory, files := removeRetainedMessage s.files r.publish.topicName }
      | some m =>
        { memory, files := storeRetainedMessage json accepts s.files r.publish.topicName m }

/-- The broker from its first start, after some publishes. -/
def routeAll (json : RetainedJson β) (accepts : String → Bool) (routed : List Routed) : State β :=
  routed.foldl (route json accepts) {}

/-- `MessageRouter::initialize`, with the files as they are listed. -/
def initializeRouter (json : RetainedJson β) (listing : List (String × β)) (now : SystemTime) :
    Table String RetainedMessage :=
  ofEntries (RetainedFiles.getRetainedMessages json listing "#" now)

/-- `get_retained_messages` of the router, for an order of the map. -/
def getRetainedMessages (order : List (String × RetainedMessage)) (topicFilter : String)
    (now : SystemTime) : List PublishPacket :=
  (order.filter fun (topic, message) =>
      topicMatchesFilter topic topicFilter && !message.isExpired now).map
    fun (_, message) => message.toPublishPacket now

/-! ## What the files hold -/

/-- Every message of the map is on file under its topic, unless the file system does not take
the name; and it expires if it has an interval. -/
structure Mirrored (json : RetainedJson β) (accepts : String → Bool) (s : State β) : Prop where
  files : ∀ filename text, s.files.lookup filename = some text ↔
    ∃ topic m, filename = topicToFilename topic ∧ accepts filename = true ∧
      s.memory.lookup topic = some m ∧ text = json.toVec m
  topic : ∀ topic m, s.memory.lookup topic = some m → m.topic = topic
  valid : ∀ topic m, s.memory.lookup topic = some m → isValidTopicName topic = true
  expiry : ∀ topic m, s.memory.lookup topic = some m →
    m.expiresAt.isSome = m.messageExpiryInterval.isSome

section

variable {json : RetainedJson β} {accepts : String → Bool} {s : State β}
  {listing : List (String × β)} {restart : SystemTime}

/-- A topic gets a message, or loses it, in the map and in the files. -/
theorem Mirrored.set (h : Mirrored json accepts s) {topic : String}
    {message : Option RetainedMessage} {files : Table String β}
    (hfile : files.lookup (topicToFilename topic) =
      if accepts (topicToFilename topic) then message.map json.toVec else none)
    (hoth : ∀ filename, filename ≠ topicToFilename topic →
      files.lookup filename = s.files.lookup filename)
    (hmsg : ∀ m, message = some m → m.topic = topic ∧ isValidTopicName topic ∧
      m.expiresAt.isSome = m.messageExpiryInterval.isSome) :
    Mirrored json accepts { memory := s.memory.set topic message, files } := by
  have hcases : ∀ topic' m, (s.memory.set topic message).lookup topic' = some m →
      (topic' = topic ∧ message = some m) ∨ (topic' ≠ topic ∧ s.memory.lookup topic' = some m) := by
    intro topic' m hlook
    by_cases htopic : topic' = topic
    · subst htopic
      rw [lookup_set_self] at hlook
      exact Or.inl ⟨rfl, hlook⟩
    · rw [lookup_set_of_ne _ _ htopic] at hlook
      exact Or.inr ⟨htopic, hlook⟩
  refine ⟨fun filename text => ?_, fun topic' m hlook => ?_, fun topic' m hlook => ?_,
    fun topic' m hlook => ?_⟩
  · by_cases hname : filename = topicToFilename topic
    · subst hname
      rw [hfile]
      constructor
      · intro htext
        split at htext
        · rename_i haccepts
          obtain ⟨m, hm, rfl⟩ := map_eq_some_iff.mp htext
          refine ⟨topic, m, rfl, haccepts, ?_, rfl⟩
          rw [lookup_set_self, hm]
        · cases htext
      · rintro ⟨topic', m, hname, haccepts, hlook, rfl⟩
        obtain rfl := topicToFilename_inj.mp hname
        rw [if_pos haccepts]
        rw [lookup_set_self] at hlook
        rw [hlook]
        rfl
    · rw [hoth filename hname, h.files filename text]
      refine exists_congr fun topic' => exists_congr fun m => and_congr_right fun htopic => ?_
      have hne : topic' ≠ topic := fun heq => hname (by rw [htopic, heq])
      rw [lookup_set_of_ne _ _ hne]
  · rcases hcases topic' m hlook with ⟨rfl, hm⟩ | ⟨-, hold⟩
    · exact (hmsg m hm).1
    · exact h.topic topic' m hold
  · rcases hcases topic' m hlook with ⟨rfl, hm⟩ | ⟨-, hold⟩
    · exact (hmsg m hm).2.1
    · exact h.valid topic' m hold
  · rcases hcases topic' m hlook with ⟨rfl, hm⟩ | ⟨-, hold⟩
    · exact (hmsg m hm).2.2
    · exact h.expiry topic' m hold

theorem Mirrored.route (h : Mirrored json accepts s) {r : Routed}
    (hvalid : isValidTopicName r.publish.topicName) :
    Mirrored json accepts (route json accepts s r) := by
  unfold RetainedRestart.route
  dsimp only
  split
  · exact h
  cases hupd : updateMap s.memory r.publish (retainedMessage r.publish r.now) r.limits
      r.limitsApply with
  | none => exact h
  | some memory =>
    dsimp only
    rw [updateMap_cases hupd]
    cases hmsg : retainedMessage r.publish r.now with
    | none =>
      dsimp only
      refine h.set ?_ (fun filename hne => ?_) (fun m hm => by cases hm)
      · unfold removeRetainedMessage
        rw [lookup_erase]
        split <;> rfl
      · exact lookup_erase_ne hne
    | some m =>
      dsimp only
      have hnew : m = new r.publish r.now := by
        obtain ⟨-, hmsg⟩ := ite_none_left_eq_some.mp hmsg
        exact (some.inj hmsg).symm
      refine h.set ?_ (fun filename hne => ?_) (fun _ hm' => ?_)
      · unfold storeRetainedMessage
        dsimp only
        split
        · rw [lookup_insert]
          rfl
        · rename_i haccepts
          -- a name that is not taken now has never been taken
          cases hlook : s.files.lookup (topicToFilename r.publish.topicName) with
          | none => rfl
          | some text =>
            obtain ⟨_, _, -, hwas, -⟩ := (h.files _ text).mp hlook
            exact absurd hwas haccepts
      · unfold storeRetainedMessage
        dsimp only
        split
        · exact lookup_insert_of_ne _ hne
        · rfl
      · cases hm'
        subst hnew
        refine ⟨rfl, hvalid, ?_⟩
        unfold new
        dsimp only
        rw [isSome_map]

theorem mirrored_routeAll (json : RetainedJson β) (accepts : String → Bool) {routed : List Routed}
    (hvalid : ∀ r ∈ routed, isValidTopicName r.publish.topicName) :
    Mirrored json accepts (routeAll json accepts routed) := by
  have hgeneral : ∀ (routed : List Routed) (s : State β), Mirrored json accepts s →
      (∀ r ∈ routed, isValidTopicName r.publish.topicName = true) →
        Mirrored json accepts (routed.foldl (RetainedRestart.route json accepts) s) := by
    intro routed
    induction routed with
    | nil => exact fun s h _ => h
    | cons r routed ih =>
      intro s h hvalid
      obtain ⟨hr, hrest⟩ := List.forall_mem_cons.mp hvalid
      exact ih _ (h.route hr) hrest
  refine hgeneral routed {} ?_ hvalid
  refine ⟨fun _ _ => ?_, fun topic m h => ?_, fun topic m h => ?_, fun topic m h => ?_⟩
  · constructor
    · intro h
      cases h
    · rintro ⟨topic, m, -, -, h, -⟩
      cases h
  all_goals cases h

/-! ## What comes back -/

/-- The topics `initialize` does not bring back: their name is not taken as a file name, or
`#` does not match them. -/
def lost (accepts : String → Bool) (topic : String) : Bool :=
  startsWith topic '$' || !accepts (topicToFilename topic)

/-- What a file of the listing is read as. -/
theorem mem_getRetainedMessages (h : Mirrored json accepts s)
    (hlisting : s.files.Lists listing) (now : SystemTime) (topic : String) (m : RetainedMessage) :
    (topic, m) ∈ RetainedFiles.getRetainedMessages json listing "#" now ↔
      lost accepts topic = false ∧
        ∃ m₀, s.memory.lookup topic = some m₀ ∧ m = { m₀ with expiresAt := none } := by
  unfold RetainedFiles.getRetainedMessages lost
  rw [List.mem_filterMap]
  constructor
  · rintro ⟨⟨filename, text⟩, hmem, hread⟩
    obtain ⟨_, m₀, rfl, haccepts, hlook, rfl⟩ :=
      (h.files filename text).mp ((hlisting.mem filename text).mp hmem)
    dsimp only at hread
    rw [filenameToTopic_topicToFilename, topicMatchesFilter_hash, json.round_trip] at hread
    split at hread
    · rename_i hdollar
      obtain ⟨-, hread⟩ := ite_none_left_eq_some.mp hread
      cases hread
      exact ⟨by simpa [haccepts] using hdollar, m₀, hlook, rfl⟩
    · cases hread
  · rintro ⟨hkept, m₀, hlook, rfl⟩
    simp only [or_eq_false_iff, not_eq_false'] at hkept
    have hfile := (h.files (topicToFilename topic) (json.toVec m₀)).mpr
      ⟨topic, m₀, rfl, hkept.2, hlook, rfl⟩
    refine ⟨(topicToFilename topic, json.toVec m₀), (hlisting.mem _ _).mpr hfile, ?_⟩
    dsimp only
    rw [filenameToTopic_topicToFilename, topicMatchesFilter_hash, json.round_trip, hkept.1]
    rfl

theorem lookup_initializeRouter (h : Mirrored json accepts s)
    (hlisting : s.files.Lists listing) (now : SystemTime) (topic : String) (m : RetainedMessage) :
    (initializeRouter json listing now).lookup topic = some m ↔
      lost accepts topic = false ∧
        ∃ m₀, s.memory.lookup topic = some m₀ ∧ m = { m₀ with expiresAt := none } := by
  unfold initializeRouter
  rw [lookup_ofEntries ?_, mem_getRetainedMessages h hlisting]
  -- different files are of different topics
  have hnames : (listing.map fun e => filenameToTopic e.1).Nodup := by
    have hkeys := hlisting.nodup
    rw [show (listing.map fun e => filenameToTopic e.1) =
      (listing.map Prod.fst).map filenameToTopic by rw [List.map_map]; rfl]
    refine List.Nodup.map_on ?_ hkeys
    intro _ hname _ hname' heq
    obtain ⟨⟨_, text⟩, hmem, rfl⟩ := List.mem_map.mp hname
    obtain ⟨⟨_, text'⟩, hmem', rfl⟩ := List.mem_map.mp hname'
    obtain ⟨topic, -, htopic, -⟩ := (h.files _ text).mp ((hlisting.mem _ text).mp hmem)
    obtain ⟨_, -, htopic', -⟩ := (h.files _ text').mp ((hlisting.mem _ text').mp hmem')
    dsimp only at htopic htopic' heq ⊢
    rw [htopic, htopic', filenameToTopic_topicToFilename, filenameToTopic_topicToFilename] at heq
    rw [htopic, htopic', heq]
  exact hnames.sublist (topics_getRetainedMessages json listing "#" now)

/-! ## Before and after -/

/-- Which messages of an order a query returns. -/
theorem mem_getRetained {order : List (String × RetainedMessage)} {topicFilter : String}
    {now : SystemTime} {publish : PublishPacket} :
    publish ∈ getRetainedMessages order topicFilter now ↔
      ∃ topic m, (topic, m) ∈ order ∧ topicMatchesFilter topic topicFilter ∧
        m.isExpired now = false ∧ publish = m.toPublishPacket now := by
  unfold getRetainedMessages
  rw [List.mem_map]
  constructor
  · rintro ⟨⟨topic, m⟩, hmem, rfl⟩
    rw [List.mem_filter] at hmem
    obtain ⟨hmem, hvisible⟩ := hmem
    simp only [and_eq_true, not_eq_true'] at hvisible
    exact ⟨topic, m, hmem, hvisible.1, hvisible.2, rfl⟩
  · rintro ⟨topic, m, hmem, hmatches, hfresh, rfl⟩
    refine ⟨(topic, m), List.mem_filter.mpr ⟨hmem, ?_⟩, rfl⟩
    simp [hmatches, hfresh]

/-- Every query after the restart returns what it would have returned without it, in some
order. -/
def Survives (json : RetainedJson β) (s : State β) (restart : SystemTime) : Prop :=
  ∀ listing, s.files.Lists listing → ∀ order order', s.memory.Lists order →
    (initializeRouter json listing restart).Lists order' → ∀ topicFilter now, restart ≤ now →
      (getRetainedMessages order' topicFilter now).Perm
        (getRetainedMessages order topicFilter now)

/-- A message that has expired stays expired. -/
theorem isExpired_mono {m : RetainedMessage} {now later : SystemTime} (hle : now ≤ later)
    (hexpd : m.isExpired now) : m.isExpired later := by
  unfold isExpired expired at hexpd ⊢
  rw [any_eq_true] at hexpd ⊢
  obtain ⟨expiry, hexpiry, hlt⟩ := hexpd
  refine ⟨expiry, hexpiry, ?_⟩
  simp only [decide_eq_true_eq] at hlt ⊢
  exact lt_of_lt_of_le hlt hle

/-- Only what has no interval and is not lost comes back as it was; what is lost may be missing
once it has expired. -/
def Unaffected (accepts : String → Bool) (s : State β) (restart : SystemTime) : Prop :=
  ∀ topic m, s.memory.lookup topic = some m →
    if lost accepts topic then m.isExpired restart = true else m.messageExpiryInterval = none

theorem Unaffected.survives (h : Mirrored json accepts s)
    (hunaffected : Unaffected accepts s restart) : Survives json s restart := by
  intro _ hlisting _ _ horder horder' _ now hle
  unfold getRetainedMessages
  refine List.Perm.map _ ?_
  have hnd : ∀ l : List (String × RetainedMessage), (l.map Prod.fst).Nodup → l.Nodup :=
    fun l hl => List.Nodup.of_map _ hl
  refine (List.perm_ext_iff_of_nodup ((hnd _ horder'.nodup).filter _)
    ((hnd _ horder.nodup).filter _)).mpr ?_
  rintro ⟨topic, m⟩
  rw [List.mem_filter, List.mem_filter, horder'.mem, horder.mem, lookup_initializeRouter h hlisting]
  constructor
  · rintro ⟨⟨hkept, m₀, hlook, rfl⟩, hvisible⟩
    have hint := hunaffected topic m₀ hlook
    rw [hkept] at hint
    have hnever : m₀.expiresAt = none := by
      have hexpiry := h.expiry topic m₀ hlook
      rw [show m₀.messageExpiryInterval = none from hint] at hexpiry
      simpa using hexpiry
    have hsame : { m₀ with expiresAt := none } = m₀ := by rw [← hnever]
    rw [hsame] at hvisible ⊢
    exact ⟨hlook, hvisible⟩
  · rintro ⟨hlook, hvisible⟩
    have hcond := hunaffected topic m hlook
    cases hlost : lost accepts topic with
    | true =>
      -- it has expired before the restart, so it is not visible now
      rw [hlost] at hcond
      have hexpd := isExpired_mono hle (show m.isExpired restart = true from hcond)
      simp [hexpd] at hvisible
    | false =>
      rw [hlost] at hcond
      have hnever : m.expiresAt = none := by
        have hexpiry := h.expiry topic m hlook
        rw [show m.messageExpiryInterval = none from hcond] at hexpiry
        simpa using hexpiry
      exact ⟨⟨rfl, m, hlook, by rw [← hnever]⟩, hvisible⟩

theorem Survives.unaffected (h : Mirrored json accepts s)
    (hsurvives : Survives json s restart) : Unaffected accepts s restart := by
  intro topic m hlook
  obtain ⟨listing, hlisting⟩ := exists_lists s.files
  obtain ⟨order, horder⟩ := exists_lists s.memory
  obtain ⟨order', horder'⟩ := exists_lists (initializeRouter json listing restart)
  have hplain := hasWildcards_of_isValidTopicName (h.valid topic m hlook)
  have hself := (topicMatchesFilter_iff_eq hplain).mpr (Eq.refl topic)
  have hperm := hsurvives listing hlisting order order' horder horder' topic
  split
  · -- a lost message that has not expired is only returned without the restart
    rename_i hlost
    by_contra hfresh
    rw [not_eq_true] at hfresh
    have hpre : m.toPublishPacket restart ∈ getRetainedMessages order topic restart :=
      mem_getRetained.mpr ⟨topic, m, (horder.mem topic m).mpr hlook, hself, hfresh, rfl⟩
    obtain ⟨topic', m', hmem, hmatches, -, -⟩ :=
      mem_getRetained.mp ((hperm restart (Nat.le_refl _)).mem_iff.mpr hpre)
    obtain ⟨hkept, -⟩ := (lookup_initializeRouter h hlisting restart topic' m').mp
      ((horder'.mem topic' m').mp hmem)
    rw [(topicMatchesFilter_iff_eq hplain).mp hmatches, hlost] at hkept
    cases hkept
  · -- one with an interval is still returned after the restart when it has expired
    rename_i hkept
    rw [not_eq_true] at hkept
    cases hint : m.messageExpiryInterval with
    | none => rfl
    | some interval =>
      have hexpiry := h.expiry topic m hlook
      rw [hint, isSome_some, isSome_iff_exists] at hexpiry
      obtain ⟨expiry, hexpiry⟩ := hexpiry
      have hload := (lookup_initializeRouter h hlisting restart topic _).mpr ⟨hkept, m, hlook, rfl⟩
      have hafter : toPublishPacket { m with expiresAt := none }
          (max restart (expiry + 1)) ∈
            getRetainedMessages order' topic (max restart (expiry + 1)) :=
        mem_getRetained.mpr ⟨topic, _, (horder'.mem topic _).mpr hload, hself, rfl, rfl⟩
      obtain ⟨topic', m', hmem, hmatches, hfresh, -⟩ :=
        mem_getRetained.mp ((hperm _ (Nat.le_max_left _ _)).mem_iff.mp hafter)
      have hlook' := (horder.mem topic' m').mp hmem
      rw [(topicMatchesFilter_iff_eq hplain).mp hmatches, hlook] at hlook'
      cases hlook'
      unfold isExpired expired at hfresh
      rw [hexpiry] at hfresh
      simp only [any_some, decide_eq_false_iff_not] at hfresh
      exact absurd (lt_of_lt_of_le (Nat.lt_succ_self expiry) (Nat.le_max_right _ _)) hfresh

/-- After any sequence of publishes, the retained messages survive a restart unchanged if and
only if those that are lost have expired by then and no other has an expiry interval. -/
theorem retained_survive_iff (json : RetainedJson β) (accepts : String → Bool)
    {routed : List Routed} (hvalid : ∀ r ∈ routed, isValidTopicName r.publish.topicName = true)
    (restart : SystemTime) :
    Survives json (routeAll json accepts routed) restart ↔
      Unaffected accepts (routeAll json accepts routed) restart := by
  have hmirrored := mirrored_routeAll json accepts hvalid
  exact ⟨fun h => h.unaffected hmirrored, fun h => h.survives hmirrored⟩

end

/-! ## Restarts with one message -/

/-- A serializer that knows the text of one message. -/
def knowing (known : RetainedMessage) (text : Bytes) : RetainedJson (Bytes ⊕ RetainedMessage) where
  toVec m :=
    if { m with expiresAt := none } = { known with expiresAt := none } then .inl text
    else .inr { m with expiresAt := none }
  fromSlice
    | .inl bytes => if bytes = text then some { known with expiresAt := none } else none
    | .inr m => some m
  round_trip m := by
    by_cases hknown : { m with expiresAt := none } = { known with expiresAt := none }
    · rw [if_pos hknown]
      dsimp only
      rw [if_pos rfl, hknown]
    · rw [if_neg hknown]

/-- A publish with the retain flag to a topic, at time 0. -/
def retains (topicName : String) (properties : Properties) : Routed where
  publish := { topicName, payload := [1], qos := .atLeastOnce, retain := true, properties }
  now := 0

theorem routeAll_retains (json : RetainedJson β) (topicName : String) (properties : Properties) :
    routeAll json (fun _ => true) [retains topicName properties] =
      { memory := insert topicName
          (new (retains topicName properties).publish 0) ∅
        files := insert (topicToFilename topicName)
          (json.toVec (new (retains topicName properties).publish 0)) ∅ } := rfl

theorem initializeRouter_singleton (json : RetainedJson β) {topicName : String}
    (hdollar : startsWith topicName '$' = false) (m : RetainedMessage) (now : SystemTime) :
    initializeRouter json [(topicToFilename topicName, json.toVec m)] now =
      insert topicName { m with expiresAt := none } ∅ := by
  unfold initializeRouter RetainedFiles.getRetainedMessages
  rw [List.filterMap_cons]
  dsimp only
  rw [json.round_trip, filenameToTopic_topicToFilename, topicMatchesFilter_hash, hdollar]
  rfl

/-- Ten seconds to live. -/
def tenSeconds : Properties := Properties.setMessageExpiryInterval ∅ 10

/-- The serializer, given the text of the message of a publish. -/
def jsonOf (r : Routed) (text : String) : RetainedJson (Bytes ⊕ RetainedMessage) :=
  knowing (new r.publish r.now) text.toUTF8.toList

def sensorText : String :=
  "\x7b\"topic\":\"sensors/1\",\"payload\":[1],\"qos\":\"AtLeastOnce\",\"retain\":true," ++
  "\"stored_at_secs\":0,\"message_expiry_interval\":null,\"user_properties\":[]," ++
  "\"content_type\":null,\"response_topic\":null,\"correlation_data\":null," ++
  "\"payload_format_indicator\":null\x7d"

/-- A message without an interval survives. -/
theorem retained_survive_sensor :
    Survives (jsonOf (retains "sensors/1" ∅) sensorText)
      (routeAll (jsonOf (retains "sensors/1" ∅) sensorText) (fun _ => true)
        [retains "sensors/1" ∅]) 1000000000 := by
  refine (retained_survive_iff _ _ ?_ _).mpr ?_
  · simp only [List.mem_singleton, forall_eq]
    decide
  · rw [routeAll_retains]
    intro _ m hlookup
    rcases of_lookup_insert hlookup with ⟨rfl, rfl⟩ | ⟨-, hold⟩
    · rw [if_neg (by decide)]
      decide
    · cases hold

def expiringText : String :=
  "\x7b\"topic\":\"sensors/1\",\"payload\":[1],\"qos\":\"AtLeastOnce\",\"retain\":true," ++
  "\"stored_at_secs\":0,\"message_expiry_interval\":10,\"user_properties\":[]," ++
  "\"content_type\":null,\"response_topic\":null,\"correlation_data\":null," ++
  "\"payload_format_indicator\":null\x7d"

def expiringJson : RetainedJson (Bytes ⊕ RetainedMessage) :=
  jsonOf (retains "sensors/1" tenSeconds) expiringText

/-- The broker after the publish of the message that lives for ten seconds. -/
def expiring : State (Bytes ⊕ RetainedMessage) :=
  routeAll expiringJson (fun _ => true) [retains "sensors/1" tenSeconds]

/-- The message is still returned, without an interval, 100 seconds later, if the broker has
been restarted after one second. -/
theorem expiring_message_survives :
    ∃ listing order order',
      expiring.files.Lists listing ∧ expiring.memory.Lists order ∧
      (initializeRouter expiringJson listing 1000000000).Lists order' ∧
      getRetainedMessages order "sensors/1" 100000000000 = [] ∧
      (getRetainedMessages order' "sensors/1" 100000000000).map
        (fun publish => (publish.topicName, publish.properties.getMessageExpiryInterval)) =
          [("sensors/1", none)] := by
  have hexpiring : expiring = _ := routeAll_retains expiringJson "sensors/1" tenSeconds
  rw [hexpiring]
  refine ⟨_, _, [("sensors/1", { new (retains "sensors/1" tenSeconds).publish 0
    with expiresAt := none })], lists_singleton _ _, lists_singleton _ _, ?_, ?_, ?_⟩
  · rw [initializeRouter_singleton expiringJson (by decide)]
    exact lists_singleton _ _
  · decide
  · decide

end MqttLib.Broker.RetainedRestart
