/-
MqttLib.Protocol.TopicMatching

The matcher of `topic_matching.rs`: it checks the topic and the filter itself and walks
their levels by recursion.
-/

import MqttLib.Protocol.Topic

namespace MqttLib.Protocol.TopicMatching

open List

/-- `is_valid_topic` of `topic_matching.rs`; unlike the broker's check it admits the empty topic. -/
def isValidTopic (topic : String) : Bool :=
  !topic.toList.contains (Char.ofNat 0) && !topic.toList.contains '+' &&
    !topic.toList.contains '#' && topic.utf8ByteSize ≤ maxStringLength

/-- The loop of `is_valid_filter`: a level with `#` ends it. -/
def validParts : List Level → Bool
  | [] => true
  | part :: rest =>
    if part.contains '#' then part == ['#'] && rest.isEmpty
    else if part.contains '+' && part != ['+'] then false
    else validParts rest

def isValidFilter (filter : String) : Bool :=
  if filter.isEmpty || filter.toList.contains (Char.ofNat 0) ||
      filter.utf8ByteSize > maxStringLength then false
  else validParts (levels filter)

def matchParts : List Level → List Level → Bool
  | [], [] => true
  | topic, part :: filter =>
    if part == ['#'] then filter.isEmpty
    else match topic with
      | [] => false
      | level :: topic => (part == ['+'] || part == level) && matchParts topic filter
  | _ :: _, [] => false

/-- `topic_matching::matches`. -/
def topicMatches (topic filter : String) : Bool :=
  if topic.isEmpty then false
  else if !isValidTopic topic || !isValidFilter filter then false
  else if topic == filter then true
  else if startsWith topic '$' && (startsWith filter '#' || startsWith filter '+') then false
  else if filter == "#" then true
  else matchParts (levels topic) (levels filter)

/-! ## The validators -/

theorem validParts_eq (filter : List Level) : validParts filter = validLevels filter := by
  induction filter with
  | nil => rfl
  | cons part rest ih =>
    rw [validParts, validLevels, ih]
    by_cases hhash : '#' ∈ part
    · by_cases hlone : part = ['#']
      · -- a lone `#`: the one stops here, the other goes on to what must be nothing
        subst hlone
        cases rest with
        | nil => rfl
        | cons _ rest => rfl
      · simp [hhash, hlone]
    · simp [hhash]

theorem isValidFilter_eq (filter : String) : isValidFilter filter = isValidTopicFilter filter := by
  unfold isValidFilter isValidTopicFilter maxStringLength
  rw [validParts_eq]
  cases filter.isEmpty with
  | true => rfl
  | false =>
    by_cases hlen : filter.utf8ByteSize > 65535
    · simp [hlen]
    · simp [hlen]

variable {topic filter : String}

theorem isValidTopic_of_isValidTopicName (h : isValidTopicName topic) :
    topic.isEmpty = false ∧ isValidTopic topic := by
  unfold isValidTopicName maxStringLength at h
  unfold isValidTopic maxStringLength
  split at h
  · cases h
  rename_i hemp
  split at h
  · cases h
  rename_i hlen
  split at h
  · cases h
  rename_i hnul
  split at h
  · cases h
  rename_i hplain
  simp only [Bool.not_eq_true, Bool.or_eq_false_iff] at hemp hnul hplain
  rw [hnul, hplain.1, hplain.2]
  exact ⟨hemp, by simpa using hlen⟩

/-! ## The matchers -/

/-- Both walks agree on a filter with its `#` at the end. -/
theorem matchParts_eq {topic filter : List Level} (hfilt : validLevels filter) :
    matchParts topic filter = matchLevels topic filter := by
  induction filter generalizing topic with
  | nil => cases topic <;> rfl
  | cons part filter ih =>
    obtain ⟨hpart, hrest⟩ := validLevels_cons hfilt
    cases topic with
    | nil =>
      cases filter with
      | nil => by_cases hhash : part = ['#'] <;> simp [matchParts, matchLevels, hhash]
      | cons _ filter => simp [matchParts, matchLevels]
    | cons level topic =>
      rw [matchParts, matchLevels, ih hrest]
      by_cases hhash : part = ['#']
      · obtain ⟨rfl, -⟩ := hpart.hash (by simp [hhash])
        simp [hhash]
      · by_cases hlevel : part = ['+'] ∨ part = level
        · rcases hlevel with rfl | rfl
          · simp
          · simp [hhash]
        · rw [not_or] at hlevel
          simp [hhash, hlevel.1, hlevel.2]

theorem topicMatches_eq (htopic : isValidTopicName topic) (hfilt : isValidTopicFilter filter) :
    topicMatches topic filter = topicMatchesFilter topic filter := by
  obtain ⟨hemp, hvalid⟩ := isValidTopic_of_isValidTopicName htopic
  unfold topicMatches
  rw [hemp, hvalid, isValidFilter_eq, hfilt,
    matchParts_eq (validLevels_of_isValidTopicFilter hfilt)]
  by_cases hsame : topic = filter
  · -- a topic name has no wildcards, so it matches itself
    have hplain : hasWildcards filter = false := by
      rw [← hsame]
      exact hasWildcards_of_isValidTopicName htopic
    rw [(topicMatchesFilter_iff_eq hplain).mpr hsame]
    simp [hsame]
  · rw [if_neg Bool.false_ne_true, if_neg (by decide), if_neg (by simpa using hsame)]
    rfl

/-- Both matchers decide the MQTT rule for every valid topic name and filter, and both
validators of filters accept the same strings. -/
theorem matchers_agree :
    (∀ topic filter, isValidTopicName topic = true → isValidTopicFilter filter = true →
      (topicMatches topic filter = true ↔ FilterMatches topic filter) ∧
      (topicMatchesFilter topic filter = true ↔ FilterMatches topic filter)) ∧
    ∀ filter, isValidFilter filter = isValidTopicFilter filter := by
  refine ⟨fun topic filter htopic hfilter => ?_, isValidFilter_eq⟩
  rw [topicMatches_eq htopic hfilter]
  have hrule : topicMatchesFilter topic filter ↔ FilterMatches topic filter :=
    topicMatchesFilter_iff (validLevels_of_isValidTopicFilter hfilter)
  exact ⟨hrule, hrule⟩

/-- A `#` stands for the level above it, too. -/
theorem matchers_agree_parent : FilterMatches "sport" "sport/#" :=
  ((matchers_agree.1 "sport" "sport/#" (by decide +kernel) (by decide +kernel)).1).mp
    (by decide +kernel)

end MqttLib.Protocol.TopicMatching
