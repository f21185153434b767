/-
MqttLib.Protocol.Topic

Topic names and topic filters (`validation/mod.rs`, `validation/shared_subscription.rs`):
their levels, when they are valid, and when a filter matches a topic.
-/

import MqttLib.Protocol.Types

namespace MqttLib.Protocol

open List

/-- One level of a topic or filter. -/
abbrev Level := List Char

/-- `split('/')`. -/
def levels (topic : String) : List Level := topic.toList.splitOn '/'

/-- `limits::MAX_STRING_LENGTH`. -/
def maxStringLength : Nat := 65535

def startsWith (text : String) (c : Char) : Bool := text.toList.head? == some c

/-! ## Validity -/

def isValidTopicName (topic : String) : Bool :=
  if topic.isEmpty then false
  else if topic.utf8ByteSize > maxStringLength then false
  else if topic.toList.contains (Char.ofNat 0) then false
  else if topic.toList.contains '+' || topic.toList.contains '#' then false
  else true

/-- The loop of `is_valid_topic_filter` over the levels. -/
def validLevels : List Level → Bool
  | [] => true
  | part :: rest =>
    if part.contains '#' && (!rest.isEmpty || part != ['#']) then false
    else if part.contains '+' && part != ['+'] then false
    else validLevels rest

def isValidTopicFilter (filter : String) : Bool :=
  if filter.isEmpty then false
  else if filter.utf8ByteSize > maxStringLength then false
  else if filter.toList.contains (Char.ofNat 0) then false
  else validLevels (levels filter)

/-- `parse_shared_subscription`: the filter behind `$share/group/`, and the group. -/
def parseSharedSubscription (topicFilter : String) : String × Option String :=
  match topicFilter.toList.dropPrefix? "$share/".toList with
  | none => (topicFilter, none)
  | some afterShare =>
    match afterShare.dropWhile (· != '/') with
    | [] => (topicFilter, none)
    | _ :: actualFilter =>
      (String.ofList actualFilter, some (String.ofList (afterShare.takeWhile (· != '/'))))

/-- `split_once('/')`. -/
def splitOnce (text : List Char) : Option (List Char × List Char) :=
  match text.dropWhile (· != '/') with
  | [] => none
  | _ :: after => some (text.takeWhile (· != '/'), after)

/-- The group and the filter behind `$share/`. -/
def sharedParts (filter : String) : Option (List Char × List Char) :=
  (filter.toList.dropPrefix? "$share/".toList).bind splitOnce

variable {filter topic : String} {name topicFilter : String}

theorem splitOnce_append {name after : List Char} (hname : '/' ∉ name) :
    splitOnce (name ++ '/' :: after) = some (name, after) := by
  have hplain : ∀ c ∈ name, (c != '/') := by
    intro c hc
    exact bne_iff_ne.mpr fun h => hname (h ▸ hc)
  unfold splitOnce
  rw [dropWhile_append_of_pos hplain, takeWhile_append_of_pos hplain]
  simp

theorem splitOnce_eq_some {text name after : List Char} (h : splitOnce text = some (name, after)) :
    text = name ++ '/' :: after ∧ '/' ∉ name := by
  unfold splitOnce at h
  cases hdrop : text.dropWhile (· != '/') with
  | nil =>
    rw [hdrop] at h
    cases h
  | cons c _ =>
    rw [hdrop] at h
    cases h
    have hslash : c = '/' := by
      have hhead := head?_dropWhile_not (· != '/') text
      rw [hdrop] at hhead
      simpa using hhead
    refine ⟨?_, fun hmem => ?_⟩
    · have happend := takeWhile_append_dropWhile (p := (· != '/')) (l := text)
      rw [hdrop, hslash] at happend
      exact happend.symm
    · have hall := all_eq_true.mp (all_takeWhile (l := text) (p := (· != '/')))
      simpa using hall _ hmem

theorem sharedParts_eq_some_iff {name after : List Char} :
    sharedParts filter = some (name, after) ↔
      filter.toList = "$share/".toList ++ (name ++ '/' :: after) ∧ '/' ∉ name := by
  unfold sharedParts
  constructor
  · intro h
    obtain ⟨_, hshare, hsplit⟩ := Option.bind_eq_some_iff.mp h
    obtain ⟨_, htext, hstart⟩ := dropPrefix?_eq_some_iff.mp hshare
    obtain ⟨rfl, hname⟩ := splitOnce_eq_some hsplit
    exact ⟨by rw [htext, beq_iff_eq.mp hstart], hname⟩
  · rintro ⟨htext, hname⟩
    rw [htext, dropPrefix?_append_of_beq _ (beq_self_eq_true _)]
    exact splitOnce_append hname

theorem parseSharedSubscription_eq (filter : String) :
    parseSharedSubscription filter =
      (sharedParts filter).elim (filter, none) fun (name, after) =>
        (String.ofList after, some (String.ofList name)) := by
  unfold parseSharedSubscription sharedParts
  cases filter.toList.dropPrefix? "$share/".toList with
  | none => rfl
  | some rest =>
    dsimp only [Option.bind, splitOnce]
    cases rest.dropWhile (· != '/') <;> rfl

/-- The text of a filter and a group. -/
def sharedText : String × Option String → String
  | (filter, none) => filter
  | (filter, some group) =>
    String.ofList ("$share/".toList ++ group.toList ++ '/' :: filter.toList)

theorem sharedText_parse (topicFilter : String) :
    sharedText (parseSharedSubscription topicFilter) = topicFilter := by
  rw [parseSharedSubscription_eq]
  cases hparts : sharedParts topicFilter with
  | none => rfl
  | some _ =>
    dsimp only [Option.elim, sharedText]
    simp only [String.toList_ofList]
    rw [append_assoc, ← (sharedParts_eq_some_iff.mp hparts).1]
    exact String.ofList_toList

theorem parseSharedSubscription_inj {filter' : String}
    (h : parseSharedSubscription filter = parseSharedSubscription filter') : filter = filter' := by
  rw [← sharedText_parse filter, h, sharedText_parse]

/-! ## Validity of shared filters -/

/-- `split('/').next()`. -/
def firstLevel (filter : String) : Level := (levels filter).headD filter.toList

def isValidSubscriptionFilter (filter : String) : Bool :=
  if firstLevel filter != "$share".toList then isValidTopicFilter filter
  else if filter.utf8ByteSize > maxStringLength then false
  else (sharedParts filter).any fun (shareName, topicFilter) =>
    !shareName.isEmpty && !(shareName.contains '+' || shareName.contains '#') &&
      isValidTopicFilter (String.ofList topicFilter)

theorem firstLevel_of_share (h : "$share/".toList <+: filter.toList) :
    firstLevel filter = "$share".toList := by
  obtain ⟨_, htext⟩ := h
  unfold firstLevel levels
  rw [← htext]
  rfl

/-- `$share/`, a name without `/`, wildcards and NUL, and a valid filter. -/
structure SharedFilter (filter name topicFilter : String) : Prop where
  text : filter.toList = "$share/".toList ++ (name.toList ++ '/' :: topicFilter.toList)
  named : name ≠ ""
  plain : ∀ c ∈ ['/', '+', '#', Char.ofNat 0], c ∉ name.toList
  valid : isValidTopicFilter topicFilter = true

theorem SharedFilter.parts (h : SharedFilter filter name topicFilter) :
    sharedParts filter = some (name.toList, topicFilter.toList) :=
  sharedParts_eq_some_iff.mpr ⟨h.text, h.plain '/' mem_cons_self⟩

theorem SharedFilter.parse (h : SharedFilter filter name topicFilter) :
    parseSharedSubscription filter = (topicFilter, some name) := by
  rw [parseSharedSubscription_eq, h.parts]
  simp

theorem isValidSubscriptionFilter_of_ne (h : firstLevel filter ≠ "$share".toList) :
    isValidSubscriptionFilter filter = isValidTopicFilter filter :=
  if_pos (bne_iff_ne.mpr h)

/-- Behind `$share` a filter is valid by its parts. -/
theorem isValidSubscriptionFilter_of_eq (h : firstLevel filter = "$share".toList) :
    isValidSubscriptionFilter filter ↔ filter.utf8ByteSize ≤ maxStringLength ∧
      ∃ name after, sharedParts filter = some (name, after) ∧
        name ≠ [] ∧ '+' ∉ name ∧ '#' ∉ name ∧ isValidTopicFilter (String.ofList after) := by
  unfold isValidSubscriptionFilter
  rw [h, if_neg (by simp)]
  by_cases hsize : filter.utf8ByteSize ≤ maxStringLength
  · rw [if_neg (Nat.not_lt.mpr hsize)]
    cases sharedParts filter with
    | none => simp
    | some parts =>
      obtain ⟨name, after⟩ := parts
      simp [hsize, and_assoc]
  · simp [hsize]

theorem isValidSubscriptionFilter_iff
    (hnul : ∀ name, (parseSharedSubscription filter).2 = some name → Char.ofNat 0 ∉ name.toList) :
    isValidSubscriptionFilter filter ↔
      firstLevel filter ≠ "$share".toList ∧ isValidTopicFilter filter ∨
      filter.utf8ByteSize ≤ maxStringLength ∧
        ∃ name topicFilter, SharedFilter filter name topicFilter := by
  by_cases hshare : firstLevel filter = "$share".toList
  · simp only [isValidSubscriptionFilter_of_eq hshare, hshare, ne_eq, not_true, false_and, false_or]
    refine and_congr_right fun _ => ⟨?_, ?_⟩
    · rintro ⟨name, after, hparts, hne, hplus, hhash, hvalid⟩
      obtain ⟨htext, hslash⟩ := sharedParts_eq_some_iff.mp hparts
      have hclear : Char.ofNat 0 ∉ name := by
        have hparse : (parseSharedSubscription filter).2 = some (String.ofList name) := by
          rw [parseSharedSubscription_eq, hparts]
          rfl
        simpa using hnul _ hparse
      exact ⟨String.ofList name, String.ofList after, by simpa using htext, by simpa using hne,
        by simp [hslash, hplus, hhash, hclear], hvalid⟩
    · rintro ⟨name, topicFilter, h⟩
      exact ⟨_, _, h.parts, by simpa using h.named, h.plain '+' (by simp), h.plain '#' (by simp),
        by simpa using h.valid⟩
  · rw [isValidSubscriptionFilter_of_ne hshare]
    constructor
    · exact fun hvalid => .inl ⟨hshare, hvalid⟩
    · rintro (⟨-, hvalid⟩ | ⟨-, name, topicFilter, h⟩)
      · exact hvalid
      · exact (hshare (firstLevel_of_share ⟨_, h.text.symm⟩)).elim

/-! ## Matching -/

/-- The loop of `topic_matches_filter` over the levels, and what it checks at the end. -/
def matchLevels : List Level → List Level → Bool
  | [], [] => true
  | [], [part] => part == ['#']
  | [], _ :: _ :: _ => false
  | _ :: _, [] => false
  | level :: topic, part :: filter =>
    if part == ['#'] then true
    else if part != ['+'] && part != level then false
    else matchLevels topic filter

def topicMatchesFilter (topic filter : String) : Bool :=
  if startsWith topic '$' && (startsWith filter '#' || startsWith filter '+') then false
  else if filter == "#" then true
  else matchLevels (levels topic) (levels filter)

/-- `has_wildcards` of the router. -/
def hasWildcards (topicFilter : String) : Bool :=
  topicFilter.toList.contains '+' || topicFilter.toList.contains '#'

/-- Whether the router delivers a topic to a subscription, plain or shared: exact filters
are looked up by name, filters with wildcards are matched. -/
def delivers (topicFilter topic : String) : Bool :=
  let actualFilter := (parseSharedSubscription topicFilter).1
  if hasWildcards actualFilter then topicMatchesFilter topic actualFilter
  else topic == actualFilter

/-! ## Filters inside filters -/

/-- Levels of a well-formed filter: `#` only last and alone, `+` alone. -/
structure WellFormed (part : Level) (rest : List Level) : Prop where
  hash : '#' ∈ part → rest = [] ∧ part = ['#']
  plus : '+' ∈ part → part = ['+']

theorem validLevels_cons {part : Level} {rest : List Level} (h : validLevels (part :: rest)) :
    WellFormed part rest ∧ validLevels rest := by
  rw [validLevels] at h
  split at h
  · cases h
  rename_i hhash
  split at h
  · cases h
  rename_i hplus
  refine ⟨⟨fun hmem => ?_, fun hmem => ?_⟩, h⟩
  · simp only [Bool.and_eq_true, contains_iff_mem, hmem, true_and, Bool.or_eq_true,
      Bool.not_eq_true', bne_iff_ne, ne_eq, not_or, not_not] at hhash
    simpa using hhash
  · simpa [hmem] using hplus

/-- A pattern has a `+` at the level where the filter has its `#`. -/
def plusAtHash : List Level → List Level → Bool
  | part :: filter, p :: pattern =>
    if part == ['#'] then p == ['+'] else plusAtHash filter pattern
  | _, _ => false

/-- Whatever the filter matches the pattern matches, if the pattern matches the filter's
text level by level and has no `+` for its `#`. -/
theorem matchLevels_trans {topic filter pattern : List Level} (hfilt : validLevels filter)
    (hpat : validLevels pattern) (hplus : plusAtHash filter pattern = false)
    (htext : matchLevels filter pattern) (htopic : matchLevels topic filter) :
    matchLevels topic pattern := by
  induction filter generalizing topic pattern with
  | nil =>
    cases topic with
    | nil => exact htext
    | cons level topic => cases htopic
  | cons part filter ih =>
    obtain ⟨hpart, hfilt'⟩ := validLevels_cons hfilt
    cases pattern with
    | nil => cases htext
    | cons p pattern =>
      obtain ⟨hp, hpat'⟩ := validLevels_cons hpat
      by_cases hphash : p = ['#']
      · -- the pattern ends here and takes everything
        obtain ⟨rfl, -⟩ := hp.hash (by simp [hphash])
        subst hphash
        cases topic with
        | nil => rfl
        | cons level topic => rfl
      · by_cases hhash : part = ['#']
        · -- only a `+` or a `#` matches the text of a `#`
          subst hhash
          rw [matchLevels] at htext
          rw [plusAtHash] at hplus
          simp_all
        · cases topic with
          | nil =>
            -- what matches the end of the topic is a lone `#`
            rcases filter with _ | ⟨_, _⟩
            · exact absurd (by simpa [matchLevels] using htopic) hhash
            · cases htopic
          | cons level topic =>
            rw [matchLevels] at htopic htext ⊢
            rw [plusAtHash] at hplus
            simp only [beq_iff_eq, hhash, hphash, if_false] at htopic htext hplus ⊢
            split at htopic
            · cases htopic
            rename_i hlevel
            split at htext
            · cases htext
            rename_i hpart'
            rw [if_neg ?_]
            · exact ih hfilt' hpat' hplus htext htopic
            · simp only [Bool.and_eq_true, bne_iff_ne, ne_eq, not_and, not_not] at hlevel hpart' ⊢
              intro hpplus
              rw [hpart' hpplus]
              refine hlevel fun hpartplus => hpplus ?_
              rw [hpart' hpplus, hpartplus]

theorem levels_ne_nil (topic : String) : levels topic ≠ [] := splitOn_ne_nil _ _

theorem startsWith_iff {c : Char} (hc : c ≠ '/') (text : String) :
    startsWith text c ↔ ∃ rest tail, levels text = (c :: rest) :: tail := by
  unfold startsWith levels
  cases text.toList with
  | nil => simp
  | cons x xs =>
    rw [splitOn_cons_eq_if_modifyHead]
    obtain ⟨_, tail, hsplit⟩ := exists_cons_of_ne_nil (splitOn_ne_nil '/' xs)
    rw [hsplit]
    by_cases hx : x = '/'
    · subst hx
      simp [Ne.symm hc]
    · simp [hx]

/-- Matching without the shortcut for `#`. -/
theorem topicMatchesFilter_eq (topic filter : String) :
    topicMatchesFilter topic filter =
      (!(startsWith topic '$' && (startsWith filter '#' || startsWith filter '+')) &&
        matchLevels (levels topic) (levels filter)) := by
  unfold topicMatchesFilter
  split
  · rename_i hdollar
    simp [hdollar]
  rename_i hdollar
  rw [Bool.not_eq_true] at hdollar
  rw [hdollar, Bool.not_false, Bool.true_and]
  split
  · rename_i hfilt
    obtain rfl : filter = "#" := by simpa using hfilt
    have hhash : levels "#" = [['#']] := rfl
    obtain ⟨_, _, hlevels⟩ := exists_cons_of_ne_nil (levels_ne_nil topic)
    rw [hhash, hlevels]
    simp [matchLevels]
  · rfl

/-- A topic under `$` is only matched by a filter that starts with its first level. -/
theorem startsWith_dollar_of_matches (htopic : startsWith topic '$')
    (h : topicMatchesFilter topic filter) : startsWith filter '$' := by
  rw [topicMatchesFilter_eq, Bool.and_eq_true] at h
  obtain ⟨hwild, hlevels⟩ := h
  have hroot : startsWith filter '#' = false ∧ startsWith filter '+' = false := by
    simpa [htopic] using hwild
  obtain ⟨rest, _, htlevels⟩ := (startsWith_iff (by decide) topic).mp htopic
  obtain ⟨part, ftail, hflevels⟩ := exists_cons_of_ne_nil (levels_ne_nil filter)
  rw [htlevels, hflevels, matchLevels] at hlevels
  by_cases hhash : part = ['#']
  · have hstart := (startsWith_iff (by decide) filter).mpr ⟨[], ftail, hhash ▸ hflevels⟩
    rw [hroot.1] at hstart
    cases hstart
  by_cases hplus : part = ['+']
  · have hstart := (startsWith_iff (by decide) filter).mpr ⟨[], ftail, hplus ▸ hflevels⟩
    rw [hroot.2] at hstart
    cases hstart
  have hsame : part = '$' :: rest := by
    by_contra hne
    simp [hhash, hplus, hne] at hlevels
  exact (startsWith_iff (by decide) filter).mpr ⟨rest, ftail, hsame ▸ hflevels⟩

theorem validLevels_of_isValidTopicFilter (h : isValidTopicFilter filter) :
    validLevels (levels filter) := by
  unfold isValidTopicFilter at h
  split at h
  · cases h
  split at h
  · cases h
  split at h
  · cases h
  exact h

/-- A pattern that matches the text of a filter matches every topic the filter matches,
if both are valid and the pattern has no `+` where the filter has its `#`. -/
theorem topicMatchesFilter_trans {pattern : String} (hfilt : isValidTopicFilter filter)
    (hpat : isValidTopicFilter pattern)
    (hplus : plusAtHash (levels filter) (levels pattern) = false)
    (htext : topicMatchesFilter filter pattern)
    (htopic : topicMatchesFilter topic filter) : topicMatchesFilter topic pattern := by
  have hdollar : startsWith topic '$' → startsWith filter '$' :=
    fun hstart => startsWith_dollar_of_matches hstart htopic
  rw [topicMatchesFilter_eq, Bool.and_eq_true] at htext htopic ⊢
  refine ⟨?_, matchLevels_trans (validLevels_of_isValidTopicFilter hfilt)
    (validLevels_of_isValidTopicFilter hpat) hplus htext.2 htopic.2⟩
  cases hstart : startsWith topic '$' with
  | false => rfl
  | true => simpa [hdollar hstart] using htext.1

/-! ## Filters without wildcards -/

theorem mem_of_mem_splitOn {sep c : Char} {l part : List Char} (hpart : part ∈ l.splitOn sep)
    (hc : c ∈ part) : c ∈ l := by
  induction l generalizing part with
  | nil =>
    simp at hpart
    subst hpart
    cases hc
  | cons x xs ih =>
    rw [splitOn_cons_eq_if_modifyHead] at hpart
    obtain ⟨_, _, hsplit⟩ := exists_cons_of_ne_nil (splitOn_ne_nil sep xs)
    rw [hsplit] at hpart ih
    split at hpart
    · rcases mem_cons.mp hpart with rfl | hpart
      · cases hc
      · exact mem_cons_of_mem _ (ih hpart hc)
    · rcases mem_cons.mp hpart with rfl | hpart
      · rcases mem_cons.mp hc with rfl | hc
        · exact mem_cons_self
        · exact mem_cons_of_mem _ (ih mem_cons_self hc)
      · exact mem_cons_of_mem _ (ih (mem_cons_of_mem _ hpart) hc)

theorem levels_inj {topic' : String} : levels topic = levels topic' ↔ topic = topic' := by
  refine ⟨fun h => ?_, fun h => h ▸ rfl⟩
  have hback : topic.toList = topic'.toList := by
    have hjoin := congrArg (['/'].intercalate ·) h
    unfold levels at hjoin
    rwa [intercalate_splitOn, intercalate_splitOn] at hjoin
  exact String.toList_inj.mp hback

/-- Levels without wildcards match themselves only. -/
theorem matchLevels_iff_eq {topic filter : List Level}
    (hplain : ∀ part ∈ filter, part ≠ ['#'] ∧ part ≠ ['+']) :
    matchLevels topic filter ↔ topic = filter := by
  induction filter generalizing topic with
  | nil =>
    cases topic with
    | nil => simp [matchLevels]
    | cons level topic => simp [matchLevels]
  | cons part filter ih =>
    obtain ⟨⟨hhash, hplus⟩, hrest⟩ := forall_mem_cons.mp hplain
    cases topic with
    | nil =>
      cases filter with
      | nil => simp [matchLevels, hhash]
      | cons _ filter => simp [matchLevels]
    | cons level topic =>
      rw [matchLevels, if_neg (by simpa using hhash), cons.injEq]
      by_cases hlevel : part = level
      · rw [if_neg (by simp [hlevel]), ih hrest]
        simp [hlevel]
      · rw [if_pos (by simp [hplus, hlevel])]
        simp [Ne.symm hlevel]

theorem topicMatchesFilter_iff_eq (hplain : hasWildcards filter = false) :
    topicMatchesFilter topic filter ↔ topic = filter := by
  have habsent : ∀ c, (c = '+' ∨ c = '#') → c ∉ filter.toList := by
    intro c hc hmem
    unfold hasWildcards at hplain
    rcases hc with rfl | rfl <;> simp [hmem] at hplain
  have hparts : ∀ part ∈ levels filter, part ≠ ['#'] ∧ part ≠ ['+'] := by
    intro part hpart
    constructor
    · rintro rfl
      exact habsent '#' (Or.inr rfl) (mem_of_mem_splitOn hpart mem_cons_self)
    · rintro rfl
      exact habsent '+' (Or.inl rfl) (mem_of_mem_splitOn hpart mem_cons_self)
  have hstart : ∀ c, (c = '+' ∨ c = '#') → startsWith filter c = false := by
    intro c hc
    have := habsent c hc
    unfold startsWith
    cases hchars : filter.toList with
    | nil => rfl
    | cons x _ =>
      rw [hchars] at this
      simp only [mem_cons, not_or] at this
      simpa using Ne.symm this.1
  rw [topicMatchesFilter_eq, hstart '#' (Or.inr rfl), hstart '+' (Or.inl rfl)]
  simp only [Bool.or_self, Bool.and_false, Bool.not_false, Bool.true_and]
  rw [matchLevels_iff_eq hparts, levels_inj]

theorem hasWildcards_of_isValidTopicName (h : isValidTopicName topic) :
    hasWildcards topic = false := by
  unfold isValidTopicName at h
  split at h
  · cases h
  split at h
  · cases h
  split at h
  · cases h
  split at h
  · cases h
  rename_i hplain
  exact Bool.not_eq_true _ ▸ hplain

/-- `#` matches every topic that does not start with `$`. -/
theorem topicMatchesFilter_hash (topic : String) :
    topicMatchesFilter topic "#" = !startsWith topic '$' := by
  unfold topicMatchesFilter
  cases startsWith topic '$' <;> rfl

/-! ## The MQTT rule -/

/-- Which topics a filter stands for, level by level: `+` is one level, `#` at the end is the
parent level and everything below it. -/
inductive LevelsMatch : List Level → List Level → Prop where
  | done : LevelsMatch [] []
  | under (topic : List Level) : LevelsMatch topic [['#']]
  | any (level : Level) {topic filter : List Level} (rest : LevelsMatch topic filter) :
      LevelsMatch (level :: topic) (['+'] :: filter)
  | same (level : Level) {topic filter : List Level} (rest : LevelsMatch topic filter) :
      LevelsMatch (level :: topic) (level :: filter)

/-- A filter matches a topic; one that starts with a wildcard matches nothing under `$`. -/
structure FilterMatches (topic filter : String) : Prop where
  levels : LevelsMatch (levels topic) (levels filter)
  dollar : startsWith topic '$' = true →
    startsWith filter '#' = false ∧ startsWith filter '+' = false

theorem levelsMatch_of_matchLevels {topic filter : List Level} (hfilt : validLevels filter)
    (h : matchLevels topic filter) : LevelsMatch topic filter := by
  induction filter generalizing topic with
  | nil =>
    cases topic with
    | nil => exact .done
    | cons level topic => cases h
  | cons part filter ih =>
    obtain ⟨hpart, hfilt'⟩ := validLevels_cons hfilt
    by_cases hhash : part = ['#']
    · -- a `#` is the last level
      obtain ⟨rfl, -⟩ := hpart.hash (by simp [hhash])
      exact hhash ▸ .under topic
    · cases topic with
      | nil =>
        cases filter with
        | nil => exact absurd (by simpa [matchLevels] using h) hhash
        | cons _ filter => cases h
      | cons level topic =>
        rw [matchLevels, if_neg (by simpa using hhash)] at h
        split at h
        · cases h
        rename_i hlevel
        by_cases hplus : part = ['+']
        · exact hplus ▸ .any level (ih hfilt' h)
        · obtain rfl : part = level := by
            by_contra hne
            exact hlevel (by simp [hplus, hne])
          exact .same part (ih hfilt' h)

theorem matchLevels_of_levelsMatch {topic filter : List Level} (hfilt : validLevels filter)
    (h : LevelsMatch topic filter) : matchLevels topic filter := by
  induction h with
  | done => rfl
  | under topic => cases topic <;> rfl
  | any level rest ih =>
    rw [matchLevels, if_neg (by decide), if_neg (by simp)]
    exact ih (validLevels_cons hfilt).2
  | same level rest ih =>
    rw [matchLevels]
    split
    · rfl
    · rw [if_neg (by simp)]
      exact ih (validLevels_cons hfilt).2

/-- `topic_matches_filter` decides the MQTT rule for filters with their wildcards in place. -/
theorem topicMatchesFilter_iff (hfilt : validLevels (levels filter)) :
    topicMatchesFilter topic filter ↔ FilterMatches topic filter := by
  rw [topicMatchesFilter_eq, Bool.and_eq_true]
  constructor
  · rintro ⟨hdollar, hlevels⟩
    refine ⟨levelsMatch_of_matchLevels hfilt hlevels, fun hstart => ?_⟩
    simpa [hstart] using hdollar
  · rintro ⟨hlevels, hdollar⟩
    refine ⟨?_, matchLevels_of_levelsMatch hfilt hlevels⟩
    cases hstart : startsWith topic '$' with
    | false => rfl
    | true => simp [hdollar hstart]

end MqttLib.Protocol
