/-
MqttLib.Acl.Deciding

Which rule decides.  `find_best_direct_rule` keeps the rule with the highest score above -1; the
score falls by 10 with every wildcard of the pattern and rises with its length, so that it can be
negative, and lower for a pattern that is inside another one.
-/

import MqttLib.Acl.Permission

namespace MqttLib.Acl

open Foundation Protocol List

/-! ## Patterns by their text -/

/-- The wildcards of a text. -/
def wildcards (text : List Char) : Nat := text.countP fun c => c == '+' || c == '#'

/-- What a text counts for: its bytes, and 10 less for every wildcard. -/
def weight (text : List Char) : Int := (String.ofList text).utf8ByteSize - 10 * wildcards text

/-- A pattern is longer than another one, a wildcard counted as ten characters less. -/
def Outweighs (a b : String) : Prop :=
  b.utf8ByteSize + 10 * wildcards a.toList < a.utf8ByteSize + 10 * wildcards b.toList

/-- The wildcards of the pattern do not use up its length and the start of its class. -/
def AclRule.Light (rule : AclRule) : Prop :=
  10 * wildcards rule.topicPattern.toList ≤
    (if rule.isWildcard then 50 else 150) + rule.topicPattern.utf8ByteSize

theorem AclRule.light_iff {rule : AclRule} : rule.Light ↔ -1 < rule.specificity := by
  unfold AclRule.Light AclRule.specificity wildcards
  cases rule.isWildcard <;> simp <;> omega

theorem specificity_lt_iff {a b : AclRule} (h : a.isWildcard = b.isWildcard) :
    b.specificity < a.specificity ↔ Outweighs a.topicPattern b.topicPattern := by
  unfold AclRule.specificity Outweighs wildcards
  rw [h]
  omega

theorem outweighs_iff {a b : String} : Outweighs a b ↔ weight b.toList < weight a.toList := by
  unfold Outweighs weight
  rw [String.ofList_toList, String.ofList_toList]
  omega

theorem weight_append (l l' : List Char) : weight (l ++ l') = weight l + weight l' := by
  unfold weight wildcards
  rw [String.ofList_append, String.utf8ByteSize_append, countP_append]
  omega

/-- The level of the wider filter is a `+`, or the level itself. -/
def Covers (level part : Level) : Prop := part = ['+'] ∨ part = level

/-- A level without `#` in a filter that is well formed counts for more than the `+` that covers
it. -/
theorem weight_le_of_covers {level part : Level} (hplus : '+' ∈ level → level = ['+'])
    (hhash : '#' ∉ level) (h : Covers level part) :
    weight part ≤ weight level ∧ (weight part = weight level → part = level) := by
  rcases h with rfl | rfl
  · by_cases hmem : '+' ∈ level
    · rw [hplus hmem]
      exact ⟨le_rfl, fun _ => rfl⟩
    · have hnone : wildcards level = 0 := by
        refine countP_eq_zero.mpr fun c hc => ?_
        have hc' : c ≠ '+' ∧ c ≠ '#' := ⟨fun h => hmem (h ▸ hc), fun h => hhash (h ▸ hc)⟩
        simp [hc'.1, hc'.2]
      have hone : weight ['+'] = -9 := by decide +kernel
      have hlevel : (0 : Int) ≤ weight level := by simp [weight, hnone]
      exact ⟨by omega, fun h => by omega⟩
  · exact ⟨le_rfl, fun _ => rfl⟩

/-- So the text of the levels counts for more than that of what covers them. -/
theorem weight_intercalate_le {narrow wide : List Level}
    (hplus : ∀ level ∈ narrow, '+' ∈ level → level = ['+']) (hhash : ∀ level ∈ narrow, '#' ∉ level)
    (h : Forall₂ Covers narrow wide) :
    weight (['/'].intercalate wide) ≤ weight (['/'].intercalate narrow) ∧
      (weight (['/'].intercalate wide) = weight (['/'].intercalate narrow) → wide = narrow) := by
  induction h with
  | nil => exact ⟨le_rfl, fun _ => rfl⟩
  | @cons level part narrow wide hcover hrest ih =>
    obtain ⟨hle, heq⟩ := weight_le_of_covers (hplus level mem_cons_self) (hhash level mem_cons_self)
      hcover
    obtain ⟨hle', heq'⟩ := ih (fun l hl => hplus l (mem_cons_of_mem _ hl))
      fun l hl => hhash l (mem_cons_of_mem _ hl)
    cases hrest with
    | nil => simpa using ⟨hle, heq⟩
    | cons hcover' hrest =>
      rw [intercalate_cons_cons, intercalate_cons_cons]
      simp only [weight_append]
      refine ⟨by omega, fun hsum => ?_⟩
      rw [heq (by omega), heq' (by omega)]

/-! ## Patterns by their topics -/

/-- A filter matches its own text, read as a topic. -/
theorem matchLevels_self (filter : List Level) : matchLevels filter filter = true := by
  induction filter with
  | nil => rfl
  | cons part filter ih =>
    rw [matchLevels]
    split
    · rfl
    · simpa using ih

/-- A filter with `#` matches its own text with a level behind it. -/
theorem matchLevels_append {filter : List Level} (h : ['#'] ∈ filter) (level : Level) :
    matchLevels (filter ++ [level]) filter = true := by
  induction filter with
  | nil => cases h
  | cons part filter ih =>
    rw [cons_append, matchLevels]
    split
    · rfl
    · rename_i hhash
      have hrest := (mem_cons.mp h).resolve_left fun heq => hhash (by simp [← heq])
      simpa using ih hrest

/-- What a filter without `#` matches it covers level by level. -/
theorem covers_of_matchLevels {topic filter : List Level} (hhash : ['#'] ∉ filter)
    (h : matchLevels topic filter = true) : Forall₂ Covers topic filter := by
  induction filter generalizing topic with
  | nil =>
    cases topic with
    | nil => exact .nil
    | cons level topic => cases h
  | cons part filter ih =>
    rw [mem_cons, not_or] at hhash
    cases topic with
    | nil => cases filter <;> simp_all [matchLevels]
    | cons level topic =>
      rw [matchLevels, if_neg (by simpa using Ne.symm hhash.1)] at h
      split at h
      · cases h
      · rename_i hlevel
        refine .cons ?_ (ih hhash.2 h)
        unfold Covers
        by_contra hnot
        exact hlevel (by simpa [not_or] using hnot)

/-- Every topic of the one pattern is one of the other for the user, and not conversely.  A topic is
any text, as `check_subscribe` asks for filters. -/
def Narrower (username : Option String) (a b : String) : Prop :=
  (∀ topic, patternMatches a username topic = true → patternMatches b username topic = true) ∧
    ∃ topic, patternMatches b username topic = true ∧ patternMatches a username topic = false

variable {username : Option String} {a b : String}

theorem patternMatches_of_no_mark (h : containsUserMark a.toList = false) (topic : String) :
    patternMatches a username topic = topicMatchesFilter topic a := by
  simp [patternMatches, expandPattern, h]

/-- A wildcard stands alone in its level. -/
theorem wellFormed_of_validLevels {filter : List Level} (h : validLevels filter) :
    ∀ level ∈ filter, ('#' ∈ level → level = ['#']) ∧ ('+' ∈ level → level = ['+']) := by
  induction filter with
  | nil => simp
  | cons part filter ih =>
    obtain ⟨hpart, hrest⟩ := validLevels_cons h
    exact forall_mem_cons.mpr ⟨⟨fun hmem => (hpart.hash hmem).2, hpart.plus⟩, ih hrest⟩

theorem levels_append_slash (text : String) : levels (text ++ "/") = levels text ++ [[]] := by
  unfold levels
  rw [String.toList_append]
  induction text.toList with
  | nil => rfl
  | cons c rest ih =>
    obtain ⟨first, tail, hsplit⟩ := exists_cons_of_ne_nil (splitOn_ne_nil '/' rest)
    rw [cons_append, splitOn_cons_eq_if_modifyHead, splitOn_cons_eq_if_modifyHead, ih, hsplit]
    split <;> rfl

theorem startsWith_append_slash {c : Char} (hc : c ≠ '/') (text : String) :
    startsWith (text ++ "/") c = startsWith text c := by
  unfold startsWith
  rw [String.toList_append]
  cases text.toList with
  | nil => simpa using Ne.symm hc
  | cons _ _ => rfl

/-- A text that starts with `$` starts with no wildcard. -/
theorem not_wildcard_of_dollar (text : String) :
    (startsWith text '$' && (startsWith text '#' || startsWith text '+')) = false := by
  unfold startsWith
  cases text.toList with
  | nil => rfl
  | cons c _ => by_cases hc : c = '$' <;> simp [hc]

/-- Of two valid patterns the narrower one outweighs the other, unless that has a `#`. -/
theorem outweighs_of_narrower (ha : isValidTopicFilter a) (hhash : '#' ∉ b.toList)
    (hmark : containsUserMark a.toList = false) (hmark' : containsUserMark b.toList = false)
    (h : Narrower username a b) : Outweighs a b := by
  obtain ⟨hsub, topic, hb, hnota⟩ := h
  simp only [patternMatches_of_no_mark hmark, patternMatches_of_no_mark hmark'] at hsub hb hnota
  have hwide : ['#'] ∉ levels b := fun hmem => hhash (mem_of_mem_splitOn hmem mem_cons_self)
  have hcover : ∀ text, topicMatchesFilter text a = true →
      Forall₂ Covers (levels text) (levels b) := by
    intro text htext
    have hmatch := hsub text htext
    rw [topicMatchesFilter_eq, Bool.and_eq_true] at hmatch
    exact covers_of_matchLevels hwide hmatch.2
  have hself := hcover a
    (by rw [topicMatchesFilter_eq, not_wildcard_of_dollar, matchLevels_self]; rfl)
  -- with a `#` the narrower pattern would have topics of two lengths
  have hnarrow : ['#'] ∉ levels a := by
    intro hmem
    have hlonger := hcover (a ++ "/") (by
      rw [topicMatchesFilter_eq, startsWith_append_slash (by decide), not_wildcard_of_dollar,
        levels_append_slash, matchLevels_append hmem]
      rfl)
    have hlength := hself.length_eq.trans hlonger.length_eq.symm
    rw [levels_append_slash, length_append] at hlength
    simp at hlength
  have hformed := wellFormed_of_validLevels (validLevels_of_isValidTopicFilter ha)
  obtain ⟨hle, heq⟩ := weight_intercalate_le (fun level hlevel => (hformed level hlevel).2)
    (fun level hlevel hmem => hnarrow ((hformed level hlevel).1 hmem ▸ hlevel)) hself
  unfold levels at hle heq
  rw [intercalate_splitOn, intercalate_splitOn] at hle heq
  refine outweighs_iff.mpr (lt_of_le_of_ne hle fun hsame => ?_)
  obtain rfl := levels_inj.mp (heq hsame)
  rw [hb] at hnota
  cases hnota

namespace AclManager

variable {acl : AclManager} {rules : List AclRule} {topic : String} {wildcardOnly : Bool}
  {check : Permission → Bool} {rule narrow wide : AclRule}

/-! ## The best rule -/

/-- A rule is looked at for the user, or for every user, and matches. -/
def Matching (username : Option String) (topic : String) (wildcardOnly : Bool)
    (rule : AclRule) : Prop :=
  rule.isWildcard = wildcardOnly ∧ rule.matches username topic = true

/-- A matching rule is light and outweighs the matching rules before it, and none behind it
outweighs it. -/
def Foremost (rules : List AclRule) (username : Option String) (topic : String)
    (wildcardOnly : Bool) (rule : AclRule) : Prop :=
  ∃ before after, rules = before ++ rule :: after ∧
    Matching username topic wildcardOnly rule ∧ rule.Light ∧
    (∀ other ∈ before, Matching username topic wildcardOnly other →
      Outweighs rule.topicPattern other.topicPattern) ∧
    ∀ other ∈ after, Matching username topic wildcardOnly other →
      ¬ Outweighs other.topicPattern rule.topicPattern

theorem mem_matching {l : List AclRule} :
    rule ∈ l.filter (fun rule => rule.isWildcard == wildcardOnly && rule.matches username topic) ↔
      rule ∈ l ∧ Matching username topic wildcardOnly rule := by
  rw [mem_filter, Bool.and_eq_true, beq_iff_eq]
  rfl

theorem findBestDirectRule_eq_none_iff :
    (findBestDirectRule rules username topic wildcardOnly).1 = none ↔
      ∀ rule ∈ rules, Matching username topic wildcardOnly rule → ¬ rule.Light := by
  simp only [findBestDirectRule_eq, select_eq_none_iff, mem_matching, AclRule.light_iff, not_lt,
    and_imp]

theorem findBestDirectRule_eq_some_iff :
    (findBestDirectRule rules username topic wildcardOnly).1 = some rule ↔
      Foremost rules username topic wildcardOnly rule := by
  rw [findBestDirectRule_eq, select_eq_some_iff]
  constructor
  · rintro ⟨few, many, hsplit, hlight, hfew, hmany⟩
    obtain ⟨before, rest, rfl, rfl, hrest⟩ := filter_eq_append_iff.mp hsplit
    obtain ⟨skipped, after, rfl, hskip, hmatch, rfl⟩ := filter_eq_cons_iff.mp hrest
    have hrule := (mem_matching.mp (mem_filter.mpr ⟨mem_cons_self (l := after), hmatch⟩)).2
    refine ⟨before ++ skipped, after, by simp, hrule, AclRule.light_iff.mpr hlight, ?_, ?_⟩
    · intro other hother hmatch'
      rcases mem_append.mp hother with hother | hother
      · exact (specificity_lt_iff (hrule.1.trans hmatch'.1.symm)).mp
          (hfew other (mem_matching.mpr ⟨hother, hmatch'⟩))
      · exact absurd (by simp [hmatch'.1, hmatch'.2]) (hskip other hother)
    · intro other hother hmatch'
      rw [← specificity_lt_iff (hmatch'.1.trans hrule.1.symm)]
      exact not_lt.mpr (hmany other (mem_matching.mpr ⟨hother, hmatch'⟩))
  · rintro ⟨before, after, rfl, hrule, hlight, hbefore, hafter⟩
    rw [filter_append, filter_cons_of_pos (by simp [hrule.1, hrule.2])]
    refine ⟨_, _, rfl, AclRule.light_iff.mp hlight, ?_, ?_⟩
    · intro other hother
      obtain ⟨hother, hmatch⟩ := mem_matching.mp hother
      exact (specificity_lt_iff (hrule.1.trans hmatch.1.symm)).mpr (hbefore other hother hmatch)
    · intro other hother
      obtain ⟨hother, hmatch⟩ := mem_matching.mp hother
      rw [← not_lt, specificity_lt_iff (hmatch.1.trans hrule.1.symm)]
      exact hafter other hother hmatch

/-- Among rules with the narrow one, the wide one is never the best. -/
def Yields (username : Option String) (topic : String) (wildcardOnly : Bool)
    (narrow wide : AclRule) : Prop :=
  ∀ rules, narrow ∈ rules → wide ∈ rules →
    (findBestDirectRule rules username topic wildcardOnly).1 ≠ some wide

theorem yields_iff (hnarrow : Matching username topic wildcardOnly narrow)
    (hwide : Matching username topic wildcardOnly wide) :
    Yields username topic wildcardOnly narrow wide ↔
      Outweighs narrow.topicPattern wide.topicPattern ∨ ¬ wide.Light := by
  constructor
  · intro h
    by_contra hnot
    rw [not_or, not_not] at hnot
    refine h [wide, narrow] (by simp) (by simp) (findBestDirectRule_eq_some_iff.mpr ?_)
    exact ⟨[], [narrow], rfl, hwide, hnot.2, nofun, by simpa using fun _ => hnot.1⟩
  · intro h rules hmem _ hbest
    obtain ⟨before, after, rfl, -, hlight, hbefore, hafter⟩ :=
      findBestDirectRule_eq_some_iff.mp hbest
    have hmore := h.resolve_right (not_not.mpr hlight)
    rcases mem_append.mp hmem with hmem | hmem
    · have hless := hbefore narrow hmem hnarrow
      unfold Outweighs at hless hmore
      omega
    · rcases mem_cons.mp hmem with rfl | hmem
      · unfold Outweighs at hmore
        omega
      · exact hafter narrow hmem hnarrow hmore

/-- Of two matching rules the one with the narrower pattern wins in every list of rules exactly if
its text outweighs the other, or the other has so many wildcards that it is never taken; between
valid patterns it always wins, unless the wider one has a `#`. -/
theorem specific_rule_wins (hnarrow : Matching username topic wildcardOnly narrow)
    (hwide : Matching username topic wildcardOnly wide)
    (hinside : Narrower username narrow.topicPattern wide.topicPattern) :
    (Yields username topic wildcardOnly narrow wide ↔
      Outweighs narrow.topicPattern wide.topicPattern ∨ ¬ wide.Light) ∧
    (isValidTopicFilter narrow.topicPattern = true → '#' ∉ wide.topicPattern.toList →
      containsUserMark narrow.topicPattern.toList = false →
      containsUserMark wide.topicPattern.toList = false →
      Yields username topic wildcardOnly narrow wide) := by
  have hiff := yields_iff hnarrow hwide
  refine ⟨hiff, fun hvalid hhash hmark hmark' => hiff.mpr (.inl ?_)⟩
  exact outweighs_of_narrower hvalid hhash hmark hmark' hinside

theorem specific_rule_wins_level :
    Yields none "a/b/c" true ⟨"*", "a/+/c", .deny⟩ ⟨"*", "+/+/+", .readWrite⟩ := by
  have hinside : Narrower none "a/+/c" "+/+/+" := by
    refine ⟨fun topic h => ?_, "b/b/b", by decide +kernel, by decide +kernel⟩
    exact topicMatchesFilter_trans (by decide +kernel) (by decide +kernel) (by decide +kernel)
      (by decide +kernel) h
  have hnarrow : Matching none "a/b/c" true ⟨"*", "a/+/c", .deny⟩ := ⟨rfl, by decide +kernel⟩
  have hwide : Matching none "a/b/c" true ⟨"*", "+/+/+", .readWrite⟩ := ⟨rfl, by decide +kernel⟩
  exact (specific_rule_wins hnarrow hwide hinside).2 (by decide +kernel) (by decide +kernel)
    (by decide +kernel) (by decide +kernel)

/-- Every topic of `a/+/+` is one of `a/#`, but the two wildcards cost it more than the two
characters give. -/
theorem general_rule_returned :
    Narrower none "a/+/+" "a/#" ∧
    (findBestDirectRule [⟨"*", "a/+/+", .deny⟩, ⟨"*", "a/#", .readWrite⟩] none "a/b/c" true).1 =
      some ⟨"*", "a/#", .readWrite⟩ := by
  refine ⟨⟨fun topic h => ?_, "a", by decide +kernel, by decide +kernel⟩, by decide +kernel⟩
  exact topicMatchesFilter_trans (by decide +kernel) (by decide +kernel) (by decide +kernel)
    (by decide +kernel) h

/-! ## The default -/

/-- A permission that denies or grants ends the question. -/
def Answers (check : Permission → Bool) (permission : Permission) : Prop :=
  permission = .deny ∨ check permission = true

theorem isDeny_iff {permission : Permission} : permission.isDeny = true ↔ permission = .deny := by
  cases permission <;> simp [Permission.isDeny]

theorem directAnswer_isSome_iff :
    (directAnswer check (findBestDirectRule rules username topic wildcardOnly).1).isSome = true ↔
      ∃ rule, Foremost rules username topic wildcardOnly rule ∧ Answers check rule.permission := by
  simp only [← findBestDirectRule_eq_some_iff]
  cases (findBestDirectRule rules username topic wildcardOnly).1 with
  | none => simp [directAnswer]
  | some rule =>
    simp only [directAnswer, isDeny_iff, Answers, Option.some.injEq, exists_eq_left']
    split
    · simp [*]
    · split <;> simp [*]

theorem roleAnswer_isSome_iff :
    (acl.roleAnswer username topic check).isSome = true ↔
      ∃ rule, acl.ConsultsRole username rule ∧ rule.matches username topic = true ∧
        Answers check rule.permission := by
  cases username with
  | none => exact iff_of_false nofun fun ⟨_, ⟨_, hnone, _⟩, _⟩ => nomatch hnone
  | some user =>
    unfold roleAnswer Answers
    dsimp only
    split
    · rename_i hdeny
      obtain ⟨rule, hrule, hmatch, hperm⟩ := foundInRoles_iff.mp hdeny
      exact iff_of_true rfl ⟨rule, hrule, hmatch, .inl (isDeny_iff.mp hperm)⟩
    · rename_i hdeny
      split
      · rename_i hallow
        obtain ⟨rule, hrule, hmatch, hperm⟩ := foundInRoles_iff.mp hallow
        exact iff_of_true rfl ⟨rule, hrule, hmatch, .inr (by simp_all)⟩
      · rename_i hallow
        refine iff_of_false nofun fun ⟨rule, hrule, hmatch, hperm⟩ => ?_
        by_cases hperm' : rule.permission.isDeny = true
        · exact hdeny (foundInRoles_iff.mpr ⟨rule, hrule, hmatch, hperm'⟩)
        · have hcheck := hperm.resolve_left (hperm' ∘ isDeny_iff.mpr)
          exact hallow (foundInRoles_iff.mpr ⟨rule, hrule, hmatch, by simp_all⟩)

/-- Every rule that matches denies. -/
def OnlyDenies (acl : AclManager) (username : Option String) (topic : String) : Prop :=
  (∀ rule ∈ acl.rules, rule.matches username topic = true → rule.permission = .deny) ∧
    ∀ rule, acl.ConsultsRole username rule → rule.matches username topic = true →
      rule.permission = .deny

/-- Some rule of the list is light and matches. -/
def SomeLight (acl : AclManager) (username : Option String) (topic : String) : Prop :=
  ∃ rule ∈ acl.rules, rule.matches username topic = true ∧ rule.Light

/-- Some rule of the user's roles matches. -/
def RoleMatches (acl : AclManager) (username : Option String) (topic : String) : Prop :=
  ∃ rule, acl.ConsultsRole username rule ∧ rule.matches username topic = true

/-- The best rule denies, where there is one. -/
theorem isDeny_of_onlyDenies (h : acl.OnlyDenies username topic)
    (hbest : (findBestDirectRule acl.rules username topic wildcardOnly).1 = some rule) :
    rule.permission.isDeny = true := by
  obtain ⟨before, after, hrules, hmatch, -⟩ := findBestDirectRule_eq_some_iff.mp hbest
  exact isDeny_iff.mpr (h.1 rule (by simp [hrules]) hmatch.2)

/-- The roles refuse, where one of their rules matches. -/
theorem roleAnswer_of_onlyDenies (check : Permission → Bool) (h : acl.OnlyDenies username topic) :
    acl.roleAnswer username topic check = some false ∧ acl.RoleMatches username topic ∨
      acl.roleAnswer username topic check = none ∧ ¬ acl.RoleMatches username topic := by
  cases username with
  | none => exact .inr ⟨rfl, fun ⟨_, ⟨_, hnone, _⟩, _⟩ => nomatch hnone⟩
  | some user =>
    by_cases hrole : acl.RoleMatches (some user) topic
    · obtain ⟨rule, hrule, hmatch⟩ := hrole
      have hdeny := isDeny_iff.mpr (h.2 rule hrule hmatch)
      exact .inl ⟨if_pos (foundInRoles_iff.mpr ⟨rule, hrule, hmatch, hdeny⟩), rule, hrule, hmatch⟩
    · refine .inr ⟨Option.not_isSome_iff_eq_none.mp fun hsome => hrole ?_, hrole⟩
      obtain ⟨rule, hrule, hmatch, -⟩ := roleAnswer_isSome_iff.mp hsome
      exact ⟨rule, hrule, hmatch⟩

theorem someLight_iff : acl.SomeLight username topic ↔
    (findBestDirectRule acl.rules username topic false).1 ≠ none ∨
      (findBestDirectRule acl.rules username topic true).1 ≠ none := by
  rw [Ne, Ne, ← not_and_or, findBestDirectRule_eq_none_iff, findBestDirectRule_eq_none_iff]
  constructor
  · rintro ⟨rule, hrule, hmatch, hlight⟩ ⟨hnamed, hevery⟩
    cases hclass : rule.isWildcard with
    | false => exact hnamed rule hrule ⟨hclass, hmatch⟩ hlight
    | true => exact hevery rule hrule ⟨hclass, hmatch⟩ hlight
  · intro h
    by_contra hnot
    have hall : ∀ rule ∈ acl.rules, rule.matches username topic = true → ¬ rule.Light :=
      fun rule hrule hmatch hlight => hnot ⟨rule, hrule, hmatch, hlight⟩
    exact h ⟨fun rule hrule hmatch => hall rule hrule hmatch.2,
      fun rule hrule hmatch => hall rule hrule hmatch.2⟩

/-- The default does not matter exactly if a matching rule for every user is light, or the foremost
rule for the user or a rule of a role answers. -/
theorem default_irrelevant_iff (hcheck : check .readWrite = true) :
    (∀ permission, { acl with defaultPermission := permission }.checkPermission username topic
        check = acl.checkPermission username topic check) ↔
      (∃ rule ∈ acl.rules, Matching username topic true rule ∧ rule.Light) ∨
      (∃ rule, Foremost acl.rules username topic false rule ∧ Answers check rule.permission) ∨
      ∃ rule, acl.ConsultsRole username rule ∧ rule.matches username topic = true ∧
        Answers check rule.permission := by
  have hrole : ∀ permission, { acl with defaultPermission := permission }.roleAnswer username
      topic check = acl.roleAnswer username topic check := fun _ => rfl
  have hlight : (∃ rule ∈ acl.rules, Matching username topic true rule ∧ rule.Light) ↔
      (findBestDirectRule acl.rules username topic true).1 ≠ none := by
    rw [Ne, findBestDirectRule_eq_none_iff]
    push Not
    rfl
  rw [hlight, ← directAnswer_isSome_iff, ← roleAnswer_isSome_iff]
  simp only [checkPermission, hrole]
  cases directAnswer check (findBestDirectRule acl.rules username topic false).1 with
  | some answer => simp
  | none =>
    cases acl.roleAnswer username topic check with
    | some answer => simp
    | none =>
      cases (findBestDirectRule acl.rules username topic true).1 with
      | some rule => cases hdeny : rule.permission.isDeny <;> simp [wildcardAnswer, hdeny]
      | none =>
        -- nothing answered: the two extreme defaults differ
        refine iff_of_false (fun h => ?_) (by simp)
        have hdiffer := (h .readWrite).trans (h .deny).symm
        simp [wildcardAnswer, Permission.isDeny, hcheck] at hdiffer

/-- Where only rules that deny match, access is refused exactly if one of them is light or of a
role, or the default refuses it. -/
theorem refused_iff_of_onlyDenies (h : acl.OnlyDenies username topic) :
    acl.checkPermission username topic check = false ↔
      acl.SomeLight username topic ∨ acl.RoleMatches username topic ∨
        ¬ (acl.defaultPermission ≠ .deny ∧ check acl.defaultPermission = true) := by
  rw [someLight_iff]
  unfold checkPermission
  cases hnamed : (findBestDirectRule acl.rules username topic false).1 with
  | some rule => simp [directAnswer, isDeny_of_onlyDenies h hnamed]
  | none =>
    rcases roleAnswer_of_onlyDenies check h with ⟨hrole, hmatch⟩ | ⟨hrole, hno⟩
    · simp [hrole, hmatch, directAnswer]
    · cases hevery : (findBestDirectRule acl.rules username topic true).1 with
      | some rule => simp [hrole, directAnswer, wildcardAnswer, isDeny_of_onlyDenies h hevery]
      | none =>
        simp only [ne_eq, ← isDeny_iff]
        cases acl.defaultPermission.isDeny <;> simp [hrole, hno, directAnswer, wildcardAnswer]

/-- Where a rule for every user matches, and where some rule matches and all that do deny: what it
takes for the rules to decide. -/
theorem matching_rules_decide (hcheck : check .readWrite = true) :
    ((∃ rule ∈ acl.rules, Matching username topic true rule) →
      ((∀ permission, { acl with defaultPermission := permission }.checkPermission username topic
          check = acl.checkPermission username topic check) ↔
        (∃ rule ∈ acl.rules, Matching username topic true rule ∧ rule.Light) ∨
        (∃ rule, Foremost acl.rules username topic false rule ∧ Answers check rule.permission) ∨
        ∃ rule, acl.ConsultsRole username rule ∧ rule.matches username topic = true ∧
          Answers check rule.permission)) ∧
    (acl.OnlyDenies username topic →
      (∃ rule ∈ acl.rules, rule.matches username topic = true) ∨ acl.RoleMatches username topic →
      (acl.checkPermission username topic check = false ↔
        acl.SomeLight username topic ∨ acl.RoleMatches username topic ∨
          ¬ (acl.defaultPermission ≠ .deny ∧ check acl.defaultPermission = true))) :=
  ⟨fun _ => default_irrelevant_iff hcheck, fun hdeny _ => refused_iff_of_onlyDenies hdeny⟩

/-- A rule of the user that answers nothing, a deny for every user, and a default that grants. -/
theorem matching_rules_decide_deny :
    let acl : AclManager := { rules := [⟨"alice", "a/b", .write⟩, ⟨"*", "a/#", .deny⟩],
                              defaultPermission := .readWrite }
    (∀ permission, { acl with defaultPermission := permission }.checkPermission (some "alice") "a/b"
      Permission.allowsRead = acl.checkPermission (some "alice") "a/b" Permission.allowsRead) ∧
    acl.checkPermission (some "bob") "a/b" Permission.allowsRead = false := by
  intro acl
  have hlight : (⟨"*", "a/#", .deny⟩ : AclRule).Light := by
    unfold AclRule.Light
    decide +kernel
  have hrule : (⟨"*", "a/#", .deny⟩ : AclRule) ∈ acl.rules := by simp [acl]
  constructor
  · exact ((matching_rules_decide rfl).1 ⟨_, hrule, rfl, by decide +kernel⟩).mpr
      (.inl ⟨_, hrule, ⟨rfl, by decide +kernel⟩, hlight⟩)
  · have hother : (⟨"alice", "a/b", .write⟩ : AclRule).matches (some "bob") "a/b" = false := by
      decide +kernel
    have hdeny : acl.OnlyDenies (some "bob") "a/b" := by
      refine ⟨by simp [acl, hother], fun rule hrole => ?_⟩
      obtain ⟨user, -, roleName, hasg, -⟩ := hrole
      simp [acl, allAssignedRoles] at hasg
    have hmatch : (⟨"*", "a/#", .deny⟩ : AclRule).matches (some "bob") "a/b" = true := by
      decide +kernel
    exact ((matching_rules_decide rfl).2 hdeny (.inl ⟨_, hrule, hmatch⟩)).mpr
      (.inl ⟨_, hrule, hmatch, hlight⟩)

/-- The only rule that matches denies, seven wildcards make it score -7, and access is granted. -/
theorem deny_rule_unseen :
    let rule : AclRule := ⟨"*", "+/+/+/+/+/+/+", .deny⟩
    let acl : AclManager := { rules := [rule], defaultPermission := .readWrite }
    rule.matches none "a/b/c/d/e/f/g" = true ∧ acl.OnlyDenies none "a/b/c/d/e/f/g" ∧
      acl.checkPublish none "a/b/c/d/e/f/g" = true ∧
      acl.checkSubscribe none "a/b/c/d/e/f/g" = true := by
  refine ⟨by decide +kernel, ⟨?_, ?_⟩, by decide +kernel⟩
  · simp
  · rintro rule ⟨_, hnone, -⟩
    cases hnone

end AclManager

end MqttLib.Acl
