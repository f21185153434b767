/-
MqttLib.Acl.UserPatterns

Patterns with `%u` for a level: whatever the name of the user, it is put in for that level only.
-/

import MqttLib.Acl.Permission

namespace MqttLib.Acl

open Protocol List

variable {name text : List Char}

theorem replaceUserMark_eq_self (h : containsUserMark text = false) :
    replaceUserMark name text = text := by
  induction text using replaceUserMark.induct with
  | case1 rest => cases h
  | case2 c rest hne ih =>
    rw [containsUserMark.eq_2 c rest hne] at h
    rw [replaceUserMark.eq_2 name c rest hne, ih h]
  | case3 => rfl

theorem mem_replaceUserMark {c : Char} (hc : c ∈ replaceUserMark name text) :
    c ∈ name ∨ c ∈ text := by
  induction text using replaceUserMark.induct with
  | case1 rest ih =>
    rcases mem_append.mp hc with hc | hc
    · exact .inl hc
    · exact (ih hc).imp_right fun h => mem_cons_of_mem _ (mem_cons_of_mem _ h)
  | case2 d rest hne ih =>
    rw [replaceUserMark.eq_2 name d rest hne] at hc
    rcases mem_cons.mp hc with rfl | hc
    · exact .inr mem_cons_self
    · exact (ih hc).imp_right (mem_cons_of_mem _)
  | case3 => cases hc

theorem splitOn_append (hname : '/' ∉ name) :
    (name ++ text).splitOn '/' = (text.splitOn '/').modifyHead (name ++ ·) := by
  induction name with
  | nil => exact (congrFun modifyHead_id _).symm
  | cons c name ih =>
    rw [mem_cons, not_or] at hname
    rw [cons_append, splitOn_cons_eq_if_modifyHead, ih hname.2,
      if_neg (by simpa using Ne.symm hname.1)]
    cases text.splitOn '/' <;> rfl

/-- The name goes into the levels one by one. -/
theorem splitOn_replaceUserMark (text : List Char) (hname : '/' ∉ name) :
    (replaceUserMark name text).splitOn '/' = (text.splitOn '/').map (replaceUserMark name) := by
  induction text using replaceUserMark.induct with
  | case1 rest ih =>
    obtain ⟨first, tail, hsplit⟩ := exists_cons_of_ne_nil (splitOn_ne_nil '/' rest)
    rw [replaceUserMark, splitOn_append hname, ih, splitOn_cons_eq_if_modifyHead,
      splitOn_cons_eq_if_modifyHead, hsplit]
    rfl
  | case2 c rest hne ih =>
    obtain ⟨first, tail, hsplit⟩ := exists_cons_of_ne_nil (splitOn_ne_nil '/' rest)
    rw [replaceUserMark.eq_2 name c rest hne, splitOn_cons_eq_if_modifyHead, ih,
      splitOn_cons_eq_if_modifyHead, hsplit]
    split
    · rfl
    · -- the first level of the rest starts with `u` only if the rest does
      have hfirst : ∀ after, c = '%' → first = 'u' :: after → False := by
        rintro after hc rfl
        have hstart := (startsWith_iff (c := 'u') (by decide) (String.ofList rest)).mpr
          ⟨after, tail, by rw [levels, String.toList_ofList, hsplit]⟩
        cases rest with
        | nil => cases hsplit
        | cons d rest => simp_all [startsWith]
      exact congrArg (· :: _) (replaceUserMark.eq_2 name c first hfirst).symm
  | case3 => rfl

/-- A filter's level that is no wildcard, with no `#` before it, is the topic's level. -/
theorem level_of_matchLevels {topic before after : List Level} (hpre : ['#'] ∉ before)
    (hhash : name ≠ ['#']) (hplus : name ≠ ['+'])
    (h : matchLevels topic (before ++ name :: after)) :
    topic[before.length]? = some name := by
  induction before generalizing topic with
  | nil =>
    cases topic with
    | nil => cases after <;> simp_all [matchLevels]
    | cons level topic =>
      rw [nil_append, matchLevels, if_neg (by simpa using hhash)] at h
      split at h
      · cases h
      · simp_all
  | cons _ before ih =>
    rw [mem_cons, not_or] at hpre
    cases topic with
    | nil => cases before <;> cases h
    | cons level topic =>
      rw [cons_append, matchLevels, if_neg (by simpa using Ne.symm hpre.1)] at h
      split at h
      · cases h
      · exact ih hpre.2 h

variable {pattern user topic : String} {before after : List Level}

theorem level_of_patternMatches (hpat : levels pattern = before ++ "%u".toList :: after)
    (hhash : ∀ level ∈ before, '#' ∉ level) (h : patternMatches pattern (some user) topic) :
    (levels topic)[before.length]? = some user.toList := by
  unfold patternMatches expandPattern at h
  cases hmark : containsUserMark pattern.toList with
  | false =>
    -- the level is replaced, so that there is a mark
    have hsame := splitOn_replaceUserMark pattern.toList (not_mem_nil (a := '/'))
    rw [replaceUserMark_eq_self hmark, ← levels, hpat, map_append, map_cons] at hsame
    have hlevel := (append_inj hsame (length_map _).symm).2
    cases (cons.inj hlevel).1
  | true =>
    rw [hmark] at h
    cases hspecial : usernameContainsMqttSpecialChars user with
    | true => simp [hspecial] at h
    | false =>
      simp only [usernameContainsMqttSpecialChars, Bool.or_eq_false_iff, contains_eq_mem,
        decide_eq_false_iff_not] at hspecial
      obtain ⟨⟨hplus, hhash'⟩, hslash⟩ := hspecial
      simp [usernameContainsMqttSpecialChars, hplus, hhash', hslash, topicMatchesFilter_eq] at h
      have hlevels := h.2
      have hname : replaceUserMark user.toList "%u".toList = user.toList := append_nil _
      rw [levels, levels, String.toList_ofList, splitOn_replaceUserMark _ hslash, ← levels,
        ← levels, hpat, map_append, map_cons, hname] at hlevels
      have hlength : (before.map (replaceUserMark user.toList)).length = before.length :=
        length_map _
      rw [← hlength]
      refine level_of_matchLevels (fun hmem => ?_) (fun h => hhash' (h ▸ mem_cons_self))
        (fun h => hplus (h ▸ mem_cons_self)) hlevels
      obtain ⟨level, hlevel, heq⟩ := mem_map.mp hmem
      exact (mem_replaceUserMark (heq ▸ mem_cons_self)).elim hhash' (hhash level hlevel)

/-- Users match with their own name at the level, so that no two of them match one topic. -/
def Isolates (userMatches : Option String → String → Bool) (level : Nat) : Prop :=
  (∀ user topic, userMatches (some user) topic = true → (levels topic)[level]? = some user.toList) ∧
    ∀ user user' topic, user ≠ user' →
      ¬ (userMatches (some user) topic = true ∧ userMatches (some user') topic = true)

theorem isolates_of_level {userMatches : Option String → String → Bool} {level : Nat}
    (h : ∀ user topic, userMatches (some user) topic = true →
      (levels topic)[level]? = some user.toList) : Isolates userMatches level := by
  refine ⟨h, fun user user' topic hne ⟨hfirst, hsecond⟩ => hne ?_⟩
  have hsame := (h user topic hfirst).symm.trans (h user' topic hsecond)
  exact String.toList_inj.mp (Option.some.inj hsame)

/-- Where `%u` is a level before any `#`, the rules of both kinds isolate the users. -/
theorem user_patterns_isolate (hpattern : levels pattern = before ++ "%u".toList :: after)
    (hhash : ∀ level ∈ before, '#' ∉ level) :
    (∀ rule : AclRule, rule.topicPattern = pattern → Isolates rule.matches before.length) ∧
      ∀ rule : RoleRule, rule.topicPattern = pattern → Isolates rule.matches before.length := by
  constructor
  · rintro rule rfl
    refine isolates_of_level fun user topic h => ?_
    exact level_of_patternMatches hpattern hhash (AclRule.matches_iff.mp h).2
  · rintro rule rfl
    exact isolates_of_level fun user topic h => level_of_patternMatches hpattern hhash h

theorem user_patterns_isolate_database : Isolates (RoleRule.matches ⟨"$DB/u/%u/#", .readWrite⟩) 2 :=
  have hpattern : levels "$DB/u/%u/#" = [_, _] ++ "%u".toList :: [_] := rfl
  (user_patterns_isolate hpattern (by decide)).2 _ rfl

end MqttLib.Acl
