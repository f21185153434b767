/-
MqttLib.Acl.Subscription

Authorization of subscriptions.  The permission check looks at the text of the filter as
if it were a topic name.  What a subscriber may read follows from the check of the filter
as long as the rules that see the filter see its topics too, and the rules that only see
the topics grant reading.
-/

import MqttLib.Acl.Permission

namespace MqttLib.Acl

open Foundation Protocol Permission

/-- `validate_subscribe_filter`: an error closes the connection, a reason code refuses the
filter, and `none` accepts it. -/
def validateSubscribeFilter (authorizeSubscribe : String → Bool) (filter : String)
    (noLocal : Bool) : Except MqttError (Option SubAckReasonCode) :=
  let isShared := "$share/".toList.isPrefixOf filter.toList
  if noLocal && isShared then .error (.protocolError "NoLocal on shared subscription")
  else
    let (underlying, shareGroup) := parseSharedSubscription filter
    if !isValidTopicFilter underlying then .ok (some .topicFilterInvalid)
    else if isShared && shareGroup.all (fun group => hasWildcards group) then
      .ok (some .topicFilterInvalid)
    else if !authorizeSubscribe filter then .ok (some .notAuthorized)
    else .ok none

namespace AclManager

section

variable {acl : AclManager} {username : Option String} {filter topic : String} {rule : AclRule}

/-- Every rule that sees the filter sees the topic.  A rule that only sees the topic grants
reading, and one of a role at least does not deny it. -/
structure Widens (acl : AclManager) (username : Option String) (filter topic : String) : Prop where
  kept : ∀ pattern, acl.Consults username pattern →
    patternMatches pattern username filter = true → patternMatches pattern username topic = true
  addedRule : ∀ rule, acl.ConsultsRule username rule →
    rule.matches username topic = true → rule.matches username filter = false →
    rule.permission.allowsRead = true
  addedRole : ∀ rule, acl.ConsultsRole username rule →
    rule.matches username topic = true → rule.matches username filter = false →
    rule.permission.isDeny = false

theorem Widens.findBestDirectRule (h : acl.Widens username filter topic) (wildcardOnly : Bool) :
    (AclManager.findBestDirectRule acl.rules username topic wildcardOnly).1 =
        (AclManager.findBestDirectRule acl.rules username filter wildcardOnly).1 ∨
      ∃ rule, (AclManager.findBestDirectRule acl.rules username topic wildcardOnly).1 = some rule ∧
        rule.permission.allowsRead := by
  have hsub : ∀ rule ∈ acl.rules,
      (rule.isWildcard == wildcardOnly && rule.matches username filter) = true →
      (rule.isWildcard == wildcardOnly && rule.matches username topic) = true := by
    intro rule hmem hrule
    rw [Bool.and_eq_true, AclRule.matches_iff] at hrule ⊢
    obtain ⟨hclass, huser, hpat⟩ := hrule
    exact ⟨hclass, huser, h.kept _ (.inl ⟨rule, ⟨hmem, huser⟩, rfl⟩) hpat⟩
  have hselect := select_filter_or_added AclRule.specificity hsub (-1)
  rw [← findBestDirectRule_eq, ← findBestDirectRule_eq] at hselect
  rcases hselect with heq | ⟨-, rule, hbest, hadded⟩
  · exact .inl (by rw [heq])
  refine .inr ⟨rule, hbest, ?_⟩
  -- the rule matches the topic in its class, so it can only fail to match the filter
  have hfound := mem_of_select (findBestDirectRule_eq _ _ _ _ ▸ hbest)
  obtain ⟨hmem, hclass⟩ := List.mem_filter.mp hfound
  rw [Bool.and_eq_true] at hclass
  have huser := (AclRule.matches_iff.mp hclass.2).1
  exact h.addedRule rule ⟨hmem, huser⟩ hclass.2 (by simpa [hclass.1] using hadded)

theorem Widens.roleAnswer (h : acl.Widens username filter topic)
    (href : acl.roleAnswer username filter allowsRead ≠ some false) :
    acl.roleAnswer username topic allowsRead =
        acl.roleAnswer username filter allowsRead ∨
      acl.roleAnswer username topic allowsRead = some true := by
  cases username with
  | none => exact .inl rfl
  | some user =>
    unfold AclManager.roleAnswer at href ⊢
    have hnodeny : acl.foundInRoles user filter isDeny = false := by
      by_contra hfound
      exact href (by simp [hfound])
    have htopic : acl.foundInRoles user topic isDeny = false := by
      by_contra hfound
      rw [Bool.not_eq_false, foundInRoles_iff] at hfound
      obtain ⟨rule, hconsults, hmatch, hdeny⟩ := hfound
      cases hfilt : rule.matches (some user) filter with
      | true =>
        rw [← Bool.not_eq_true, foundInRoles_iff] at hnodeny
        exact hnodeny ⟨rule, hconsults, hfilt, hdeny⟩
      | false =>
        rw [h.addedRole rule hconsults hmatch hfilt] at hdeny
        cases hdeny
    dsimp only
    rw [hnodeny, htopic]
    cases hgrant : acl.foundInRoles user filter (fun p => !p.isDeny && p.allowsRead) with
    | false =>
      cases acl.foundInRoles user topic (fun p => !p.isDeny && p.allowsRead) <;> simp
    | true =>
      -- a grant for the filter is one for the topic
      rw [foundInRoles_iff] at hgrant
      obtain ⟨rule, hconsults, hmatch, hallow⟩ := hgrant
      have hfound : acl.foundInRoles user topic (fun p => !p.isDeny && p.allowsRead) :=
        foundInRoles_iff.mpr ⟨rule, hconsults,
          h.kept _ (.inr ⟨rule, hconsults, rfl⟩) hmatch, hallow⟩
      simp [hfound]

theorem directAnswer_of_allowsRead (h : rule.permission.allowsRead) :
    directAnswer allowsRead (some rule) = some true := by
  unfold directAnswer
  cases hpermission : rule.permission <;> simp_all [isDeny, allowsRead]

theorem wildcardAnswer_of_allowsRead (h : rule.permission.allowsRead) :
    wildcardAnswer allowsRead (some rule) = some true := by
  unfold wildcardAnswer
  cases hpermission : rule.permission <;> simp_all [isDeny, allowsRead]

/-- The check of the filter carries over to the topic. -/
theorem Widens.checkSubscribe (h : acl.Widens username filter topic)
    (hfilt : acl.checkSubscribe username filter) :
    acl.checkSubscribe username topic := by
  unfold AclManager.checkSubscribe checkPermission at hfilt ⊢
  -- the first list
  rcases h.findBestDirectRule false with hdirect | ⟨rule, hdirect, hallows⟩
  swap
  · rw [hdirect, directAnswer_of_allowsRead hallows]
    rfl
  rw [hdirect]
  cases hans : directAnswer allowsRead
      (AclManager.findBestDirectRule acl.rules username filter false).1 with
  | some answer =>
    rw [hans] at hfilt
    exact hfilt
  | none =>
    rw [hans] at hfilt
    -- the roles
    have href : acl.roleAnswer username filter allowsRead ≠ some false := by
      intro hrole
      rw [hrole] at hfilt
      cases hfilt
    rcases h.roleAnswer href with hrole | hrole
    swap
    · rw [hrole]
      rfl
    rw [hrole]
    -- the second list
    rcases h.findBestDirectRule true with hwildcard | ⟨rule, hwildcard, hallows⟩
    · rw [hwildcard]
      exact hfilt
    · rw [hwildcard, wildcardAnswer_of_allowsRead hallows]
      cases hroles : acl.roleAnswer username filter allowsRead with
      | none => rfl
      | some answer =>
        rw [hroles] at hfilt
        exact hfilt

/-! ## Filters a rule sees as the language means them -/

/-- A pattern sees the text of the filter otherwise than the topics behind it: a shared
filter is matched with its `$share/group/`, a `+` stands where the filter has its `#`,
or the pattern is not a valid filter. -/
def SeesTextOnly (username : Option String) (filter pattern : String) : Prop :=
  (parseSharedSubscription filter).2 ≠ none ∨
    ∃ expanded, expandPattern pattern username = some expanded ∧
      (isValidTopicFilter expanded = false ∨ plusAtHash (levels filter) (levels expanded) = true)

/-- What an accepted filter is. -/
theorem accepted_spec {authorizeSubscribe : String → Bool} {noLocal : Bool}
    (h : validateSubscribeFilter authorizeSubscribe filter noLocal = .ok none) :
    isValidTopicFilter (parseSharedSubscription filter).1 ∧
      authorizeSubscribe filter ∧ ("$share/".toList <+: filter.toList →
        ∃ group, (parseSharedSubscription filter).2 = some group ∧ hasWildcards group = false) := by
  unfold validateSubscribeFilter at h
  dsimp only at h
  split at h
  · cases h
  split at h
  · cases h
  rename_i hvalid
  split at h
  · cases h
  rename_i hgroup
  split at h
  · cases h
  rename_i hauthorized
  refine ⟨by simpa using hvalid, by simpa using hauthorized, fun hshare => ?_⟩
  rw [List.isPrefixOf_iff_prefix.mpr hshare, Bool.true_and, Bool.not_eq_true] at hgroup
  cases hparse : (parseSharedSubscription filter).2 with
  | none =>
    rw [hparse] at hgroup
    cases hgroup
  | some group =>
    rw [hparse] at hgroup
    exact ⟨group, rfl, hgroup⟩

/-- A filter without a group is its own filter. -/
theorem parseSharedSubscription_plain (h : (parseSharedSubscription filter).2 = none) :
    (parseSharedSubscription filter).1 = filter := by
  rw [parseSharedSubscription_eq] at h ⊢
  cases hparts : sharedParts filter with
  | none => rfl
  | some _ =>
    rw [hparts] at h
    cases h

/-- A pattern that sees a plain filter as the language means it sees all its topics. -/
theorem patternMatches_of_delivers {pattern : String}
    (hvalid : isValidTopicFilter (parseSharedSubscription filter).1)
    (hregl : ¬ SeesTextOnly username filter pattern) (hdelivers : delivers filter topic)
    (hmatch : patternMatches pattern username filter) :
    patternMatches pattern username topic := by
  have hplain : (parseSharedSubscription filter).2 = none := by
    by_contra hshr
    exact hregl (.inl hshr)
  have hfilt := parseSharedSubscription_plain hplain
  rw [hfilt] at hvalid
  unfold delivers at hdelivers
  rw [hfilt] at hdelivers
  unfold patternMatches at hmatch ⊢
  cases hexpand : expandPattern pattern username with
  | none => simp [hexpand] at hmatch
  | some expanded =>
    rw [hexpand] at hmatch
    dsimp only at hmatch hdelivers ⊢
    split at hdelivers
    · have hpat : isValidTopicFilter expanded := by
        by_contra hinvalid
        exact hregl (.inr ⟨expanded, hexpand, .inl (by simpa using hinvalid)⟩)
      have hplus : plusAtHash (levels filter) (levels expanded) = false := by
        by_contra hplus
        exact hregl (.inr ⟨expanded, hexpand, .inr (by simpa using hplus)⟩)
      exact topicMatchesFilter_trans hvalid hpat hplus hmatch hdelivers
    · -- an exact filter delivers its own name
      have hsame : topic = filter := by simpa using hdelivers
      rw [hsame]
      exact hmatch

/-- A subscriber may read what an accepted subscription delivers, if the rules that see only
the text of the filter see the topic too, the rules that see the topic but not the
filter grant reading, and such rules of a role do not deny it. -/
theorem checkSubscribe_of_delivers {noLocal : Bool}
    (haccepted : validateSubscribeFilter (acl.checkSubscribe username) filter noLocal = .ok none)
    (hdelivers : delivers filter topic = true)
    (hkept : ∀ pattern, acl.Consults username pattern → SeesTextOnly username filter pattern →
      patternMatches pattern username filter = true →
      patternMatches pattern username topic = true)
    (haddedRule : ∀ rule, acl.ConsultsRule username rule → rule.matches username topic = true →
      rule.matches username filter = false → rule.permission.allowsRead = true)
    (haddedRole : ∀ rule, acl.ConsultsRole username rule → rule.matches username topic = true →
      rule.matches username filter = false → rule.permission.isDeny = false) :
    acl.checkSubscribe username topic = true := by
  obtain ⟨hvalid, hauthorized, -⟩ := accepted_spec haccepted
  have hwidens : acl.Widens username filter topic := by
    refine ⟨fun pattern hconsults hmatch => ?_, haddedRule, haddedRole⟩
    by_cases htext : SeesTextOnly username filter pattern
    · exact hkept pattern hconsults htext hmatch
    · exact patternMatches_of_delivers hvalid htext hdelivers hmatch
  exact hwidens.checkSubscribe hauthorized

/-- Alice may read everything but `secret`. -/
def secretAcl : AclManager :=
  { rules := [⟨"alice", "#", .read⟩, ⟨"alice", "secret", .deny⟩] }

/-- Alice's subscription to everything is accepted, so that alice may read `open`, which it
delivers. -/
theorem checkSubscribe_of_delivers_open :
    delivers "#" "open" = true ∧ secretAcl.checkSubscribe (some "alice") "open" = true := by
  have hrules : ∀ rule, secretAcl.ConsultsRule (some "alice") rule →
      rule = ⟨"alice", "#", .read⟩ ∨ rule = ⟨"alice", "secret", .deny⟩ := by
    rintro rule ⟨hmem, -⟩
    simpa [secretAcl] using hmem
  have hroles : ∀ rule, ¬ secretAcl.ConsultsRole (some "alice") rule := by
    rintro rule ⟨_, -, _, -, _, hrole, -⟩
    cases hrole
  have haccepted :
      validateSubscribeFilter (secretAcl.checkSubscribe (some "alice")) "#" false = .ok none := by
    decide +kernel
  refine ⟨by decide +kernel, checkSubscribe_of_delivers haccepted (by decide +kernel) ?_ ?_ ?_⟩
  · rintro pattern (⟨rule, hrule, rfl⟩ | ⟨rule, hrule, -⟩)
    · intro _
      rcases hrules rule hrule with rfl | rfl
      · decide +kernel
      · decide +kernel
    · exact absurd hrule (hroles rule)
  · intro rule hrule
    rcases hrules rule hrule with rfl | rfl
    · decide +kernel
    · decide +kernel
  · exact fun rule hrule => absurd hrule (hroles rule)

/-- A rule for a single topic is not consulted for a filter that contains it: the
subscription to everything is accepted and delivers what alice may not read. -/
theorem subscription_reads_denied_topic :
    validateSubscribeFilter (secretAcl.checkSubscribe (some "alice")) "#" false = .ok none ∧
      isValidTopicName "secret" = true ∧ delivers "#" "secret" = true ∧
      secretAcl.checkSubscribe (some "alice") "#" = true ∧
      secretAcl.checkSubscribe (some "alice") "secret" = false := by
  decide +kernel

end

end AclManager

/-! ## The two checks of a filter -/

/-- What the broker accepts is a valid filter, if `$share` is followed by a name. -/
theorem valid_of_accepted {authorizeSubscribe : String → Bool} {filter : String} {noLocal : Bool}
    (hacc : validateSubscribeFilter authorizeSubscribe filter noLocal = .ok none)
    (hsize : filter.utf8ByteSize ≤ maxStringLength) (hnamed : firstLevel filter = "$share".toList →
      ∃ name ≠ "", (parseSharedSubscription filter).2 = some name) :
    isValidSubscriptionFilter filter := by
  obtain ⟨hvalid, -, hgroup⟩ := AclManager.accepted_spec hacc
  by_cases hshare : firstLevel filter = "$share".toList
  · obtain ⟨name, hne, hname⟩ := hnamed hshare
    rw [parseSharedSubscription_eq] at hvalid hgroup hname
    cases hparts : sharedParts filter with
    | none =>
      rw [hparts] at hname
      cases hname
    | some parts =>
      obtain ⟨text, after⟩ := parts
      rw [hparts] at hvalid hgroup hname
      cases hname
      obtain ⟨_, hsome, hplain⟩ := hgroup ⟨_, (sharedParts_eq_some_iff.mp hparts).1.symm⟩
      cases hsome
      simp only [hasWildcards, String.toList_ofList, Bool.or_eq_false_iff] at hplain
      exact (isValidSubscriptionFilter_of_eq hshare).mpr ⟨hsize, text, after, hparts,
        by simpa using hne, by simpa using hplain.1, by simpa using hplain.2, hvalid⟩
  · rw [isValidSubscriptionFilter_of_ne hshare]
    rw [parseSharedSubscription_eq] at hvalid
    cases hparts : sharedParts filter with
    | none => rwa [hparts] at hvalid
    | some parts =>
      have htext := (sharedParts_eq_some_iff.mp hparts).1
      exact (hshare (firstLevel_of_share ⟨_, htext.symm⟩)).elim

/-- The filters that `is_valid_subscription_filter` accepts, but for those with NUL in the share
name; how they are cut, and what of them the check of the broker accepts. -/
theorem subscription_filters_checked (filter : String) :
    ((∀ name, (parseSharedSubscription filter).2 = some name → Char.ofNat 0 ∉ name.toList) →
      (isValidSubscriptionFilter filter = true ↔
        firstLevel filter ≠ "$share".toList ∧ isValidTopicFilter filter = true ∨
        filter.utf8ByteSize ≤ maxStringLength ∧
          ∃ name topicFilter, SharedFilter filter name topicFilter)) ∧
    (∀ name topicFilter, SharedFilter filter name topicFilter →
      parseSharedSubscription filter = (topicFilter, some name)) ∧
    ∀ authorizeSubscribe noLocal,
      validateSubscribeFilter authorizeSubscribe filter noLocal = .ok none →
      filter.utf8ByteSize ≤ maxStringLength →
      (firstLevel filter = "$share".toList →
        ∃ name ≠ "", (parseSharedSubscription filter).2 = some name) →
      isValidSubscriptionFilter filter = true :=
  ⟨isValidSubscriptionFilter_iff, fun _ _ => SharedFilter.parse, fun _ _ => valid_of_accepted⟩

theorem subscription_filters_checked_group :
    parseSharedSubscription "$share/g/x" = ("x", some "g") :=
  (subscription_filters_checked "$share/g/x").2.1 "g" "x"
    ⟨by decide +kernel, by decide, by simp, by decide +kernel⟩

/-- `$share` alone is a valid filter but not accepted, a name with NUL is, and the broker
accepts an empty name. -/
theorem subscription_checks_differ :
    (isValidTopicFilter "$share" = true ∧ isValidSubscriptionFilter "$share" = false) ∧
      isValidSubscriptionFilter "$share/\x00/x" = true ∧
      validateSubscribeFilter (fun _ => true) "$share//x" false = .ok none ∧
      isValidSubscriptionFilter "$share//x" = false := by
  decide +kernel

end MqttLib.Acl
