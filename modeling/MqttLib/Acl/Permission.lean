/-
MqttLib.Acl.Permission

Access control lists (`broker/acl`): rules for users and roles, the rule that is
consulted first, and the permission check they decide.
-/

import MqttLib.Foundation.LastWrite
import MqttLib.Foundation.Selection
import MqttLib.Protocol.Topic

namespace MqttLib.Acl

open Foundation Protocol

/-! ## Rules -/

/-- Access permissions for topics. -/
inductive Permission where
  | read
  | write
  | readWrite
  | deny
  deriving DecidableEq, Repr

namespace Permission

def allowsRead : Permission → Bool
  | .read | .readWrite => true
  | .write | .deny => false

def allowsWrite : Permission → Bool
  | .write | .readWrite => true
  | .read | .deny => false

def isDeny : Permission → Bool
  | .deny => true
  | .read | .write | .readWrite => false

end Permission

def usernameContainsMqttSpecialChars (name : String) : Bool :=
  name.toList.contains '+' || name.toList.contains '#' || name.toList.contains '/'

/-- `pattern.contains("%u")`. -/
def containsUserMark : List Char → Bool
  | '%' :: 'u' :: _ => true
  | _ :: rest => containsUserMark rest
  | [] => false

/-- `pattern.replace("%u", name)`. -/
def replaceUserMark (name : List Char) : List Char → List Char
  | '%' :: 'u' :: rest => name ++ replaceUserMark name rest
  | c :: rest => c :: replaceUserMark name rest
  | [] => []

def expandPattern (pattern : String) (username : Option String) : Option String :=
  if !containsUserMark pattern.toList then some pattern
  else
    match username with
    | none => none
    | some name =>
      if usernameContainsMqttSpecialChars name then none
      else some (String.ofList (replaceUserMark name.toList pattern.toList))

/-- What `AclRule::matches` and `RoleRule::matches` do with the pattern of the rule. -/
def patternMatches (topicPattern : String) (username : Option String) (topic : String) : Bool :=
  match expandPattern topicPattern username with
  | none => false
  | some expanded => topicMatchesFilter topic expanded

/-- Rule for a user (`*` for every user) and a topic pattern. -/
structure AclRule where
  username : String
  topicPattern : String
  permission : Permission
  deriving DecidableEq, Repr

namespace AclRule

def usernameMatches (rule : AclRule) : Option String → Bool
  | some user => rule.username == "*" || rule.username == user
  | none => rule.username == "*" || rule.username == "anonymous"

def «matches» (rule : AclRule) (username : Option String) (topic : String) : Bool :=
  if !rule.usernameMatches username then false
  else patternMatches rule.topicPattern username topic

def isWildcard (rule : AclRule) : Bool := rule.username == "*"

/-- How specific a rule is: a named user counts 100, every wildcard of the pattern counts
against it. -/
def specificity (rule : AclRule) : Int :=
  (if rule.isWildcard then 0 else 100) +
    (50 - (rule.topicPattern.toList.countP fun c => c == '+' || c == '#') * 10) +
    rule.topicPattern.utf8ByteSize

theorem matches_iff {rule : AclRule} {username : Option String} {topic : String} :
    rule.matches username topic ↔
      rule.usernameMatches username ∧
        patternMatches rule.topicPattern username topic := by
  unfold AclRule.matches
  cases rule.usernameMatches username <;> simp

end AclRule

/-- A rule within a role. -/
structure RoleRule where
  topicPattern : String
  permission : Permission
  deriving DecidableEq, Repr

def RoleRule.matches (rule : RoleRule) (username : Option String) (topic : String) : Bool :=
  patternMatches rule.topicPattern username topic

structure Role where
  name : String
  rules : List RoleRule
  deriving DecidableEq, Repr

/-! ## The manager -/

/-- `AclManager`; of a federated entry only its roles are read here. -/
structure AclManager where
  rules : List AclRule := []
  roles : Table String Role := ∅
  userRoles : Table String (Finset String) := ∅
  federatedUserRoles : Table String (Finset String) := ∅
  defaultPermission : Permission := .deny

namespace AclManager

/-- The most specific matching rule for the user, or for every user. -/
def findBestDirectRule (rules : List AclRule) (username : Option String) (topic : String)
    (wildcardOnly : Bool) : Option AclRule × Int :=
  rules.foldl (fun best rule =>
    if wildcardOnly && !rule.isWildcard then best
    else if !wildcardOnly && rule.isWildcard then best
    else if rule.matches username topic then
      if rule.specificity > best.2 then (some rule, rule.specificity) else best
    else best) (none, -1)

def allAssignedRoles (acl : AclManager) (user : String) : Finset String :=
  (acl.userRoles.lookup user).getD ∅ ∪ (acl.federatedUserRoles.lookup user).getD ∅

/-- Some rule of a role the user has matches the topic and meets the condition.  The loop
over the roles only raises flags, so the order of the hash set does not matter. -/
def foundInRoles (acl : AclManager) (user topic : String) (condition : Permission → Bool) : Bool :=
  decide (∃ roleName ∈ acl.allAssignedRoles user,
    ((acl.roles.lookup roleName).map Role.rules).getD [] |>.any fun rule =>
      rule.matches (some user) topic && condition rule.permission)

/-- The answer of a rule for the user; a rule that neither denies nor grants leaves the
question open. -/
def directAnswer (check : Permission → Bool) : Option AclRule → Option Bool
  | none => none
  | some rule =>
    if rule.permission.isDeny then some false
    else if check rule.permission then some true
    else none

/-- The answer of the roles of a user: a deny wins over a grant. -/
def roleAnswer (acl : AclManager) (username : Option String) (topic : String)
    (check : Permission → Bool) : Option Bool :=
  match username with
  | none => none
  | some user =>
    if acl.foundInRoles user topic Permission.isDeny then some false
    else if acl.foundInRoles user topic (fun p => !p.isDeny && check p) then some true
    else none

/-- The answer of a rule for every user, which is final. -/
def wildcardAnswer (check : Permission → Bool) : Option AclRule → Option Bool
  | none => none
  | some rule => if rule.permission.isDeny then some false else some (check rule.permission)

/-- The rules for the user, the roles, the rules for every user and the default, in turn. -/
def checkPermission (acl : AclManager) (username : Option String) (topic : String)
    (check : Permission → Bool) : Bool :=
  let direct := directAnswer check (findBestDirectRule acl.rules username topic false).1
  let role := acl.roleAnswer username topic check
  let wildcard := wildcardAnswer check (findBestDirectRule acl.rules username topic true).1
  (direct <|> role <|> wildcard).getD
    (if acl.defaultPermission.isDeny then false else check acl.defaultPermission)

def checkPublish (acl : AclManager) (username : Option String) (topic : String) : Bool :=
  acl.checkPermission username topic Permission.allowsWrite

def checkSubscribe (acl : AclManager) (username : Option String) (topicFilter : String) : Bool :=
  acl.checkPermission username topicFilter Permission.allowsRead

/-! ## What the rules see -/

/-- A rule of the list is meant for the user. -/
def ConsultsRule (acl : AclManager) (username : Option String) (rule : AclRule) : Prop :=
  rule ∈ acl.rules ∧ rule.usernameMatches username = true

/-- A rule belongs to one of the user's roles. -/
def ConsultsRole (acl : AclManager) (username : Option String) (rule : RoleRule) : Prop :=
  ∃ user, username = some user ∧ ∃ roleName ∈ acl.allAssignedRoles user,
    ∃ role, acl.roles.lookup roleName = some role ∧ rule ∈ role.rules

/-- Some rule consulted for the user has this pattern. -/
def Consults (acl : AclManager) (username : Option String) (pattern : String) : Prop :=
  (∃ rule, acl.ConsultsRule username rule ∧ rule.topicPattern = pattern) ∨
    ∃ rule, acl.ConsultsRole username rule ∧ rule.topicPattern = pattern

theorem findBestDirectRule_eq (rules : List AclRule) (username : Option String) (topic : String)
    (wildcardOnly : Bool) :
    findBestDirectRule rules username topic wildcardOnly =
      select AclRule.specificity (-1)
        (rules.filter fun rule =>
          rule.isWildcard == wildcardOnly && rule.matches username topic) := by
  unfold findBestDirectRule select
  rw [List.foldl_filter]
  congr 1
  funext best rule
  unfold improve
  cases wildcardOnly <;> cases rule.isWildcard <;> simp

theorem foundInRoles_iff {acl : AclManager} {user topic : String} {condition : Permission → Bool} :
    acl.foundInRoles user topic condition ↔
      ∃ rule, acl.ConsultsRole (some user) rule ∧ rule.matches (some user) topic ∧
        condition rule.permission := by
  unfold foundInRoles ConsultsRole
  rw [decide_eq_true_iff]
  constructor
  · rintro ⟨roleName, hasg, hany⟩
    cases hrole : acl.roles.lookup roleName with
    | none => simp [hrole] at hany
    | some role =>
      obtain ⟨rule, hrule, hmatch⟩ : ∃ rule ∈ role.rules,
          rule.matches (some user) topic = true ∧ condition rule.permission = true := by
        simpa [hrole] using hany
      exact ⟨rule, ⟨user, rfl, roleName, hasg, role, hrole, hrule⟩, hmatch⟩
  · rintro ⟨rule, ⟨_, hsame, roleName, hasg, role, hrole, hrule⟩, hmatch⟩
    cases hsame
    refine ⟨roleName, hasg, ?_⟩
    simpa [hrole] using ⟨rule, hrule, hmatch⟩

end AclManager

end MqttLib.Acl
