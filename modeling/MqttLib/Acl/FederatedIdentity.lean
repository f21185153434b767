/-
MqttLib.Acl.FederatedIdentity

The user ids of federated tokens (`auth_mechanisms/jwt_federated.rs`).  A user id is the
prefix of the issuer, a colon and the subject, which has no colon, so it names the prefix
and the subject.  It does not name the issuer: the prefix may be set, and is the domain of
the issuer's URL otherwise, which other issuers can share.

Parsing and signatures of tokens and the choice of roles are functions of the environment.
-/

import MqttLib.Acl.SessionRoles
import MqttLib.Protocol.Types

namespace MqttLib.Acl.FederatedIdentity

open Foundation Protocol SessionRoles List

inductive JwtError where
  | invalidFormat (message : String)
  | invalidSignature
  | unknownIssuer (issuer : String)
  | keyNotFound (kid : String)
  | expired
  | notYetValid
  | invalidClaim (message : String)
  | missingClaim (claim : String)
  deriving DecidableEq

/-! ## The user id -/

def stripScheme (issuer : List Char) (scheme : String) : Option (List Char) :=
  if scheme.toList.isPrefixOf issuer then some (issuer.drop scheme.toList.length) else none

def extractDomain (issuer : String) : String :=
  let chars := issuer.toList
  let rest := ((stripScheme chars "https://").or (stripScheme chars "http://")).getD chars
  .ofList (rest.takeWhile (· ≠ '/'))

/-- `char::is_control`. -/
def isControl (c : Char) : Bool := c.toNat < 32 || (127 ≤ c.toNat && c.toNat < 160)

def computeUserId (issuer : String) (sub issuerPrefix : Option String) : Except JwtError String :=
  match sub with
  | none => .error (.invalidClaim "missing sub claim")
  | some sub =>
    if sub.isEmpty then .error (.invalidClaim "empty sub claim")
    else if sub.utf8ByteSize > 256 then .error (.invalidClaim "sub claim too long")
    else if sub.toList.contains ':' then
      .error (.invalidClaim "sub claim contains invalid character ':'")
    else if sub.toList.any isControl then
      .error (.invalidClaim "sub claim contains control characters")
    else .ok (issuerPrefix.getD (extractDomain issuer) ++ ":" ++ sub)

/-! ## The provider -/

structure JwtIssuerConfig where
  issuer : String
  audience : Option String := none
  clockSkewSecs : UInt64 := 60
  sessionScopedRoles : Bool := true
  issuerPrefix : Option String := none
  enabled : Bool := true

structure JwtClaims where
  sub : Option String
  iss : Option String
  aud : Option String := none
  exp : Option UInt64
  nbf : Option UInt64 := none

def JwtClaims.issuer (claims : JwtClaims) : String := claims.iss.getD ""

structure Environment where
  /-- The claims of a token that is UTF-8, has three parts and valid JSON. -/
  parse : Bytes → Except JwtError JwtClaims
  /-- The signature under the keys of the issuer. -/
  verify : Bytes → String → Except JwtError Bool
  extractRoles : JwtClaims → JwtIssuerConfig → Finset String

/-- The map of `FederatedJwtAuthProvider::new`: the last enabled configuration of an issuer. -/
def issuerMap (configs : List JwtIssuerConfig) : Table String JwtIssuerConfig :=
  configs.foldl (fun issuers config =>
    if config.enabled then issuers.insert config.issuer config else issuers) ∅

variable (env : Environment) (issuers : Table String JwtIssuerConfig) (clockSkewSecs now : UInt64)

def verifyJwt (token : Bytes) : Except JwtError (JwtClaims × JwtIssuerConfig) := do
  let claims ← env.parse token
  match issuers.lookup claims.issuer with
  | none => .error (.unknownIssuer claims.issuer)
  | some config =>
    if !(← env.verify token claims.issuer) then .error .invalidSignature
    let skew := max config.clockSkewSecs clockSkewSecs
    match claims.exp with
    | none => .error (.missingClaim "exp")
    | some exp =>
      if now > exp + skew then .error .expired
      if claims.nbf.any fun nbf => now + skew < nbf then .error .notYetValid
      if config.audience.any fun required => claims.aud ≠ some required then
        .error (.invalidClaim "audience mismatch")
      .ok (claims, config)

inductive Refusal where
  | badAuthenticationMethod
  | noToken
  | token (error : JwtError)

/-- `authenticate_enhanced`: the user id, and the role entries it leaves. -/
def authenticateEnhanced (entries : Table String FederatedRoleEntry) (method : String)
    (authData : Option Bytes) : Except Refusal (String × Table String FederatedRoleEntry) :=
  if method ≠ "JWT" then .error .badAuthenticationMethod
  else match authData with
    | none => .error .noToken
    | some token =>
      match verifyJwt env issuers clockSkewSecs now token with
      | .error error => .error (.token error)
      | .ok (claims, config) =>
        match computeUserId claims.issuer claims.sub config.issuerPrefix with
        | .error error => .error (.token error)
        | .ok userId =>
          .ok (userId, entries.insert userId ⟨env.extractRoles claims config,
            config.sessionScopedRoles⟩)

/-- What stands before the subject in the user ids of an issuer. -/
def userPrefix (issuer : String) : String :=
  ((issuers.lookup issuer).bind (·.issuerPrefix)).getD (extractDomain issuer)

/-! ## What a user id names -/

theorem append_colon_inj {p p' s s' : String} (hs : ':' ∉ s.toList) (hs' : ':' ∉ s'.toList) :
    p ++ ":" ++ s = p' ++ ":" ++ s' ↔ p = p' ∧ s = s' := by
  constructor
  · intro h
    have hlist : p.toList ++ ':' :: s.toList = p'.toList ++ ':' :: s'.toList := by
      simpa using congrArg String.toList h
    -- the part of one prefix that the other lacks would put a colon into a subject
    rcases append_eq_append_iff.mp hlist with ⟨more, hp, hrest⟩ | ⟨more, hp, hrest⟩
    · cases more with
      | nil => exact ⟨String.toList_inj.mp (by simpa using hp.symm), String.toList_inj.mp (by
          simpa using hrest)⟩
      | cons c more =>
        rw [cons_append, cons.injEq] at hrest
        exact absurd (by rw [hrest.2]; simp) hs
    · cases more with
      | nil => exact ⟨String.toList_inj.mp (by simpa using hp), String.toList_inj.mp (by
          simpa using hrest.symm)⟩
      | cons c more =>
        rw [cons_append, cons.injEq] at hrest
        exact absurd (by rw [hrest.2]; simp) hs'
  · rintro ⟨rfl, rfl⟩
    rfl

variable {env issuers clockSkewSecs now} {token : Bytes} {claims : JwtClaims} {userId : String}
  {config : JwtIssuerConfig} {entries entries' : Table String FederatedRoleEntry}

theorem computeUserId_eq_ok {issuer : String} {sub issuerPrefix : Option String}
    (h : computeUserId issuer sub issuerPrefix = .ok userId) : ∃ subject, sub = some subject ∧
      ':' ∉ subject.toList ∧
        userId = issuerPrefix.getD (extractDomain issuer) ++ ":" ++ subject := by
  unfold computeUserId at h
  split at h
  · cases h
  rename_i subject
  split_ifs at h with _ _ hcolon
  exact ⟨subject, rfl, by simpa using hcolon, (Except.ok.inj h).symm⟩

/-- Only the configuration of the token's issuer accepts it. -/
theorem lookup_of_verifyJwt (hparse : env.parse token = .ok claims) {claims' : JwtClaims}
    (h : verifyJwt env issuers clockSkewSecs now token = .ok (claims', config)) :
    claims' = claims ∧ issuers.lookup claims.issuer = some config := by
  unfold verifyJwt at h
  rw [hparse] at h
  dsimp only [bind, Except.bind] at h
  split at h
  · cases h
  rename_i hlook
  split at h
  · cases h
  split at h
  · cases h
  split at h
  · cases h
  split_ifs at h
  obtain ⟨rfl, rfl⟩ := Prod.mk.inj (Except.ok.inj h)
  exact ⟨rfl, hlook⟩

/-- What an accepted token gives: the user id, and one role entry, which is that user's. -/
theorem accepted {method : String} (hparse : env.parse token = .ok claims)
    (h : authenticateEnhanced env issuers clockSkewSecs now entries method (some token) =
      .ok (userId, entries')) :
    ∃ subject entry, claims.sub = some subject ∧ ':' ∉ subject.toList ∧
      userId = userPrefix issuers claims.issuer ++ ":" ++ subject ∧
      entries' = entries.insert userId entry := by
  unfold authenticateEnhanced at h
  split at h
  · cases h
  dsimp only at h
  split at h
  · cases h
  rename_i hverify
  obtain ⟨rfl, hlook⟩ := lookup_of_verifyJwt hparse hverify
  split at h
  · cases h
  rename_i hid
  obtain ⟨subject, hsub, hcolon, rfl⟩ := computeUserId_eq_ok hid
  obtain ⟨rfl, rfl⟩ := Prod.mk.inj (Except.ok.inj h)
  refine ⟨subject, _, hsub, hcolon, ?_, rfl⟩
  rw [userPrefix, hlook]
  rfl

/-- Two accepted tokens, whenever they come, have one user id exactly if their issuers have one
prefix and they have one subject; a token changes the roles of no other user id. -/
theorem same_user_iff {env env' : Environment} {configs : List JwtIssuerConfig}
    {clockSkewSecs now now' : UInt64}
    {first first' second second' : Table String FederatedRoleEntry}
    {method method' : String} {token token' : Bytes} {claims claims' : JwtClaims}
    {userId userId' : String} (hparse : env.parse token = .ok claims)
    (hparse' : env'.parse token' = .ok claims')
    (h : authenticateEnhanced env (issuerMap configs) clockSkewSecs now first method (some token) =
      .ok (userId, first'))
    (h' : authenticateEnhanced env' (issuerMap configs) clockSkewSecs now' second method'
      (some token') = .ok (userId', second')) :
    (userId = userId' ↔ userPrefix (issuerMap configs) claims.issuer =
      userPrefix (issuerMap configs) claims'.issuer ∧ claims.sub = claims'.sub) ∧
    (userId ≠ userId' → second'.lookup userId = second.lookup userId) := by
  obtain ⟨_, _, hsub, hcolon, rfl, -⟩ := accepted hparse h
  obtain ⟨_, _, hsub', hcolon', rfl, rfl⟩ := accepted hparse' h'
  refine ⟨?_, Finmap.lookup_insert_of_ne second⟩
  rw [append_colon_inj hcolon hcolon', hsub, hsub', Option.some.injEq]

/-! ## Two issuers on one host -/

def tenants : List JwtIssuerConfig := [{ issuer := "https://id/a" }, { issuer := "https://id/b" }]

/-- A token for user `u` of the first tenant or, if it is not empty, of the second. -/
def tenantClaims (token : Bytes) : JwtClaims where
  iss := some (if token.isEmpty then "https://id/a" else "https://id/b")
  sub := some "u"
  exp := some 9

def signed : Environment :=
  ⟨fun token => .ok (tenantClaims token), fun _ _ => .ok true, fun _ _ => ∅⟩

theorem tenants_accepted (entries : Table String FederatedRoleEntry) :
    authenticateEnhanced signed (issuerMap tenants) 0 1 entries "JWT" (some []) =
      .ok ("id:u", entries.insert "id:u" ⟨∅, true⟩) ∧
    authenticateEnhanced signed (issuerMap tenants) 0 1 entries "JWT" (some [0]) =
      .ok ("id:u", entries.insert "id:u" ⟨∅, true⟩) :=
  ⟨rfl, rfl⟩

theorem same_user_iff_tenants : "id:u" = "id:u" ↔
    userPrefix (issuerMap tenants) (tenantClaims []).issuer =
      userPrefix (issuerMap tenants) (tenantClaims [0]).issuer ∧
      (tenantClaims []).sub = (tenantClaims [0]).sub :=
  (same_user_iff rfl rfl (tenants_accepted ∅).1 (tenants_accepted ∅).2).1

/-- Tokens of two issuers are accepted as one user. -/
theorem tenants_share_user : (tenantClaims []).issuer ≠ (tenantClaims [0]).issuer ∧
    ∃ user entries entries',
      authenticateEnhanced signed (issuerMap tenants) 0 1 ∅ "JWT" (some []) = .ok (user, entries) ∧
      authenticateEnhanced signed (issuerMap tenants) 0 1 entries "JWT" (some [0]) =
        .ok (user, entries') :=
  ⟨by decide, _, _, _, (tenants_accepted ∅).1, (tenants_accepted _).2⟩

end MqttLib.Acl.FederatedIdentity
