/-
MqttLib.Broker.Identity

The user of a connection in the course of its life.  The user is written by the
authentication of the CONNECT packet, by the exchange of AUTH packets that follows it, and
by every re-authentication; the user of the session is checked and written once, when the
session is claimed.
-/

import MqttLib.Broker.Claim

namespace MqttLib.Broker

open Foundation Protocol Storage List

/-- An AUTH packet with what the provider answers, if it is asked. -/
abbrev AuthEvent := AuthPacket × Except MqttError EnhancedAuthResult

namespace Authenticator

/-- The handler of a connection whose CONNACK has been sent. -/
def served (h : Authenticator) (pending : PendingConnect) : Authenticator :=
  { h with clientId := some pending.connect.clientId }

/-- The AUTH packets that are handled, each with the handler before it; the first error is the
last of them. -/
def steps (h : Authenticator) : List AuthEvent → List (Authenticator × AuthEvent)
  | [] => []
  | (auth, answer) :: rest =>
    let handled := h.handleAuth auth answer
    (h, auth, answer) :: match handled.error with
      | none => handled.handler.steps rest
      | some _ => []

/-- The handler at every moment: before the AUTH packets and after each that is handled. -/
def moments (h : Authenticator) (events : List AuthEvent) : List Authenticator :=
  h :: (h.steps events).map fun (h, auth, answer) => (h.handleAuth auth answer).handler

/-- Whether the provider is asked about an AUTH packet. -/
def asksProvider (h : Authenticator) (auth : AuthPacket) : Bool :=
  h.clientId.isSome &&
    (auth.authenticationMethod.any fun method => h.authMethod.all fun expected =>
      method == expected) &&
    (auth.reasonCode == .continueAuthentication ||
      (auth.reasonCode == .reAuthenticate && h.authState == .completed))

/-- The user the provider names, if it is asked and the authentication succeeds. -/
def namedUser (h : Authenticator) : AuthEvent → Option (Option String)
  | (auth, .ok result) =>
    if h.asksProvider auth && result.status == .success then some result.userId else none
  | (_, .error _) => none

/-- A successful authentication is that of the user the connection already has. -/
def KeepsUser (h : Authenticator) (event : AuthEvent) : Prop :=
  ∀ user, h.namedUser event = some user → user = h.userId

variable {h : Authenticator} {auth : AuthPacket} {answer : Except MqttError EnhancedAuthResult}

theorem handleContinueAuth_userId : (h.handleContinueAuth answer).handler.userId =
    match answer with
    | .ok result => if result.status == .success then result.userId else h.userId
    | .error _ => h.userId := by
  unfold handleContinueAuth
  cases answer with
  | error error => rfl
  | ok result =>
    cases hstatus : result.status with
    | success =>
      dsimp only
      rw [hstatus]
      cases h.pendingConnect <;> rfl
    | continuing | failed =>
      dsimp only
      rw [hstatus]
      rfl

theorem handleReauthenticate_userId (hstate : h.authState = .completed) :
    (h.handleReauthenticate answer).handler.userId =
      match answer with
      | .ok result => if result.status == .success then result.userId else h.userId
      | .error _ => h.userId := by
  unfold handleReauthenticate
  rw [if_neg fun hne => hne hstate]
  cases answer with
  | error error => rfl
  | ok result =>
    cases hstatus : result.status <;> dsimp only <;> rw [hstatus] <;> rfl

/-- The user changes only to one the provider names. -/
theorem handleAuth_userId (h : Authenticator) (event : AuthEvent) :
    (h.handleAuth event.1 event.2).handler.userId = (h.namedUser event).getD h.userId := by
  obtain ⟨auth, answer⟩ := event
  have hnamed : (h.namedUser (auth, answer)).getD h.userId =
      if h.asksProvider auth then
        match answer with
        | .ok result => if result.status == .success then result.userId else h.userId
        | .error _ => h.userId
      else h.userId := by
    unfold namedUser
    cases answer with
    | error error => simp
    | ok result =>
      cases hasks : h.asksProvider auth <;> cases hstatus : result.status == .success <;>
        simp [hasks, hstatus]
  rw [hnamed]
  unfold handleAuth asksProvider
  cases hcl : h.clientId with
  | none => simp [failing]
  | some clientId =>
    cases hmethod : auth.authenticationMethod with
    | none => simp [failing]
    | some method =>
      by_cases hexp : (h.authMethod.any fun expected => method != expected) = true
      · have hall : (h.authMethod.all fun expected => method == expected) = false := by
          cases hm : h.authMethod with
          | none => rw [hm] at hexp; cases hexp
          | some expected => rw [hm] at hexp; simpa using hexp
        simp [hexp, hall]
      · have hall : (h.authMethod.all fun expected => method == expected) := by
          cases hm : h.authMethod with
          | none => rfl
          | some expected => rw [hm] at hexp; simpa using hexp
        dsimp only
        rw [if_neg hexp]
        simp only [Option.isSome_some, Option.any_some, hall, Bool.true_and]
        split
        · rename_i hcode
          rw [hcode]
          exact handleContinueAuth_userId
        · rename_i hcode
          rw [hcode]
          by_cases hstate : h.authState = .completed
          · rw [hstate]
            exact handleReauthenticate_userId hstate
          · simp [hstate, handleReauthenticate, failing]
        · rename_i hcontinue hreauth
          rw [if_neg]
          rw [Bool.or_eq_true, Bool.and_eq_true, beq_iff_eq, beq_iff_eq]
          exact fun hcode => hcode.elim hcontinue fun hcode => hreauth hcode.1

theorem keepsUser_iff {event : AuthEvent} :
    h.KeepsUser event ↔ (h.handleAuth event.1 event.2).handler.userId = h.userId := by
  rw [handleAuth_userId]
  unfold KeepsUser
  cases h.namedUser event with
  | none => simp
  | some _ => simp

/-- The user stays the same as long as every step keeps it, and no longer. -/
theorem userId_moments (h : Authenticator) (events : List AuthEvent) :
    (∀ h' ∈ h.moments events, h'.userId = h.userId) ↔
      ∀ step ∈ h.steps events, step.1.KeepsUser step.2 := by
  induction events generalizing h with
  | nil => simp [moments, steps]
  | cons event rest ih =>
    obtain ⟨auth, answer⟩ := event
    unfold moments steps
    simp only [map_cons, mem_cons, forall_eq_or_imp, true_and]
    rw [keepsUser_iff]
    dsimp only
    cases herror : (h.handleAuth auth answer).error with
    | some error => simp
    | none =>
      -- the rest is handled by the handler after the step, which has the same user
      refine and_congr_right fun hsame => ?_
      rw [← ih (h.handleAuth auth answer).handler, hsame]
      unfold moments
      simp only [mem_cons, forall_eq_or_imp, hsame, true_and]

end Authenticator

namespace BrokerState

variable {settings : BrokerSettings} {b b' : BrokerState} {c : Circumstances} {claim : Claim}

/-- A claimed session is one of the user that claims it. -/
theorem userId_of_connected {handler : Authenticator} {pending : PendingConnect}
    (h : b.completeConnect settings c (.accepted handler pending) = (b', .connected claim)) :
    claim.session.userId = handler.userId := by
  dsimp only [completeConnect] at h
  split at h
  · rename_i hwill
    obtain rfl := (Prod.mk.inj h).2
    unfold validateWillCapabilities at hwill
    split at hwill
    · cases hwill
    split at hwill
    · cases hwill
    split at hwill
    · cases hwill
    split at hwill
    · dsimp only at hwill
      split at hwill <;> cases hwill
    · cases hwill
  · unfold handleSession at h
    split at h
    · cases (Prod.mk.inj h).2
    · dsimp only at h
      split at h
      · cases (Prod.mk.inj h).2
      · rw [← Ending.connected.inj (Prod.mk.inj h).2]
        rfl

/-- At every moment after the CONNACK the user of the connection is the user of its session if
and only if every AUTH packet by which it authenticates again names the user it has. -/
theorem identity_fixed {env : Surroundings} {provider : AuthProvider} {connect : ConnectPacket}
    {exchange : List AuthEvent} {handler : Authenticator} {pending : PendingConnect}
    (hnegotiated : negotiateConnect env provider connect exchange = .accepted handler pending)
    (hconnected : connectClient settings env provider b c connect exchange = (b', .connected claim))
    (events : List AuthEvent) :
    (∀ h ∈ (handler.served pending).moments events, h.userId = claim.session.userId) ↔
      ∀ step ∈ (handler.served pending).steps events, step.1.KeepsUser step.2 := by
  unfold connectClient at hconnected
  rw [hnegotiated] at hconnected
  rw [userId_of_connected hconnected]
  exact (handler.served pending).userId_moments events

/-! ## A token of another user -/

def tokenConnect : ConnectPacket where
  protocolVersion := 5
  cleanStart := true
  keepAlive := 60
  clientId := "c"
  properties := Properties.push ∅ .authenticationMethod (.utf8String "JWT")

/-- A provider that takes any token for one of the user `alice`. -/
def tokenProvider : AuthProvider where
  authenticate _ := .ok (.fail .notAuthorized)
  authenticateEnhanced := some fun method _ _ =>
    .ok { status := .success, authMethod := method, userId := some "alice" }

def quietly : Circumstances where
  now := 0
  later := 0
  order := fun _ => []

/-- A re-authentication with a token of a user. -/
def reauthentication (user : String) : AuthEvent :=
  (.withMethod .reAuthenticate "JWT" (some [1]),
    .ok { status := .success, authMethod := "JWT", userId := some user })

/-- With another token of the same user the connection stays that of its session. -/
theorem identity_fixed_same_user :
    ∃ b' claim handler pending,
      negotiateConnect ⟨.tcp, fun _ => none, none⟩ tokenProvider tokenConnect [] =
        .accepted handler pending ∧
      connectClient {} ⟨.tcp, fun _ => none, none⟩ tokenProvider { sessions := some ∅ } quietly
        tokenConnect [] = (b', .connected claim) ∧
      ∀ h ∈ (handler.served pending).moments [reauthentication "alice"],
        h.userId = claim.session.userId := by
  have hnegotiated : negotiateConnect ⟨.tcp, fun _ => none, none⟩ tokenProvider tokenConnect [] =
    .accepted _ _ := rfl
  have hconnected : connectClient {} ⟨.tcp, fun _ => none, none⟩ tokenProvider
      { sessions := some ∅ }
    quietly tokenConnect [] = (_, .connected _) := rfl
  refine ⟨_, _, _, _, hnegotiated, hconnected,
    (identity_fixed hnegotiated hconnected [reauthentication "alice"]).mpr ?_⟩
  intro _ hstep _ huser
  obtain rfl := mem_singleton.mp hstep
  cases huser
  rfl

/-- With a token of another user the connection is that user's and keeps the session. -/
theorem identity_changed :
    ∃ b' claim handler pending,
      negotiateConnect ⟨.tcp, fun _ => none, none⟩ tokenProvider tokenConnect [] =
        .accepted handler pending ∧
      connectClient {} ⟨.tcp, fun _ => none, none⟩ tokenProvider { sessions := some ∅ } quietly
        tokenConnect [] = (b', .connected claim) ∧
      claim.session.userId = some "alice" ∧
      ∃ h ∈ (handler.served pending).moments [reauthentication "bob"], h.userId = some "bob" := by
  refine ⟨_, _, _, _, rfl, rfl, rfl, ?_⟩
  refine ⟨_, mem_cons_of_mem _ mem_cons_self, rfl⟩

end BrokerState

end MqttLib.Broker
