/-
MqttLib.Broker.Certificate

Certificate logins.  A connection is authenticated as the user of the fingerprint its
client identifier names, whatever certificate the peer has presented.
-/

import MqttLib.Broker.Connect
import MqttLib.Foundation.Fallible

namespace MqttLib.Broker

open Foundation Protocol ClientHandler List

section

variable {env : Surroundings} {authenticate : ConnectPacket → AuthResult}
  {connect : ConnectPacket} {accepted : Accepted}

/-- A CONNECT is accepted if every stage lets it through. -/
theorem handleConnect_eq_ok_iff :
    handleConnect env authenticate connect = .ok accepted ↔
      validateProtocolVersion connect.protocolVersion = .ok () ∧
      assignClientIdIfEmpty env connect = .ok (accepted.connect, accepted.assignedClientId) ∧
      checkLoadBalancerRedirect env accepted.connect = .ok () ∧
      checkMaximumPacketSize accepted.connect = .ok () ∧
      validateClientId env accepted.connect = .ok () ∧
      handleAuthentication authenticate accepted.connect = .ok accepted.userId := by
  unfold handleConnect
  constructor
  · intro h
    obtain ⟨_, hver, h⟩ := bind_eq_ok.mp h
    obtain ⟨⟨_, _⟩, hassign, h⟩ := bind_eq_ok.mp h
    obtain ⟨_, hbackend, h⟩ := bind_eq_ok.mp h
    obtain ⟨_, hsize, h⟩ := bind_eq_ok.mp h
    obtain ⟨_, hid, h⟩ := bind_eq_ok.mp h
    obtain ⟨userId, hauth, h⟩ := bind_eq_ok.mp h
    cases h
    exact ⟨hver, hassign, hbackend, hsize, hid, hauth⟩
  · rintro ⟨hver, hassign, hbackend, hsize, hid, hauth⟩
    refine bind_eq_ok.mpr ⟨(), hver, bind_eq_ok.mpr ⟨_, hassign, ?_⟩⟩
    refine bind_eq_ok.mpr ⟨(), hbackend, bind_eq_ok.mpr ⟨(), hsize, ?_⟩⟩
    exact bind_eq_ok.mpr ⟨(), hid, bind_eq_ok.mpr ⟨_, hauth, rfl⟩⟩

/-! ### What lets a CONNECT through each stage -/

theorem validateProtocolVersion_eq_ok {protocolVersion : UInt8} :
    validateProtocolVersion protocolVersion = .ok () ↔
      protocolVersion = 4 ∨ protocolVersion = 5 := by
  unfold validateProtocolVersion
  split <;> simp_all

theorem checkLoadBalancerRedirect_eq_ok :
    checkLoadBalancerRedirect env connect = .ok () ↔
      env.selectBackend connect.clientId = none := by
  unfold checkLoadBalancerRedirect
  cases env.selectBackend connect.clientId with
  | none => simp
  | some _ =>
    dsimp only
    split <;> simp

theorem checkMaximumPacketSize_eq_ok :
    checkMaximumPacketSize connect = .ok () ↔
      connect.properties.getMaximumPacketSize ≠ some 0 := by
  unfold checkMaximumPacketSize
  split <;> simp_all

theorem validateClientId_eq_ok :
    validateClientId env connect = .ok () ↔
      isPathSafeClientId connect.clientId ∧
        ("cert:".toList.isPrefixOf connect.clientId.toList →
          env.transport.clientCertInfo ≠ none) := by
  unfold validateClientId
  cases isPathSafeClientId connect.clientId with
  | false => simp
  | true =>
    cases "cert:".toList.isPrefixOf connect.clientId.toList <;>
      cases env.transport.clientCertInfo <;> simp

theorem handleAuthentication_eq_ok {userId : Option String} :
    handleAuthentication authenticate connect = .ok userId ↔
      connect.properties.getAuthenticationMethod = none ∧
        (authenticate connect).authenticated ∧ (authenticate connect).userId = userId := by
  unfold handleAuthentication
  cases connect.properties.getAuthenticationMethod with
  | some _ => simp
  | none => cases hauth : (authenticate connect).authenticated <;> simp [hauth]

end

/-! ## Fingerprints in client identifiers -/

/-- The client identifier is `cert:` and 64 hexadecimal digits of this fingerprint. -/
def NamesFingerprint (clientId fingerprint : String) : Prop :=
  ∃ rest : List Char, clientId.toList = "cert:".toList ++ rest ∧
    (String.ofList rest).utf8ByteSize = 64 ∧ rest.all isAsciiHexdigit = true ∧
    fingerprint = (String.ofList rest).toLower

/-- The handler lets the CONNECT through to the provider. -/
structure Admitted (env : Surroundings) (connect : ConnectPacket) : Prop where
  version : connect.protocolVersion = 4 ∨ connect.protocolVersion = 5
  backend : env.selectBackend connect.clientId = none
  packetSize : connect.properties.getMaximumPacketSize ≠ some 0
  certificate : env.transport.clientCertInfo ≠ none
  method : connect.properties.getAuthenticationMethod = none

section

variable {provider : CertificateAuthProvider} {env : Surroundings} {connect : ConnectPacket}
  {user : String}

theorem authenticate_eq_success_iff :
    provider.authenticate connect = .successWithUser user ↔
      ∃ fingerprint, NamesFingerprint connect.clientId fingerprint ∧
        provider.allowedCerts.lookup fingerprint = some user := by
  unfold CertificateAuthProvider.authenticate
  constructor
  · intro h
    split at h
    · rename_i rest hstart
      obtain ⟨pre, hlist, hpre⟩ := dropPrefix?_eq_some_iff.mp hstart
      obtain rfl : pre = "cert:".toList := by simpa using hpre
      dsimp only at h
      split at h
      · cases h
      rename_i hdigits
      have hboth : (String.ofList rest).utf8ByteSize = 64 ∧ rest.all isAsciiHexdigit := by
        simpa using hdigits
      split at h
      · rename_i username hlook
        obtain rfl : username = user := by
          simpa [AuthResult.successWithUser] using h
        exact ⟨_, ⟨rest, hlist, hboth.1, hboth.2, rfl⟩, hlook⟩
      · cases h
    · cases h
  · rintro ⟨fingerprint, ⟨rest, hlist, hlen, hdigits, rfl⟩, hlook⟩
    have hstart : connect.clientId.toList.dropPrefix? "cert:".toList = some rest :=
      dropPrefix?_eq_some_iff.mpr ⟨_, hlist, by simp⟩
    rw [hstart]
    simp only [hlen, hdigits, hlook]
    rfl

/-- A provider that authenticates does so with a user. -/
theorem authenticate_cases (provider : CertificateAuthProvider) (connect : ConnectPacket) :
    (∃ user, provider.authenticate connect = .successWithUser user) ∨
      ∃ reasonCode, provider.authenticate connect = .fail reasonCode := by
  unfold CertificateAuthProvider.authenticate
  split
  · dsimp only
    split
    · exact .inr ⟨_, rfl⟩
    split
    · exact .inl ⟨_, rfl⟩
    · exact .inr ⟨_, rfl⟩
  · exact .inr ⟨_, rfl⟩

theorem toNat_of_isAsciiHexdigit {c : Char} (h : isAsciiHexdigit c) :
    48 ≤ c.toNat ∧ c.toNat ≤ 102 := by
  have hcases : (48 ≤ c.toNat ∧ c.toNat ≤ 57) ∨ (97 ≤ c.toNat ∧ c.toNat ≤ 102) ∨
      (65 ≤ c.toNat ∧ c.toNat ≤ 70) := by
    simpa [isAsciiHexdigit, Char.le_def, UInt32.le_iff_toNat_le, or_assoc] using h
  omega

/-- An identifier that names a fingerprint is safe in a path. -/
theorem isPathSafe_of_namesFingerprint {clientId fingerprint : String}
    (h : NamesFingerprint clientId fingerprint) : isPathSafeClientId clientId := by
  obtain ⟨rest, hlist, hlen, hdigits, -⟩ := h
  have hid : clientId = "cert:" ++ String.ofList rest := by
    rw [← String.toList_inj, hlist, String.toList_append, String.toList_ofList (l := rest)]
  have hsize : clientId.utf8ByteSize = 69 := by
    rw [hid, String.utf8ByteSize_append, hlen]
    rfl
  -- every character is one of the prefix or a digit
  have hchars : ∀ c ∈ clientId.toList, c ∈ "cert:".toList ∨ isAsciiHexdigit c := by
    intro c hc
    rw [hlist, mem_append] at hc
    exact hc.imp_right (all_eq_true.mp hdigits c)
  have hcontains : ∀ c, c ∉ "cert:".toList → isAsciiHexdigit c = false →
      clientId.toList.contains c = false := by
    intro c hstart hdigit
    by_contra hmem
    rcases hchars c (by simpa using hmem) with hc | hc
    · exact hstart hc
    · rw [hdigit] at hc
      cases hc
  have hdot : ∀ text : String, text.toList.head? ≠ some 'c' → clientId ≠ text := by
    rintro text hhead rfl
    exact hhead (by rw [hlist]; rfl)
  have hup : "../".toList.isPrefixOf clientId.toList = false := by
    rw [hlist]
    rfl
  have hcontrol : (clientId.toList.all fun c => !isAsciiControl c) := by
    rw [all_eq_true]
    intro c hc
    have hrange : 48 ≤ c.toNat ∧ c.toNat ≤ 116 := by
      rcases hchars c hc with hstart | hdigit
      · have hall : ['c', 'e', 'r', 't', ':'].Forall fun c => 48 ≤ c.toNat ∧ c.toNat ≤ 116 := by
          simp
        exact forall_iff_forall_mem.mp hall c hstart
      · have hbounds := toNat_of_isAsciiHexdigit hdigit
        omega
    have h32 : ¬ c.toNat < 32 := by omega
    have h127 : c.toNat ≠ 127 := by omega
    simp [isAsciiControl, h32, h127]
  unfold isPathSafeClientId
  rw [hcontains '/' (by decide) (by decide), hcontains '\\' (by decide) (by decide),
    hcontains (Char.ofNat 0) (by decide) (by decide), hup, hcontrol, hsize]
  simp [maxClientIdLength, hdot "." (by decide), hdot ".." (by decide)]

/-! ## Logins -/

/-- The broker authenticates the connection as the user. -/
def AuthenticatedAs (env : Surroundings) (provider : CertificateAuthProvider)
    (connect : ConnectPacket) (user : String) : Prop :=
  ∃ accepted, handleConnect env provider.authenticate connect = .ok accepted ∧
    accepted.userId = some user

/-- The connection logs in by a fingerprint: as the user the provider has found under it. -/
def LogsInBy (env : Surroundings) (provider : CertificateAuthProvider) (connect : ConnectPacket)
    (fingerprint : String) : Prop :=
  ∃ user, AuthenticatedAs env provider connect user ∧
    NamesFingerprint connect.clientId fingerprint ∧
    provider.allowedCerts.lookup fingerprint = some user

/-- The end-entity certificate the peer has presented on the connection has the fingerprint. -/
def Presents (sha256 : Bytes → Bytes) (env : Surroundings) (fingerprint : String) : Prop :=
  ∃ certificate, env.transport.endEntity = some certificate ∧
    CertificateAuthProvider.calculateFingerprint sha256 certificate = fingerprint

theorem handleConnect_names_iff {fingerprint : String} {accepted : Accepted}
    (hnames : NamesFingerprint connect.clientId fingerprint) :
    handleConnect env provider.authenticate connect = .ok accepted ↔
      Admitted env connect ∧ (provider.authenticate connect).authenticated ∧
        accepted = ⟨connect, none, (provider.authenticate connect).userId⟩ := by
  obtain ⟨_, hlist, -⟩ := id hnames
  have hassign : assignClientIdIfEmpty env connect = .ok (connect, none) := by
    have hnonempty : connect.clientId.isEmpty = false := by
      rw [← Bool.not_eq_true, String.isEmpty_iff]
      intro hemp
      rw [hemp] at hlist
      cases hlist
    simp [assignClientIdIfEmpty, hnonempty]
  have hcert : "cert:".toList.isPrefixOf connect.clientId.toList := by
    rw [hlist]
    rfl
  obtain ⟨_, _, userId⟩ := accepted
  rw [handleConnect_eq_ok_iff, hassign, validateProtocolVersion_eq_ok,
    checkLoadBalancerRedirect_eq_ok, checkMaximumPacketSize_eq_ok, validateClientId_eq_ok,
    handleAuthentication_eq_ok]
  constructor
  · rintro ⟨hver, hsame, hbackend, hsize, ⟨-, hid⟩, hmethod, hauth, huser⟩
    cases hsame
    exact ⟨⟨hver, hbackend, hsize, hid hcert, hmethod⟩, hauth, congrArg _ huser.symm⟩
  · rintro ⟨hadm, hauth, hsame⟩
    cases hsame
    exact ⟨hadm.version, rfl, hadm.backend, hadm.packetSize,
      ⟨isPathSafe_of_namesFingerprint hnames, fun _ => hadm.certificate⟩,
      hadm.method, hauth, rfl⟩

theorem authenticatedAs_iff :
    AuthenticatedAs env provider connect user ↔
      Admitted env connect ∧ ∃ fingerprint, NamesFingerprint connect.clientId fingerprint ∧
        provider.allowedCerts.lookup fingerprint = some user := by
  constructor
  · rintro ⟨accepted, hconnect, huser⟩
    have hstages := handleConnect_eq_ok_iff.mp hconnect
    have hauth := (handleAuthentication_eq_ok.mp hstages.2.2.2.2.2).2
    rcases authenticate_cases provider accepted.connect with ⟨name, hsuccess⟩ | ⟨_, hfail⟩
    · rw [hsuccess, huser] at hauth
      obtain rfl : name = user := Option.some.inj hauth.2
      obtain ⟨fingerprint, hnames, hlook⟩ := authenticate_eq_success_iff.mp hsuccess
      -- an identifier the broker has assigned names no fingerprint
      have hown : accepted.connect = connect := by
        have hassign := hstages.2.1
        unfold assignClientIdIfEmpty at hassign
        split at hassign
        · exact (Prod.mk.inj (Except.ok.inj hassign)).1.symm
        split at hassign
        · cases hassign
        split at hassign
        · cases hassign
        · have hid := congrArg ConnectPacket.clientId (Prod.mk.inj (Except.ok.inj hassign)).1
          rw [← hid] at hnames
          obtain ⟨_, hlist, -⟩ := hnames
          simp [generatedId] at hlist
      rw [hown] at hnames
      exact ⟨((handleConnect_names_iff hnames).mp hconnect).1, fingerprint, hnames, hlook⟩
    · rw [hfail] at hauth
      cases hauth.1
  · rintro ⟨hadm, fingerprint, hnames, hlook⟩
    have hsuccess := authenticate_eq_success_iff.mpr ⟨fingerprint, hnames, hlook⟩
    refine ⟨_, (handleConnect_names_iff hnames).mpr ⟨hadm, ?_, rfl⟩, ?_⟩
    · rw [hsuccess]
      rfl
    · rw [hsuccess]
      rfl

/-- A login proves possession of the certificate just if the connection is not admitted, or
its client identifier names no registered fingerprint but that of the peer's own
certificate. -/
theorem login_proves_possession_iff (sha256 : Bytes → Bytes) (env : Surroundings)
    (provider : CertificateAuthProvider) (connect : ConnectPacket) :
    (∀ fingerprint, LogsInBy env provider connect fingerprint →
        Presents sha256 env fingerprint) ↔
      (Admitted env connect → ∀ fingerprint, NamesFingerprint connect.clientId fingerprint →
        (∃ user, provider.allowedCerts.lookup fingerprint = some user) →
        Presents sha256 env fingerprint) := by
  constructor
  · rintro h hadmitted fingerprint hnames ⟨user, hlookup⟩
    have hauth := authenticatedAs_iff.mpr ⟨hadmitted, fingerprint, hnames, hlookup⟩
    exact h fingerprint ⟨user, hauth, hnames, hlookup⟩
  · rintro h fingerprint ⟨user, hauth, hnames, hlookup⟩
    have hadmitted := (authenticatedAs_iff.mp hauth).1
    exact h hadmitted fingerprint hnames ⟨user, hlookup⟩

end

/-! ## Another certificate than the one that was shown -/

/-- The fingerprint registered for alice. -/
def aliceFingerprint : String := String.ofList (replicate 64 'a')

def aliceProvider : CertificateAuthProvider :=
  { allowedCerts := Finmap.singleton aliceFingerprint "alice" }

/-- A certificate of somebody else. -/
def otherCertificate : Certificate := [0x30, 0x82, 0x01, 0x0a]

/-- An injective digest that is SHA-256 on that certificate. -/
def otherDigest (bytes : Bytes) : Bytes :=
  if bytes = otherCertificate then
    [58, 221, 224, 27, 45, 229, 78, 136, 121, 64, 72, 213, 81, 187, 152, 107,
      193, 178, 184, 93, 208, 16, 30, 128, 129, 231, 9, 196, 166, 171, 87, 237]
  else 0 :: bytes

theorem otherDigest_injective : Function.Injective otherDigest := by
  intro x y hxy
  unfold otherDigest at hxy
  split at hxy <;> split at hxy <;> simp_all

/-- A TLS connection whose peer has shown that certificate. -/
def otherPeer : Surroundings :=
  { transport := .tls (some [otherCertificate]), random := none }

/-- A CONNECT with alice's fingerprint in the client identifier. -/
def aliceConnect : ConnectPacket :=
  { protocolVersion := 5
    cleanStart := true
    keepAlive := 60
    clientId := "cert:" ++ aliceFingerprint }

/-- The holder of another certificate logs in by alice's fingerprint. -/
theorem other_certificate_logs_in :
    Function.Injective otherDigest ∧
      AuthenticatedAs otherPeer aliceProvider aliceConnect "alice" ∧
      LogsInBy otherPeer aliceProvider aliceConnect aliceFingerprint ∧
      ¬ Presents otherDigest otherPeer aliceFingerprint := by
  have hnames : NamesFingerprint aliceConnect.clientId aliceFingerprint :=
    ⟨replicate 64 'a', by decide +kernel, by decide +kernel, by decide +kernel,
      by decide +kernel⟩
  have hlookup : aliceProvider.allowedCerts.lookup aliceFingerprint = some "alice" :=
    Finmap.lookup_singleton_eq
  have hadmitted : Admitted otherPeer aliceConnect :=
    ⟨.inr rfl, rfl, by decide, by decide, rfl⟩
  have hauth := authenticatedAs_iff.mpr ⟨hadmitted, aliceFingerprint, hnames, hlookup⟩
  refine ⟨otherDigest_injective, hauth, ⟨"alice", hauth, hnames, hlookup⟩, ?_⟩
  rintro ⟨certificate, hpeer, hsame⟩
  obtain rfl : otherCertificate = certificate := Option.some.inj hpeer
  have hdigest : CertificateAuthProvider.calculateFingerprint otherDigest otherCertificate ≠
      aliceFingerprint := by
    decide +kernel
  exact hdigest hsame

end MqttLib.Broker
