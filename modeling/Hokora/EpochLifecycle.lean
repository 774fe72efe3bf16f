import Hokora.EpochCrypto
import Hokora.KeyedTable

/-!
# The epoch manager of one federation link

Rotation, acknowledgement and payloads of one manager, and the row that it is stored in.
-/
namespace Hokora.EpochLifecycle
open BigEndian Constants EpochCrypto EpochWire KeyedTable PyValue

structure RnsIdentity where
  publicKey : Bytes
  sign : Bytes → Bytes
  validate : Bytes → Bytes → Bool

structure EpochManager where
  peerIdentityHash : String
  isInitiator : Bool
  localIdentity : Option RnsIdentity
  peerIdentity : Option RnsIdentity
  epochDuration : ℕ := 3600
  hasDatabase : Bool := false
  currentEpochId : ℕ := 0
  sendKey : Option Bytes := none
  recvKey : Option Bytes := none
  prevRecvKey : Option Bytes := none
  prevEpochId : ℕ := 0
  noncePrefix : Bytes := []
  messageCounter : ℕ := 0
  lastChainHash : Bytes := List.replicate 32 0
  epochStartTime : ℚ := 0
  pendingPrivateKey : Option Bytes := none
  pendingPublicKey : Bytes := []

variable (p : Primitives)

def isActive (m : EpochManager) : Bool := m.sendKey.isSome && m.recvKey.isSome

def rotateSignData (epochId epochDuration : ℕ) (ephPubkey prevEpochHash : Bytes) : Py Bytes := do
  let id ← structPack 8 epochId
  let duration ← structPack 4 epochDuration
  pure (id ++ duration ++ ephPubkey ++ prevEpochHash)

def ackSignData (epochId : ℕ) (ephPubkey prevEpochHash : Bytes) : Py Bytes := do
  let id ← structPack 8 epochId
  pure (id ++ ephPubkey ++ prevEpochHash)

def signWith (identity : Option RnsIdentity) (data : Bytes) : Py Bytes :=
  match identity with
  | some identity => .ok (identity.sign data)
  | none => .error .attributeError

def createEpochRotate (m : EpochManager) (privateKey : Bytes) : Py Bytes × EpochManager :=
  let newEpochId := m.currentEpochId + 1
  let publicBytes := p.publicBytes privateKey
  let m' := { m with pendingPrivateKey := some privateKey, pendingPublicKey := publicBytes }
  let frame : Py Bytes := do
    let signData ← rotateSignData newEpochId m.epochDuration publicBytes m.lastChainHash
    let signature ← signWith m.localIdentity signData
    encodeEpochRotate newEpochId m.epochDuration publicBytes m.lastChainHash signature
  (frame, m')

def activateEpoch (m : EpochManager) (epochId : ℕ) (sendKey recvKey i2rKeyBytes : Bytes)
    (noncePrefix : Bytes) (now : ℚ) : EpochManager :=
  { m with
    prevRecvKey := m.recvKey
    prevEpochId := m.currentEpochId
    currentEpochId := epochId
    sendKey := some sendKey
    recvKey := some recvKey
    noncePrefix := noncePrefix
    messageCounter := 0
    lastChainHash := computeChainHash p (if i2rKeyBytes = [] then sendKey else i2rKeyBytes)
    epochStartTime := now }

def readRotate (m : EpochManager) (data : Bytes) : Py EpochRotate := do
  let parsed ← decodeEpochRotate data
  match m.peerIdentity with
  | none => .error (epochError "Cannot verify EpochRotate: no peer identity available")
  | some peer => do
      let signData ← rotateSignData parsed.epochId parsed.epochDuration parsed.ephPubkey
        parsed.prevEpochHash
      if peer.validate parsed.signature signData then pure parsed
      else .error (epochError "EpochRotate signature verification failed — possible MITM")

def answerKeys (m : EpochManager) (data privateKey : Bytes) : Py (EpochRotate × EpochKeys) := do
  let parsed ← readRotate m data
  if parsed.epochId ≤ m.currentEpochId then
    .error (epochError ("Epoch ID regression: " ++ toString parsed.epochId ++ " <= " ++
      toString m.currentEpochId))
  else if parsed.prevEpochHash ≠ m.lastChainHash then
    .error (epochError "Chain hash mismatch in EpochRotate")
  else do
    let keys ← deriveEpochKeys p privateKey parsed.ephPubkey parsed.epochId false
    pure (parsed, keys)

def buildAck (m : EpochManager) (epochId : ℕ) (publicBytes : Bytes) : Py Bytes := do
  let signData ← ackSignData epochId publicBytes m.lastChainHash
  let signature ← signWith m.localIdentity signData
  encodeEpochRotateAck epochId publicBytes m.lastChainHash signature

def handleEpochRotate (m : EpochManager) (data privateKey noncePrefix : Bytes) (now : ℚ) :
    Py Bytes × EpochManager :=
  match answerKeys p m data privateKey with
  | .error e => (.error e, m)
  | .ok (parsed, keys) =>
    let m' := activateEpoch p m parsed.epochId keys.r2i keys.i2r keys.i2r noncePrefix now
    (buildAck m' parsed.epochId (p.publicBytes privateKey), m')

def readAck (m : EpochManager) (data : Bytes) : Py EpochRotateAck := do
  let parsed ← decodeEpochRotateAck data
  match m.peerIdentity with
  | none => .error (epochError "Cannot verify EpochRotateAck: no peer identity available")
  | some peer => do
      let signData ← ackSignData parsed.epochId parsed.ephPubkey parsed.prevEpochHash
      if peer.validate parsed.signature signData then pure parsed
      else .error (epochError "EpochRotateAck signature verification failed — possible MITM")

def completeKeys (m : EpochManager) (data : Bytes) : Py (EpochRotateAck × EpochKeys) := do
  let parsed ← readAck m data
  match m.pendingPrivateKey with
  | none => .error (epochError "No pending key exchange for EpochRotateAck")
  | some privateKey => do
      let keys ← deriveEpochKeys p privateKey parsed.ephPubkey parsed.epochId true
      pure (parsed, keys)

def handleEpochRotateAck (m : EpochManager) (data noncePrefix : Bytes) (now : ℚ) :
    Py Unit × EpochManager :=
  match completeKeys p m data with
  | .error e => (.error e, m)
  | .ok (parsed, keys) =>
    (.ok (), { activateEpoch p m parsed.epochId keys.i2r keys.r2i keys.i2r noncePrefix now with
      pendingPrivateKey := none
      pendingPublicKey := [] })

def takeNonce (m : EpochManager) : Py (Bytes × EpochManager) :=
  if isActive m = false then .error (epochError "Cannot encrypt: no active epoch")
  else if epochNonceOverflow ≤ m.messageCounter then
    .error (epochError "Nonce counter overflow — emergency rotation required")
  else do
    let nonce ← buildNonce m.noncePrefix m.messageCounter
    pure (nonce, { m with messageCounter := m.messageCounter + 1 })

def encrypt (m : EpochManager) (plaintext : Bytes) : Py Bytes × EpochManager :=
  match takeNonce m with
  | .error e => (.error e, m)
  | .ok (nonce, m') =>
    let frame : Py Bytes := do
      let aad ← structPack 8 m.currentEpochId
      let ciphertext ← encryptPayload p (m.sendKey.getD []) nonce plaintext aad
      encodeEpochData m.currentEpochId nonce ciphertext
    (frame, m')

def usable (key : Option Bytes) : Option Bytes := key.filter fun k => k ≠ []

variable {k data sk : Bytes} {keys : EpochKeys}

lemma usable_eq_some {o : Option Bytes} : usable o = some k ↔ o = some k ∧ k ≠ [] := by
  cases o with
  | none => simp [usable]
  | some b =>
    unfold usable
    simp

lemma usable_some (h : k ≠ []) : usable (some k) = some k :=
  usable_eq_some.mpr ⟨rfl,h⟩

def noKey (epochId : ℕ) : PyError := epochError ("No key for epoch " ++ toString epochId)

def decrypt (m : EpochManager) (data : Bytes) : Py Bytes × EpochManager :=
  match decodeEpochData data with
  | .error e => (.error e, m)
  | .ok parsed =>
    let opened (key : Bytes) : Py Bytes := do
      let aad ← structPack 8 parsed.epochId
      decryptPayload p key parsed.nonce parsed.ciphertext aad
    let previous : Py Bytes × EpochManager :=
      match usable m.prevRecvKey with
      | some key =>
        if parsed.epochId = m.prevEpochId then (opened key, m)
        else (.error (noKey parsed.epochId), m)
      | none => (.error (noKey parsed.epochId), m)
    match usable m.recvKey with
    | some key =>
      if parsed.epochId = m.currentEpochId then
        match opened key with
        | .error e => (.error e, m)
        | .ok plaintext => (.ok plaintext, { m with prevRecvKey := none })
      else previous
    | none => previous

structure FederationEpochState where
  peerIdentityHash : String
  currentEpochId : ℕ
  epochDuration : ℕ
  isInitiator : Bool
  epochStartTime : ℚ
  currentKeySend : Option Bytes
  currentKeyRecv : Option Bytes
  noncePrefix : Option Bytes
  messageCounter : ℕ
  lastChainHash : Bytes

abbrev EpochStates := Table FederationEpochState.peerIdentityHash

def getKek (m : EpochManager) : Option Bytes :=
  m.localIdentity.map fun identity => deriveKek p identity.publicKey

def wrapForStorage (kek : Option Bytes) (nonce : Bytes) (key : Option Bytes) : Py (Option Bytes) :=
  match usable key with
  | none => .ok none
  | some raw =>
    match usable kek with
    | some kek => (wrapKey p kek nonce raw).map some
    | none => .ok (some raw)

def bindCount (n : ℕ) : Py ℕ := if n < 2 ^ 63 then .ok n else .error .overflowError

def stateRow (m : EpochManager) (sendNonce recvNonce : Bytes) : Py FederationEpochState := do
  let kek := getKek p m
  let wrappedSend ← wrapForStorage p kek sendNonce m.sendKey
  let wrappedRecv ← wrapForStorage p kek recvNonce m.recvKey
  let currentEpochId ← bindCount m.currentEpochId
  let epochDuration ← bindCount m.epochDuration
  let messageCounter ← bindCount m.messageCounter
  pure { peerIdentityHash := m.peerIdentityHash
         currentEpochId := currentEpochId
         epochDuration := epochDuration
         isInitiator := m.isInitiator
         epochStartTime := m.epochStartTime
         currentKeySend := wrappedSend
         currentKeyRecv := wrappedRecv
         noncePrefix := usable (some m.noncePrefix)
         messageCounter := messageCounter
         lastChainHash := m.lastChainHash }

def persistState (m : EpochManager) (states : EpochStates) (sendNonce recvNonce : Bytes)
    (reachable : Bool) : EpochStates :=
  if m.hasDatabase && reachable then
    match stateRow p m sendNonce recvNonce with
    | .ok row => states.set row
    | .error _ => states
  else states

def restoreKey (kek stored old : Option Bytes) : Option Bytes :=
  match usable stored with
  | none => old
  | some wrapped =>
    match usable kek with
    | some kek => (unwrapKey p kek wrapped).toOption
    | none => some wrapped

def restore (m : EpochManager) (row : FederationEpochState) : EpochManager :=
  let kek := getKek p m
  { m with
    currentEpochId := row.currentEpochId
    epochDuration := row.epochDuration
    isInitiator := row.isInitiator
    epochStartTime := row.epochStartTime
    sendKey := restoreKey p kek row.currentKeySend m.sendKey
    recvKey := restoreKey p kek row.currentKeyRecv m.recvKey
    noncePrefix := row.noncePrefix.getD []
    messageCounter := row.messageCounter
    lastChainHash := if row.lastChainHash = [] then List.replicate 32 0 else row.lastChainHash }

def storedState (m : EpochManager) (states : EpochStates) (reachable : Bool) :
    Option FederationEpochState :=
  if m.hasDatabase && reachable then states.get? m.peerIdentityHash else none

def loadState (m : EpochManager) (states : EpochStates) (reachable : Bool) : EpochManager :=
  match storedState m states reachable with
  | some row => restore p m row
  | none => m

def renew (m : EpochManager) : EpochManager :=
  { peerIdentityHash := m.peerIdentityHash
    isInitiator := m.isInitiator
    localIdentity := m.localIdentity
    peerIdentity := m.peerIdentity
    epochDuration := m.epochDuration
    hasDatabase := m.hasDatabase }

variable {p} {m : EpochManager}

lemma answerKeys_ok {parsed : EpochRotate} (h : answerKeys p m data sk = .ok (parsed, keys)) :
    decodeEpochRotate data = .ok parsed ∧ m.currentEpochId < parsed.epochId ∧
      deriveEpochKeys p sk parsed.ephPubkey parsed.epochId false = .ok keys := by
  obtain ⟨r,hr,h⟩ := bind_ok h
  split_ifs at h with hid hh
  obtain ⟨k,hk,h⟩ := bind_ok h
  cases h
  refine ⟨?_,by omega,hk⟩
  obtain ⟨q,hq,hr⟩ := bind_ok hr
  split at hr
  · cases hr
  obtain ⟨d,-,hr⟩ := bind_ok hr
  split_ifs at hr
  cases hr
  exact hq

lemma completeKeys_ok {parsed : EpochRotateAck} (h : completeKeys p m data = .ok (parsed, keys)) :
    readAck m data = .ok parsed ∧ ∃ sk, m.pendingPrivateKey = some sk ∧
      deriveEpochKeys p sk parsed.ephPubkey parsed.epochId true = .ok keys := by
  obtain ⟨r,hr,h⟩ := bind_ok h
  split at h
  · cases h
  next sk hp =>
    obtain ⟨k,hk,h⟩ := bind_ok h
    cases h
    exact ⟨hr,sk,hp,hk⟩

lemma handleEpochRotate_cases (m : EpochManager) (data sk np : Bytes) (now : ℚ) :
    (∃ e, handleEpochRotate p m data sk np now = (.error e, m)) ∨
      ∃ parsed keys, answerKeys p m data sk = .ok (parsed, keys) ∧
        (handleEpochRotate p m data sk np now).2 =
          activateEpoch p m parsed.epochId keys.r2i keys.i2r keys.i2r np now ∧
        (handleEpochRotate p m data sk np now).1 =
          buildAck (activateEpoch p m parsed.epochId keys.r2i keys.i2r keys.i2r np now)
            parsed.epochId (p.publicBytes sk) := by
  unfold handleEpochRotate
  cases hk : answerKeys p m data sk with
  | error e => exact .inl ⟨e,rfl⟩
  | ok r => exact .inr ⟨r.1,r.2,rfl,rfl,rfl⟩

lemma buildAck_decode (hp : p.Lawful) {epochId : ℕ} {frame : Bytes}
    {ack : EpochRotateAck} (h : buildAck m epochId (p.publicBytes sk) = .ok frame)
    (hd : decodeEpochRotateAck frame = .ok ack) :
    ack.epochId = epochId ∧ ack.ephPubkey = p.publicBytes sk := by
  obtain ⟨d,-,h⟩ := bind_ok h
  obtain ⟨s,-,h⟩ := bind_ok h
  exact decode_encodeEpochRotateAck (hp.publicBytes_length sk) h hd

lemma takeNonce_ok {m' : EpochManager} {nonce : Bytes} (h : takeNonce m = .ok (nonce, m')) :
    nonceCounter nonce = m.messageCounter ∧
      m' = { m with messageCounter := m.messageCounter + 1 } := by
  unfold takeNonce at h
  split_ifs at h
  obtain ⟨n,hn,h⟩ := bind_ok h
  cases h
  exact ⟨nonceCounter_buildNonce hn,rfl⟩

end Hokora.EpochLifecycle
