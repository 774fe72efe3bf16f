import Hokora.EpochLifecycle
import Hokora.PushReceive
import Hokora.RateLimit

/-!
# The responder's side of the federation handshake

One call of the handler with what it keeps between calls: the rate limiter and the pending counter
challenges, both under the identity hash that the request names. The hash may be any value: the
dictionaries tell 7 and the text "7" apart, the column of the peers does not.
-/
namespace Hokora.HandshakeResponder
open BigEndian Constants Database EpochLifecycle EpochWire KeyedTable PushReceive PyValue
  RateLimit Repositories SenderBinding WireRows

structure HandshakeContext where
  config : Option FederationConfig
  nodeName : String
  nodeIdentity : Option String
  nodeRnsIdentity : Option RnsIdentity
  recallIdentity : Bytes → Option RnsIdentity

structure PendingChallenge where
  identityHash : String
  challenge : Bytes
  issuedAt : ℚ

structure HandshakeMemory where
  rateLimiter : Option RateLimiter := none
  pending : Table PendingChallenge.identityHash := .empty

structure Draws where
  counterChallenge : Bytes
  privateKey : Bytes := []
  noncePrefix : Bytes := []
  now : ℚ

structure HandshakeReply where
  fields : List (String × Val)
  epochManager : Option EpochManager := none

def display : Val → String
  | .none => "None"
  | .bool b => if b then "True" else "False"
  | .int i => toString i
  | .str s => s
  | _ => "?"

def isStep (step : Val) (n : ℕ) : Bool := step.num? = some (.fin n)

def verifyResponse (sig : SignatureScheme) (challenge : Bytes) (response publicKey : Val) : Bool :=
  match response, publicKey with
  | .bytes r, .bytes k => k.length = ed25519PublicKeySize && sig.verify k challenge r
  | _, _ => false

def signingPublicKey (identity : RnsIdentity) : Py Bytes :=
  let pk := identity.publicKey.drop ed25519PublicKeySize
  if pk.length = ed25519PublicKeySize then .ok pk
  else .error (.hokora .federationError ("Invalid Ed25519 sig_pub_bytes on identity: expected " ++
    toString ed25519PublicKeySize ++ " bytes, got " ++ toString pk.length))

structure Request where
  step : Val
  peerIdentityHash : Val
  key : String
  nodeName : Val

/-- The value as a key of a dictionary. Numbers that are equal are one key, and no text. Every NaN
is one key here; in Python each is its own. -/
def memoryKey (v : Val) : Py String :=
  match v, v.num? with
  | .str s, _ => .ok s
  | .bytes b, _ => .ok (blobText b)
  | _, some (.fin q) =>
    .ok (String.ofList [Char.ofNat 0x10FFFE] ++ toString q.num ++ "/" ++ toString q.den)
  | _, some x => .ok (String.ofList [Char.ofNat 0x10FFFE] ++
      if x = .posInf then "inf" else if x = .negInf then "-inf" else "nan")
  | _, none => .error .typeError

/-- The key of the peer's row; a value that is bound to NULL finds none. -/
def Request.row (req : Request) : String :=
  ((bindText req.peerIdentityHash).toOption.join).getD req.key

def readRequest (payload : Val) : Py Request := do
  let step ← payload.get "step" (.int 1)
  let peerIdentityHash ← payload.get "identity_hash" .none
  let nodeName ← payload.get "node_name" (.str "unknown")
  if peerIdentityHash.truthy = false then
    .error (syncError ("Missing identity_hash in handshake step " ++ display step))
  else do
    let key ← memoryKey peerIdentityHash
    pure { step := step, peerIdentityHash := peerIdentityHash, key := key, nodeName := nodeName }

def chargeLimiter (mem : HandshakeMemory) (key : String) (now : ℚ) : HandshakeMemory × Py Unit :=
  match mem.rateLimiter with
  | none => (mem, .ok ())
  | some limiter =>
    let r := limiter.checkRateLimit key now
    ({ mem with rateLimiter := some r.1 },
      match r.2 with
      | .ok () => .ok ()
      | .error e => .error (syncError ("Handshake rate limited: " ++ e.text)))

def trustGate (config : Option FederationConfig) (st : Store) (req : Request) :
    Py (Option Peer) := do
  let _ ← bindText req.peerIdentityHash
  match st.peers.get? req.row with
  | some peer => .ok (some peer)
  | none =>
    if config.any FederationConfig.federationAutoTrust then .ok none
    else do
      -- The log line slices the hash.
      let _ ← req.peerIdentityHash.take 16
      .error (syncError "Peer not trusted. Use 'hokora mirror trust' to allow.")

def answerChallenge (identity : Option RnsIdentity) (payload : Val) : Py (Option Bytes) := do
  let challenge ← payload.get "challenge" .none
  let size ← challenge.lenOrZero
  if size ≠ challengeSize then .error (syncError "Invalid challenge in handshake")
  else
    match identity, challenge with
    | none, _ => pure none
    | some identity, .bytes c => pure (some (identity.sign c))
    | some _, _ => .error .typeError

def issueChallenge (mem : HandshakeMemory) (key : String) (draws : Draws) :
    HandshakeMemory × Py Unit :=
  let pending :=
    if maxPendingChallenges ≤ mem.pending.rows.length then
      mem.pending.select fun c => !(pendingChallengeMaxAge < draws.now - c.issuedAt)
    else mem.pending
  if maxPendingChallenges ≤ pending.rows.length then
    ({ mem with pending := pending }, .error (syncError "Too many pending federation handshakes"))
  else
    ({ mem with pending := pending.set ⟨key,draws.counterChallenge,draws.now⟩ }, .ok ())

def recordContact (st : Store) (req : Request) (peer : Option Peer) (now : ℚ) : Py Store := do
  let name ← bindText req.nodeName
  match peer with
  | some _ =>
    pure { st with
      peers := st.peers.update req.row
        (fun q => { q with nodeName := name, lastHandshake := some now }) (fun _ => rfl) }
  | none =>
    match st.peers.insert? { identityHash := req.row, nodeName := name, lastHandshake := some now }
      with
    | some peers => pure { st with peers := peers }
    | none => .error .integrityError

def step2Reply (ctx : HandshakeContext) (challengeResponse : Option Bytes)
    (counterChallenge : Bytes) : Py HandshakeReply := do
  let key ← match ctx.nodeRnsIdentity with
    | none => pure []
    | some identity => do
        let pk ← signingPublicKey identity
        pure [("peer_public_key", Val.bytes pk)]
  pure { fields :=
    [("action", .str "federation_handshake"), ("step", .int 2), ("node_name", .str ctx.nodeName),
      ("identity_hash", Val.ofStr? ctx.nodeIdentity),
      ("counter_challenge", .bytes counterChallenge), ("accepted", .bool true)] ++
    ((usable challengeResponse).map fun r => ("challenge_response", Val.bytes r)).toList ++ key }

def handleStep1 (ctx : HandshakeContext) (st : Store) (mem : HandshakeMemory) (payload : Val)
    (req : Request) (peer : Option Peer) (draws : Draws) :
    Py (HandshakeReply × Store) × HandshakeMemory :=
  match answerChallenge ctx.nodeRnsIdentity payload with
  | .error e => (.error e, mem)
  | .ok challengeResponse =>
    let issued := issueChallenge mem req.key draws
    let outcome : Py (HandshakeReply × Store) := do
      issued.2
      let st' ← recordContact st req peer draws.now
      let reply ← step2Reply ctx challengeResponse draws.counterChallenge
      pure (reply, st')
    (outcome, issued.1)

def verifyStep3 (sig : SignatureScheme) (storedChallenge : Option Bytes) (payload : Val) :
    Py Bytes := do
  let counterResponse ← payload.get "counter_response" .none
  let peerPublicKey ← payload.get "peer_public_key" .none
  match usable storedChallenge, counterResponse.truthy && peerPublicKey.truthy with
  | some challenge, true => do
      let size ← peerPublicKey.len
      match peerPublicKey with
      | .bytes key =>
        if key.length ≠ ed25519PublicKeySize then
          .error (syncError ("Federation handshake step 3: invalid peer_public_key length (" ++
            toString size ++ " bytes; expected " ++ toString ed25519PublicKeySize ++ ")"))
        else if verifyResponse sig challenge counterResponse peerPublicKey then pure key
        else .error (syncError "Federation handshake failed: invalid counter_response signature")
      | _ => .error (syncError ("Federation handshake step 3: invalid peer_public_key length (" ++
          toString size ++ " bytes; expected " ++ toString ed25519PublicKeySize ++ ")"))
  | _, _ => .error (syncError ("Federation handshake step 3 incomplete: missing challenge, " ++
      "counter_response, or peer_public_key"))

def completePeer (st : Store) (key : String) (publicKey : Bytes) (now : ℚ) : Store :=
  { st with
    peers := st.peers.update key
      (fun q => { q with
        lastHandshake := some now, federationTrusted := true, publicKey := some publicKey })
      (fun _ => rfl) }

def step4Reply (ctx : HandshakeContext) : HandshakeReply where
  fields := [("action", .str "federation_handshake"), ("step", .int 4), ("complete", .bool true),
    ("fs_capable", .bool (ctx.config.any FederationConfig.fsEnabled))]

def storedChallenge (mem : HandshakeMemory) (key : String) : Option Bytes :=
  (mem.pending.get? key).map PendingChallenge.challenge

def handleStep3 (sig : SignatureScheme) (ctx : HandshakeContext) (st : Store)
    (mem : HandshakeMemory) (payload : Val) (req : Request) (draws : Draws) :
    Py (HandshakeReply × Store) × HandshakeMemory :=
  let outcome : Py (HandshakeReply × Store) := do
    let publicKey ← verifyStep3 sig (storedChallenge mem req.key) payload
    pure (step4Reply ctx, completePeer st req.row publicKey draws.now)
  (outcome, { mem with pending := mem.pending.erase req.key })

def frameBytes : Val → Py Bytes
  | .bytes frame => .ok frame
  | v => do
      let size ← v.len
      if size < epochRotateLen then
        .error (epochError ("EpochRotate frame too short: " ++ toString size ++ " < " ++
          toString epochRotateLen))
      else .error .typeError

def handleStep5 (p : EpochCrypto.Primitives) (ctx : HandshakeContext) (payload : Val)
    (req : Request) (draws : Draws) : Py HandshakeReply := do
  let frame ← payload.get "epoch_rotate_frame" .none
  if frame.truthy = false then .error (syncError "Missing epoch_rotate_frame in step 5")
  else
    match ctx.nodeRnsIdentity with
    | none => .error (syncError "No node identity for epoch handshake")
    | some identity => do
        let peerHash ← fromHex req.peerIdentityHash
        let data ← frameBytes frame
        let em : EpochManager :=
          { peerIdentityHash := req.key, isInitiator := false, localIdentity := some identity
            peerIdentity := ctx.recallIdentity peerHash
            epochDuration := (ctx.config.map FederationConfig.fsEpochDuration).getD 3600 }
        let answered := handleEpochRotate p em data draws.privateKey draws.noncePrefix draws.now
        let ack ← answered.1
        pure { fields := [("action", .str "federation_handshake"), ("step", .int 6),
                 ("epoch_rotate_ack_frame", .bytes ack)]
               epochManager := some answered.2 }

def handleStep (p : EpochCrypto.Primitives) (sig : SignatureScheme) (ctx : HandshakeContext)
    (st : Store) (mem : HandshakeMemory) (payload : Val) (req : Request) (peer : Option Peer)
    (draws : Draws) : Py (HandshakeReply × Store) × HandshakeMemory :=
  if isStep req.step 1 then handleStep1 ctx st mem payload req peer draws
  else if isStep req.step 3 then handleStep3 sig ctx st mem payload req draws
  else if isStep req.step 5 then
    ((handleStep5 p ctx payload req draws).map fun reply => (reply, st), mem)
  else (.error (syncError ("Invalid handshake step: " ++ display req.step)), mem)

def handleFederationHandshake (p : EpochCrypto.Primitives) (sig : SignatureScheme)
    (ctx : HandshakeContext) (st : Store) (mem : HandshakeMemory) (payload : Val) (draws : Draws) :
    Py (HandshakeReply × Store) × HandshakeMemory :=
  match readRequest payload with
  | .error e => (.error e, mem)
  | .ok req =>
    let charged := chargeLimiter mem req.key draws.now
    match charged.2 with
    | .error e => (.error e, charged.1)
    | .ok () =>
      match trustGate ctx.config st req with
      | .error e => (.error e, charged.1)
      | .ok peer => handleStep p sig ctx st charged.1 payload req peer draws

def trusted (st : Store) (h : String) : Bool := (st.peers.get? h).any Peer.federationTrusted

def pinnedKey (st : Store) (h : String) : Option Bytes := (st.peers.get? h).bind Peer.publicKey

/-- No peer's trust flag or key differs. -/
def PeersKept (st st' : Store) : Prop :=
  ∀ h, trusted st' h = trusted st h ∧ pinnedKey st' h = pinnedKey st h

variable (p : EpochCrypto.Primitives) (sig : SignatureScheme) (ctx : HandshakeContext)
  (st : Store) (mem : HandshakeMemory) (pl : Val) (req : Request) (peer : Option Peer)
  (draws : Draws)

lemma PeersKept.refl : PeersKept st st := fun _ => ⟨rfl,rfl⟩

def completes (sig : SignatureScheme) (mem : HandshakeMemory) (payload : Val) :
    Option (String × Bytes) :=
  match readRequest payload with
  | .error _ => none
  | .ok req =>
    if isStep req.step 3 then
      (verifyStep3 sig (storedChallenge mem req.key) payload).toOption.map fun k => (req.row, k)
    else none

lemma chargeLimiter_pending (key : String) (now : ℚ) :
    (chargeLimiter mem key now).1.pending = mem.pending := by
  unfold chargeLimiter
  split <;> rfl

lemma PeersKept.update (key : String) {f : Peer → Peer}
    (hf : ∀ q, (f q).identityHash = q.identityHash)
    (ht : ∀ q, (f q).federationTrusted = q.federationTrusted)
    (hk : ∀ q, (f q).publicKey = q.publicKey) :
    PeersKept st { st with peers := st.peers.update key f hf } := by
  intro h
  have hg : (st.peers.update key f hf).get? h =
      if h = key then (st.peers.get? h).map f else st.peers.get? h :=
    Table.get?_update st.peers key f hf h
  simp only [trusted,pinnedKey,hg]
  split_ifs
  · cases st.peers.get? h with
    | none => exact ⟨rfl,rfl⟩
    | some q => exact ⟨ht q,hk q⟩
  · exact ⟨rfl,rfl⟩

lemma PeersKept.insert {st : Store} {peer : Peer} {peers : Table Peer.identityHash}
    (hi : st.peers.insert? peer = some peers) (ht : peer.federationTrusted = false)
    (hk : peer.publicKey = none) : PeersKept st { st with peers := peers } := by
  intro h
  simp only [trusted,pinnedKey,Table.get?_insert? hi]
  split_ifs with he
  · have hf : st.peers.get? h = none := by
      rw [← he]
      exact Table.insert?_fresh hi
    rw [hf]
    exact ⟨ht,hk⟩
  · exact ⟨rfl,rfl⟩

variable {now : ℚ} {key h : String} {pk : Bytes}

lemma recordContact_kept {st st' : Store} {req : Request} {peer : Option Peer}
    (h : recordContact st req peer now = .ok st') : PeersKept st st' := by
  obtain ⟨name,-,h⟩ := bind_ok h
  cases peer with
  | some q =>
    cases h
    apply PeersKept.update
    · intro q
      exact rfl
    · intro q
      exact rfl
  | none =>
    cases hi : st.peers.insert?
        { identityHash := req.row, nodeName := name, lastHandshake := some now } with
    | none =>
      rw [hi] at h
      cases h
    | some peers =>
      rw [hi] at h
      cases h
      exact .insert hi (rfl) (rfl)

lemma handleStep1_kept :
    PeersKept st (committed st (handleStep1 ctx st mem pl req peer draws).1) := by
  cases h : (handleStep1 ctx st mem pl req peer draws).1 with
  | error e => exact .refl st
  | ok r =>
    unfold handleStep1 at h
    split at h
    · cases h
    obtain ⟨-,-,h⟩ := bind_ok h
    obtain ⟨st',hst,h⟩ := bind_ok h
    obtain ⟨reply,-,h⟩ := bind_ok h
    cases h
    exact recordContact_kept hst

lemma handleStep3_effect : committed st (handleStep3 sig ctx st mem pl req draws).1 = st ∨
      ∃ pk, verifyStep3 sig (storedChallenge mem req.key) pl = .ok pk ∧
        committed st (handleStep3 sig ctx st mem pl req draws).1 =
          completePeer st req.row pk draws.now := by
  unfold handleStep3
  cases hk : verifyStep3 sig (storedChallenge mem req.key) pl with
  | error e => exact .inl rfl
  | ok pk => exact .inr ⟨pk,rfl,rfl⟩

lemma handleStep_effect :
    PeersKept st (committed st (handleStep p sig ctx st mem pl req peer draws).1) ∨
      ∃ pk, isStep req.step 3 = true ∧ verifyStep3 sig (storedChallenge mem req.key) pl = .ok pk ∧
        committed st (handleStep p sig ctx st mem pl req peer draws).1 =
          completePeer st req.row pk draws.now := by
  unfold handleStep
  split_ifs with h1 h3 h5
  · exact .inl (handleStep1_kept ctx st mem pl req peer draws)
  · cases handleStep3_effect sig ctx st mem pl req draws with
    | inl hs =>
      left
      rw [hs]
      exact .refl st
    | inr hd =>
      obtain ⟨pk,hk,hst⟩ := hd
      exact .inr ⟨pk,h3,hk,hst⟩
  · left
    cases handleStep5 p ctx pl req draws with
    | error e => exact .refl st
    | ok reply => exact .refl st
  · exact .inl (.refl st)

lemma handshake_effect :
    PeersKept st (committed st (handleFederationHandshake p sig ctx st mem pl draws).1) ∨
      ∃ h pk, completes sig mem pl = some (h, pk) ∧
        committed st (handleFederationHandshake p sig ctx st mem pl draws).1 =
          completePeer st h pk draws.now := by
  unfold handleFederationHandshake
  cases hr : readRequest pl with
  | error e => exact .inl (.refl st)
  | ok req =>
    simp only
    split
    · exact .inl (.refl st)
    split
    · exact .inl (.refl st)
    next peer hg =>
      cases handleStep_effect p sig ctx st (chargeLimiter mem req.key draws.now).1 pl req
          peer draws with
      | inl hke => exact .inl hke
      | inr hd =>
        obtain ⟨pk,h3,hk,hst⟩ := hd
        -- The limiter does not touch the pending challenges.
        rw [storedChallenge,chargeLimiter_pending] at hk
        refine .inr ⟨req.row,pk,?_,hst⟩
        simp only [completes,hr,h3,if_true,storedChallenge,hk]
        rfl

lemma trusted_completePeer : trusted (completePeer st key pk now) h =
      if h = key then (st.peers.get? h).isSome else trusted st h := by
  simp only [trusted,completePeer,Table.get?_update]
  split_ifs
  · cases st.peers.get? h with
    | none => exact rfl
    | some q => exact rfl
  · exact rfl

lemma pinnedKey_completePeer : pinnedKey (completePeer st key pk now) h =
      if h = key then (st.peers.get? h).map fun _ => pk else pinnedKey st h := by
  simp only [pinnedKey,completePeer,Table.get?_update]
  split_ifs
  · cases st.peers.get? h with
    | none => exact rfl
    | some q => exact rfl
  · exact rfl

end Hokora.HandshakeResponder
