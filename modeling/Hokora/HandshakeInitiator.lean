import Hokora.HandshakeResponder

/-!
# The initiator's side of the federation handshake

Every state of a mirror and the effects of each call. Threads are in MirrorConnection.
-/
namespace Hokora.HandshakeInitiator
open BigEndian Constants Database EpochCrypto EpochLifecycle EpochWire HandshakeResponder
  PushReceive PyValue SenderBinding WireRows

inductive MirrorState where
  | idle
  | connecting
  | linked
  | waitingForPath
  | closed
  deriving DecidableEq

structure ChannelMirror where
  remoteHash : Bytes
  channelId : String
  running : Bool := false
  state : MirrorState := .idle
  hasLink : Bool := false
  authenticated : Bool := false
  hasFederationAuth : Bool := true
  pendingChallenge : Option Bytes := none
  epochManager : Option EpochManager := none

structure Orchestrator where
  config : FederationConfig
  nodeName : String
  nodeIdentity : Option RnsIdentity
  nodeIdentityHash : String
  recallIdentity : Bytes → Option RnsIdentity

structure CallDraws where
  challenge : Bytes := []
  privateKey : Bytes := []
  noncePrefix : Bytes := []
  now : ℚ := 0
  sends : Bool := true
  hasPusher : Bool := false
  loopRunning : Bool := true

inductive Effect where
  | request (fields : List (String × Val))
  | syncHistory
  | persistKey (peerIdentityHash : Val) (publicKey : Bytes)
  | pushPending
  | startRotationScheduler

structure Call where
  result : Py Unit
  mirror : ChannelMirror
  effects : List Effect

def toHex (bs : Bytes) : String := String.join (bs.map hexByte)

def syncHistory (m : ChannelMirror) (draws : CallDraws) : Py (List Effect) :=
  if m.hasLink = false then .ok []
  else if draws.sends then .ok [.syncHistory]
  else .error .transportError

def finishWithSync (m : ChannelMirror) (draws : CallDraws) (done : List Effect) : Call :=
  match syncHistory m draws with
  | .ok effects => ⟨.ok (),m,done ++ effects⟩
  | .error e => ⟨.error e,m,done⟩

def unsignedFallback (o : Orchestrator) (m : ChannelMirror) (draws : CallDraws) : Call :=
  if o.config.requireSignedFederation then ⟨.ok (),m,[]⟩ else finishWithSync m draws []

def initiate (o : Orchestrator) (m : ChannelMirror) (draws : CallDraws) : Call :=
  if o.nodeIdentity.isNone || m.hasLink = false then unsignedFallback o m draws
  else
    let m' := { m with pendingChallenge := some draws.challenge }
    if draws.sends then
      ⟨.ok (),m',[.request [("step", .int 1), ("node_name", .str o.nodeName),
        ("identity_hash", .str o.nodeIdentityHash), ("challenge", .bytes draws.challenge)]]⟩
    else unsignedFallback o m' draws

def verifyStep2 (sig : SignatureScheme) (m : ChannelMirror) (resp : Val) (draws : CallDraws) :
    Py (Option (List Effect)) := do
  let challengeResponse ← resp.get "challenge_response" .none
  let peerPublicKey ← resp.get "peer_public_key" .none
  match usable m.pendingChallenge, challengeResponse.truthy && peerPublicKey.truthy with
  | some pending, true =>
    match peerPublicKey with
    | .bytes key =>
      if key.length ≠ ed25519PublicKeySize then pure none
      else if verifyResponse sig pending challengeResponse peerPublicKey then do
        let peerHash ← resp.get "identity_hash" (.str (toHex m.remoteHash))
        -- The task's name slices the hash.
        let _ ← peerHash.take 16
        pure (some (if draws.loopRunning then [.persistKey peerHash key] else []))
      else pure none
    | v => do
        -- The log line takes the length.
        let _ ← v.len
        pure none
  | _, _ => pure (some [])

def answerCounterChallenge (o : Orchestrator) (m : ChannelMirror) (resp : Val)
    (draws : CallDraws) : Py (List Effect) := do
  let counterChallenge ← resp.get "counter_challenge" .none
  if counterChallenge.truthy && m.hasLink then
    match o.nodeIdentity, counterChallenge with
    | none, _ => pure []
    | some identity, .bytes c => do
        let publicKey ← signingPublicKey identity
        if draws.sends then
          pure [.request [("step", .int 3), ("identity_hash", .str o.nodeIdentityHash),
            ("counter_response", .bytes (identity.sign c)),
            ("peer_public_key", .bytes publicKey)]]
        else .error .transportError
    | some _, _ => .error .typeError
  else pure []

def handleStep2 (sig : SignatureScheme) (o : Orchestrator) (m : ChannelMirror) (resp : Val)
    (draws : CallDraws) : Call :=
  match verifyStep2 sig m resp draws with
  | .error e => ⟨.error e,m,[]⟩
  | .ok none => ⟨.ok (),m,[]⟩
  | .ok (some scheduled) =>
    match answerCounterChallenge o m resp draws with
    | .error e => ⟨.error e,m,scheduled⟩
    | .ok sent =>
      let m' := { m with authenticated := true }
      let pushed :=
        if draws.hasPusher && m.hasLink && draws.loopRunning then [Effect.pushPending] else []
      finishWithSync m' draws (scheduled ++ sent ++ pushed)

def register (o : Orchestrator) (m : ChannelMirror) (identity : RnsIdentity) : EpochManager :=
  m.epochManager.getD
    { peerIdentityHash := toHex m.remoteHash, isInitiator := true
      localIdentity := some identity, peerIdentity := o.recallIdentity m.remoteHash
      epochDuration := o.config.fsEpochDuration, hasDatabase := true }

def initiateEpochHandshake (p : Primitives) (o : Orchestrator) (m : ChannelMirror)
    (draws : CallDraws) : Call :=
  match o.nodeIdentity with
  | none => ⟨.ok (),m,[]⟩
  | some identity =>
    if m.hasLink = false then ⟨.ok (),m,[]⟩
    else
      let created := createEpochRotate p (register o m identity) draws.privateKey
      let effects :=
        match created.1 with
        | .ok frame =>
          if draws.sends then
            [Effect.request [("step", .int 5), ("identity_hash", .str o.nodeIdentityHash),
              ("epoch_rotate_frame", .bytes frame)]]
          else []
        | .error _ => []
      ⟨.ok (),{ m with epochManager := some created.2 },effects⟩

def handleStep6 (p : Primitives) (m : ChannelMirror) (resp : Val) (draws : CallDraws) : Call :=
  match m.epochManager, resp.get "epoch_rotate_ack_frame" .none with
  | some em, .ok (.bytes frame) =>
    if frame = [] then ⟨.ok (),m,[]⟩
    else
      let handled := handleEpochRotateAck p em frame draws.noncePrefix draws.now
      ⟨.ok (),{ m with epochManager := some handled.2 },
        match handled.1 with
        | .ok () => [.startRotationScheduler]
        | .error _ => []⟩
  | _, _ => ⟨.ok (),m,[]⟩

def onHandshakeResponse (p : Primitives) (sig : SignatureScheme) (o : Orchestrator)
    (m : ChannelMirror) (resp : Val) (draws : CallDraws) : Call :=
  match resp.get "step" .none, resp.get "accepted" .none, resp.get "fs_capable" (.bool false) with
  | .ok step, .ok accepted, .ok fsCapable =>
    if isStep step 2 && accepted.truthy then handleStep2 sig o m resp draws
    else if isStep step 4 then
      let m' := { m with authenticated := true }
      if fsCapable.truthy && o.config.fsEnabled then initiateEpochHandshake p o m' draws
      else ⟨.ok (),m',[]⟩
    else if isStep step 6 then handleStep6 p m resp draws
    else ⟨.ok (),m,[]⟩
  | _, _, _ => ⟨.error .attributeError,m,[]⟩

inductive ConnectOutcome where
  | recallNone
  | linkFailed
  | constructed

def connect (m : ChannelMirror) (outcome : ConnectOutcome) : ChannelMirror :=
  if m.running = false ∨ m.state = .connecting ∨ m.state = .linked then m
  else
    match outcome with
    | .recallNone => { m with state := .waitingForPath }
    | .linkFailed => { m with state := .closed }
    | .constructed => { m with state := .connecting, hasLink := true }

def start (m : ChannelMirror) (outcome : ConnectOutcome) : ChannelMirror :=
  connect { m with running := true } outcome

def stop (m : ChannelMirror) : ChannelMirror := { m with running := false }

def onLinked (o : Orchestrator) (m : ChannelMirror) (draws : CallDraws) : Call :=
  let m' := { m with state := .linked }
  if m'.hasLink = false then ⟨.error .attributeError,m',[]⟩
  else if m'.hasFederationAuth then initiate o m' draws
  else finishWithSync m' draws []

def onClosed (m : ChannelMirror) : ChannelMirror :=
  { m with authenticated := false, state := .closed, hasLink := false }

inductive MirrorEvent where
  | start (outcome : ConnectOutcome)
  | connect (outcome : ConnectOutcome)
  | stop
  | linked (draws : CallDraws)
  | closed
  | response (resp : Val) (draws : CallDraws)

def mirrorCall (p : Primitives) (sig : SignatureScheme) (o : Orchestrator) (m : ChannelMirror) :
    MirrorEvent → Call
  | .start outcome => ⟨.ok (),start m outcome,[]⟩
  | .connect outcome => ⟨.ok (),connect m outcome,[]⟩
  | .stop => ⟨.ok (),stop m,[]⟩
  | .linked draws => onLinked o m draws
  | .closed => ⟨.ok (),onClosed m,[]⟩
  | .response resp draws => onHandshakeResponse p sig o m resp draws

def Effect.job? : Effect → Option (Val × Bytes)
  | .persistKey peerIdentityHash publicKey => some (peerIdentityHash, publicKey)
  | _ => none

def jobPeer (peerIdentityHash : Val) : Option String := (bindText peerIdentityHash).toOption.join

def persistPeerPublicKey (st : Store) (peerIdentityHash : Val) (publicKey : Bytes)
    (reachable : Bool) : Store :=
  if publicKey.length ≠ ed25519PublicKeySize then st
  else
    match jobPeer peerIdentityHash, reachable with
    | some h, true =>
      { st with
        peers := st.peers.update h (fun q => { q with publicKey := some publicKey })
          (fun _ => rfl) }
    | _, _ => st

/-! What the calls do to the mirror's authentication. -/

variable (o : Orchestrator) (m : ChannelMirror) (draws : CallDraws)

@[simp] lemma finishWithSync_mirror {done : List Effect} :
    (finishWithSync m draws done).mirror = m := by
  unfold finishWithSync
  split <;> rfl

@[simp] lemma unsignedFallback_mirror : (unsignedFallback o m draws).mirror = m := by
  unfold unsignedFallback
  split_ifs
  · rfl
  · exact finishWithSync_mirror m draws

lemma initiate_authenticated : (initiate o m draws).mirror.authenticated = m.authenticated := by
  unfold initiate
  split_ifs
  · rw [unsignedFallback_mirror]
  · rfl
  · rw [unsignedFallback_mirror]

lemma onLinked_authenticated : (onLinked o m draws).mirror.authenticated = m.authenticated := by
  simp only [onLinked]
  split_ifs
  · rfl
  · rw [initiate_authenticated]
  · rw [finishWithSync_mirror]

lemma connect_authenticated {outcome : ConnectOutcome} :
    (connect m outcome).authenticated = m.authenticated := by
  unfold connect
  split_ifs
  · rfl
  · cases outcome <;> rfl

lemma handleStep6_authenticated {p : Primitives} {m : ChannelMirror} {resp : Val}
    {draws : CallDraws} :
    (handleStep6 p m resp draws).mirror.authenticated = m.authenticated := by
  unfold handleStep6
  split
  · split_ifs
    · rfl
    · rfl
  · rfl

lemma handleStep2_authenticated {sig : SignatureScheme} {o : Orchestrator} {m : ChannelMirror}
    {resp : Val} {draws : CallDraws} (hm : m.authenticated = false)
    (h : (handleStep2 sig o m resp draws).mirror.authenticated = true) :
    ∃ scheduled, verifyStep2 sig m resp draws = .ok (some scheduled) := by
  unfold handleStep2 at h
  split at h
  · rw [hm] at h
    cases h
  · rw [hm] at h
    cases h
  next scheduled hv => exact ⟨scheduled,hv⟩

lemma verifyStep2_checked {sig : SignatureScheme} {m : ChannelMirror} {resp r k : Val}
    {draws : CallDraws} {scheduled : List Effect} {c : Bytes}
    (h : verifyStep2 sig m resp draws = .ok (some scheduled))
    (hr : resp.get "challenge_response" .none = .ok r)
    (hk : resp.get "peer_public_key" .none = .ok k)
    (hc : usable m.pendingChallenge = some c) (hrt : r.truthy = true) (hkt : k.truthy = true) :
    verifyResponse sig c r k = true := by
  unfold verifyStep2 at h
  rw [hr,ok_bind,hk,ok_bind,hc,hrt,hkt] at h
  simp only [Bool.and_self] at h
  split at h
  · split at h
    · cases h
    split at h
    next hv => exact hv
    · cases h
  · obtain ⟨-,-,h⟩ := bind_ok h
    cases h

end Hokora.HandshakeInitiator
