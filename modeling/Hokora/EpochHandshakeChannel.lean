import Hokora.EpochExchange
import Hokora.HandshakeInitiator
import Hokora.WireFrames

/-!
# Rotations over the handshake channel

The reply carries the epoch manager itself, which msgpack cannot pack.
-/
namespace Hokora.EpochHandshakeChannel
open BigEndian Database EpochCrypto EpochExchange EpochLifecycle EpochWire HandshakeInitiator
  HandshakeResponder Msgpack PyValue Repositories SenderBinding WireFrames
open EpochAgreement (sampleIdentity)

structure Node where
  ctx : HandshakeContext
  store : Store := {}
  memory : HandshakeMemory := {}
  epochManagers : List (String × EpochManager) := []

def encodeReply (fmt : FloatFormat) (nonce : Bytes) (reply : HandshakeReply)
    (nodeTime : Option FloatVal) : Py Bytes :=
  match reply.epochManager with
  | some _ => .error .typeError
  | none => encodeSyncResponse fmt nonce (.dict reply.fields) nodeTime

structure RoundDraws where
  initiator : CallDraws
  responder : HandshakeResponder.Draws
  nonce : Bytes
  nodeTime : Option FloatVal := none

structure Channel where
  mirror : ChannelMirror
  node : Node

section Rounds
variable (p : Primitives) (sig : SignatureScheme) (fmt : FloatFormat) (o : Orchestrator)

def serveHandshake (n : Node) (payload : Val) (d : RoundDraws) :
    Py (HandshakeReply × Bytes) × Node :=
  let r := handleFederationHandshake p sig n.ctx n.store n.memory payload d.responder
  let answer : Py (HandshakeReply × Bytes) := do
    let (reply, _) ← r.1
    let response ← encodeReply fmt d.nonce reply d.nodeTime
    pure (reply, response)
  (answer, { n with store := committed n.store r.1, memory := r.2 })

def step5Request (frame : Bytes) : List (String × Val) :=
  [("step", .int 5), ("identity_hash", .str o.nodeIdentityHash),
    ("epoch_rotate_frame", .bytes frame)]

def scheduledRotation (m : ChannelMirror) (em : EpochManager) (draws : CallDraws) : Call :=
  let created := createEpochRotate p em draws.privateKey
  let m' := { m with epochManager := some created.2 }
  match created.1 with
  | .error e => ⟨.error e,m',[]⟩
  | .ok frame =>
    if m.hasLink = false then ⟨.ok (),m',[]⟩
    else if draws.sends then ⟨.ok (),m',[.request (step5Request o frame)]⟩
    else ⟨.error .transportError,m',[]⟩

def startRotation (m : ChannelMirror) (draws : CallDraws) : Call :=
  match m.epochManager with
  | none => initiateEpochHandshake p o m draws
  | some em => scheduledRotation p o m em draws

def rotation (s : Channel) (d : RoundDraws) : Py Channel := do
  let call := startRotation p o s.mirror d.initiator
  match call.effects with
  | [.request fields] => do
      let served := serveHandshake p sig fmt s.node (.dict fields) d
      let (reply, _) ← served.1
      if isStep ((reply.fields.lookup "step").getD .none) 6 then
        let completed := handleStep6 p call.mirror (.dict reply.fields) d.initiator
        pure { mirror := completed.mirror, node := served.2 }
      else .error .valueError
  | _ => .error .transportError

def rotations : Channel → List RoundDraws → Py Channel
  | s, [] => .ok s
  | s, d :: ds => do
      let s' ← rotation p sig fmt o s d
      rotations s' ds

/-- All rotations are answered, and then the node has a manager under the link's key that
opens what the initiator seals. -/
def RotationsWork (s : Channel) (ds : List RoundDraws) : Prop :=
  ∃ s', rotations p sig fmt o s ds = .ok s' ∧
    ∃ em peer, s'.node.epochManagers.lookup (o.nodeIdentityHash ++ ":" ++ s'.mirror.channelId) =
        some em ∧
      s'.mirror.epochManager = some peer ∧
      ∀ plaintext frame, (encrypt p peer plaintext).1 = .ok frame →
        (decrypt p em frame).1 = .ok plaintext

end Rounds

variable {p : Primitives} {sig : SignatureScheme} {fmt : FloatFormat} {o : Orchestrator}
  {draws : HandshakeResponder.Draws}

lemma handleStep5_ok {ctx : HandshakeContext} {pl : Val} {req : Request}
    {reply : HandshakeReply} (h : handleStep5 p ctx pl req draws = .ok reply) :
    reply.epochManager.isSome ∧ ∃ frame data parsed,
      pl.get "epoch_rotate_frame" .none = .ok frame ∧ frameBytes frame = .ok data ∧
      decodeEpochRotate data = .ok parsed ∧ parsed.prevEpochHash = List.replicate 32 0 := by
  obtain ⟨frame,hf,h⟩ := bind_ok h
  split_ifs at h
  split at h
  · cases h
  obtain ⟨peerHash,-,h⟩ := bind_ok h
  obtain ⟨data,hd,h⟩ := bind_ok h
  obtain ⟨ack,ha,h⟩ := bind_ok h
  cases h
  refine ⟨rfl,frame,data,?_⟩
  rcases handleEpochRotate_cases (p := p) _ data draws.privateKey draws.noncePrefix draws.now with
    ⟨e,he⟩ | ⟨parsed,keys,hk,-,-⟩
  · rw [he] at ha
    cases ha
  · exact ⟨parsed,hf,hd,(answerKeys_ok hk).1,(answerKeys_checks hk).2.2⟩

lemma readRequest_step {p step : Val} {req : Request}
    (hs : p.get "step" (.int 1) = .ok step) (h : readRequest p = .ok req) :
    req.step = step := by
  unfold readRequest at h
  rw [hs,ok_bind] at h
  obtain ⟨_,-,h⟩ := bind_ok h
  obtain ⟨_,-,h⟩ := bind_ok h
  split_ifs at h
  obtain ⟨_,-,h⟩ := bind_ok h
  cases h
  rfl

lemma handleFederationHandshake_step5 {ctx : HandshakeContext} {st : Store}
    {mem : HandshakeMemory} {pl : Val} {r : HandshakeReply × Store}
    (hs : pl.get "step" (.int 1) = .ok (.int 5))
    (h : (handleFederationHandshake p sig ctx st mem pl draws).1 = .ok r) :
    r.1.epochManager.isSome := by
  unfold handleFederationHandshake at h
  split at h
  · cases h
  next req hre =>
    have hf := readRequest_step hs hre
    simp only at h
    split at h
    · cases h
    split at h
    · cases h
    unfold handleStep at h
    rw [hf,if_neg (by decide),if_neg (by decide),if_pos (by decide)] at h
    cases hr : handleStep5 p ctx pl req draws with
    | error e =>
      rw [hr] at h
      cases h
    | ok reply =>
      rw [hr] at h
      cases h
      exact (handleStep5_ok hr).1

lemma serveHandshake_step5 {n : Node} {frame : Bytes} {d : RoundDraws} :
    ∃ e, (serveHandshake p sig fmt n (.dict (step5Request o frame)) d).1 = .error e := by
  cases hs : (serveHandshake p sig fmt n (.dict (step5Request o frame)) d).1 with
  | error e => exact ⟨e,rfl⟩
  | ok answer =>
    obtain ⟨⟨reply,st'⟩,hh,hs⟩ := bind_ok hs
    obtain ⟨response,hr,-⟩ := bind_ok hs
    obtain ⟨em,hem⟩ := Option.isSome_iff_exists.mp (handleFederationHandshake_step5 rfl hh)
    unfold encodeReply at hr
    rw [hem] at hr
    cases hr

lemma startRotation_request {m : ChannelMirror} {draws : CallDraws} {fields : List (String × Val)}
    (h : (startRotation p o m draws).effects = [.request fields]) :
    ∃ frame, fields = step5Request o frame := by
  unfold startRotation at h
  split at h
  · unfold initiateEpochHandshake at h
    split at h
    · cases h
    split_ifs at h
    · simp only at h
      split at h
      next frame _ =>
        cases h
        exact ⟨frame,rfl⟩
      · cases h
    · simp only at h
      split at h <;> cases h
  · unfold scheduledRotation at h
    simp only at h
    split at h
    · cases h
    next frame _ =>
      split_ifs at h
      cases h
      exact ⟨frame,rfl⟩

/-- No sequence of rotations over the handshake channel works, however many there are. -/
theorem rotations_never_work (p : Primitives) (sig : SignatureScheme) (fmt : FloatFormat)
    (o : Orchestrator) (s : Channel) (d : RoundDraws) (ds : List RoundDraws) :
    ¬ RotationsWork p sig fmt o s (d :: ds) := by
  rintro ⟨s',hr,-⟩
  obtain ⟨s₁,hf,-⟩ := bind_ok hr
  unfold rotation at hf
  simp only at hf
  split at hf
  next fields hef =>
    obtain ⟨frame,rfl⟩ := startRotation_request hef
    obtain ⟨e,he⟩ := serveHandshake_step5
    rw [he] at hf
    cases hf
  · cases hf

def sampleOrchestrator : Orchestrator where
  config := {}
  nodeName := "a"
  nodeIdentity := some (sampleIdentity 1)
  nodeIdentityHash := "aa"
  recallIdentity _ := some (sampleIdentity 2)

def sampleChannel : Channel where
  mirror := { remoteHash := [0xbb], channelId := "c", running := true, state := .linked
              hasLink := true, authenticated := true }
  node :=
    { ctx := { config := some {}, nodeName := "b", nodeIdentity := some "bb"
               nodeRnsIdentity := some (sampleIdentity 2)
               recallIdentity := fun _ => some (sampleIdentity 1) }
      store := { peers := .singleton { identityHash := "aa", federationTrusted := true } } }

def sampleRound : RoundDraws where
  initiator := { privateKey := [1], noncePrefix := List.replicate 16 0 }
  responder := { counterChallenge := [], privateKey := [7], noncePrefix := List.replicate 16 0
                 now := 0 }
  nonce := List.replicate 16 0

def sampleScheme : SignatureScheme := ⟨fun _ => "",fun _ _ _ => true⟩

def sampleRequest : Val :=
  .dict (step5Request sampleOrchestrator
    ((createEpochRotate padded (register sampleOrchestrator sampleChannel.mirror
      (sampleIdentity 1)) [1]).1.toOption.getD []))

theorem sampleRotation_unanswered :
    ((handleFederationHandshake padded sampleScheme sampleChannel.node.ctx sampleChannel.node.store
        {} sampleRequest sampleRound.responder).1.map
          fun r => isStep ((r.1.fields.lookup "step").getD .none) 6) = .ok true ∧
      ((serveHandshake padded sampleScheme zeroFormat sampleChannel.node sampleRequest
        sampleRound).1.map fun _ => ()) = .error .typeError ∧
      ¬ RotationsWork padded sampleScheme zeroFormat sampleOrchestrator sampleChannel
        [sampleRound] := by
  have hs : ((serveHandshake padded sampleScheme zeroFormat sampleChannel.node sampleRequest
      sampleRound).1.map fun _ => ()) = .error .typeError := by decide +kernel
  refine ⟨by decide +kernel,hs,?_⟩
  rintro ⟨s',hr,-⟩
  obtain ⟨s₁,hf,-⟩ := bind_ok hr
  have hse : (startRotation padded sampleOrchestrator sampleChannel.mirror
      sampleRound.initiator).effects = [.request (step5Request sampleOrchestrator
        ((createEpochRotate padded (register sampleOrchestrator sampleChannel.mirror
          (sampleIdentity 1)) [1]).1.toOption.getD []))] := by rfl
  unfold rotation at hf
  simp only [hse] at hf
  obtain ⟨answer,ha,-⟩ := bind_ok hf
  unfold sampleRequest at hs
  rw [ha] at hs
  cases hs

end Hokora.EpochHandshakeChannel
