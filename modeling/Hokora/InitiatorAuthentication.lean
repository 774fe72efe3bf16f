import Hokora.HandshakeInitiator
import Hokora.TransitionRuns

/-!
# When a mirror becomes authenticated

Runs of one mirror with any answers of the peer.
-/
namespace Hokora.InitiatorAuthentication
open BigEndian EpochCrypto EpochLifecycle HandshakeInitiator HandshakeResponder List PyValue
  SenderBinding TransitionRuns

def step (p : Primitives) (sig : SignatureScheme) (o : Orchestrator) (m : ChannelMirror)
    (e : MirrorEvent) : ChannelMirror :=
  (mirrorCall p sig o m e).mirror

def fieldOf (resp : Val) (name : String) : Val := ((resp.get name .none).toOption).getD .none

def verifies (sig : SignatureScheme) (m : ChannelMirror) (resp : Val) : Bool :=
  match m.pendingChallenge with
  | some challenge =>
    isStep (fieldOf resp "step") 2 &&
      verifyResponse sig challenge (fieldOf resp "challenge_response")
        (fieldOf resp "peer_public_key")
  | none => false

/-- A verified step-2 response was received after the last link establishment. -/
def VerifiedSinceLink (p : Primitives) (sig : SignatureScheme) (o : Orchestrator)
    (m : ChannelMirror) (es : List MirrorEvent) : Prop :=
  ∃ before resp draws after, es = before ++ .response resp draws :: after ∧
    (∀ d, MirrorEvent.linked d ∉ after) ∧ verifies sig (run (step p sig o) m before) resp = true

/-- A step-4 response comes only when the mirror is authenticated, and an accepted step-2
response finds a pending challenge and carries a signature and a key. -/
def Complete (m : ChannelMirror) : MirrorEvent → Prop
  | .response resp _ =>
    (isStep (fieldOf resp "step") 4 = true → m.authenticated = true) ∧
      (isStep (fieldOf resp "step") 2 = true → (fieldOf resp "accepted").truthy = true →
        (usable m.pendingChallenge).isSome = true ∧
          (fieldOf resp "challenge_response").truthy = true ∧
          (fieldOf resp "peer_public_key").truthy = true)
  | _ => True

instance (m : ChannelMirror) : (e : MirrorEvent) → Decidable (Complete m e)
  | .response _ _ => inferInstanceAs (Decidable ((_ → _) ∧ (_ → _ → _ ∧ _ ∧ _)))
  | .start _ | .connect _ | .stop | .linked _ | .closed => isTrue trivial

variable {m : ChannelMirror}

section
variable {p : Primitives} {sig : SignatureScheme} {o : Orchestrator}

lemma fieldOf_of_get {resp v : Val} {name : String} (h : resp.get name .none = .ok v) :
    fieldOf resp name = v := by
  rw [fieldOf,h]
  rfl

lemma step2_verifies {resp : Val} {draws : CallDraws} (hm : m.authenticated = false)
    (hst : isStep (fieldOf resp "step") 2 = true) (hp : (usable m.pendingChallenge).isSome = true)
    (hs : (fieldOf resp "challenge_response").truthy = true)
    (hke : (fieldOf resp "peer_public_key").truthy = true)
    (h : (handleStep2 sig o m resp draws).mirror.authenticated = true) :
    verifies sig m resp = true := by
  obtain ⟨scheduled,hv⟩ := handleStep2_authenticated hm h
  obtain ⟨r,hr,hv'⟩ := bind_ok hv
  obtain ⟨k,hk,-⟩ := bind_ok hv'
  obtain ⟨c,hc⟩ := Option.isSome_iff_exists.mp hp
  rw [fieldOf_of_get hr] at hs
  rw [fieldOf_of_get hk] at hke
  have hve := verifyStep2_checked hv hr hk hc hs hke
  rw [verifies,(usable_eq_some.mp hc).1,fieldOf_of_get hr,fieldOf_of_get hk,hst]
  exact hve

lemma response_verifies {resp : Val} {draws : CallDraws} (hok : Complete m (.response resp draws))
    (hm : m.authenticated = false)
    (h : (onHandshakeResponse p sig o m resp draws).mirror.authenticated = true) :
    verifies sig m resp = true := by
  unfold onHandshakeResponse at h
  split at h
  next step accepted fsCapable hs ha hf =>
    have hst := fieldOf_of_get hs
    have hac := fieldOf_of_get ha
    split_ifs at h with h2 h4 hfs h6
    · rw [Bool.and_eq_true] at h2
      rw [← hst,← hac] at h2
      have hfi := hok.2 h2.1 h2.2
      exact step2_verifies hm h2.1 hfi.1 hfi.2.1 hfi.2.2 h
    · have hau := hok.1 (hst ▸ h4)
      rw [hm] at hau
      cases hau
    · have hau := hok.1 (hst ▸ h4)
      rw [hm] at hau
      cases hau
    · rw [handleStep6_authenticated,hm] at h
      cases h
    · rw [hm] at h
      cases h
  · rw [hm] at h
    cases h

lemma step_authenticates {e : MirrorEvent} (hok : Complete m e) (hm : m.authenticated = false)
    (h : (step p sig o m e).authenticated = true) :
    ∃ resp draws, e = .response resp draws ∧ verifies sig m resp = true := by
  cases e with
  | start outcome =>
    have hk : (step p sig o m (.start outcome)).authenticated = m.authenticated :=
      connect_authenticated { m with running := true }
    rw [hk,hm] at h
    cases h
  | connect outcome =>
    have hk : (step p sig o m (.connect outcome)).authenticated = m.authenticated :=
      connect_authenticated m
    rw [hk,hm] at h
    cases h
  | linked draws =>
    have hk : (step p sig o m (.linked draws)).authenticated = m.authenticated :=
      onLinked_authenticated o m draws
    rw [hk,hm] at h
    cases h
  | stop =>
    have hk : m.authenticated = true := h
    rw [hm] at hk
    cases hk
  | closed => cases h
  | response resp draws => exact ⟨resp,draws,rfl,response_verifies hok hm h⟩

end

/-- In every run of complete responses, a step that makes the mirror authenticated comes
with a verified step-2 response received since the link was established. -/
theorem initiator_authenticated (p : Primitives) (sig : SignatureScheme) (o : Orchestrator)
    (m : ChannelMirror) (es : List MirrorEvent) (e : MirrorEvent)
    (h : Guarded (step p sig o) Complete m (es ++ [e]))
    (hbefore : (run (step p sig o) m es).authenticated = false)
    (hafter : (run (step p sig o) m (es ++ [e])).authenticated = true) :
    VerifiedSinceLink p sig o m (es ++ [e]) := by
  have hl := h.last
  rw [run_append] at hafter
  have hs := step_authenticates hl.2 hbefore hafter
  obtain ⟨resp,draws,rfl,hv⟩ := hs
  refine ⟨es,resp,draws,[],rfl,?_,hv⟩
  intro d hd
  cases hd

def echoScheme : SignatureScheme where
  truncatedHashHex _ := ""
  verify _ message signature := message = signature

def sampleOrchestrator : Orchestrator where
  config := {}
  nodeName := "a"
  nodeIdentity := some { publicKey := replicate 64 1, sign := id, validate := fun s d => s = d }
  nodeIdentityHash := "a"
  recallIdentity _ := none

def sampleMirror : ChannelMirror := { remoteHash := [1], channelId := "c" }

def sampleChallenge : Bytes := replicate 32 7

def connected : List MirrorEvent :=
  [.start .constructed, .linked { challenge := sampleChallenge }]

def signedStep2 : MirrorEvent :=
  .response (.dict [("step", .int 2), ("accepted", .bool true),
    ("challenge_response", .bytes sampleChallenge),
    ("peer_public_key", .bytes (replicate 32 2))]) {}

theorem signedStep2_authenticates :
    VerifiedSinceLink additive echoScheme sampleOrchestrator sampleMirror
      (connected ++ [signedStep2]) :=
  initiator_authenticated additive echoScheme sampleOrchestrator sampleMirror connected signedStep2
    (by decide +kernel) (by decide +kernel) (by decide +kernel)

def bareStep4 : MirrorEvent := .response (.dict [("step", .int 4)]) {}

theorem bareStep4_authenticates :
    (run (step additive echoScheme sampleOrchestrator) sampleMirror connected).authenticated =
        false ∧ (run (step additive echoScheme sampleOrchestrator) sampleMirror
        (connected ++ [bareStep4])).authenticated = true ∧
      ¬ VerifiedSinceLink additive echoScheme sampleOrchestrator sampleMirror
        (connected ++ [bareStep4]) := by
  refine ⟨by decide +kernel,by decide +kernel,?_⟩
  intro h
  obtain ⟨before,resp,draws,after,hes,-,hv⟩ := h
  -- The only response of the run is the last event, and it is no step 2.
  have hm : MirrorEvent.response resp draws ∈ connected ++ [bareStep4] := by
    rw [hes]
    exact mem_append_right before mem_cons_self
  have hr : resp = .dict [("step", .int 4)] := by
    simp only [connected,bareStep4,cons_append,nil_append,mem_cons,
      reduceCtorEq,false_or,not_mem_nil,or_false,MirrorEvent.response.injEq] at hm
    exact hm.1
  rw [hr] at hv
  unfold verifies at hv
  split at hv
  · cases hv
  · cases hv

end Hokora.InitiatorAuthentication
