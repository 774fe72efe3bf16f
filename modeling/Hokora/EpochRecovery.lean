import Hokora.EpochExchange

/-!
# Recovery after lost frames

After any run of the two ends, one fresh exchange without loss.
-/
namespace Hokora.EpochRecovery
open BigEndian EpochAgreement EpochCrypto EpochExchange EpochLifecycle EpochWire PyValue
  TransitionRuns

structure Draws where
  initiatorKey : Bytes
  responderKey : Bytes
  initiatorPrefix : Bytes
  responderPrefix : Bytes
  now : ℚ

def freshExchange (p : Primitives) (s : Link) (x : Draws) : Py Link := do
  let started := createEpochRotate p s.initiator x.initiatorKey
  let rotate ← started.1
  let answered := handleEpochRotate p s.responder rotate x.responderKey x.responderPrefix x.now
  let ack ← answered.1
  let completed := handleEpochRotateAck p started.2 ack x.initiatorPrefix x.now
  completed.1
  pure { s with initiator := completed.2, responder := answered.2 }

/-- Every fresh exchange raises nothing and leaves both ends in one epoch with matching
keys. -/
def Recovers (p : Primitives) (s : Link) : Prop :=
  ∀ x, ∃ s', freshExchange p s x = .ok s' ∧
    s'.initiator.currentEpochId = s'.responder.currentEpochId ∧
    s'.initiator.sendKey = s'.responder.recvKey ∧ s'.initiator.recvKey = s'.responder.sendKey

/-- The responder is not ahead, the chain hashes agree, and the next frame can be packed. -/
def Recoverable (s : Link) : Prop :=
  s.responder.currentEpochId ≤ s.initiator.currentEpochId ∧
    s.initiator.lastChainHash = s.responder.lastChainHash ∧ Packable s.initiator

structure Paired (s : Link) : Prop where
  toResponder : Recognises s.responder s.initiator
  toInitiator : Recognises s.initiator s.responder
  initiatorChain : s.initiator.lastChainHash.length = 32
  responderChain : s.responder.lastChainHash.length = 32

variable {p : Primitives} {s : Link}

lemma Paired.kept {s' : Link} (h : Paired s) (hi : Kept s.initiator s'.initiator)
    (hr : Kept s.responder s'.responder) : Paired s' :=
  ⟨h.toResponder.kept hr hi,h.toInitiator.kept hi hr,hi.chain h.initiatorChain,
    hr.chain h.responderChain⟩

lemma Paired.step (hp : Sound p) (h : Paired s) (e : Event) : Paired (step p s e) := by
  cases e with
  | createRotate sk =>
    exact h.kept (createEpochRotate_kept s.initiator sk) (.refl s.responder)
  | deliverRotate data sk np now =>
    exact h.kept (.refl s.initiator) (handleEpochRotate_kept hp)
  | deliverAck data np now =>
    exact h.kept (handleEpochRotateAck_kept hp) (.refl s.responder)

lemma Recovers.recoverable (hp : Sound p) (hs : Paired s) (h : Recovers p s) : Recoverable s := by
  obtain ⟨s',hex,-⟩ := h ⟨[],[],[],[],0⟩
  obtain ⟨rotate,hr,hex⟩ := bind_ok hex
  obtain ⟨ack,ha,-⟩ := bind_ok hex
  obtain ⟨signature,hre⟩ := readRotate_created hp.toLawful hs.toResponder hs.initiatorChain hr
  rcases handleEpochRotate_cases (p := p) s.responder rotate [] [] 0 with ⟨e,he⟩ |
    ⟨parsed,keys,hk,-,-⟩
  · rw [he] at ha
    cases ha
  obtain ⟨hr',hid,hc⟩ := answerKeys_checks hk
  cases hre.symm.trans hr'
  have hlt : s.responder.currentEpochId < s.initiator.currentEpochId + 1 := hid
  exact ⟨by omega,hc,createEpochRotate_packable hr⟩

lemma Recoverable.recovers (hp : Sound p) (hs : Paired s) (h : Recoverable s) : Recovers p s := by
  obtain ⟨hle,hch,hpa⟩ := h
  intro x
  -- The rotate frame arrives as it was built.
  obtain ⟨rotate,hr⟩ := createEpochRotate_succeeds (p := p) hs.toResponder hpa x.initiatorKey
  obtain ⟨signature,hrea⟩ := readRotate_created hp.toLawful hs.toResponder hs.initiatorChain hr
  -- The responder derives keys and activates the next epoch.
  obtain ⟨keys,hk⟩ := deriveEpochKeys_ok hp x.responderKey x.initiatorKey hpa.1 false
  have hlt : s.responder.currentEpochId <
      (rotateContent p s.initiator x.initiatorKey signature).epochId := Nat.lt_succ_of_le hle
  have ha := answerKeys_eq hrea hlt hch hk
  let r' := activateEpoch p s.responder (s.initiator.currentEpochId + 1) keys.r2i keys.i2r keys.i2r
    x.responderPrefix x.now
  have hke : Kept s.responder r' := activateEpoch_kept hp s.responder _ _ _ _ _ _
  have hrec : Recognises (createEpochRotate p s.initiator x.initiatorKey).2 r' :=
    hs.toInitiator.kept (createEpochRotate_kept _ _) hke
  -- The initiator combines the ack with the key that it has pending.
  obtain ⟨frame,ack,hb,hac,hid,hpu⟩ := readAck_built hp.toLawful hrec
    (hke.chain hs.responderChain) hpa.1 x.responderKey
  have hc := completeKeys_answer hp.toLawful (a := x.initiatorKey) hac rfl hpu (hid ▸ hk)
  have hre : handleEpochRotate p s.responder rotate x.responderKey x.responderPrefix x.now =
      (.ok frame, r') := by
    unfold handleEpochRotate
    rw [ha,← hb]
    rfl
  let i' : EpochManager :=
    { activateEpoch p (createEpochRotate p s.initiator x.initiatorKey).2 ack.epochId keys.i2r
        keys.r2i keys.i2r x.initiatorPrefix x.now with
      pendingPrivateKey := none
      pendingPublicKey := [] }
  have hi : handleEpochRotateAck p (createEpochRotate p s.initiator x.initiatorKey).2 frame
      x.initiatorPrefix x.now = (.ok (), i') := by
    unfold handleEpochRotateAck
    rw [hc]
  refine ⟨{ s with initiator := i', responder := r' },?_,hid,rfl,rfl⟩
  simp only [freshExchange,hr,ok_bind,hre,hi]
  rfl

/-- After any run, a fresh exchange brings the ends together exactly when the responder is
not ahead, the chain hashes agree and the next frame can be packed. -/
theorem fresh_exchange_recovers_iff (p : Primitives) (hp : Sound p) (s : Link) (hs : Paired s)
    (es : List Event) :
    Recovers p (run (step p) s es) ↔ Recoverable (run (step p) s es) := by
  have hpa : Paired (run (step p) s es) :=
    run_invariant (fun _ e h => h.step hp e) hs es
  exact ⟨fun h => h.recoverable hp hpa,fun h => h.recovers hp hpa⟩

lemma sampleLink_paired : Paired sampleLink where
  toResponder := ⟨sampleIdentity 1,sampleIdentity 1,rfl,rfl,length_sampleIdentity_sign 1,
    fun data => by simp [sampleIdentity]⟩
  toInitiator := ⟨sampleIdentity 2,sampleIdentity 2,rfl,rfl,length_sampleIdentity_sign 2,
    fun data => by simp [sampleIdentity]⟩
  initiatorChain := rfl
  responderChain := rfl

theorem lostRotate_recovers : Sound padded ∧ Paired sampleLink ∧
      Recovers padded (run (step padded) sampleLink [.createRotate [1]]) :=
  ⟨padded_sound,sampleLink_paired,
    (fresh_exchange_recovers_iff padded padded_sound sampleLink sampleLink_paired
      [.createRotate [1]]).mpr ⟨by decide,rfl,by decide,by decide⟩⟩

def lostAckRun : List Event :=
  [.createRotate [1], .deliverRotate (sampleRotate [1]) [7] (List.replicate 16 0) 0]

def sampleDraws : Draws := ⟨[2],[8],List.replicate 16 0,List.replicate 16 0,0⟩

theorem lostAckRun_stuck :
    Initial padded sampleLink ∧ Guarded (step padded) Genuine sampleLink lostAckRun ∧
      ((freshExchange padded (run (step padded) sampleLink lostAckRun) sampleDraws).map
        fun _ => ()) =
        .error (epochError "Epoch ID regression: 1 <= 1") ∧
      ¬ Recovers padded (run (step padded) sampleLink lostAckRun) := by
  have he : ((freshExchange padded (run (step padded) sampleLink lostAckRun) sampleDraws).map
      fun _ => ()) = .error (epochError "Epoch ID regression: 1 <= 1") := by decide +kernel
  have hi : Initial padded sampleLink :=
    { sampleLink_initial with pending := fun a h => by cases h }
  refine ⟨hi,by decide +kernel,he,?_⟩
  intro h
  obtain ⟨s',hs',-⟩ := h sampleDraws
  rw [hs'] at he
  cases he

end Hokora.EpochRecovery
