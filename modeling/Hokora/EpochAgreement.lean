import Hokora.EpochLifecycle
import Hokora.TransitionRuns

/-!
# Key agreement of the two ends of a link

Both managers and the frames in between: lost, delayed, repeated. A frame that one end accepts was
sent by the other.
-/
namespace Hokora.EpochAgreement
open BigEndian EpochCrypto EpochLifecycle EpochWire PyValue TransitionRuns

structure Link where
  initiator : EpochManager
  responder : EpochManager
  rotates : List Bytes := []
  answers : List (Bytes × Bytes) := []

inductive Event where
  | createRotate (privateKey : Bytes)
  | deliverRotate (data privateKey noncePrefix : Bytes) (now : ℚ)
  | deliverAck (data noncePrefix : Bytes) (now : ℚ)

def Event.drawn? : Event → Option Bytes
  | .createRotate privateKey => some privateKey
  | .deliverRotate _ privateKey _ _ => some privateKey
  | .deliverAck _ _ _ => none

def step (p : Primitives) (s : Link) : Event → Link
  | .createRotate privateKey =>
    let r := createEpochRotate p s.initiator privateKey
    { s with initiator := r.2, rotates := r.1.toOption.toList ++ s.rotates }
  | .deliverRotate data privateKey noncePrefix now =>
    let r := handleEpochRotate p s.responder data privateKey noncePrefix now
    { s with
      responder := r.2
      answers := (r.1.toOption.map fun ack => (data, ack)).toList ++ s.answers }
  | .deliverAck data noncePrefix now =>
    { s with initiator := (handleEpochRotateAck p s.initiator data noncePrefix now).2 }

/-- Equal content under the signature of a rotate frame. -/
def SameRotate (q r : EpochRotate) : Prop :=
  q.epochId = r.epochId ∧ q.epochDuration = r.epochDuration ∧ q.ephPubkey = r.ephPubkey ∧
    q.prevEpochHash = r.prevEpochHash

instance (q r : EpochRotate) : Decidable (SameRotate q r) :=
  inferInstanceAs (Decidable (_ ∧ _ ∧ _ ∧ _))

/-- Equal content under the signature of an ack frame. -/
def SameAck (a b : EpochRotateAck) : Prop :=
  a.epochId = b.epochId ∧ a.ephPubkey = b.ephPubkey ∧ a.prevEpochHash = b.prevEpochHash

instance (a b : EpochRotateAck) : Decidable (SameAck a b) :=
  inferInstanceAs (Decidable (_ ∧ _ ∧ _))

def CarriesRotate (r : EpochRotate) (frame : Bytes) : Prop :=
  ∃ q ∈ (decodeEpochRotate frame).toOption, SameRotate r q

def CarriesAck (a : EpochRotateAck) (frame : Bytes) : Prop :=
  ∃ b ∈ (decodeEpochRotateAck frame).toOption, SameAck a b

/-- A frame whose signature verifies has content that the other end signed. -/
def Genuine (s : Link) : Event → Prop
  | .createRotate _ => True
  | .deliverRotate data _ _ _ =>
    ∀ r ∈ (readRotate s.responder data).toOption, ∃ frame ∈ s.rotates, CarriesRotate r frame
  | .deliverAck data _ _ =>
    ∀ a ∈ (readAck s.initiator data).toOption, ∃ x ∈ s.answers, CarriesAck a x.2

/-- While an exchange is pending, every ack with a valid signature was given to the
rotate frame that carries the pending public key. -/
def AnswersPending (s : Link) : Event → Prop
  | .deliverAck data _ _ =>
    s.initiator.pendingPrivateKey = none ∨
      ∀ a ∈ (readAck s.initiator data).toOption, ∀ x ∈ s.answers, CarriesAck a x.2 →
        ∃ r ∈ (decodeEpochRotate x.1).toOption, r.ephPubkey = s.initiator.pendingPublicKey
  | _ => True

instance (r : EpochRotate) (frame : Bytes) : Decidable (CarriesRotate r frame) :=
  inferInstanceAs (Decidable (∃ q ∈ _, _))

instance (a : EpochRotateAck) (frame : Bytes) : Decidable (CarriesAck a frame) :=
  inferInstanceAs (Decidable (∃ b ∈ _, _))

instance (s : Link) : (e : Event) → Decidable (Genuine s e)
  | .createRotate _ => isTrue trivial
  | .deliverRotate _ _ _ _ => inferInstanceAs (Decidable (∀ r ∈ _, ∃ frame ∈ _, _))
  | .deliverAck _ _ _ => inferInstanceAs (Decidable (∀ a ∈ _, ∃ x ∈ _, _))

instance (s : Link) : (e : Event) → Decidable (AnswersPending s e)
  | .createRotate _ | .deliverRotate _ _ _ _ => isTrue trivial
  | .deliverAck _ _ _ => inferInstanceAs (Decidable (_ ∨ ∀ a ∈ _, ∀ x ∈ _, _ → ∃ r ∈ _, _))

def Matching (s : Link) : Prop :=
  s.initiator.sendKey = s.responder.recvKey ∧ s.initiator.recvKey = s.responder.sendKey ∧
    s.initiator.lastChainHash = s.responder.lastChainHash

/-- Ends that are both active in the same epoch have matching keys. -/
def Agree (s : Link) : Prop :=
  isActive s.initiator = true → isActive s.responder = true →
    s.initiator.currentEpochId = s.responder.currentEpochId → Matching s

structure Initial (p : Primitives) (s : Link) : Prop where
  epoch : s.initiator.currentEpochId = s.responder.currentEpochId
  chain : s.initiator.lastChainHash = s.responder.lastChainHash
  keys : isActive s.initiator = true → isActive s.responder = true → Matching s
  pending : ∀ a, s.initiator.pendingPrivateKey = some a →
    s.initiator.pendingPublicKey = p.publicBytes a
  answers : s.answers = []

section Invariant
variable {p : Primitives}

structure HoldsResponder (p : Primitives) (m : EpochManager) (keys : EpochKeys) : Prop where
  send : m.sendKey = some keys.r2i
  recv : m.recvKey = some keys.i2r
  chain : m.lastChainHash = computeChainHash p keys.i2r

structure HoldsInitiator (p : Primitives) (m : EpochManager) (keys : EpochKeys) : Prop where
  send : m.sendKey = some keys.i2r
  recv : m.recvKey = some keys.r2i
  chain : m.lastChainHash = computeChainHash p keys.i2r

variable {m : EpochManager} {s s₀ : Link} {epochId : ℕ} {keys : EpochKeys}

lemma activateEpoch_chain (hp : p.Lawful) {sk pub sendKey recvKey np : Bytes} {now : ℚ} {x : Bool}
    (h : deriveEpochKeys p sk pub epochId x = .ok keys) :
    (activateEpoch p m epochId sendKey recvKey keys.i2r np now).lastChainHash =
      computeChainHash p keys.i2r := by
  have hne := i2r_ne_nil hp h
  simp [activateEpoch,if_neg hne]

structure Shared (p : Primitives) (e₀ : ℕ) (m : EpochManager) (epochId : ℕ) (keys : EpochKeys) :
    Prop where
  after : e₀ < epochId
  reached : epochId ≤ m.currentEpochId
  current : epochId = m.currentEpochId → HoldsResponder p m keys

lemma Shared.later {e₀ : ℕ} {m' : EpochManager}
    (h : Shared p e₀ m epochId keys) (hlt : m.currentEpochId < m'.currentEpochId) :
    Shared p e₀ m' epochId keys := by
  have hr := h.reached
  refine ⟨h.after,by omega,?_⟩
  intro he
  omega

/-- A rotate frame and its ack determine the keys: those that the responder derives from
the frame's key and the private key behind the ack's. -/
def Answered (p : Primitives) (x : Bytes × Bytes) (epochId : ℕ) (keys : EpochKeys) : Prop :=
  ∃ r privateKey, decodeEpochRotate x.1 = .ok r ∧
    deriveEpochKeys p privateKey r.ephPubkey epochId false = .ok keys ∧
    ∀ a, decodeEpochRotateAck x.2 = .ok a →
      a.epochId = epochId ∧ a.ephPubkey = p.publicBytes privateKey

structure Unmoved (m m' : EpochManager) : Prop where
  epoch : m'.currentEpochId = m.currentEpochId
  send : m'.sendKey = m.sendKey
  recv : m'.recvKey = m.recvKey
  chain : m'.lastChainHash = m.lastChainHash

structure Inv (p : Primitives) (s₀ s : Link) : Prop where
  pending : ∀ a, s.initiator.pendingPrivateKey = some a →
    s.initiator.pendingPublicKey = p.publicBytes a
  answered : ∀ x ∈ s.answers, ∃ epochId keys, Answered p x epochId keys ∧
    Shared p s₀.responder.currentEpochId s.responder epochId keys
  responder : s.responder = s₀.responder ∨ s₀.responder.currentEpochId < s.responder.currentEpochId
  initiator : Unmoved s₀.initiator s.initiator ∨ ∃ keys, HoldsInitiator p s.initiator keys ∧
    Shared p s₀.responder.currentEpochId s.responder s.initiator.currentEpochId keys

lemma Initial.inv (h : Initial p s) : Inv p s s := by
  refine ⟨h.pending,?_,.inl rfl,.inl ⟨rfl,rfl,rfl,rfl⟩⟩
  intro x hx
  rw [h.answers] at hx
  cases hx

lemma Inv.agree (h₀ : Initial p s₀) (h : Inv p s₀ s) : Agree s := by
  intro hi hr he
  cases h.initiator with
  | inl hu =>
    -- The initiator is still in the first epoch, so the responder is too.
    cases h.responder with
    | inl hsa =>
      have hi₀ : isActive s₀.initiator = true := by
        rw [← hi,isActive,isActive,hu.send,hu.recv]
      have hm := h₀.keys hi₀ (by rw [← hsa,hr])
      refine ⟨?_,?_,?_⟩
      · rw [hu.send,hsa,hm.1]
      · rw [hu.recv,hsa,hm.2.1]
      · rw [hu.chain,hsa,hm.2.2]
    | inr hlt =>
      have hst := h₀.epoch
      have hn := hu.epoch
      omega
  | inr hk =>
    obtain ⟨keys,hh,hs⟩ := hk
    have hc := hs.current he
    refine ⟨?_,?_,?_⟩
    · rw [hh.send,hc.recv]
    · rw [hh.recv,hc.send]
    · rw [hh.chain,hc.chain]

lemma Inv.createRotate (h : Inv p s₀ s) (sk : Bytes) : Inv p s₀ (step p s (.createRotate sk)) := by
  refine ⟨?_,h.answered,h.responder,?_⟩
  · intro a ha
    have hk : sk = a := Option.some.inj ha
    exact congrArg p.publicBytes hk
  cases h.initiator with
  | inl hu => exact .inl ⟨hu.epoch,hu.send,hu.recv,hu.chain⟩
  | inr hk =>
    obtain ⟨keys,hh,hs⟩ := hk
    exact .inr ⟨keys,⟨hh.send,hh.recv,hh.chain⟩,hs⟩

lemma Inv.deliverRotate (hp : p.Lawful) (h : Inv p s₀ s) (data sk np : Bytes)
    (now : ℚ) : Inv p s₀ (step p s (.deliverRotate data sk np now)) := by
  cases handleEpochRotate_cases (p := p) s.responder data sk np now with
  | inl he =>
    obtain ⟨e,he⟩ := he
    have hs : step p s (.deliverRotate data sk np now) = s := by
      simp only [step,he]
      rfl
    rw [hs]
    exact h
  | inr hok =>
    obtain ⟨parsed,keys,hk,hm,hac⟩ := hok
    obtain ⟨hde,hlt,hd⟩ := answerKeys_ok hk
    have hla : s.responder.currentEpochId <
        (step p s (.deliverRotate data sk np now)).responder.currentEpochId := by
      simp only [step,hm]
      exact hlt
    refine ⟨h.pending,?_,?_,?_⟩
    · intro x hx
      cases List.mem_append.mp hx with
      | inl hn =>
        -- The new answer: its keys are the ones just activated.
        rw [Option.mem_toList,hac] at hn
        obtain ⟨ack,hb,rfl⟩ := Option.map_eq_some_iff.mp hn
        refine ⟨parsed.epochId,keys,⟨parsed,sk,hde,hd,?_⟩,?_⟩
        · intro a ha
          exact buildAck_decode hp (toOption_eq_some.mp hb) ha
        have hf : s₀.responder.currentEpochId ≤ s.responder.currentEpochId := by
          cases h.responder with
          | inl hsa => rw [hsa]
          | inr hl => omega
        simp only [step,hm]
        refine ⟨by omega,le_refl parsed.epochId,?_⟩
        intro _
        exact ⟨rfl,rfl,activateEpoch_chain hp hd⟩
      | inr ho =>
        obtain ⟨id,k,ha,hs⟩ := h.answered x ho
        exact ⟨id,k,ha,hs.later hla⟩
    · right
      cases h.responder with
      | inl hsa =>
        rw [← hsa]
        exact hla
      | inr hl => omega
    · cases h.initiator with
      | inl hu => exact .inl hu
      | inr hi =>
        obtain ⟨k,hh,hs⟩ := hi
        exact .inr ⟨k,hh,hs.later hla⟩

lemma completeKeys_answered (hp : p.Lawful) {data : Bytes} {parsed : EpochRotateAck}
    {x : Bytes × Bytes} {shared : EpochKeys}
    (hk : completeKeys p m data = .ok (parsed, keys))
    (hpe : ∀ a, m.pendingPrivateKey = some a → m.pendingPublicKey = p.publicBytes a)
    (hx : Answered p x epochId shared) (hc : CarriesAck parsed x.2)
    (han : ∃ r ∈ (decodeEpochRotate x.1).toOption, r.ephPubkey = m.pendingPublicKey) :
    parsed.epochId = epochId ∧ keys = shared := by
  obtain ⟨-,a,ha,hd⟩ := completeKeys_ok hk
  obtain ⟨r,b,hr,hs,hfi⟩ := hx
  obtain ⟨ack,hac,hid,hpu,-⟩ := hc
  have hf := hfi ack (toOption_eq_some.mp hac)
  obtain ⟨q,hq,hqp⟩ := han
  have hrq : r = q := by
    rw [toOption_eq_some.mp hq] at hr
    exact (Except.ok.inj hr).symm
  have he : parsed.epochId = epochId := by rw [hid,hf.1]
  refine ⟨he,?_⟩
  -- Both derivations use the pending key and the responder's key of that answer.
  have hrp : r.ephPubkey = p.publicBytes a := by rw [hrq,hqp,hpe a ha]
  have hbp : parsed.ephPubkey = p.publicBytes b := by rw [hpu,hf.2]
  rw [hbp,he,deriveEpochKeys_comm hp,← hrp,hs] at hd
  exact (Except.ok.inj hd).symm

lemma Inv.deliverAck (hp : p.Lawful) (h : Inv p s₀ s) (data np : Bytes) (now : ℚ)
    (hg : Genuine s (.deliverAck data np now)) (han : AnswersPending s (.deliverAck data np now)) :
    Inv p s₀ (step p s (.deliverAck data np now)) := by
  cases hk : completeKeys p s.initiator data with
  | error e =>
    have hs : step p s (.deliverAck data np now) = s := by
      simp [step,handleEpochRotateAck,hk]
    rw [hs]
    exact h
  | ok r =>
    obtain ⟨parsed,keys⟩ := r
    have hs : (step p s (.deliverAck data np now)).initiator =
        { activateEpoch p s.initiator parsed.epochId keys.i2r keys.r2i keys.i2r np now
          with pendingPrivateKey := none, pendingPublicKey := [] } := by
      simp [step,handleEpochRotateAck,hk]
    obtain ⟨hr,a,ha,hd⟩ := completeKeys_ok hk
    have hm : parsed ∈ (readAck s.initiator data).toOption := by
      rw [hr]
      rfl
    obtain ⟨x,hx,hc⟩ := hg parsed hm
    obtain ⟨epochId,shared,hxa,hsh⟩ := h.answered x hx
    have hl := han.resolve_left (by rw [ha]; exact Option.some_ne_none a) parsed hm x hx hc
    have heq := completeKeys_answered hp hk h.pending hxa hc hl
    refine ⟨?_,h.answered,h.responder,.inr ⟨keys,?_,?_⟩⟩
    · intro b hb
      rw [hs] at hb
      cases hb
    · rw [hs]
      have hch : (activateEpoch p s.initiator parsed.epochId keys.i2r keys.r2i keys.i2r
          np now).lastChainHash = computeChainHash p keys.i2r :=
        activateEpoch_chain hp hd
      exact ⟨rfl,rfl,hch⟩
    · rw [hs]
      rw [heq.1,heq.2]
      exact hsh

lemma Inv.step (hp : p.Lawful) (h : Inv p s₀ s) (e : Event)
    (hok : Genuine s e ∧ AnswersPending s e) : Inv p s₀ (step p s e) := by
  cases e with
  | createRotate sk => exact h.createRotate sk
  | deliverRotate data sk np now =>
    exact h.deliverRotate hp data sk np now
  | deliverAck data np now => exact h.deliverAck hp data np now hok.1 hok.2

end Invariant

/-- In every run whose accepted frames are genuine and whose accepted acks answer the
latest attempt, the two ends agree in every state. -/
theorem epoch_keys_agree (p : Primitives) (hp : p.Lawful) (s : Link) (hs : Initial p s)
    (es : List Event) (h : Guarded (step p) (fun s e => Genuine s e ∧ AnswersPending s e) s es) :
    Agree (run (step p) s es) :=
  (h.invariant (I := Inv p s) (fun _ e hi hok => hi.step hp e hok) hs.inv).agree hs

/-! A rotation with one retry, completed by the ack of either attempt. -/

def sampleIdentity (tag : UInt8) : RnsIdentity where
  publicKey := [tag]
  sign data := ((tag :: data) ++ List.replicate 64 0).take 64
  validate signature data := signature = ((tag :: data) ++ List.replicate 64 0).take 64

def sampleLink : Link where
  initiator := { peerIdentityHash := "b", isInitiator := true
                 localIdentity := some (sampleIdentity 1), peerIdentity := some (sampleIdentity 2) }
  responder := { peerIdentityHash := "a", isInitiator := false
                 localIdentity := some (sampleIdentity 2), peerIdentity := some (sampleIdentity 1) }

lemma sampleLink_initial : Initial additive sampleLink where
  epoch := rfl
  chain := rfl
  keys h := by cases h
  pending a h := by cases h
  answers := rfl

def sampleRotate (privateKey : Bytes) : Bytes :=
  (createEpochRotate additive sampleLink.initiator privateKey).1.toOption.getD []

def sampleAck (privateKey : Bytes) : Bytes :=
  (handleEpochRotate additive sampleLink.responder (sampleRotate privateKey)
    [7] [] 0).1.toOption.getD
    []

def retriedRun : List Event :=
  [.createRotate [1], .createRotate [2], .deliverRotate (sampleRotate [2]) [7] [] 0,
    .deliverAck (sampleAck [2]) [] 0]

theorem retriedRun_agrees : Matching (run (step additive) sampleLink retriedRun) :=
  epoch_keys_agree additive additive_lawful sampleLink sampleLink_initial retriedRun
    (by decide +kernel) (by decide +kernel) (by decide +kernel) (by decide +kernel)

def delayedAckRun : List Event :=
  [.createRotate [1], .deliverRotate (sampleRotate [1]) [7] [] 0, .createRotate [2],
    .deliverAck (sampleAck [1]) [] 0]

theorem delayedAckRun_disagrees :
    Initial additive sampleLink ∧ Guarded (step additive) Genuine sampleLink delayedAckRun ∧
      (delayedAckRun.filterMap Event.drawn?).Nodup ∧
      ¬ Agree (run (step additive) sampleLink delayedAckRun) := by
  refine ⟨sampleLink_initial,by decide +kernel,by decide +kernel,?_⟩
  intro h
  have hm := h (by decide +kernel) (by decide +kernel) (by decide +kernel)
  have hne : (run (step additive) sampleLink delayedAckRun).initiator.sendKey ≠
      (run (step additive) sampleLink delayedAckRun).responder.recvKey := by decide +kernel
  exact hne hm.1

end Hokora.EpochAgreement
