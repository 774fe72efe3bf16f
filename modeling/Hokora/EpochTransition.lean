import Hokora.EpochExchange

/-!
# Payloads during a rotation

Two queues of frames, first in, first out; rotation frames travel among the payloads.
-/
namespace Hokora.EpochTransition
open BigEndian EpochCrypto EpochExchange EpochLifecycle EpochWire List PyValue TransitionRuns
open EpochAgreement (sampleIdentity sampleLink)

inductive Frame where
  | control (data : Bytes)
  | payload (data plaintext : Bytes)

structure Duplex where
  initiator : EpochManager
  responder : EpochManager
  toResponder : List Frame := []
  toInitiator : List Frame := []
  awaitingAck : Bool := false
  opened : List (Bytes × Py Bytes) := []

abbrev NoncePrefix := { b : Bytes // b.length = 16 }

inductive Event where
  | encryptInitiator (plaintext : Bytes)
  | encryptResponder (plaintext : Bytes)
  | rotate (privateKey : Bytes)
  | deliverToResponder (privateKey : Bytes) (noncePrefix : NoncePrefix) (now : ℚ)
  | deliverToInitiator (noncePrefix : NoncePrefix) (now : ℚ)

def sent (frame : Py Bytes) (wrap : Bytes → Frame) : List Frame :=
  (frame.toOption.map wrap).toList

variable (p : Primitives)

def receiveAtResponder (s : Duplex) (privateKey : Bytes) (noncePrefix : NoncePrefix) (now : ℚ) :
    Frame → Duplex
  | .payload data plaintext =>
    let r := decrypt p s.responder data
    { s with responder := r.2, opened := s.opened ++ [(plaintext, r.1)] }
  | .control data =>
    let r := handleEpochRotate p s.responder data privateKey noncePrefix.1 now
    { s with responder := r.2, toInitiator := s.toInitiator ++ sent r.1 .control }

def receiveAtInitiator (s : Duplex) (noncePrefix : NoncePrefix) (now : ℚ) : Frame → Duplex
  | .payload data plaintext =>
    let r := decrypt p s.initiator data
    { s with initiator := r.2, opened := s.opened ++ [(plaintext, r.1)] }
  | .control data =>
    let r := handleEpochRotateAck p s.initiator data noncePrefix.1 now
    { s with initiator := r.2, awaitingAck := s.awaitingAck && r.1.toOption.isNone }

def step (s : Duplex) : Event → Duplex
  | .encryptInitiator plaintext =>
    let r := encrypt p s.initiator plaintext
    { s with
      initiator := r.2
      toResponder := s.toResponder ++ sent r.1 fun data => .payload data plaintext }
  | .encryptResponder plaintext =>
    let r := encrypt p s.responder plaintext
    { s with
      responder := r.2
      toInitiator := s.toInitiator ++ sent r.1 fun data => .payload data plaintext }
  | .rotate privateKey =>
    let r := createEpochRotate p s.initiator privateKey
    { s with
      initiator := r.2
      toResponder := s.toResponder ++ sent r.1 .control
      awaitingAck := s.awaitingAck || r.1.toOption.isSome }
  | .deliverToResponder privateKey noncePrefix now =>
    match s.toResponder with
    | [] => s
    | f :: rest => receiveAtResponder p { s with toResponder := rest } privateKey noncePrefix now f
  | .deliverToInitiator noncePrefix now =>
    match s.toInitiator with
    | [] => s
    | f :: rest => receiveAtInitiator p { s with toInitiator := rest } noncePrefix now f

/-- The initiator starts a rotation only when no ack is outstanding. -/
def OneAtATime (s : Duplex) : Event → Prop
  | .rotate _ => s.awaitingAck = false
  | _ => True

instance (s : Duplex) : (e : Event) → Decidable (OneAtATime s e)
  | .rotate _ => inferInstanceAs (Decidable (s.awaitingAck = false))
  | .encryptInitiator _ | .encryptResponder _ | .deliverToResponder _ _ _
  | .deliverToInitiator _ _ => isTrue trivial

/-- Every payload that arrived was opened to the text that was sealed. -/
def AllOpened (s : Duplex) : Prop := ∀ x ∈ s.opened, x.2 = .ok x.1

structure Agreed (s : Duplex) : Prop where
  epoch : s.initiator.currentEpochId = s.responder.currentEpochId
  initiatorToResponder : ∃ k, s.initiator.sendKey = some k ∧ s.responder.recvKey = some k ∧
    k.length = 32
  responderToInitiator : ∃ k, s.responder.sendKey = some k ∧ s.initiator.recvKey = some k ∧
    k.length = 32
  initiatorPrefix : s.initiator.noncePrefix.length = 16
  responderPrefix : s.responder.noncePrefix.length = 16
  recognises : Recognises s.initiator s.responder
  toResponder : s.toResponder = []
  toInitiator : s.toInitiator = []
  opened : s.opened = []

variable {p}

def Carries (p : Primitives) (epochId : ℕ) (key : Bytes) : Frame → Prop
  | .payload data plaintext => Sealed p epochId key data plaintext
  | .control _ => False

def AllSealed (p : Primitives) (epochId : ℕ) (key : Bytes) (q : List Frame) : Prop :=
  ∀ f ∈ q, Carries p epochId key f

structure Readable (p : Primitives) (m : EpochManager) (q : List Frame) : Prop where
  split : ∃ old new key, q = old ++ new ∧ usable m.recvKey = some key ∧
    AllSealed p m.currentEpochId key new ∧
    (old = [] ∨ ∃ prev, usable m.prevRecvKey = some prev ∧ m.prevEpochId ≠ m.currentEpochId ∧
      AllSealed p m.prevEpochId prev old)

section Queues
variable {m m' : EpochManager} {q q' : List Frame} {key : Bytes} {epochId : ℕ}

lemma AllSealed.nil : AllSealed p epochId key [] := by
  intro f hf
  cases hf

lemma AllSealed.append (h : AllSealed p epochId key q) (h' : AllSealed p epochId key q') :
    AllSealed p epochId key (q ++ q') := by
  intro f hf
  rcases mem_append.mp hf with hf | hf
  · exact h f hf
  · exact h' f hf

variable {data : Bytes}

lemma AllSealed.head {pt : Bytes} (h : AllSealed p epochId key (.payload data pt :: q)) :
    Sealed p epochId key data pt ∧ AllSealed p epochId key q :=
  ⟨h _ mem_cons_self,fun f hf => h f (mem_cons_of_mem _ hf)⟩

lemma AllSealed.no_control (h : AllSealed p epochId key (.control data :: q)) :
    False := h _ mem_cons_self

lemma AllSealed.readable (h : AllSealed p m.currentEpochId key q)
    (hk : usable m.recvKey = some key) : Readable p m q :=
  ⟨[],q,key,rfl,hk,h,.inl rfl⟩

lemma Readable.append (h : Readable p m q) (hke : usable m.recvKey = some key)
    (h' : AllSealed p m.currentEpochId key q') : Readable p m (q ++ q') := by
  obtain ⟨old,new,k,rfl,hk,hn,ho⟩ := h.split
  cases hke.symm.trans hk
  exact ⟨old,new ++ q',key,append_assoc _ _ _,hke,hn.append h',ho⟩

lemma Readable.congr (h : Readable p m q) (hr : m'.recvKey = m.recvKey)
    (hp : m'.prevRecvKey = m.prevRecvKey) (hid : m'.currentEpochId = m.currentEpochId)
    (hpi : m'.prevEpochId = m.prevEpochId) : Readable p m' q := by
  obtain ⟨old,new,k,hq,hk,hn,ho⟩ := h.split
  refine ⟨old,new,k,hq,?_,?_,?_⟩
  · rw [hr]
    exact hk
  · rw [hid]
    exact hn
  · rw [hp,hid,hpi]
    exact ho

lemma Readable.no_control (h : Readable p m (.control data :: q)) : False := by
  obtain ⟨old,new,k,hq,-,hn,ho⟩ := h.split
  cases old with
  | nil =>
    subst hq
    exact hn.no_control
  | cons f old =>
    obtain ⟨rfl,-⟩ := cons_eq_cons.mp hq
    rcases ho with hni | ⟨prev,-,-,ho⟩
    · cases hni
    · exact ho.no_control

lemma Readable.head {pt : Bytes} (h : Readable p m (.payload data pt :: q)) :
    ∃ prev, decrypt p m data = (.ok pt, { m with prevRecvKey := prev }) ∧
      Readable p { m with prevRecvKey := prev } q := by
  obtain ⟨old,new,k,hq,hk,hn,ho⟩ := h.split
  cases old with
  | nil =>
    subst hq
    obtain ⟨hs,hr⟩ := hn.head
    exact ⟨none,decrypt_current hk hs,[],q,k,rfl,hk,hr,.inl rfl⟩
  | cons f old =>
    obtain ⟨rfl,rfl⟩ := cons_eq_cons.mp hq
    rcases ho with hni | ⟨prev,hp,hne,ho⟩
    · cases hni
    · obtain ⟨hs,hr⟩ := ho.head
      exact ⟨m.prevRecvKey,decrypt_previous hp hne hs,old,new,k,rfl,hk,hn,.inr ⟨prev,hp,hne,hr⟩⟩

end Queues

structure Linked (s : Duplex) (i2r r2i : Bytes) : Prop where
  epoch : s.initiator.currentEpochId = s.responder.currentEpochId
  send : usable s.initiator.sendKey = some i2r
  recv : usable s.initiator.recvKey = some r2i
  peerSend : usable s.responder.sendKey = some r2i
  peerRecv : usable s.responder.recvKey = some i2r

/-- A rotate frame that carries the public key of the pending private key. -/
def Requests (p : Primitives) (m : EpochManager) (rotate : Bytes) : Prop :=
  ∃ a, m.pendingPrivateKey = some a ∧
    ∀ parsed, decodeEpochRotate rotate = .ok parsed → parsed.ephPubkey = p.publicBytes a

inductive Phase (p : Primitives) (s : Duplex) : Prop
  | quiet (i2r r2i : Bytes) : Linked s i2r r2i → Readable p s.responder s.toResponder →
      Readable p s.initiator s.toInitiator → Phase p s
  | requested (i2r r2i : Bytes) (q : List Frame) (rotate : Bytes) (later : List Frame) :
      Linked s i2r r2i → s.toResponder = q ++ .control rotate :: later →
      Readable p s.responder q → AllSealed p s.responder.currentEpochId i2r later →
      Requests p s.initiator rotate → Readable p s.initiator s.toInitiator →
      s.awaitingAck = true → Phase p s
  | answered (i2r : Bytes) (ack : EpochRotateAck) (keys : EpochKeys) (q : List Frame)
      (data : Bytes) (later : List Frame) :
      usable s.initiator.sendKey = some i2r → usable s.responder.prevRecvKey = some i2r →
      s.responder.prevEpochId = s.initiator.currentEpochId →
      s.responder.prevEpochId ≠ s.responder.currentEpochId →
      AllSealed p s.initiator.currentEpochId i2r s.toResponder →
      s.toInitiator = q ++ .control data :: later → Readable p s.initiator q →
      AllSealed p s.responder.currentEpochId keys.r2i later →
      completeKeys p s.initiator data = .ok (ack, keys) →
      ack.epochId = s.responder.currentEpochId →
      usable s.responder.sendKey = some keys.r2i → usable s.responder.recvKey = some keys.i2r →
      s.awaitingAck = true → Phase p s

structure Inv (p : Primitives) (s : Duplex) : Prop where
  phase : Phase p s
  initiatorPrefix : s.initiator.noncePrefix.length = 16
  responderPrefix : s.responder.noncePrefix.length = 16
  recognises : Recognises s.initiator s.responder
  opened : AllOpened s

lemma usable_of_length {o : Option Bytes} {k : Bytes} (h : o = some k) (hl : k.length = 32) :
    usable o = some k := by
  refine usable_eq_some.mpr ⟨h,?_⟩
  rintro rfl
  cases hl

lemma Agreed.inv {s : Duplex} (h : Agreed s) : Inv p s := by
  obtain ⟨i2r,hs,hp,hi⟩ := h.initiatorToResponder
  obtain ⟨r2i,hps,hre,hr⟩ := h.responderToInitiator
  have hl : Linked s i2r r2i := ⟨h.epoch,usable_of_length hs hi,
    usable_of_length hre hr,usable_of_length hps hr,usable_of_length hp hi⟩
  refine ⟨.quiet i2r r2i hl ?_ ?_,h.initiatorPrefix,h.responderPrefix,h.recognises,?_⟩
  · rw [h.toResponder]
    exact AllSealed.nil.readable hl.peerRecv
  · rw [h.toInitiator]
    exact AllSealed.nil.readable hl.recv
  · intro x hx
    rw [h.opened] at hx
    cases hx

variable {np : NoncePrefix} {now : ℚ}

section Steps
variable {s : Duplex} {data : Bytes} {m : EpochManager} {f : Frame} {rest : List Frame}

lemma mem_sent {frame : Py Bytes} {wrap : Bytes → Frame} :
    f ∈ sent frame wrap ↔ ∃ data, frame = .ok data ∧ wrap data = f := by
  unfold sent
  rw [Option.mem_toList,Option.map_eq_some_iff]
  simp [toOption_eq_some]

lemma sent_encrypt (hp : Sound p) (hs : m.noncePrefix.length = 16) {key : Bytes}
    (hk : usable m.sendKey = some key) (pt : Bytes) : AllSealed p m.currentEpochId key
      (sent (encrypt p m pt).1 fun data => .payload data pt) := by
  intro f hf
  obtain ⟨data,hd,rfl⟩ := mem_sent.mp hf
  exact encrypt_ok hp hs (usable_eq_some.mp hk).1 hd

variable {fs : List Frame} {sk : Bytes}

lemma Phase.sendInitiator {n : ℕ} (h : Phase p s)
    (hfs : ∀ key, usable s.initiator.sendKey = some key →
    AllSealed p s.initiator.currentEpochId key fs) :
    Phase p { s with
      initiator := { s.initiator with messageCounter := n }
      toResponder := s.toResponder ++ fs } := by
  cases h with
  | quiet i2r r2i hl hr hi =>
    have hs := hfs i2r hl.send
    rw [hl.epoch] at hs
    exact .quiet i2r r2i ⟨hl.epoch,hl.send,hl.recv,hl.peerSend,hl.peerRecv⟩
      (hr.append hl.peerRecv hs) (hi.congr rfl rfl rfl rfl)
  | requested i2r r2i q rotate later hl hq hr hla hre hi haw =>
    have hs := hfs i2r hl.send
    rw [hl.epoch] at hs
    refine .requested i2r r2i q rotate (later ++ fs)
      ⟨hl.epoch,hl.send,hl.recv,hl.peerSend,hl.peerRecv⟩ ?_ hr (hla.append hs) hre
      (hi.congr rfl rfl rfl rfl) haw
    rw [hq,append_assoc]
    rfl
  | answered i2r ack keys q data later hse hp hpi hne hr hq hi hla hk ha hps hpr haw =>
    exact .answered i2r ack keys q data later hse hp hpi hne (hr.append (hfs i2r hse)) hq
      (hi.congr rfl rfl rfl rfl) hla hk ha hps hpr haw

lemma Phase.sendResponder {n : ℕ} (h : Phase p s)
    (hfs : ∀ key, usable s.responder.sendKey = some key →
    AllSealed p s.responder.currentEpochId key fs) :
    Phase p { s with
      responder := { s.responder with messageCounter := n }
      toInitiator := s.toInitiator ++ fs } := by
  cases h with
  | quiet i2r r2i hl hr hi =>
    have hs := hfs r2i hl.peerSend
    rw [← hl.epoch] at hs
    exact .quiet i2r r2i ⟨hl.epoch,hl.send,hl.recv,hl.peerSend,hl.peerRecv⟩
      (hr.congr rfl rfl rfl rfl) (hi.append hl.recv hs)
  | requested i2r r2i q rotate later hl hq hr hla hre hi haw =>
    have hs := hfs r2i hl.peerSend
    rw [← hl.epoch] at hs
    exact .requested i2r r2i q rotate later
      ⟨hl.epoch,hl.send,hl.recv,hl.peerSend,hl.peerRecv⟩ hq (hr.congr rfl rfl rfl rfl) hla
      hre (hi.append hl.recv hs) haw
  | answered i2r ack keys q data later hse hp hpi hne hr hq hi hla hk ha hps hpr haw =>
    refine .answered i2r ack keys q data (later ++ fs) hse hp hpi hne hr ?_ hi
      (hla.append (hfs keys.r2i hps)) hk ha hps hpr haw
    rw [hq,append_assoc]
    rfl

lemma Phase.rotate (hp : p.Lawful) (h : Phase p s) (haw : s.awaitingAck = false)
    (sk : Bytes) : Phase p (step p s (.rotate sk)) := by
  cases h with
  | requested _ _ _ _ _ _ _ _ _ _ _ haw' =>
    rw [haw] at haw'
    cases haw'
  | answered _ _ _ _ _ _ _ _ _ _ _ _ _ _ _ _ _ _ haw' =>
    rw [haw] at haw'
    cases haw'
  | quiet i2r r2i hl hr hi =>
    have hl' : Linked (step p s (.rotate sk)) i2r r2i :=
      ⟨hl.epoch,hl.send,hl.recv,hl.peerSend,hl.peerRecv⟩
    have hi' : Readable p (createEpochRotate p s.initiator sk).2 s.toInitiator :=
      hi.congr rfl rfl rfl rfl
    cases hf : (createEpochRotate p s.initiator sk).1 with
    | error e =>
      refine .quiet i2r r2i hl' ?_ hi'
      simp only [step,hf,sent,Except.toOption,Option.map_none,Option.toList_none,append_nil]
      exact hr
    | ok frame =>
      refine .requested i2r r2i s.toResponder frame [] hl' ?_ hr .nil ⟨sk,rfl,?_⟩ hi' ?_
      · simp [step,hf,sent,Except.toOption]
      · intro parsed hd
        exact createEpochRotate_ephPubkey hp hf hd
      · simp [step,hf,Except.toOption]

lemma Phase.openAtResponder {pt : Bytes} (h : Phase p s)
    (hs : s.toResponder = .payload data pt :: rest) : ∃ prev, decrypt p s.responder data =
        (.ok pt, { s.responder with prevRecvKey := prev }) ∧
      ∀ opened, Phase p { s with
        responder := { s.responder with prevRecvKey := prev }
        toResponder := rest
        opened := opened } := by
  cases h with
  | quiet i2r r2i hl hr hi =>
    rw [hs] at hr
    obtain ⟨prev,hd,hre⟩ := hr.head
    exact ⟨prev,hd,fun _ => .quiet i2r r2i
      ⟨hl.epoch,hl.send,hl.recv,hl.peerSend,hl.peerRecv⟩ hre hi⟩
  | requested i2r r2i q rotate later hl hq hr hla hreq hi haw =>
    rw [hs] at hq
    cases q with
    | nil => cases hq
    | cons f q =>
      obtain ⟨rfl,rfl⟩ := cons_eq_cons.mp hq
      obtain ⟨prev,hd,hre⟩ := hr.head
      exact ⟨prev,hd,fun _ => .requested i2r r2i q rotate later
        ⟨hl.epoch,hl.send,hl.recv,hl.peerSend,hl.peerRecv⟩ rfl hre hla hreq hi haw⟩
  | answered i2r ack keys q ackData later hsen hp hpi hne hr hq hi hla hk ha hps hpr haw =>
    rw [hs] at hr
    obtain ⟨hse,hre⟩ := hr.head
    rw [← hpi] at hse
    exact ⟨s.responder.prevRecvKey,decrypt_previous hp hne hse,
      fun _ => .answered i2r ack keys q ackData later hsen hp hpi hne hre hq hi hla hk
        ha hps hpr haw⟩

lemma Phase.openAtInitiator {pt : Bytes} (h : Phase p s)
    (hs : s.toInitiator = .payload data pt :: rest) : ∃ prev, decrypt p s.initiator data =
        (.ok pt, { s.initiator with prevRecvKey := prev }) ∧
      ∀ opened, Phase p { s with
        initiator := { s.initiator with prevRecvKey := prev }
        toInitiator := rest
        opened := opened } := by
  cases h with
  | quiet i2r r2i hl hr hi =>
    rw [hs] at hi
    obtain ⟨prev,hd,hre⟩ := hi.head
    exact ⟨prev,hd,fun _ => .quiet i2r r2i
      ⟨hl.epoch,hl.send,hl.recv,hl.peerSend,hl.peerRecv⟩ hr hre⟩
  | requested i2r r2i q rotate later hl hq hr hla hreq hi haw =>
    rw [hs] at hi
    obtain ⟨prev,hd,hre⟩ := hi.head
    exact ⟨prev,hd,fun _ => .requested i2r r2i q rotate later
      ⟨hl.epoch,hl.send,hl.recv,hl.peerSend,hl.peerRecv⟩ hq hr hla hreq hre haw⟩
  | answered i2r ack keys q ackData later hse hp hpi hne hr hq hi hla hk ha hps hpr haw =>
    rw [hs] at hq
    cases q with
    | nil => cases hq
    | cons f q =>
      obtain ⟨rfl,rfl⟩ := cons_eq_cons.mp hq
      obtain ⟨prev,hd,hre⟩ := hi.head
      exact ⟨prev,hd,fun _ => .answered i2r ack keys q ackData later hse hp hpi hne hr
        rfl hre hla hk ha hps hpr haw⟩

lemma Phase.answer (hp : Sound p) (h : Phase p s)
    (hrec : Recognises s.initiator s.responder) (hs : s.toResponder = .control data :: rest) :
    Phase p (receiveAtResponder p { s with toResponder := rest } sk np now (.control data)) := by
  cases h with
  | quiet i2r r2i hl hr hi =>
    rw [hs] at hr
    exact hr.no_control.elim
  | answered i2r ack keys q ackData later hse hpr hpi hne hr =>
    rw [hs] at hr
    exact hr.no_control.elim
  | requested i2r r2i q rotate later hl hq hr hla hreq hi haw =>
    rw [hs] at hq
    cases q with
    | cons f q =>
      obtain ⟨rfl,-⟩ := cons_eq_cons.mp hq
      exact hr.no_control.elim
    | nil =>
      cases hq
      rcases handleEpochRotate_cases (p := p) s.responder data sk np.1 now with
        ⟨e,he⟩ | ⟨parsed,keys,hk,hm,hac⟩
      · -- Refused: the payloads behind the frame are under the current key.
        have hst : receiveAtResponder p { s with toResponder := rest } sk np
            now (.control data) = { s with toResponder := rest } := by
          simp [receiveAtResponder,he,sent,Except.toOption]
        rw [hst]
        exact .quiet i2r r2i ⟨hl.epoch,hl.send,hl.recv,hl.peerSend,hl.peerRecv⟩
          (hla.readable hl.peerRecv) hi
      -- Answered: the current key becomes the previous one.
      obtain ⟨a,hpe,hpu⟩ := hreq
      obtain ⟨hde,hlt,hd⟩ := answerKeys_ok hk
      rw [hpu parsed hde] at hd
      let r' := activateEpoch p s.responder parsed.epochId keys.r2i keys.i2r keys.i2r np.1 now
      have hke : Kept s.responder r' := activateEpoch_kept hp s.responder _ _ _ _ _ _
      obtain ⟨frame,ack,hb,hre,hid,ha⟩ := readAck_built hp.toLawful
        (hrec.kept (.refl _) hke) (hp.hmac_length _ _) (decodeEpochRotate_lt hde) sk
      have hc := completeKeys_answer hp.toLawful hre hpe ha (hid ▸ hd)
      obtain ⟨hi2,hr2⟩ := deriveEpochKeys_length hp.toLawful hd
      have hst : receiveAtResponder p { s with toResponder := rest } sk np
          now (.control data) = { s with
            toResponder := rest
            responder := r'
            toInitiator := s.toInitiator ++ [.control frame] } := by
        simp only [receiveAtResponder,hm,hac]
        rw [hb]
        rfl
      rw [hst]
      exact .answered i2r ack keys s.toInitiator frame [] hl.send hl.peerRecv hl.epoch.symm
        (Nat.ne_of_lt hlt) (hl.epoch ▸ hla) rfl hi .nil hc hid
        (usable_of_length rfl hr2) (usable_of_length rfl hi2) haw

lemma Phase.complete (hp : Sound p) (h : Phase p s) (hs : s.toInitiator = .control data :: rest) :
    Phase p (receiveAtInitiator p { s with toInitiator := rest } np now (.control data)) := by
  cases h with
  | quiet i2r r2i hl hr hi =>
    rw [hs] at hi
    exact hi.no_control.elim
  | requested i2r r2i q rotate later hl hq hr hla hre hi haw =>
    rw [hs] at hi
    exact hi.no_control.elim
  | answered i2r ack keys q ackData later hse hpre hpi hne hr hq hi hla hk ha hps hpr haw =>
    rw [hs] at hq
    cases q with
    | cons f q =>
      obtain ⟨rfl,-⟩ := cons_eq_cons.mp hq
      exact hi.no_control.elim
    | nil =>
      cases hq
      obtain ⟨-,a,-,hd⟩ := completeKeys_ok hk
      obtain ⟨hi2,hr2⟩ := deriveEpochKeys_length hp.toLawful hd
      let i' : EpochManager :=
        { activateEpoch p s.initiator ack.epochId keys.i2r keys.r2i keys.i2r np.1 now with
          pendingPrivateKey := none
          pendingPublicKey := [] }
      have hst : receiveAtInitiator p { s with toInitiator := rest } np now
          (.control data) = { s with
            toInitiator := rest
            initiator := i'
            awaitingAck := s.awaitingAck && false } := by
        simp only [receiveAtInitiator,handleEpochRotateAck,hk]
        rfl
      rw [hst]
      refine .quiet keys.i2r keys.r2i ⟨ha,usable_of_length rfl hi2,
        usable_of_length rfl hr2,hps,hpr⟩ ?_ ?_
      · refine ⟨s.toResponder,[],keys.i2r,(append_nil _).symm,hpr,.nil,.inr ⟨i2r,hpre,hne,?_⟩⟩
        rw [hpi]
        exact hr
      · rw [← ha] at hla
        exact AllSealed.readable (m := i') hla (usable_of_length rfl hr2)

lemma handleEpochRotate_prefix (h : m.noncePrefix.length = 16) :
    (handleEpochRotate p m data sk np.1 now).2.noncePrefix.length = 16 := by
  unfold handleEpochRotate
  cases answerKeys p m data sk with
  | error e => exact h
  | ok r => exact np.2

lemma handleEpochRotateAck_prefix (h : m.noncePrefix.length = 16) :
    (handleEpochRotateAck p m data np.1 now).2.noncePrefix.length = 16 := by
  unfold handleEpochRotateAck
  cases completeKeys p m data with
  | error e => exact h
  | ok r => exact np.2

lemma AllOpened.snoc {opened : List (Bytes × Py Bytes)} {pt : Bytes}
    (h : ∀ x ∈ opened, x.2 = .ok x.1) :
    ∀ x ∈ opened ++ [(pt, .ok pt)], x.2 = .ok x.1 := by
  intro x hx
  rcases mem_append.mp hx with hx | hx
  · exact h x hx
  · cases mem_singleton.mp hx
    rfl

lemma Inv.atResponder (hp : Sound p) (h : Inv p s) (sk : Bytes)
    (np : NoncePrefix) (now : ℚ) (hs : s.toResponder = f :: rest) :
    Inv p (receiveAtResponder p { s with toResponder := rest } sk np now f) := by
  cases f with
  | payload data plaintext =>
    obtain ⟨prev,hd,hph⟩ := h.phase.openAtResponder hs
    have hst : receiveAtResponder p { s with toResponder := rest } sk np now
        (.payload data plaintext) = { s with
          responder := { s.responder with prevRecvKey := prev }
          toResponder := rest
          opened := s.opened ++ [(plaintext, .ok plaintext)] } := by
      simp [receiveAtResponder,hd]
    rw [hst]
    exact ⟨hph _,h.initiatorPrefix,h.responderPrefix,h.recognises,.snoc h.opened⟩
  | control data =>
    exact ⟨h.phase.answer hp h.recognises hs,h.initiatorPrefix,
      handleEpochRotate_prefix h.responderPrefix,
      h.recognises.kept (.refl _) (handleEpochRotate_kept hp),
      h.opened⟩

lemma Inv.atInitiator (hp : Sound p) (h : Inv p s) (np : NoncePrefix) (now : ℚ)
    (hs : s.toInitiator = f :: rest) :
    Inv p (receiveAtInitiator p { s with toInitiator := rest } np now f) := by
  cases f with
  | payload data plaintext =>
    obtain ⟨prev,hd,hph⟩ := h.phase.openAtInitiator hs
    have hst : receiveAtInitiator p { s with toInitiator := rest } np now
        (.payload data plaintext) = { s with
          initiator := { s.initiator with prevRecvKey := prev }
          toInitiator := rest
          opened := s.opened ++ [(plaintext, .ok plaintext)] } := by
      simp [receiveAtInitiator,hd]
    rw [hst]
    exact ⟨hph _,h.initiatorPrefix,h.responderPrefix,h.recognises,.snoc h.opened⟩
  | control data =>
    exact ⟨h.phase.complete hp hs, handleEpochRotateAck_prefix h.initiatorPrefix,h.responderPrefix,
      h.recognises.kept (handleEpochRotateAck_kept hp) (.refl _),h.opened⟩

lemma Inv.step (hp : Sound p) (h : Inv p s) (e : Event) (hok : OneAtATime s e) :
    Inv p (step p s e) := by
  cases e with
  | encryptInitiator plaintext =>
    obtain ⟨n,hn⟩ := encrypt_manager (p := p) s.initiator plaintext
    have hph := h.phase.sendInitiator (n := n) fun key hk =>
      sent_encrypt hp h.initiatorPrefix hk plaintext
    simp only [EpochTransition.step,hn]
    exact ⟨hph,h.initiatorPrefix,h.responderPrefix,h.recognises,h.opened⟩
  | encryptResponder plaintext =>
    obtain ⟨n,hn⟩ := encrypt_manager (p := p) s.responder plaintext
    have hph := h.phase.sendResponder (n := n) fun key hk =>
      sent_encrypt hp h.responderPrefix hk plaintext
    simp only [EpochTransition.step,hn]
    exact ⟨hph,h.initiatorPrefix,h.responderPrefix,h.recognises,h.opened⟩
  | rotate sk =>
    exact ⟨h.phase.rotate hp.toLawful hok sk,h.initiatorPrefix,h.responderPrefix,
      h.recognises.kept (createEpochRotate_kept _ _) (.refl _),h.opened⟩
  | deliverToResponder sk np now =>
    unfold EpochTransition.step
    cases hs : s.toResponder with
    | nil => exact h
    | cons f rest => exact h.atResponder hp sk np now hs
  | deliverToInitiator np now =>
    unfold EpochTransition.step
    cases hs : s.toInitiator with
    | nil => exact h
    | cons f rest => exact h.atInitiator hp np now hs

end Steps

/-- With ordered reliable channels and one rotation at a time, every payload that arrives
opens to the text that was sealed, in every interleaving. -/
theorem payloads_open_in_transition (p : Primitives) (hp : Sound p) (s : Duplex) (hs : Agreed s)
    (es : List Event) (h : Guarded (step p) OneAtATime s es) : AllOpened (run (step p) s es) :=
  (h.invariant (I := Inv p) (fun _ e hi hok => hi.step hp e hok) hs.inv).opened

/-! Payloads before, during and after a rotation, in both directions. -/

def sampleDuplex : Duplex where
  initiator := { sampleLink.initiator with
    sendKey := some (padKey [1]), recvKey := some (padKey [2]), noncePrefix := replicate 16 0 }
  responder := { sampleLink.responder with
    sendKey := some (padKey [2]), recvKey := some (padKey [1]), noncePrefix := replicate 16 0 }

lemma sampleDuplex_agreed : Agreed sampleDuplex where
  epoch := rfl
  initiatorToResponder := ⟨padKey [1],rfl,rfl,rfl⟩
  responderToInitiator := ⟨padKey [2],rfl,rfl,rfl⟩
  initiatorPrefix := rfl
  responderPrefix := rfl
  recognises := ⟨sampleIdentity 2,sampleIdentity 2,rfl,rfl,
    length_sampleIdentity_sign 2,fun data => by simp [sampleIdentity]⟩
  toResponder := rfl
  toInitiator := rfl
  opened := rfl

def samplePrefix : NoncePrefix := ⟨replicate 16 9,rfl⟩

def sampleTransition : List Event :=
  [.encryptResponder [1], .rotate [3], .encryptInitiator [2],
    .deliverToResponder [4] samplePrefix 0,
    .encryptResponder [5], .deliverToInitiator samplePrefix 0, .deliverToInitiator samplePrefix 0,
    .encryptInitiator [6], .deliverToInitiator samplePrefix 0,
      .deliverToResponder [] samplePrefix 0,
    .deliverToResponder [] samplePrefix 0]

theorem sampleTransition_opens :
    (run (step padded) sampleDuplex sampleTransition).opened.length = 4 ∧
      AllOpened (run (step padded) sampleDuplex sampleTransition) :=
  ⟨by decide +kernel,payloads_open_in_transition padded padded_sound sampleDuplex
    sampleDuplex_agreed sampleTransition (by decide +kernel)⟩

end Hokora.EpochTransition
