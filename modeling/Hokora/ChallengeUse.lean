import Hokora.PeerTrust

/-!
# Counter-challenges are used once

Runs of handshake requests with the challenges they issue and use. The signature scheme is a
parameter.
-/
namespace Hokora.ChallengeUse
open BigEndian Constants Database HandshakeResponder KeyedTable List PyValue SenderBinding
  TransitionRuns
open PeerTrust (sampleSetup sampleChallenge firstKey)
open Option (map_none map_some toList_none toList_some)

structure Call where
  ctx : HandshakeContext
  st : Store
  payload : Val
  draws : Draws

structure Responder where
  mem : HandshakeMemory := {}
  issued : List (String × Bytes) := []
  completed : List (String × Bytes) := []

variable (p : EpochCrypto.Primitives) (sig : SignatureScheme)

def handle (mem : HandshakeMemory) (c : Call) : Py (HandshakeReply × Store) × HandshakeMemory :=
  handleFederationHandshake p sig c.ctx c.st mem c.payload c.draws

def charged (mem : HandshakeMemory) (c : Call) (req : Request) : HandshakeMemory :=
  (chargeLimiter mem req.key c.draws.now).1

/-- The request passes the rate limiter and the trust gate. -/
def Admitted (mem : HandshakeMemory) (c : Call) (req : Request) : Prop :=
  readRequest c.payload = .ok req ∧ (chargeLimiter mem req.key c.draws.now).2 = .ok () ∧
    ∃ peer, trustGate c.ctx.config c.st req = .ok peer

def issues (mem : HandshakeMemory) (c : Call) : Option String :=
  match readRequest c.payload with
  | .error _ => none
  | .ok req =>
    if (chargeLimiter mem req.key c.draws.now).2.isOk && (trustGate c.ctx.config c.st req).isOk &&
        isStep req.step 1 && (answerChallenge c.ctx.nodeRnsIdentity c.payload).isOk &&
        (issueChallenge (charged mem c req) req.key c.draws).2.isOk then some req.key
    else none

def answers (mem : HandshakeMemory) (c : Call) : Option String :=
  match readRequest c.payload with
  | .error _ => none
  | .ok req => if isStep req.step 3 && (handle p sig mem c).1.isOk then some req.key else none

def step (r : Responder) (c : Call) : Responder where
  mem := (handle p sig r.mem c).2
  issued := r.issued ++ ((issues r.mem c).map fun h => (h, c.draws.counterChallenge)).toList
  completed := r.completed ++
    ((answers p sig r.mem c).map fun h => (h, (storedChallenge r.mem h).getD [])).toList

/-- A challenge that is stored was not drawn before. -/
def Fresh (r : Responder) (c : Call) : Prop :=
  (issues r.mem c).isSome → ∀ e ∈ r.issued, e.2 ≠ c.draws.counterChallenge

variable {p sig} {mem : HandshakeMemory} {c : Call} {req : Request} {r : Responder}
  {challenge key : Bytes}

lemma verifyResponse_ok {response : Val}
    (h : verifyResponse sig challenge response (.bytes key) = true) :
    ∃ r, response = .bytes r ∧ sig.verify key challenge r = true := by
  cases response <;> simp_all [verifyResponse]

lemma verifyStep3_ok {stored : Option Bytes} {p : Val}
    (h : verifyStep3 sig stored p = .ok key) : ∃ challenge response, stored = some challenge ∧
      p.get "counter_response" .none = .ok (.bytes response) ∧
      p.get "peer_public_key" .none = .ok (.bytes key) ∧
      key.length = ed25519PublicKeySize ∧ sig.verify key challenge response = true := by
  obtain ⟨response,hr,h⟩ := bind_ok h
  obtain ⟨publicKey,hk,h⟩ := bind_ok h
  split at h
  next challenge hs hp =>
    obtain ⟨size,-,h⟩ := bind_ok h
    have hf : stored = some challenge := (Option.filter_eq_some_iff.mp hs).1
    split at h
    next k =>
      split_ifs at h with hl hv
      cases h
      obtain ⟨r,rfl,hsi⟩ := verifyResponse_ok hv
      exact ⟨challenge,r,hf,hr,hk,not_not.mp hl,hsi⟩
    · cases h
  · cases h

inductive Handled (sig : SignatureScheme) (mem : HandshakeMemory) (c : Call)
    (mem' : HandshakeMemory)
    (issued answered : Option String) : Prop
  | dropped : mem'.pending.rows.Sublist mem.pending.rows → issued = none → answered = none →
      (∀ req, Admitted mem c req → isStep req.step 3 = false) →
      Handled sig mem c mem' issued answered
  | stored (h : String) (kept : Table PendingChallenge.identityHash) :
      kept.rows.Sublist mem.pending.rows → kept.rows.length < maxPendingChallenges →
      mem'.pending = kept.set ⟨h,c.draws.counterChallenge,c.draws.now⟩ →
      issued = some h → answered = none →
      (∀ req, Admitted mem c req → isStep req.step 3 = false) →
      Handled sig mem c mem' issued answered
  | taken (req : Request) : Admitted mem c req → isStep req.step 3 = true →
      mem'.pending = mem.pending.erase req.key → issued = none →
      (answered = none ∨ answered = some req.key ∧
        ∃ key, verifyStep3 sig (storedChallenge mem req.key) c.payload = .ok key) →
      Handled sig mem c mem' issued answered

lemma isStep_ne {v : Val} (h : isStep v 1 = true) : isStep v 3 = false := by
  unfold isStep at *
  rw [of_decide_eq_true h]
  decide

lemma issueChallenge_pending {key : String} {draws : Draws} :
    ∃ kept : Table PendingChallenge.identityHash, kept.rows.Sublist mem.pending.rows ∧
      ((issueChallenge mem key draws).2.isOk = false ∧
          (issueChallenge mem key draws).1.pending = kept ∨
        (issueChallenge mem key draws).2 = .ok () ∧ kept.rows.length < maxPendingChallenges ∧
          (issueChallenge mem key draws).1.pending =
            kept.set ⟨key,draws.counterChallenge,draws.now⟩) := by
  unfold issueChallenge
  simp only
  generalize hk : (if maxPendingChallenges ≤ mem.pending.rows.length then
      mem.pending.select fun c => !(pendingChallengeMaxAge < draws.now - c.issuedAt)
    else mem.pending) = kept
  refine ⟨kept,?_,?_⟩
  · rw [← hk]
    split_ifs
    · exact filter_sublist
    · exact List.Sublist.refl _
  · split_ifs with hf
    · exact .inl ⟨rfl,rfl⟩
    · exact .inr ⟨rfl,Nat.lt_of_not_le hf,rfl⟩

lemma handle_of_refused (hreq : readRequest c.payload = .ok req) (h : ¬ Admitted mem c req) :
    (handle p sig mem c).1.isOk = false ∧ (handle p sig mem c).2.pending = mem.pending := by
  have hp := chargeLimiter_pending mem req.key c.draws.now
  rw [handle,handleFederationHandshake,hreq]
  simp only
  split
  · exact ⟨rfl,hp⟩
  next hc =>
    split
    · exact ⟨rfl,hp⟩
    next peer hg => exact absurd ⟨hreq,hc,peer,hg⟩ h

lemma handle_of_admitted (h : Admitted mem c req) : ∃ peer,
    trustGate c.ctx.config c.st req = .ok peer ∧ handle p sig mem c =
      handleStep p sig c.ctx c.st (charged mem c req) c.payload req peer c.draws := by
  obtain ⟨hr,hc,peer,hg⟩ := h
  refine ⟨peer,hg,?_⟩
  rw [handle,handleFederationHandshake,hr]
  simp only [hc,hg]
  rfl

lemma issues_of_refused (hreq : readRequest c.payload = .ok req) (h : ¬ Admitted mem c req) :
    issues mem c = none := by
  rw [issues,hreq]
  cases hc : (chargeLimiter mem req.key c.draws.now).2 with
  | error e => simp [Except.isOk,Except.toBool,hc]
  | ok u =>
    cases hg : trustGate c.ctx.config c.st req with
    | error e => simp [Except.isOk,Except.toBool,hg]
    | ok peer => exact absurd ⟨hreq,hc,peer,hg⟩ h

lemma handled_of_admitted (h : Admitted mem c req) :
    Handled sig mem c (handle p sig mem c).2 (issues mem c) (answers p sig mem c) := by
  have hre := h.1
  obtain ⟨peer,hg,hh⟩ := handle_of_admitted h
  have hp : (charged mem c req).pending = mem.pending := chargeLimiter_pending ..
  have ho : isStep req.step 3 = false → ∀ req', Admitted mem c req' →
      isStep req'.step 3 = false := by
    intro h3 req' h'
    cases hre.symm.trans h'.1
    exact h3
  have hi : issues mem c = if isStep req.step 1 &&
      (answerChallenge c.ctx.nodeRnsIdentity c.payload).isOk &&
      (issueChallenge (charged mem c req) req.key c.draws).2.isOk then some req.key else none := by
    simp only [issues,hre,h.2.1,hg]
    rfl
  have ha : answers p sig mem c =
      if isStep req.step 3 && (handle p sig mem c).1.isOk then some req.key else none := by
    rw [answers,hre]
  unfold handleStep at hh
  by_cases h1 : isStep req.step 1 = true
  · have h3 := isStep_ne h1
    rw [if_pos h1,handleStep1] at hh
    rw [h1,Bool.true_and] at hi
    rw [h3,Bool.false_and] at ha
    cases han : answerChallenge c.ctx.nodeRnsIdentity c.payload with
    | error e =>
      rw [han] at hh hi
      exact .dropped (by rw [hh,hp]) hi ha (ho h3)
    | ok response =>
      rw [han] at hh hi
      obtain ⟨kept,hk,⟨hf,hm⟩ | ⟨hok,hr,hm⟩⟩ :=
        issueChallenge_pending
      · rw [hf,Bool.and_false] at hi
        exact .dropped (by rw [hh,hm,← hp]; exact hk) hi ha (ho h3)
      · rw [hok] at hi
        exact .stored req.key kept (hp ▸ hk) hr (by rw [hh,hm]) hi ha (ho h3)
  rw [if_neg h1] at hh
  rw [Bool.eq_false_iff.mpr h1,Bool.false_and,Bool.false_and] at hi
  by_cases h3 : isStep req.step 3 = true
  · rw [if_pos h3,handleStep3] at hh
    refine .taken req h h3 (by rw [hh,hp]) hi ?_
    rw [h3,Bool.true_and,hh] at ha
    have hs : storedChallenge (charged mem c req) req.key = storedChallenge mem req.key := by
      rw [storedChallenge,hp,storedChallenge]
    rw [hs] at ha
    cases hv : verifyStep3 sig (storedChallenge mem req.key) c.payload with
    | error e =>
      rw [hv] at ha
      exact .inl ha
    | ok key =>
      rw [hv] at ha
      exact .inr ⟨ha,key,rfl⟩
  · have h3 := Bool.eq_false_iff.mpr h3
    rw [h3,Bool.false_and] at ha
    refine .dropped ?_ hi ha (ho h3)
    rw [hh,h3,if_neg Bool.false_ne_true]
    split_ifs <;> rw [hp]

lemma handle_handled (p : EpochCrypto.Primitives) (sig : SignatureScheme) (mem : HandshakeMemory)
    (c : Call) : Handled sig mem c (handle p sig mem c).2 (issues mem c) (answers p sig mem c) := by
  cases hr : readRequest c.payload with
  | error e =>
    refine .dropped ?_ (by rw [issues,hr]) (by rw [answers,hr]) fun req h => ?_
    · rw [handle,handleFederationHandshake,hr]
    · cases hr.symm.trans h.1
  | ok req =>
    by_cases h : Admitted mem c req
    · exact handled_of_admitted h
    obtain ⟨hf,hk⟩ := handle_of_refused hr h
    refine .dropped (by rw [hk]) (issues_of_refused hr h) (by simp [answers,hr,hf])
      fun req' h' => ?_
    cases hr.symm.trans h'.1
    exact absurd h' h

structure Sound (r : Responder) : Prop where
  pending : ∀ e ∈ r.mem.pending.rows, (e.identityHash, e.challenge) ∈ r.issued ∧
    (e.identityHash, e.challenge) ∉ r.completed
  completed : ∀ e ∈ r.completed, e ∈ r.issued
  distinct : (r.issued.map Prod.snd).Nodup
  once : r.completed.Nodup
  bounded : r.mem.pending.rows.length ≤ maxPendingChallenges

lemma entry_of_stored {h : String} (hs : storedChallenge mem h = some challenge) :
    ∃ e ∈ mem.pending.rows, e.identityHash = h ∧ e.challenge = challenge := by
  obtain ⟨e,he,rfl⟩ := Option.map_eq_some_iff.mp hs
  exact ⟨e,Table.get?_mem he,Table.get?_key he,rfl⟩

lemma length_set_le {t : Table PendingChallenge.identityHash} {e : PendingChallenge} :
    (t.set e).rows.length ≤ t.rows.length + 1 := by
  obtain ⟨before,after,ho,hn⟩ := Table.set_rows t e
  rw [ho,hn]
  simp only [length_append,length_singleton]
  omega

lemma step_sound (h : Sound r) (hf : Fresh r c) : Sound (step p sig r c) := by
  have hh := handle_handled p sig r.mem c
  unfold step
  generalize (handle p sig r.mem c).2 = mem' at hh ⊢
  generalize han : answers p sig r.mem c = answered at hh ⊢
  cases hh with
  | dropped hsu hi ha =>
    subst ha
    simp only [hi,map_none,toList_none,append_nil]
    exact ⟨fun e he => h.pending e (hsu.subset he),h.completed,h.distinct,h.once,
      hsu.length_le.trans h.bounded⟩
  | stored k kept hsu hr hm hi ha =>
    subst ha
    have hn : ∀ e ∈ r.issued, e.2 ≠ c.draws.counterChallenge := hf (by rw [hi]; rfl)
    simp only [hi,map_none,map_some,toList_none,toList_some,append_nil]
    refine ⟨fun e he => ?_,fun e he => mem_append_left _ (h.completed e he),?_,h.once,?_⟩
    · rw [hm] at he
      rcases Table.mem_set_rows he with he | rfl
      · have ho := h.pending e (hsu.subset he)
        exact ⟨mem_append_left _ ho.1,ho.2⟩
      · exact ⟨mem_append_right _ mem_cons_self,fun hdo => hn _ (h.completed _ hdo) rfl⟩
    · rw [map_append,nodup_append]
      refine ⟨h.distinct,nodup_singleton _,?_⟩
      rintro x hx y hy rfl
      obtain ⟨e,he,rfl⟩ := mem_map.mp hx
      exact hn e he (mem_singleton.mp hy)
    · rw [hm]
      exact length_set_le.trans hr
  | taken req _ _ hm hi ha =>
    have hsu : ∀ e ∈ mem'.pending.rows, e ∈ r.mem.pending.rows ∧ e.identityHash ≠ req.key := by
      intro e he
      rw [hm,Table.erase,Table.select,mem_filter,decide_eq_true_eq] at he
      exact he
    have hb : mem'.pending.rows.length ≤ maxPendingChallenges := by
      rw [hm]
      exact (length_filter_le _ _).trans h.bounded
    simp only [hi,map_none,toList_none,append_nil]
    rcases ha with rfl | ⟨rfl,key,hv⟩
    · simp only [map_none,toList_none,append_nil]
      exact ⟨fun e he => h.pending e (hsu e he).1,h.completed,h.distinct,h.once,hb⟩
    obtain ⟨challenge,-,hs,-⟩ := verifyStep3_ok hv
    obtain ⟨e,he,hk,hc⟩ := entry_of_stored hs
    have ho := h.pending e he
    rw [hk,hc] at ho
    simp only [hs,Option.getD_some,map_some,toList_some]
    refine ⟨fun d hd => ?_,fun d hd => ?_,h.distinct,?_,hb⟩
    · obtain ⟨hd,hne⟩ := hsu d hd
      refine ⟨(h.pending d hd).1,fun hdo => ?_⟩
      rcases mem_append.mp hdo with hdo | hdo
      · exact (h.pending d hd).2 hdo
      · exact hne (Prod.ext_iff.mp (mem_singleton.mp hdo)).1
    · rcases mem_append.mp hd with hd | hd
      · exact h.completed d hd
      · rw [mem_singleton.mp hd]
        exact ho.1
    · rw [nodup_append]
      refine ⟨h.once,nodup_singleton _,?_⟩
      rintro x hx y hy rfl
      exact ho.2 (mem_singleton.mp hy ▸ hx)

lemma taken_of_admitted (h : Admitted mem c req) (h3 : isStep req.step 3 = true) :
    storedChallenge (handle p sig mem c).2 req.key = none := by
  cases handle_handled p sig mem c with
  | dropped _ _ _ hno =>
    rw [hno req h] at h3
    cases h3
  | stored _ _ _ _ _ _ _ hno =>
    rw [hno req h] at h3
    cases h3
  | taken req' h' _ hm =>
    cases h'.1.symm.trans h.1
    rw [storedChallenge,hm,Table.get?_erase,if_pos rfl]
    rfl

lemma signed_of_answered (hreq : readRequest c.payload = .ok req) (h3 : isStep req.step 3 = true)
    (hok : (handle p sig mem c).1.isOk = true) :
    answers p sig mem c = some req.key ∧ ∃ challenge response key,
      storedChallenge mem req.key = some challenge ∧
      c.payload.get "counter_response" .none = .ok (.bytes response) ∧
      c.payload.get "peer_public_key" .none = .ok (.bytes key) ∧
      key.length = ed25519PublicKeySize ∧ sig.verify key challenge response = true := by
  have han : answers p sig mem c = some req.key := by
    rw [answers,hreq]
    simp [h3,hok]
  refine ⟨han,?_⟩
  cases handle_handled p sig mem c with
  | dropped _ _ ha =>
    rw [han] at ha
    cases ha
  | stored _ _ _ _ _ _ ha =>
    rw [han] at ha
    cases ha
  | taken req' h' _ _ _ ha =>
    cases h'.1.symm.trans hreq
    rcases ha with ha | ⟨-,key,hv⟩
    · rw [han] at ha
      cases ha
    · obtain ⟨challenge,response,hr⟩ := verifyStep3_ok hv
      exact ⟨challenge,response,key,hr⟩

/-- In every state that requests with fresh challenges lead to, an answered step 3 is signed over a
challenge that a step 1 of the same peer stored and that was not answered before. A step 3 that is
let in takes the challenge away, one that is refused leaves it. -/
theorem challenges_single_use {limiter : Option RateLimit.RateLimiter} {calls : List Call}
    (h : Guarded (step p sig) Fresh { mem := { rateLimiter := limiter } } calls) :
    let r := run (step p sig) { mem := { rateLimiter := limiter } } calls
    (r.completed.map Prod.snd).Nodup ∧ r.mem.pending.rows.length ≤ maxPendingChallenges ∧
      ∀ c req, readRequest c.payload = .ok req → isStep req.step 3 = true →
        (Admitted r.mem c req → storedChallenge (handle p sig r.mem c).2 req.key = none) ∧
        (¬ Admitted r.mem c req → (handle p sig r.mem c).1.isOk = false ∧
          (handle p sig r.mem c).2.pending = r.mem.pending) ∧
        ((handle p sig r.mem c).1.isOk = true → ∃ challenge response key,
          (req.key, challenge) ∈ r.issued ∧ (req.key, challenge) ∉ r.completed ∧
          (step p sig r c).completed = r.completed ++ [(req.key, challenge)] ∧
          c.payload.get "counter_response" .none = .ok (.bytes response) ∧
          c.payload.get "peer_public_key" .none = .ok (.bytes key) ∧
          key.length = ed25519PublicKeySize ∧ sig.verify key challenge response = true) := by
  have hso : Sound (run (step p sig) { mem := { rateLimiter := limiter } } calls) :=
    Guarded.invariant (fun _ _ hr hc => step_sound hr hc)
      ⟨nofun,nofun,nodup_nil,nodup_nil,Nat.zero_le _⟩ h
  intro r
  refine ⟨?_,hso.bounded,fun c req hre h3 => ?_⟩
  · refine List.Nodup.map_on (fun x hx y hy hxy => ?_) hso.once
    exact inj_on_of_nodup_map hso.distinct (hso.completed x hx) (hso.completed y hy) hxy
  refine ⟨fun ha => taken_of_admitted ha h3,handle_of_refused hre,fun hok => ?_⟩
  obtain ⟨han,challenge,response,key,hs,hp⟩ := signed_of_answered hre h3 hok
  obtain ⟨e,he,hk,hch⟩ := entry_of_stored hs
  have ho := hso.pending e he
  rw [hk,hch] at ho
  refine ⟨challenge,response,key,ho.1,ho.2,?_,hp⟩
  simp [step,han,hs]

def known : Store where
  peers := .singleton { identityHash := "a" }

def firstStep : Call where
  ctx := sampleSetup.context
  st := known
  payload := .dict [("step", .int 1), ("identity_hash", .str "a"),
    ("challenge", .bytes (replicate 32 0))]
  draws := { counterChallenge := sampleChallenge, now := 0 }

def thirdStep (now : ℚ) : Call where
  ctx := sampleSetup.context
  st := known
  payload := .dict [("step", .int 3), ("identity_hash", .str "a"),
    ("counter_response", .bytes sampleChallenge), ("peer_public_key", .bytes firstKey)]
  draws := { counterChallenge := [], now := now }

/-- A step 5 without a frame: all that it does is to use up a token. -/
def idleStep : Call :=
  { thirdStep 0 with payload := .dict [("step", .int 5), ("identity_hash", .str "a")] }

/-- The calls, on a responder with the limiter of the defaults. -/
def after (calls : List Call) : Responder :=
  run (step sampleSetup.primitives sampleSetup.scheme) { mem := { rateLimiter := some {} } } calls

theorem knownPeer_completes : ∃ challenge, ("a", challenge) ∈ (after [firstStep]).issued ∧
    ("a", challenge) ∉ (after [firstStep]).completed ∧
    (after [firstStep, thirdStep 1]).completed =
      (after [firstStep]).completed ++ [("a", challenge)] := by
  have hg : Guarded (step sampleSetup.primitives sampleSetup.scheme) Fresh
      { mem := { rateLimiter := some {} } } [firstStep] :=
    ⟨fun _ e he => absurd he not_mem_nil,trivial⟩
  obtain ⟨req,hr,h3,hk⟩ : ∃ req, readRequest (thirdStep 1).payload = .ok req ∧
      isStep req.step 3 = true ∧ req.key = "a" := ⟨_,rfl,rfl,rfl⟩
  obtain ⟨challenge,-,-,hi,hn,hd,-⟩ :=
    ((challenges_single_use hg).2.2 (thirdStep 1) req hr h3).2.2 (by decide +kernel)
  rw [hk] at hi hn hd
  exact ⟨challenge,hi,hn,hd⟩

/-- The limiter refuses the eleventh request; a second later the same answer goes through. -/
theorem refusedStep_keeps_challenge :
    let spent := firstStep :: replicate 9 idleStep
    (handle sampleSetup.primitives sampleSetup.scheme (after spent).mem (thirdStep 0)).1.isOk =
        false ∧
      storedChallenge (after (spent ++ [thirdStep 0])).mem "a" = some sampleChallenge ∧
      (after (spent ++ [thirdStep 0, thirdStep 1])).completed = [("a", sampleChallenge)] := by
  decide +kernel

end Hokora.ChallengeUse
