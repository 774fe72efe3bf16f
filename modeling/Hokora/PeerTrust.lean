import Mathlib.Logic.Function.Basic
import Hokora.HandshakeInitiator
import Hokora.TransitionRuns

/-!
# Peer keys and operator trust over whole runs

Requests, mirrors, scheduled key writes, commands and restarts in any order.
-/
namespace Hokora.PeerTrust
open BigEndian Database EpochCrypto HandshakeInitiator HandshakeResponder KeyedTable PushReceive
  PyValue Repositories SenderBinding TransitionRuns

structure Setup where
  primitives : Primitives
  scheme : SignatureScheme
  context : HandshakeContext
  orchestrator : Orchestrator

structure Node where
  store : Store := {}
  memory : HandshakeMemory := {}
  mirrors : ℕ → ChannelMirror
  jobs : List (Val × Bytes) := []

def peerRow (st : Store) (h : String) : Peer := (st.peers.get? h).getD { identityHash := h }

def trustPeer (st : Store) (h : String) (flag : Bool) : Store :=
  { st with peers := st.peers.set { peerRow st h with federationTrusted := flag } }

inductive Event where
  | request (payload : Val) (draws : Draws)
  | mirror (i : ℕ) (e : MirrorEvent)
  | runJob (i : ℕ) (reachable : Bool)
  | command (h : String) (flag : Bool)
  | restart

def freshMirror (m : ChannelMirror) : ChannelMirror :=
  { remoteHash := m.remoteHash, channelId := m.channelId, hasFederationAuth := m.hasFederationAuth }

def step (u : Setup) (n : Node) : Event → Node
  | .request payload draws =>
    let r := handleFederationHandshake u.primitives u.scheme u.context n.store n.memory payload
      draws
    { n with store := committed n.store r.1, memory := r.2 }
  | .mirror i e =>
    let c := mirrorCall u.primitives u.scheme u.orchestrator (n.mirrors i) e
    { n with
      mirrors := Function.update n.mirrors i c.mirror
      jobs := n.jobs ++ c.effects.filterMap Effect.job? }
  | .runJob i reachable =>
    match n.jobs[i]? with
    | some job =>
      { n with
        store := persistPeerPublicKey n.store job.1 job.2 reachable
        jobs := n.jobs.eraseIdx i }
    | none => n
  | .command h flag => { n with store := trustPeer n.store h flag }
  | .restart =>
    { n with
      memory := { rateLimiter := n.memory.rateLimiter.map fun l =>
        { maxTokens := l.maxTokens, refillRate := l.refillRate } }
      mirrors := fun i => freshMirror (n.mirrors i)
      jobs := [] }

variable {st : Store} {h j : String} {flag : Bool}

lemma peerRow_identityHash : (peerRow st h).identityHash = h := by
  unfold peerRow
  cases hq : st.peers.get? h with
  | none => rfl
  | some q => exact Table.get?_key hq

lemma get?_trustPeer : (trustPeer st h flag).peers.get? j =
      if h = j then some { peerRow st h with federationTrusted := flag } else st.peers.get? j := by
  have hs := Table.get?_set st.peers { peerRow st h with federationTrusted := flag } j
  rw [peerRow_identityHash] at hs
  exact hs

lemma trusted_trustPeer :
    trusted (trustPeer st h flag) j = if h = j then flag else trusted st j := by
  rw [trusted,get?_trustPeer]
  split_ifs
  · rfl
  · rfl

lemma pinnedKey_trustPeer : pinnedKey (trustPeer st h flag) j = pinnedKey st j := by
  rw [pinnedKey,get?_trustPeer]
  split_ifs with hj
  · subst hj
    rw [pinnedKey,peerRow]
    cases st.peers.get? h with
    | none => rfl
    | some q => rfl
  · rfl

lemma persistPeerPublicKey_effect (st : Store) (v : Val) (k : Bytes) (re : Bool)
    (j : String) : trusted (persistPeerPublicKey st v k re) j = trusted st j ∧
      (pinnedKey (persistPeerPublicKey st v k re) j = pinnedKey st j ∨
        jobPeer v = some j ∧ pinnedKey (persistPeerPublicKey st v k re) j = some k) := by
  unfold persistPeerPublicKey
  split_ifs
  · exact ⟨rfl,.inl rfl⟩
  split
  next h hv =>
    simp only [trusted,pinnedKey,Table.get?_update]
    split_ifs with hj
    · subst hj
      cases hq : st.peers.get? j with
      | none => exact ⟨rfl,.inl rfl⟩
      | some q => exact ⟨rfl,.inr ⟨hv,rfl⟩⟩
    · exact ⟨rfl,.inl rfl⟩
  · exact ⟨rfl,.inl rfl⟩

/-- A key about to be written for a peer that has one is that key: in a request that
completes a handshake, and in a scheduled write. -/
def KeyUnchanged (u : Setup) (n : Node) : Event → Prop
  | .request payload _ =>
    ∀ x ∈ completes u.scheme n.memory payload,
      pinnedKey n.store x.1 = none ∨ pinnedKey n.store x.1 = some x.2
  | .runJob i _ =>
    ∀ job ∈ n.jobs[i]?, ∀ h ∈ jobPeer job.1,
      pinnedKey n.store h = none ∨ pinnedKey n.store h = some job.2
  | _ => True

instance (u : Setup) (n : Node) : (e : Event) → Decidable (KeyUnchanged u n e)
  | .request _ _ => inferInstanceAs (Decidable (∀ x ∈ _, _ ∨ _))
  | .runJob _ _ => inferInstanceAs (Decidable (∀ job ∈ _, ∀ h ∈ _, _ ∨ _))
  | .mirror _ _ | .command _ _ | .restart => isTrue trivial

section
variable {u : Setup} {n : Node} {h : String} {k : Bytes}

lemma pinned_of_write {k' : Bytes} {h' : String} (hk : pinnedKey n.store h = some k)
    (hok : pinnedKey n.store h' = none ∨ pinnedKey n.store h' = some k') (hh : h = h') :
    k' = k := by
  subst hh
  rw [hk] at hok
  have hs := hok.resolve_left (Option.some_ne_none k)
  exact (Option.some.inj hs).symm

lemma request_pinned {p : Val} {draws : Draws} (hk : pinnedKey n.store h = some k)
    (hok : KeyUnchanged u n (.request p draws)) :
    pinnedKey (step u n (.request p draws)).store h = some k := by
  cases handshake_effect u.primitives u.scheme u.context n.store n.memory p draws with
  | inl hke =>
    have hs := (hke h).2
    rw [← hk]
    exact hs
  | inr hd =>
    obtain ⟨h',k',hc,hst⟩ := hd
    change pinnedKey (committed n.store _) h = some k
    rw [hst,pinnedKey_completePeer]
    split_ifs with hh
    · have hkk : k' = k := pinned_of_write hk (hok (h', k') hc) hh
      obtain ⟨q,hq,-⟩ := Option.bind_eq_some_iff.mp hk
      rw [hq,hkk]
      rfl
    · exact hk

lemma runJob_pinned {i : ℕ} {re : Bool} (hk : pinnedKey n.store h = some k)
    (hok : KeyUnchanged u n (.runJob i re)) :
    pinnedKey (step u n (.runJob i re)).store h = some k := by
  simp only [step]
  cases hj : n.jobs[i]? with
  | none => exact hk
  | some job =>
    have he := (persistPeerPublicKey_effect n.store job.1 job.2 re h).2
    cases he with
    | inl hs =>
      rw [← hk]
      exact hs
    | inr hw =>
      have hkk := pinned_of_write hk (hok job hj h hw.1) rfl
      rw [← hkk]
      exact hw.2

lemma step_pinned {e : Event} (hk : pinnedKey n.store h = some k) (hok : KeyUnchanged u n e) :
    pinnedKey (step u n e).store h = some k := by
  cases e with
  | request payload draws => exact request_pinned hk hok
  | mirror i e => exact hk
  | runJob i reachable => exact runJob_pinned hk hok
  | command j flag =>
    rw [← hk]
    exact pinnedKey_trustPeer
  | restart => exact hk

end

/-- In every run in which no verified handshake brings another key for a peer that has
one, a pinned key stays, across restarts too. -/
theorem pinned_key_permanent (u : Setup) (n : Node) (h : String) (k : Bytes)
    (hk : pinnedKey n.store h = some k) (es : List Event)
    (hes : Guarded (step u) (KeyUnchanged u) n es) :
    pinnedKey (run (step u) n es).store h = some k :=
  hes.invariant (I := fun n => pinnedKey n.store h = some k)
    (fun _ _ hi hok => step_pinned hi hok) hk

def commanded (h : String) : Event → Option Bool
  | .command j flag => if j = h then some flag else none
  | _ => none

def lastCommand (h : String) (es : List Event) : Option Bool :=
  es.foldl (fun last e => (commanded h e).or last) none

/-- A request that completes a handshake is for a peer that is trusted already. -/
def TrustedBefore (u : Setup) (n : Node) : Event → Prop
  | .request payload _ =>
    ∀ x ∈ completes u.scheme n.memory payload,
      ∀ peer ∈ n.store.peers.get? x.1, peer.federationTrusted = true
  | _ => True

instance (u : Setup) (n : Node) : (e : Event) → Decidable (TrustedBefore u n e)
  | .request _ _ => inferInstanceAs (Decidable (∀ x ∈ _, ∀ peer ∈ _, _))
  | .runJob _ _ | .mirror _ _ | .command _ _ | .restart => isTrue trivial

section
variable {u : Setup} {n : Node} {h : String}

lemma request_trusted {p : Val} {draws : Draws} (hok : TrustedBefore u n (.request p draws)) :
    trusted (step u n (.request p draws)).store h = trusted n.store h := by
  cases handshake_effect u.primitives u.scheme u.context n.store n.memory p draws with
  | inl hk => exact (hk h).1
  | inr hd =>
    obtain ⟨h',k',hc,hst⟩ := hd
    change trusted (committed n.store _) h = trusted n.store h
    rw [hst,trusted_completePeer]
    split_ifs with hh
    · subst hh
      rw [trusted]
      cases hq : n.store.peers.get? h with
      | none => rfl
      | some q => exact (hok (h, k') hc q hq).symm
    · rfl

lemma step_trusted {e : Event} (hok : TrustedBefore u n e) :
    trusted (step u n e).store h = (commanded h e).getD (trusted n.store h) := by
  cases e with
  | request payload draws => exact request_trusted hok
  | mirror i e => rfl
  | runJob i re =>
    simp only [step,commanded]
    cases hj : n.jobs[i]? with
    | none => rfl
    | some job => exact (persistPeerPublicKey_effect n.store job.1 job.2 re h).1
  | command j flag =>
    change trusted (trustPeer n.store j flag) h = _
    rw [trusted_trustPeer,commanded]
    split_ifs
    · rfl
    · rfl
  | restart => rfl

lemma run_trusted {es : List Event} (hes : Guarded (step u) (TrustedBefore u) n es)
    (last : Option Bool) (hl : trusted n.store h = last.getD false) :
    trusted (run (step u) n es).store h =
      (es.foldl (fun last e => (commanded h e).or last) last).getD false := by
  induction es generalizing n last with
  | nil => exact hl
  | cons e es ih =>
    apply ih hes.2
    rw [step_trusted hes.1,hl]
    change _ = ((commanded h e).or last).getD false
    cases commanded h e with
    | none => rfl
    | some flag => rfl

end

/-- In every run from a node that trusts nobody, in which only trusted peers complete
handshakes, a trusted peer is one whose last command was to trust it. -/
theorem trust_follows_operator (u : Setup) (n : Node) (h : String)
    (hn : trusted n.store h = false) (es : List Event)
    (hes : Guarded (step u) (TrustedBefore u) n es)
    (ht : trusted (run (step u) n es).store h = true) : lastCommand h es = some true := by
  have hr := run_trusted hes none hn
  rw [ht] at hr
  change true = (lastCommand h es).getD false at hr
  cases hc : lastCommand h es with
  | none =>
    rw [hc] at hr
    cases hr
  | some flag =>
    rw [hc] at hr
    exact congrArg some hr.symm

def sampleSetup : Setup where
  primitives := additive
  scheme := { truncatedHashHex := fun _ => "", verify := fun _ message signature =>
    message = signature }
  context := { config := some {}, nodeName := "b", nodeIdentity := some "b", nodeRnsIdentity := none
               recallIdentity := fun _ => none }
  orchestrator := { config := {}, nodeName := "b", nodeIdentity := none, nodeIdentityHash := "b"
                    recallIdentity := fun _ => none }

def sampleNode : Node where
  mirrors _ := { remoteHash := [1], channelId := "c" }

def sampleChallenge : Bytes := List.replicate 32 7

def handshakeUnder (key : Bytes) : List Event :=
  [.request (.dict [("step", .int 1), ("identity_hash", .str "a"),
      ("challenge", .bytes (List.replicate 32 0))])
      { counterChallenge := sampleChallenge, now := 0 },
    .request (.dict [("step", .int 3), ("identity_hash", .str "a"),
      ("counter_response", .bytes sampleChallenge), ("peer_public_key", .bytes key)])
      { counterChallenge := sampleChallenge, now := 0 }]

def firstKey : Bytes := List.replicate 32 1
def otherKey : Bytes := List.replicate 32 2

def pinnedNode : Node := run (step sampleSetup) sampleNode
    (.command "a" true :: handshakeUnder firstKey)

theorem pinnedNode_keeps_key :
    pinnedKey (run (step sampleSetup) pinnedNode (.restart :: handshakeUnder firstKey)).store "a" =
      some firstKey :=
  pinned_key_permanent sampleSetup pinnedNode "a" firstKey (by decide +kernel)
    (.restart :: handshakeUnder firstKey) (by decide +kernel)

theorem pinnedNode_loses_key : pinnedKey pinnedNode.store "a" = some firstKey ∧
      pinnedKey (run (step sampleSetup) pinnedNode
        (.restart :: handshakeUnder otherKey)).store "a" =
        some otherKey ∧ firstKey ≠ otherKey := by
  refine ⟨by decide +kernel,by decide +kernel,by decide +kernel⟩

theorem trustedHandshake_follows_operator :
    lastCommand "a" (.command "a" true :: handshakeUnder firstKey) = some true :=
  trust_follows_operator sampleSetup sampleNode "a" (by decide +kernel)
    (.command "a" true :: handshakeUnder firstKey) (by decide +kernel) (by decide +kernel)

theorem untrusted_peer_regains_trust :
    sampleSetup.context.config.any FederationConfig.federationAutoTrust = false ∧
      trusted sampleNode.store "a" = false ∧
      lastCommand "a" ([.command "a" true, .command "a" false] ++ handshakeUnder firstKey) =
        some false ∧ trusted (run (step sampleSetup) sampleNode
        ([.command "a" true, .command "a" false] ++ handshakeUnder firstKey)).store "a" = true := by
  refine ⟨by decide +kernel,by decide +kernel,by decide +kernel,by decide +kernel⟩

end Hokora.PeerTrust
