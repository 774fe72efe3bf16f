import Hokora.EpochExchange
import Hokora.HandshakeInitiator

/-!
# Epoch state over a restart

All managers of a node stored and loaded. Rows are keyed by the peer, managers by peer and channel.
-/
namespace Hokora.EpochPersistence
open BigEndian EpochCrypto EpochExchange EpochLifecycle EpochWire HandshakeInitiator KeyedTable List
  PushReceive PyValue TransitionRuns

def mirrorKey (m : ChannelMirror) : String := toHex m.remoteHash ++ ":" ++ m.channelId

abbrev Mirrors := Table mirrorKey

structure Registration where
  mirrorKey : String
  manager : EpochManager

structure EpochOrchestrator where
  config : FederationConfig
  nodeIdentity : Option RnsIdentity
  recallIdentity : Bytes → Option RnsIdentity
  managers : Table Registration.mirrorKey := .empty

abbrev WrapNonce := { b : Bytes // b.length = 24 }

structure WrapNonces where
  send : String → WrapNonce
  recv : String → WrapNonce

def EpochOrchestrator.get (o : EpochOrchestrator) (key : String) : Option EpochManager :=
  (o.managers.get? key).map Registration.manager

def EpochOrchestrator.put (o : EpochOrchestrator) (key : String) (em : EpochManager) :
    EpochOrchestrator :=
  { o with managers := o.managers.set ⟨key,em⟩ }

def EpochOrchestrator.newManager (o : EpochOrchestrator) (peerIdentityHash : String)
    (isInitiator : Bool) (peerRnsIdentity : Option RnsIdentity) : EpochManager :=
  { peerIdentityHash := peerIdentityHash, isInitiator := isInitiator
    localIdentity := o.nodeIdentity, peerIdentity := peerRnsIdentity
    epochDuration := o.config.fsEpochDuration, hasDatabase := true }

def EpochOrchestrator.register (o : EpochOrchestrator) (key peerIdentityHash : String)
    (isInitiator : Bool) (peerRnsIdentity : Option RnsIdentity) :
    EpochManager × EpochOrchestrator :=
  match o.get key with
  | some existing => (existing, o)
  | none =>
    let em := o.newManager peerIdentityHash isInitiator peerRnsIdentity
    (em, o.put key em)

variable {em : EpochManager}

section Calls
variable (p : Primitives)

def persistOne (nonces : WrapNonces) (states : EpochStates) (r : Registration) : EpochStates :=
  if isActive r.manager then
    persistState p r.manager states (nonces.send r.mirrorKey) (nonces.recv r.mirrorKey) true
  else states

def persistAll (o : EpochOrchestrator) (nonces : WrapNonces) (states : EpochStates) : EpochStates :=
  run (persistOne p nonces) states o.managers.rows

def matchMirror (mirrors : Mirrors) (peerHash : String) : Option ChannelMirror :=
  mirrors.rows.find? fun m => (peerHash ++ ":").toList <+: (mirrorKey m).toList

structure Restart where
  orchestrator : EpochOrchestrator
  mirrors : Mirrors

def attach (em : EpochManager) (m : ChannelMirror) : ChannelMirror :=
  { m with epochManager := some em }

lemma mirrorKey_attach (m : ChannelMirror) : mirrorKey (attach em m) = mirrorKey m := rfl

def restoreOne (states : EpochStates) (s : Restart) (state : FederationEpochState) : Restart :=
  match matchMirror s.mirrors state.peerIdentityHash with
  | none => s
  | some mirror =>
    let registered := s.orchestrator.register (mirrorKey mirror) state.peerIdentityHash
      state.isInitiator (s.orchestrator.recallIdentity mirror.remoteHash)
    let em := EpochLifecycle.loadState p registered.1 states true
    { orchestrator := registered.2.put (mirrorKey mirror) em
      mirrors := s.mirrors.update (mirrorKey mirror) (attach em) mirrorKey_attach }

def loadState (s : Restart) (states : EpochStates) : Restart :=
  if s.orchestrator.config.fsEnabled then run (restoreOne p states) s states.rows else s

def restarted (o : EpochOrchestrator) (mirrors : Mirrors) (nonces : WrapNonces)
    (states : EpochStates) : EpochOrchestrator :=
  (loadState p ⟨{ o with managers := .empty },mirrors⟩ (persistAll p o nonces states)).orchestrator

end Calls

structure Activated (m : EpochManager) : Prop where
  sendKey : ∃ k, m.sendKey = some k ∧ k.length = 32
  recvKey : ∃ k, m.recvKey = some k ∧ k.length = 32
  chain : m.lastChainHash.length = 32

structure Registered (o : EpochOrchestrator) (r : Registration) : Prop where
  key : ∃ remoteHash channelId, r.mirrorKey = toHex remoteHash ++ ":" ++ channelId ∧
    r.manager.peerIdentityHash = toHex remoteHash
  identity : r.manager.localIdentity = o.nodeIdentity
  database : r.manager.hasDatabase = true
  active : Activated r.manager

def PeerRows (states : EpochStates) : Prop :=
  ∀ row ∈ states.rows, ∃ remoteHash, row.peerIdentityHash = toHex remoteHash

structure Wraps (p : Primitives) : Prop extends p.Lawful where
  unwrap_wrap : ∀ (kek : Bytes) (nonce : WrapNonce) (raw : Bytes), kek.length = 32 →
    ∃ wrapped, wrapKey p kek nonce raw = .ok wrapped ∧ unwrapKey p kek wrapped = .ok raw

structure SameState (m m' : EpochManager) : Prop where
  epochId : m'.currentEpochId = m.currentEpochId
  sendKey : m'.sendKey = m.sendKey
  recvKey : m'.recvKey = m.recvKey
  noncePrefix : m'.noncePrefix = m.noncePrefix
  counter : m'.messageCounter = m.messageCounter
  chain : m'.lastChainHash = m.lastChainHash

/-- Whatever rows the table had before, each registered manager is back after a restart. -/
def RoundTrips (p : Primitives) (o : EpochOrchestrator) (mirrors : Mirrors) : Prop :=
  ∀ nonces states, PeerRows states → ∀ r ∈ o.managers.rows,
    ∃ em, (restarted p o mirrors nonces states).get r.mirrorKey = some em ∧ SameState r.manager em

def Storable (m : EpochManager) : Prop :=
  m.currentEpochId < 2 ^ 63 ∧ m.epochDuration < 2 ^ 63 ∧ m.messageCounter < 2 ^ 63

variable {p : Primitives} {m : EpochManager} {o : EpochOrchestrator} {states : EpochStates}
  {mirrors : Mirrors} {r : Registration} {s : Restart} {nonces : WrapNonces}
  {data np sendNonce recvNonce : Bytes} {ph key k : String} {row : FederationEpochState}
  {identity : Option RnsIdentity}

lemma digitChar_ne_colon : ∀ n < 16, Nat.digitChar n ≠ ':' := by decide

lemma hexByte_colon_free {b : UInt8} : ':' ∉ (hexByte b).toList := by
  have hb : b.toNat < 256 := b.toNat_lt
  unfold hexByte
  rw [String.toList_ofList]
  intro h
  rcases mem_cons.mp h with h | h
  · exact digitChar_ne_colon (b.toNat / 16) (by omega) h.symm
  · rw [mem_singleton] at h
    exact digitChar_ne_colon (b.toNat % 16) (by omega) h.symm

lemma toHex_colon_free {bs : Bytes} : ':' ∉ (toHex bs).toList := by
  unfold toHex
  rw [String.toList_join,mem_flatMap]
  rintro ⟨_,hs,hm⟩
  obtain ⟨b,-,rfl⟩ := mem_map.mp hs
  exact hexByte_colon_free hm

lemma eq_of_separated {A : Type} [DecidableEq A] {x : A} {as bs cs ds : List A} (ha : x ∉ as)
    (hb : x ∉ bs) (h : as ++ x :: cs = bs ++ x :: ds) : as = bs := by
  have ht : ∀ {es fs : List A}, x ∉ es → (es ++ x :: fs).takeWhile (· ≠ x) = es := by
    intro es fs hes
    rw [takeWhile_append_of_pos,takeWhile_cons_of_neg (by simp),append_nil]
    intro a hm
    have hne : a ≠ x := fun e => hes (e ▸ hm)
    simpa using hne
  have hc := congrArg (List.takeWhile (· ≠ x)) h
  rwa [ht ha,ht hb] at hc

lemma peer_of_key {remoteHash remoteHash' : Bytes} {ch : String}
    (h : (toHex remoteHash' ++ ":").toList <+: (toHex remoteHash ++ ":" ++ ch).toList) :
    toHex remoteHash' = toHex remoteHash := by
  obtain ⟨rest,hr⟩ := h
  apply String.toList_injective
  apply eq_of_separated toHex_colon_free toHex_colon_free
  simpa using hr

def firstKey (mirrors : Mirrors) (peerHash : String) : Option String :=
  (matchMirror mirrors peerHash).map mirrorKey

lemma firstKey_starts (h : firstKey mirrors ph = some key) : (ph ++ ":").toList <+: key.toList := by
  obtain ⟨m,hm,rfl⟩ := Option.map_eq_some_iff.mp h
  have hf := List.find?_some hm
  simpa using hf

lemma restoreKey_wrapForStorage (hp : Wraps p) {kek : Option Bytes}
    (hke : ∀ b ∈ kek, b.length = 32) (nonce : WrapNonce) {k : Bytes} (hk : k ≠ []) :
    ∃ stored, wrapForStorage p kek nonce (some k) = .ok stored ∧
      ∀ old, restoreKey p kek stored old = some k := by
  unfold wrapForStorage restoreKey
  rw [usable_some hk]
  cases kek with
  | none => exact ⟨some k,rfl,fun _ => by simp only [usable_some hk]; rfl⟩
  | some b =>
    have hb := hke b rfl
    obtain ⟨wrapped,hwr,hu⟩ := hp.unwrap_wrap b nonce k hb
    have hw : wrapped ≠ [] := by
      obtain ⟨ciphertext,-,h⟩ := bind_ok hwr
      cases h
      apply append_ne_nil_of_left_ne_nil
      exact ne_nil_of_length_eq_add_one nonce.2
    rw [usable_some (ne_nil_of_length_eq_add_one hb)]
    refine ⟨some wrapped,by simp only [hwr]; rfl,?_⟩
    intro old
    simp only [usable_some hw,hu]
    rfl

lemma bindCount_ok {n m : ℕ} (h : bindCount n = .ok m) : n < 2 ^ 63 ∧ m = n := by
  unfold bindCount at h
  split_ifs at h with hn
  cases h
  exact ⟨hn,rfl⟩

lemma stateRow_ok (h : stateRow p m sendNonce recvNonce = .ok row) :
    Storable m ∧ row.peerIdentityHash = m.peerIdentityHash := by
  obtain ⟨_,-,h⟩ := bind_ok h
  obtain ⟨_,-,h⟩ := bind_ok h
  obtain ⟨_,hid,h⟩ := bind_ok h
  obtain ⟨_,hd,h⟩ := bind_ok h
  obtain ⟨_,hc,h⟩ := bind_ok h
  cases h
  exact ⟨⟨(bindCount_ok hid).1,(bindCount_ok hd).1,(bindCount_ok hc).1⟩,rfl⟩

lemma stateRow_restores (hp : Wraps p) (hm : Activated m) (hs : Storable m)
    {sendNonce recvNonce : WrapNonce} :
    ∃ row, stateRow p m sendNonce recvNonce = .ok row ∧
      ∀ m', m'.localIdentity = m.localIdentity → SameState m (restore p m' row) := by
  obtain ⟨sendKey,hsen,hse⟩ := hm.sendKey
  obtain ⟨recvKey,hre,hr⟩ := hm.recvKey
  have hk : ∀ b ∈ getKek p m, b.length = 32 := by
    intro b hb
    obtain ⟨identity,-,rfl⟩ := Option.map_eq_some_iff.mp hb
    exact hp.hkdf_length _ _ _
  obtain ⟨storedSend,hst,hl⟩ :=
    restoreKey_wrapForStorage hp hk sendNonce (ne_nil_of_length_eq_add_one hse)
  obtain ⟨storedRecv,hsto,hlo⟩ :=
    restoreKey_wrapForStorage hp hk recvNonce (ne_nil_of_length_eq_add_one hr)
  refine ⟨{ peerIdentityHash := m.peerIdentityHash, currentEpochId := m.currentEpochId
            epochDuration := m.epochDuration, isInitiator := m.isInitiator
            epochStartTime := m.epochStartTime, currentKeySend := storedSend
            currentKeyRecv := storedRecv, noncePrefix := usable (some m.noncePrefix)
            messageCounter := m.messageCounter, lastChainHash := m.lastChainHash },?_,?_⟩
  · unfold stateRow bindCount
    simp only [hsen,hst,hre,hsto,if_pos hs.1,if_pos hs.2.1,if_pos hs.2.2,ok_bind]
    rfl
  intro m' hi
  have hsa : getKek p m' = getKek p m := by
    unfold getKek
    rw [hi]
  refine ⟨rfl,?_,?_,?_,rfl,?_⟩
  · change restoreKey p (getKek p m') storedSend m'.sendKey = m.sendKey
    rw [hsa,hl,hsen]
  · change restoreKey p (getKek p m') storedRecv m'.recvKey = m.recvKey
    rw [hsa,hlo,hre]
  · change (usable (some m.noncePrefix)).getD [] = m.noncePrefix
    cases hn : m.noncePrefix with
    | nil => rfl
    | cons b bs => rw [usable_some (cons_ne_nil b bs),Option.getD_some]
  · exact if_neg (ne_nil_of_length_eq_add_one hm.chain)

lemma persistState_other {re : Bool} (h : ¬ (m.peerIdentityHash = ph ∧ Storable m)) :
    (persistState p m states sendNonce recvNonce re).get? ph = states.get? ph := by
  unfold persistState
  split_ifs
  · split
    next row hr =>
      obtain ⟨hs,hh⟩ := stateRow_ok hr
      rw [Table.get?_set,if_neg]
      intro e
      exact h ⟨hh.symm.trans e,hs⟩
    · rfl
  · rfl

lemma persistOne_other (h : ¬ (r.manager.peerIdentityHash = ph ∧ Storable r.manager)) :
    (persistOne p nonces states r).get? ph = states.get? ph := by
  unfold persistOne
  split_ifs
  · exact persistState_other h
  · rfl

lemma persistOne_own (hd : r.manager.hasDatabase = true) (ha : Activated r.manager)
    (hro : stateRow p r.manager (nonces.send r.mirrorKey) (nonces.recv r.mirrorKey) = .ok row) :
    (persistOne p nonces states r).get? r.manager.peerIdentityHash = some row := by
  obtain ⟨sendKey,hs,-⟩ := ha.sendKey
  obtain ⟨recvKey,hr,-⟩ := ha.recvKey
  have hon : isActive r.manager = true := by
    unfold isActive
    rw [hs,hr]
    rfl
  unfold persistOne persistState
  rw [if_pos hon,hd,Bool.and_self,if_pos rfl,hro]
  simp [Table.get?_set,(stateRow_ok hro).2]

lemma persistAll_get (o : EpochOrchestrator) (nonces : WrapNonces) (states : EpochStates)
    (ph : String) : (persistAll p o nonces states).get? ph = states.get? ph ∨
      ∃ r ∈ o.managers.rows, r.manager.peerIdentityHash = ph ∧ Storable r.manager := by
  by_cases h : ∃ r ∈ o.managers.rows, r.manager.peerIdentityHash = ph ∧ Storable r.manager
  · exact .inr h
  left
  apply run_read_kept (I := fun _ => True) (fun t : EpochStates => t.get? ph)
    (fun _ _ _ => trivial) _ trivial
  intro t _ r hr
  exact persistOne_other fun ho => h ⟨r,hr,ho⟩

lemma persistAll_own (hr : r ∈ o.managers.rows) (hre : Registered o r) (ha : ∀ q ∈ o.managers.rows,
    q.manager.peerIdentityHash = r.manager.peerIdentityHash → q = r)
    (hro : stateRow p r.manager (nonces.send r.mirrorKey) (nonces.recv r.mirrorKey) = .ok row) :
    (persistAll p o nonces states).get? r.manager.peerIdentityHash = some row := by
  apply run_read_once (I := fun _ => True) (Q := fun v => v = some row)
    (fun t : EpochStates => t.get? r.manager.peerIdentityHash) (fun _ _ _ => trivial)
    o.managers.keyed.of_map hr _ trivial
  · intro t _ _
    exact persistOne_own hre.database hre.active hro
  · intro t _ q hq hne
    exact persistOne_other fun ho => hne (ha q hq ho.1)

lemma firstKey_attached (ph : String) :
    firstKey (mirrors.update key (attach em) mirrorKey_attach) ph =
      firstKey mirrors ph := by
  have hk : ∀ m, mirrorKey (if mirrorKey m = key then attach em m else m) = mirrorKey m := by
    intro m
    split_ifs <;> rfl
  unfold firstKey matchMirror
  rw [Table.update_rows,List.find?_map,Option.map_map]
  simp [Function.comp_def,hk]

lemma get_put : (o.put key em).get k = if key = k then some em else o.get k := by
  unfold EpochOrchestrator.get EpochOrchestrator.put
  rw [Table.get?_set]
  split_ifs <;> rfl

structure Untouched (s s' : Restart) (key : Option String) : Prop where
  keys : ∀ peerHash, firstKey s'.mirrors peerHash = firstKey s.mirrors peerHash
  identity : s'.orchestrator.nodeIdentity = s.orchestrator.nodeIdentity
  others : ∀ k, key ≠ some k → s'.orchestrator.get k = s.orchestrator.get k

variable {isInitiator : Bool}

lemma register_other
    (h : key ≠ k) : (o.register key ph isInitiator identity).2.get k = o.get k := by
  unfold EpochOrchestrator.register
  split
  · rfl
  · rw [get_put,if_neg h]

lemma register_identity :
    (o.register key ph isInitiator identity).2.nodeIdentity = o.nodeIdentity := by
  unfold EpochOrchestrator.register
  split <;> rfl

lemma register_free (h : o.get key = none) :
    o.register key ph isInitiator identity = (o.newManager ph isInitiator identity,
        o.put key (o.newManager ph isInitiator identity)) := by
  unfold EpochOrchestrator.register
  rw [h]

lemma restoreOne_untouched (states : EpochStates) (s : Restart) (row : FederationEpochState) :
    Untouched s (restoreOne p states s row) (firstKey s.mirrors row.peerIdentityHash) := by
  unfold restoreOne firstKey
  cases matchMirror s.mirrors row.peerIdentityHash with
  | none => exact ⟨fun _ => rfl,rfl,fun _ _ => rfl⟩
  | some mirror =>
    refine ⟨firstKey_attached,register_identity,?_⟩
    intro k hk
    have hne : mirrorKey mirror ≠ k := fun e => hk (congrArg some e)
    rw [get_put,if_neg hne,register_other hne]

lemma restoreOne_own (hk : firstKey s.mirrors row.peerIdentityHash = some key)
    (hf : s.orchestrator.get key = none) (hr : states.get? row.peerIdentityHash = some row) :
    ∃ m : EpochManager, m.localIdentity = s.orchestrator.nodeIdentity ∧
      (restoreOne p states s row).orchestrator.get key = some (restore p m row) := by
  obtain ⟨mirror,hm,rfl⟩ := Option.map_eq_some_iff.mp hk
  refine ⟨s.orchestrator.newManager row.peerIdentityHash row.isInitiator
    (s.orchestrator.recallIdentity mirror.remoteHash),rfl,?_⟩
  unfold restoreOne
  simp only [hm,register_free hf]
  rw [get_put,if_pos rfl]
  unfold EpochLifecycle.loadState storedState
  simp [EpochOrchestrator.newManager,hr]

/-- What the rows do not touch while they are restored one after the other. -/
def SameKeys (s s' : Restart) : Prop :=
  (∀ peerHash, firstKey s'.mirrors peerHash = firstKey s.mirrors peerHash) ∧
    s'.orchestrator.nodeIdentity = s.orchestrator.nodeIdentity

lemma restoreOne_sameKeys (t : Restart) (row : FederationEpochState) (h : SameKeys s t) :
    SameKeys s (restoreOne p states t row) := by
  have hr := restoreOne_untouched (p := p) states t row
  exact ⟨fun ph => (hr.keys ph).trans (h.1 ph),hr.identity.trans h.2⟩

lemma restoreAll_other {rows : List FederationEpochState}
    (h : ∀ row ∈ rows, firstKey s.mirrors row.peerIdentityHash ≠ some key) :
    (run (restoreOne p states) s rows).orchestrator.get key = s.orchestrator.get key := by
  apply run_read_kept (I := SameKeys s) (fun t : Restart => t.orchestrator.get key)
    restoreOne_sameKeys _ ⟨fun _ => rfl,rfl⟩
  intro t ht row hr
  apply (restoreOne_untouched states t row).others
  rw [ht.1]
  exact h row hr

lemma restoreAll_own (hro : states.get? row.peerIdentityHash = some row)
    (hk : firstKey s.mirrors row.peerIdentityHash = some key)
    (ha : ∀ q ∈ states.rows, firstKey s.mirrors q.peerIdentityHash = some key → q = row)
    (hf : s.orchestrator.get key = none) :
    ∃ m : EpochManager, m.localIdentity = s.orchestrator.nodeIdentity ∧
      (run (restoreOne p states) s states.rows).orchestrator.get key = some (restore p m row) := by
  apply run_read_once (I := SameKeys s)
    (Q := fun v => ∃ m : EpochManager, m.localIdentity = s.orchestrator.nodeIdentity ∧
      v = some (restore p m row))
    (fun t : Restart => t.orchestrator.get key) restoreOne_sameKeys states.keyed.of_map
    (Table.get?_mem hro) _ ⟨fun _ => rfl,rfl⟩
  · intro t ht hr
    obtain ⟨m,hm,hg⟩ := restoreOne_own (p := p) ((ht.1 _).trans hk) (hr.trans hf) hro
    exact ⟨m,hm.trans ht.2,hg⟩
  intro t ht q hq hne
  apply (restoreOne_untouched states t q).others
  rw [ht.1]
  exact fun h => hne (ha q hq h)

structure Restorable (o : EpochOrchestrator) (mirrors : Mirrors) (r : Registration) : Prop where
  enabled : o.config.fsEnabled = true
  first : firstKey mirrors r.manager.peerIdentityHash = some r.mirrorKey
  storable : Storable r.manager

lemma registration_eq {q : Registration} (hr : r ∈ o.managers.rows) (hq : q ∈ o.managers.rows)
    (h : r.mirrorKey = q.mirrorKey) : r = q :=
  inj_on_of_nodup_map o.managers.keyed hr hq h

lemma persistAll_peerRows (ho : ∀ r ∈ o.managers.rows, Registered o r)
    (hs : PeerRows states) : PeerRows (persistAll p o nonces states) := by
  intro row hro
  have hg := Table.get?_of_mem hro
  rcases persistAll_get (p := p) o nonces states row.peerIdentityHash with hsa | ⟨r,hr,hh,-⟩
  · rw [hsa] at hg
    exact hs row (Table.get?_mem hg)
  · obtain ⟨remoteHash,-,-,hre⟩ := (ho r hr).key
    exact ⟨remoteHash,hh.symm.trans hre⟩

lemma peer_of_firstKey (hr : Registered o r)
    (hro : ∃ remoteHash, row.peerIdentityHash = toHex remoteHash)
    (h : firstKey mirrors row.peerIdentityHash = some r.mirrorKey) :
    row.peerIdentityHash = r.manager.peerIdentityHash := by
  obtain ⟨remoteHash,channelId,hk,hp⟩ := hr.key
  obtain ⟨remoteHash',hro⟩ := hro
  have hs := firstKey_starts h
  rw [hk,hro] at hs
  rw [hro,hp]
  exact peer_of_key hs

lemma peerRows_empty : PeerRows .empty := fun _ h => absurd h not_mem_nil

def zeroNonces : WrapNonces :=
  ⟨fun _ => ⟨replicate 24 0,rfl⟩,fun _ => ⟨replicate 24 0,rfl⟩⟩

lemma roundTrips_of_restorable (hp : Wraps p) (ho : ∀ r ∈ o.managers.rows, Registered o r)
    (h : ∀ r ∈ o.managers.rows, Restorable o mirrors r) : RoundTrips p o mirrors := by
  intro nonces states hs r hr
  have hf := (h r hr).first
  have ha : ∀ q ∈ o.managers.rows,
      q.manager.peerIdentityHash = r.manager.peerIdentityHash → q = r := by
    intro q hq hh
    apply registration_eq hq hr
    have hf' := (h q hq).first
    rw [hh,hf] at hf'
    exact (Option.some.inj hf').symm
  obtain ⟨row,hro,hre⟩ := stateRow_restores hp (ho r hr).active (h r hr).storable
  have hh := (stateRow_ok hro).2
  have hg : (persistAll p o nonces states).get? r.manager.peerIdentityHash = some row :=
    persistAll_own hr (ho r hr) ha hro
  have hpe : PeerRows (persistAll p o nonces states) := persistAll_peerRows ho hs
  have hon : ∀ q ∈ (persistAll p o nonces states).rows,
      firstKey mirrors q.peerIdentityHash = some r.mirrorKey → q = row := by
    intro q hq hk
    have hqg := Table.get?_of_mem hq
    rw [peer_of_firstKey (ho r hr) (hpe q hq) hk,hg] at hqg
    exact (Option.some.inj hqg).symm
  obtain ⟨m,hm,hres⟩ := restoreAll_own (p := p)
    (s := ⟨{ o with managers := .empty },mirrors⟩) (hh ▸ hg) (hh ▸ hf) hon rfl
  refine ⟨restore p m row,?_,hre m (hm.trans (ho r hr).identity.symm)⟩
  unfold restarted loadState
  rw [if_pos (h r hr).enabled]
  exact hres

lemma first_of_restarted (ho : ∀ r ∈ o.managers.rows, Registered o r) (hr : r ∈ o.managers.rows)
    (h : (restarted p o mirrors nonces .empty).get r.mirrorKey ≠ none) :
    o.config.fsEnabled = true ∧ firstKey mirrors r.manager.peerIdentityHash = some r.mirrorKey ∧
      ∃ q ∈ o.managers.rows, q.manager.peerIdentityHash = r.manager.peerIdentityHash ∧
        Storable q.manager := by
  unfold restarted loadState at h
  split_ifs at h with he
  · by_contra hn
    apply h
    apply restoreAll_other
    intro row hro hk
    have hp : PeerRows (persistAll p o nonces .empty) :=
      persistAll_peerRows ho peerRows_empty
    have hh := peer_of_firstKey (ho r hr) (hp row hro) hk
    apply hn
    refine ⟨he,hh ▸ hk,?_⟩
    rcases persistAll_get (p := p) o nonces .empty row.peerIdentityHash with hsa | ⟨q,hq,hpe,hs⟩
    · rw [Table.get?_of_mem hro] at hsa
      cases hsa
    · exact ⟨q,hq,hpe.trans hh,hs⟩
  · exact absurd rfl h

/-- Every registered manager is back after a restart exactly if each stands at the first
mirror of its peer, can be written and forward secrecy is on. -/
theorem managers_restored_iff (p : Primitives) (hp : Wraps p) (o : EpochOrchestrator)
    (mirrors : Mirrors) (ho : ∀ r ∈ o.managers.rows, Registered o r) :
    RoundTrips p o mirrors ↔ ∀ r ∈ o.managers.rows, Restorable o mirrors r := by
  refine ⟨fun h => ?_,roundTrips_of_restorable hp ho⟩
  have hb : ∀ r ∈ o.managers.rows,
      (restarted p o mirrors zeroNonces .empty).get r.mirrorKey ≠ none := by
    intro r hr
    obtain ⟨em,hem,-⟩ := h zeroNonces .empty peerRows_empty r hr
    exact Option.ne_none_iff_exists'.mpr ⟨em,hem⟩
  intro r hr
  obtain ⟨he,hf,q,hq,hh,hs⟩ := first_of_restarted ho hr (hb r hr)
  have hf' := (first_of_restarted ho hq (hb q hq)).2.1
  rw [hh,hf] at hf'
  rw [registration_eq hq hr (Option.some.inj hf').symm] at hs
  exact ⟨he,hf,hs⟩

lemma padded_wraps : Wraps padded where
  toLawful := padded_sound.toLawful
  unwrap_wrap _ nonce raw _ := by
    refine ⟨nonce.1 ++ raw,rfl,?_⟩
    unfold unwrapKey
    rw [drop_left' nonce.2,take_left' nonce.2]
    rfl

def sampleMirror (peer : UInt8) (channelId : String) : ChannelMirror where
  remoteHash := [peer]
  channelId := channelId

def sampleRegistration (peer : UInt8) (channelId : String) (tag : UInt8) : Registration where
  mirrorKey := toHex [peer] ++ ":" ++ channelId
  manager :=
    { peerIdentityHash := toHex [peer], isInitiator := true
      localIdentity := some (EpochAgreement.sampleIdentity 1), peerIdentity := none
      hasDatabase := true, currentEpochId := tag.toNat, sendKey := some (replicate 32 tag)
      recvKey := some (replicate 32 tag), noncePrefix := replicate 16 tag
      messageCounter := tag.toNat, lastChainHash := replicate 32 tag }

def sampleOrchestrator (first second : Registration) : EpochOrchestrator where
  config := {}
  nodeIdentity := some (EpochAgreement.sampleIdentity 1)
  recallIdentity _ := none
  managers := (Table.singleton first).set second

lemma sampleRegistration_registered {first second : Registration} {peer tag : UInt8} {ch : String} :
    Registered (sampleOrchestrator first second) (sampleRegistration peer ch tag) where
  key := ⟨[peer],ch,rfl,rfl⟩
  identity := rfl
  database := rfl
  active := ⟨⟨_,rfl,length_replicate⟩,⟨_,rfl,length_replicate⟩,length_replicate⟩

def twoPeers : EpochOrchestrator :=
  sampleOrchestrator (sampleRegistration 0xbb "c1" 1) (sampleRegistration 0xcc "c3" 3)

def twoChannels : EpochOrchestrator :=
  sampleOrchestrator (sampleRegistration 0xbb "c1" 1) (sampleRegistration 0xbb "c2" 2)

def sampleMirrors : Mirrors :=
  ((Table.singleton (sampleMirror 0xbb "c1")).set (sampleMirror 0xbb "c2")).set
    (sampleMirror 0xcc "c3")

lemma twoPeers_rows : twoPeers.managers.rows =
    [sampleRegistration 0xbb "c1" 1, sampleRegistration 0xcc "c3" 3] := rfl

theorem twoPeers_restored : Wraps padded ∧ twoPeers.managers.rows.length = 2 ∧
      RoundTrips padded twoPeers sampleMirrors := by
  refine ⟨padded_wraps,rfl,?_⟩
  apply (managers_restored_iff padded padded_wraps twoPeers sampleMirrors ?_).mpr
  · intro r hr
    rw [twoPeers_rows,mem_pair] at hr
    rcases hr with rfl | rfl
    all_goals exact ⟨rfl,by decide +kernel,by decide,by decide,by decide⟩
  intro r hr
  rw [twoPeers_rows,mem_pair] at hr
  rcases hr with rfl | rfl
  all_goals exact sampleRegistration_registered

theorem twoChannels_mixed : (∀ r ∈ twoChannels.managers.rows, Registered twoChannels r) ∧
      (((restarted padded twoChannels sampleMirrors zeroNonces .empty).get
        (sampleRegistration 0xbb "c1" 1).mirrorKey).map EpochManager.currentEpochId) = some 2 ∧
      (((restarted padded twoChannels sampleMirrors zeroNonces .empty).get
        (sampleRegistration 0xbb "c2" 2).mirrorKey).map EpochManager.currentEpochId) = none ∧
      ¬ RoundTrips padded twoChannels sampleMirrors := by
  have hro : twoChannels.managers.rows =
      [sampleRegistration 0xbb "c1" 1, sampleRegistration 0xbb "c2" 2] := by rfl
  have hl : (((restarted padded twoChannels sampleMirrors zeroNonces .empty).get
      (sampleRegistration 0xbb "c2" 2).mirrorKey).map EpochManager.currentEpochId) = none := by
    decide +kernel
  refine ⟨?_,by decide +kernel,hl,?_⟩
  · intro r hr
    rw [hro,mem_pair] at hr
    rcases hr with rfl | rfl
    all_goals exact sampleRegistration_registered
  intro h
  have hm : sampleRegistration 0xbb "c2" 2 ∈ twoChannels.managers.rows := by
    rw [hro,mem_pair]
    exact .inr rfl
  obtain ⟨em,hem,-⟩ := h zeroNonces .empty peerRows_empty _ hm
  rw [hem] at hl
  cases hl

end Hokora.EpochPersistence
