import Hokora.NodeRuns
import Hokora.PushedContent

/-!
# What a node passes on

Neither receive path keeps the signature, and the filter compares two kinds of hashes.
-/
namespace Hokora.RelayedMessages
open Database FederatedAcceptance KeyedTable List MessageProcessor NodeRuns PushReceive
  PushedContent Pusher PyValue Repositories SenderBinding TransitionRuns WireRows
open MessageRepo (getByHash mem_getHistory)

/-- The node takes the message over: the push is answered, the message is not among the
rejected ones, and a row with its hash is there. -/
def Accepted (w : PushDelivery.Setting) (receiver : Store) (payload : Val) (now : ℚ)
    (m : Message) : Prop :=
  ∃ ack st', PushDelivery.receive w receiver payload now = .ok (ack, st') ∧
    Val.str m.msgHash ∉ ack.rejected ∧ (getByHash st' m.msgHash).isSome

variable {x : Exchange} {w : NodeRuns.Setting} {names : PeerNames} {st : Store}
  {sig : SignatureScheme} {b : PushBatch} {env : PushEnv} {p : FederationPusher} {e : Event}

lemma vetEntry_unsigned (hb : b.requireSigned = true)
    {m : Message} (hm : m.lxmfSignature = none) {content : WireBody} :
    vetEntry sig b st (pushedData env m) ≠ .ok (some content) := by
  intro h
  have hbi := (vetEntry_some.mp h).2.1
  rw [hb] at hbi
  obtain ⟨_,_,s,-,-,-,hs,-,-⟩ := verifySenderBinding_signed hbi
  have he : (pushedData env m).lxmfSignature = .none := by simp [pushedData,hm,Val.ofBytes?]
  rw [he] at hs
  cases hs

lemma pushEntries_absent {now : ℚ} {st' : Store}
    {node hash : String} {ms : List Message} {as : List Answer}
    (hp : pushEntries sig b now st (ms.map (attachKeys env node)) = .ok (as, st'))
    (hn : getByHash st hash = none) (hr : ∀ m ∈ ms, m.msgHash = hash → ∀ st content,
    vetEntry sig b st (pushedData env m) ≠ .ok (some content)) :
    getByHash st' hash = none := by
  induction ms generalizing st as with
  | nil =>
    cases hp
    exact hn
  | cons m ms ih =>
    obtain ⟨a,st₁,as',hef,hre,-⟩ := PushDelivery.pushEntries_attached hp
    apply ih hre _ fun q hq => hr q (mem_cons_of_mem m hq)
    cases hef with
    | duplicate => exact hn
    | refused => exact hn
    | stored _ hv _ hh _ _ _ hi =>
      have hk : some m.msgHash = some _ := Except.ok.inj hh
      have hne : m.msgHash ≠ hash := fun he =>
        hr m mem_cons_self he st _ hv
      have hg := Table.get?_insert? hi hash
      rw [if_neg (Option.some.inj hk ▸ hne)] at hg
      exact hg.trans hn

/-- A message that a node has from another node is never taken over by a third one that
requires signatures and does not have it yet. -/
theorem relayed_never_accepted (w : NodeRuns.Setting) (w' : PushDelivery.Setting)
    (hsigned : w'.config.any FederationConfig.requireSignedFederation = true) {n : Node}
    (hstart : n.arrivals = []) (es : List Event) {a : Arrival}
    (ha : a ∈ (run (step w) n es).arrivals) {m : Message}
    (hm : getByHash (run (step w) n es).store a.msgHash = some m)
    {p : FederationPusher} {env : PushEnv} {payload : Val}
    (hsends : Sends p env (run (step w) n es).store m payload) {receiver : Store}
    (hfresh : getByHash receiver m.msgHash = none) (now : ℚ) :
    ¬ Accepted w' receiver payload now m := by
  have hre : Recorded (run (step w) n es) := Recorded.run (by simp [Recorded,hstart]) es
  obtain ⟨row,hro,hf⟩ := hre a ha
  cases hm.symm.trans hro
  rintro ⟨ack,st',hr,-,hs⟩
  rw [hsends.payload_eq] at hr
  obtain ⟨-,-,as,hp,-⟩ := receive_pushPayload.mp hr
  have href : ∀ q ∈ p.toPush (run (step w) n es).store, q.msgHash = m.msgHash →
      ∀ st content, vetEntry w'.sig (batchFor w'.config receiver p.channelId
        (.str p.nodeIdentityHash)) st (pushedData env q) ≠ .ok (some content) := by
    intro q hq hh st content
    -- Hashes are keys, so the entry is the message itself.
    have hme := (mem_filter.mp (mem_getHistory (mem_filter.mp hq).1).1).1
    have hg : getByHash _ q.msgHash = some q := Table.get?_of_mem hme
    rw [hh,Table.get?_key hm,hm] at hg
    cases hg
    exact vetEntry_unsigned hsigned hf.signature
  have hab := pushEntries_absent hp hfresh href
  rw [hab] at hs
  cases hs

/-! A signed message is pushed to a second node, which pushes it on to a third. -/

def hopSetting : NodeRuns.Setting :=
  { prim := vaultPrimitives, sig := sampleScheme, config := {} }

def hopRun : List Event := [.push 1000 samplePush none none]

def hopRow : Message :=
  { msgHash := "h1", channelId := "general", senderHash := some sampleHash, seq := some 1
    timestamp := .fin 1000, type := 1, body := some "hello", receivedAt := 1000
    originNode := some "peer" }

def hopPusher : FederationPusher :=
  { peerIdentityHash := "third", channelId := "general", nodeIdentityHash := "second" }

def hopPayload : Val := pushPayload "general" "second" [attachKeys vaultEnv "second" hopRow]

def hopReceiver : Store :=
  { channels := sampleStore.channels
    peers := .singleton { identityHash := "second", federationTrusted := true } }

lemma hopRun_arrival :
    (run (step hopSetting) ⟨sampleStore,[]⟩ hopRun).arrivals = [⟨.push,.str "peer","h1"⟩] := rfl

lemma hopRow_stored : getByHash (run (step hopSetting) ⟨sampleStore,[]⟩ hopRun).store "h1" =
      some hopRow := rfl

lemma hopPayload_sent :
    Sends hopPusher vaultEnv (run (step hopSetting) ⟨sampleStore,[]⟩ hopRun).store hopRow
      hopPayload := by
  have hp : hopPusher.toPush (run (step hopSetting) ⟨sampleStore,[]⟩ hopRun).store =
      [hopRow] := by decide
  exact ⟨by rw [hp]; exact mem_singleton_self _,rfl⟩

theorem hopRow_never_accepted :
    ⟨.push,.str "peer","h1"⟩ ∈ (run (step hopSetting) ⟨sampleStore,[]⟩ hopRun).arrivals ∧
      ¬ Accepted vaultSetting hopReceiver hopPayload 1000 hopRow := by
  have ha : ⟨.push,.str "peer","h1"⟩ ∈
      (run (step hopSetting) ⟨sampleStore,[]⟩ hopRun).arrivals := by
    rw [hopRun_arrival]
    exact mem_singleton_self _
  exact ⟨ha,relayed_never_accepted hopSetting vaultSetting rfl rfl hopRun ha
    hopRow_stored hopPayload_sent rfl 1000⟩

theorem hopRow_rejected :
    Sends hopPusher vaultEnv (run (step hopSetting) ⟨sampleStore,[]⟩ hopRun).store hopRow
        hopPayload ∧ recalledKey vaultEnv hopRow = some (replicate 64 7) ∧
      getByHash hopReceiver hopRow.msgHash = none ∧
      ¬ Accepted vaultSetting hopReceiver hopPayload 1000 hopRow := by
  refine ⟨hopPayload_sent,by decide,by decide,?_⟩
  rintro ⟨ack,st',hre,ha,-⟩
  have hr : PushDelivery.receive vaultSetting hopReceiver hopPayload 1000 =
      .ok (⟨.str "general",[],[.str "h1"]⟩, hopReceiver) := rfl
  cases hr.symm.trans hre
  exact ha (mem_singleton_self _)

structure Exchange where
  node : Node
  pusher : FederationPusher
  pushed : List String := []

structure PeerNames where
  mirrorKey : String
  nodeIdentity : String

inductive ExchangeEvent where
  | node (e : Event)
  | pushPending (env : PushEnv)
  | pushAck (data : Val)

def exchangeStep (w : NodeRuns.Setting) (x : Exchange) : ExchangeEvent → Exchange
  | .node e => { x with node := step w x.node e }
  | .pushPending env =>
    let r := x.pusher.pushPending env x.node.store
    { x with
      pusher := r.1
      pushed := x.pushed ++
        if r.2.1.isSome then (x.pusher.toPush x.node.store).map Message.msgHash else [] }
  | .pushAck data =>
    match x.pusher.handlePushAck data with
    | .ok p => { x with pusher := p }
    | .error _ => x

/-- The row came from the peer, by its push or by the mirror of its channel. -/
def FromPeer (names : PeerNames) (a : Arrival) : Prop :=
  a.path = .push ∧ a.origin = .str names.nodeIdentity ∨
    a.path = .mirror ∧ a.origin = .str names.mirrorKey

def LoopFree (names : PeerNames) (x : Exchange) : Prop :=
  ∀ a ∈ x.node.arrivals, FromPeer names a → a.msgHash ∉ x.pushed

/-- A push in the peer's name adds nothing: all that the peer has to offer was mirrored
before, or is refused. -/
def OnlyMirrored (w : NodeRuns.Setting) (names : PeerNames) (x : Exchange) : ExchangeEvent → Prop
  | .node (.push now payload channelId _) =>
    fieldOr payload "node_identity" = .str names.nodeIdentity →
      ¬ Effective w.sig (some w.config) now x.node.store payload channelId
  | _ => True

structure LoopInv (names : PeerNames) (x : Exchange) : Prop where
  key : x.pusher.peerIdentityHash = names.mirrorKey
  recorded : Recorded x.node
  mirrored : ∀ a ∈ x.node.arrivals, FromPeer names a → a.origin = .str names.mirrorKey
  sent : ∀ h ∈ x.pushed, (getByHash x.node.store h).isSome
  loopFree : LoopFree names x

lemma pushPending_peer (env : PushEnv) (st : Store) :
    (p.pushPending env st).1.peerIdentityHash = p.peerIdentityHash := by
  unfold FederationPusher.pushPending
  simp only
  split_ifs <;> rfl

lemma handlePushAck_peer {p' : FederationPusher} {data : Val}
    (h : p.handlePushAck data = .ok p') : p'.peerIdentityHash = p.peerIdentityHash := by
  obtain ⟨received,-,h⟩ := bind_ok h
  split at h
  · cases h
    rfl
  obtain ⟨vs,-,h⟩ := bind_ok h
  obtain ⟨newest,-,h⟩ := bind_ok h
  split at h <;> cases h <;> rfl

lemma toPush_origin {m : Message} (hm : m ∈ p.toPush st) :
    m ∈ st.messages.rows ∧ m.originNode ≠ some p.peerIdentityHash := by
  obtain ⟨hp,hf⟩ := mem_filter.mp hm
  refine ⟨(mem_filter.mp (mem_getHistory hp).1).1,?_⟩
  intro ho
  simp [filtered,ho] at hf

lemma step_isSome {n : Node} {h : String} (hs : (getByHash n.store h).isSome) :
    (getByHash (step w n e).store h).isSome := by
  obtain ⟨row,hr⟩ := Option.isSome_iff_exists.mp hs
  apply Option.isSome_iff_exists.mpr
  cases e with
  | ingest mp m lim env =>
    obtain ⟨row',hr',-⟩ := ingest_kept h row hr
    exact ⟨row',hr'⟩
  | push now payload channelId rq =>
    exact ⟨row,(handlePushMessages_foreign (some w.config) now n.store payload channelId
      rq (none : Option Unit)).kept hr⟩
  | mirror now channelId d ph =>
    exact ⟨row,(mirrorIngest_foreign w.config.requireSignedFederation now n.store
      channelId d ph).kept hr⟩

lemma step_arrivals {n : Node} {a : Arrival} (ha : a ∈ (step w n e).arrivals) :
    a ∈ n.arrivals ∨ getByHash n.store a.msgHash = none ∧
      a.msgHash ∈ newHashes n.store (step w n e).store ∧
      ((∃ now payload channelId rq, e = .push now payload channelId rq ∧
          a.path = .push ∧ a.origin = fieldOr payload "node_identity") ∨ a.path = .mirror) := by
  cases e with
  | ingest mp m lim env => exact .inl ha
  | push now payload channelId rq =>
    refine (mem_append.mp ha).imp_right fun hn => ?_
    obtain ⟨h,hh,rfl⟩ := mem_map.mp hn
    exact ⟨(mem_newHashes.mp hh).1,hh,.inl ⟨now,payload,channelId,rq,rfl,rfl,rfl⟩⟩
  | mirror now channelId msgData peerHash =>
    refine (mem_append.mp ha).imp_right fun hn => ?_
    obtain ⟨h,hh,rfl⟩ := mem_map.mp hn
    exact ⟨(mem_newHashes.mp hh).1,hh,.inr rfl⟩

lemma LoopInv.node (hi : LoopInv names x) (hok : OnlyMirrored w names x (.node e)) :
    LoopInv names (exchangeStep w x (.node e)) := by
  refine ⟨hi.key,hi.recorded.step e,?_,fun h hh => step_isSome (hi.sent h hh),?_⟩
  · intro a ha hp
    rcases step_arrivals ha with hol | ⟨-,hne,hpa⟩
    · exact hi.mirrored a hol hp
    rcases hp with ⟨hpus,ho⟩ | ⟨-,ho⟩
    · -- The guard leaves no row that the peer's push could have added.
      rcases hpa with ⟨now,payload,channelId,rq,rfl,-,hf⟩ | hm
      · have hsi := hok (hf.symm.trans ho)
        rw [← handlePushMessages_changes_iff rq (none : Option Unit),not_not] at hsi
        obtain ⟨hn,row,hr⟩ := mem_newHashes.mp hne
        have hsa : getByHash x.node.store a.msgHash = some row := by
          unfold getByHash
          rw [← hsi]
          exact hr
        rw [hn] at hsa
        cases hsa
      · rw [hpus] at hm
        cases hm
    · exact ho
  · intro a ha hp hpu
    rcases step_arrivals ha with hol | ⟨hn,-,-⟩
    · exact hi.loopFree a hol hp hpu
    have hs := hi.sent a.msgHash hpu
    rw [hn] at hs
    cases hs

lemma LoopInv.pushPending (hi : LoopInv names x) (env : PushEnv) :
    LoopInv names (exchangeStep w x (.pushPending env)) := by
  have hn : ∀ h ∈ (exchangeStep w x (.pushPending env)).pushed, h ∈ x.pushed ∨
      ∃ m ∈ x.pusher.toPush x.node.store, m.msgHash = h := by
    intro h hh
    refine (mem_append.mp hh).imp_right fun hs => ?_
    split_ifs at hs
    · exact mem_map.mp hs
    · cases hs
  refine ⟨(pushPending_peer ..).trans hi.key,hi.recorded,hi.mirrored,?_,?_⟩
  · intro h hh
    rcases hn h hh with hol | ⟨m,hm,rfl⟩
    · exact hi.sent h hol
    · exact Option.isSome_iff_exists.mpr ⟨m,Table.get?_of_mem (toPush_origin hm).1⟩
  intro a ha hp hpu
  rcases hn a.msgHash hpu with hol | ⟨m,hm,hha⟩
  · exact hi.loopFree a ha hp hol
  -- The recorded row has the mirror key as its origin and is dropped by the filter.
  obtain ⟨hr,ho⟩ := toPush_origin hm
  obtain ⟨row,hg,hf⟩ := hi.recorded a ha
  have hmg : getByHash x.node.store a.msgHash = some m :=
    hha ▸ Table.get?_of_mem hr
  cases hmg.symm.trans hg
  have hk := hf.origin
  rw [hi.mirrored a ha hp] at hk
  rw [hi.key,← Except.ok.inj hk] at ho
  exact ho rfl

lemma LoopInv.pushAck (hi : LoopInv names x) (data : Val) :
    LoopInv names (exchangeStep w x (.pushAck data)) := by
  simp only [exchangeStep]
  split
  next p hp =>
    exact ⟨(handlePushAck_peer hp).trans hi.key,hi.recorded,hi.mirrored,hi.sent,hi.loopFree⟩
  · exact hi

lemma LoopInv.step (hi : LoopInv names x) {e : ExchangeEvent} (hok : OnlyMirrored w names x e) :
    LoopInv names (exchangeStep w x e) := by
  cases e with
  | node e => exact hi.node hok
  | pushPending env => exact hi.pushPending env
  | pushAck data => exact hi.pushAck data

/-- In every run in which no push of the peer adds a row, the pusher never sends the peer
a message that came from it. -/
theorem pushes_loop_free (w : NodeRuns.Setting) (names : PeerNames) {x : Exchange}
    (hkey : x.pusher.peerIdentityHash = names.mirrorKey) (harrivals : x.node.arrivals = [])
    (hpushed : x.pushed = []) {es : List ExchangeEvent}
    (hrun : Guarded (exchangeStep w) (OnlyMirrored w names) x es) :
    LoopFree names (run (exchangeStep w) x es) := by
  have hs : LoopInv names x :=
    ⟨hkey,by simp [Recorded,harrivals],by simp [harrivals],by simp [hpushed],
      by simp [LoopFree,harrivals]⟩
  have hin : LoopInv names (run (exchangeStep w) x es) :=
    hrun.invariant (fun _ _ hi hok => hi.step hok) hs
  exact hin.loopFree

def loopNames : PeerNames := ⟨"destination","peer"⟩

def loopStart : Exchange :=
  { node := ⟨sampleStore,[]⟩
    pusher := { peerIdentityHash := "destination", channelId := "general"
                nodeIdentityHash := "second" } }

def mirroredRun : List ExchangeEvent :=
  [.node (.mirror 1000 "general" (sampleEntry "h1" "hello") "destination"),
   .node (.push 1000 samplePush none none), .pushPending vaultEnv]

lemma mirroredRun_guarded :
    Guarded (exchangeStep hopSetting) (OnlyMirrored hopSetting loopNames) loopStart
      mirroredRun := by
  refine ⟨trivial,fun _ => ?_,trivial,trivial⟩
  rw [← handlePushMessages_changes_iff none (none : Option Unit),not_not]
  decide +kernel

theorem mirroredRun_loop_free : loopNames.mirrorKey ≠ loopNames.nodeIdentity ∧
      LoopFree loopNames (run (exchangeStep hopSetting) loopStart mirroredRun) :=
  ⟨by decide,pushes_loop_free hopSetting loopNames rfl rfl rfl mirroredRun_guarded⟩

def pushedRun : List ExchangeEvent :=
  [.node (.push 1000 samplePush none none), .pushPending vaultEnv]

theorem pushedRun_loops : loopNames.mirrorKey ≠ loopNames.nodeIdentity ∧
      ¬ LoopFree loopNames (run (exchangeStep hopSetting) loopStart pushedRun) := by
  refine ⟨by decide,fun h => ?_⟩
  have ha : ⟨.push,.str "peer","h1"⟩ ∈
      (run (exchangeStep hopSetting) loopStart pushedRun).node.arrivals := by
    rw [show (run (exchangeStep hopSetting) loopStart pushedRun).node.arrivals =
      [⟨.push,.str "peer","h1"⟩] from rfl]
    exact mem_singleton_self _
  have hn := h _ ha (.inl ⟨rfl,rfl⟩)
  exact hn (mem_singleton_self _)

end Hokora.RelayedMessages
