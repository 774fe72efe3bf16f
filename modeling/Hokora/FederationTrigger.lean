import Hokora.LxmfIngestor
import Hokora.PackedSize
import Hokora.PushDelivery

/-!
# The federation trigger of a local message

The trigger runs inside the open transaction, so it reads the rows that were committed before.
-/
namespace Hokora.FederationTrigger
open Constants Database KeyedTable List LxmfIngestor MediaFiles MessageProcessor PushReceive Pusher
  PyValue RateLimit Repositories WriteAuthorisation WriteFrames
open Msgpack (packDepth)
open PackedSize (sizeAt)
open PushDelivery (Sequenced latestSeq latestSeq_eq)
open MessageRepo (getByHash getHistory)

structure OpenTransaction where
  committed : Store
  own : Store

def OpenTransaction.others (tx : OpenTransaction) : Store := tx.committed

abbrev Pushers := List (String × FederationPusher)

structure Triggered where
  key : String
  pusher : FederationPusher
  sent : Option Val

def triggerFederationPush (env : String → PushEnv) (pushers : Pushers) (st : Store)
    (channelId : String) : List Triggered :=
  pushers.map fun x =>
    if x.2.channelId = channelId then
      let r := x.2.pushPending (env x.1) st
      ⟨x.1,r.1,r.2.1⟩
    else ⟨x.1,x.2,none⟩

variable {L : Type}

def federate (ing : Ingestor L) (env : String → PushEnv) (pushers : Pushers)
    (lim : Option RateLimiter) (st : Store) (disk : Disk) (d : Delivery) :
    Result L × List Triggered :=
  let r := lxmfIngest ing lim st disk d
  match r.outcome with
  | .error _ => (r, pushers.map fun x => ⟨x.1,x.2,none⟩)
  | .ok (_, st') =>
    let tx : OpenTransaction := ⟨st,st'⟩
    (r, triggerFederationPush env pushers tx.others d.envelope.channelId)

def Contains (payload : Val) (msgHash : String) : Prop :=
  ∃ entries v d, payload.get "messages" (.list []) = .ok (.list entries) ∧ v ∈ entries ∧
    MsgData.ofVal v = .ok d ∧ d.msgHash = .str msgHash

def Covers (triggered : List Triggered) (msgHash : String) : Prop :=
  ∃ t ∈ triggered, ∃ payload, t.sent = some payload ∧ Contains payload msgHash

variable {p : FederationPusher} {env : PushEnv} {st : Store}

lemma contains_iff {ch node hash : String} {ms : List Message} :
    Contains (pushPayload ch node (ms.map (attachKeys env node))) hash ↔
      ∃ m ∈ ms, m.msgHash = hash := by
  constructor
  · rintro ⟨entries,v,d,he,hv,hd,hh⟩
    cases he
    obtain ⟨m,hm,rfl⟩ := mem_map.mp hv
    cases attachKeys_data.symm.trans hd
    exact ⟨m,hm,Val.str.inj hh⟩
  · rintro ⟨m,hm,rfl⟩
    exact ⟨_,_,_,rfl,mem_map_of_mem hm,attachKeys_data,rfl⟩

lemma pushPending_known {pl : Val} {hash : String}
    (h : (p.pushPending env st).2.1 = some pl) (hc : Contains pl hash) :
    (getByHash st hash).isSome := by
  obtain ⟨-,hn⟩ | ⟨-,-,-,hn⟩ | ⟨-,-,hs⟩ := PushDelivery.pushPending_cases p env st
  · cases hn.symm.trans h
  · cases hn.symm.trans h
  cases hs.symm.trans h
  obtain ⟨m,hm,rfl⟩ := contains_iff.mp hc
  have hp : m ∈ p.page st := (mem_filter.mp hm).1
  have hr : m ∈ st.messages.rows :=
    (mem_filter.mp (MessageRepo.mem_getHistory hp).1).1
  rw [getByHash,Table.get?_of_mem hr]
  rfl

lemma triggerFederationPush_known {env : String → PushEnv} {pushers : Pushers} {ch hash : String}
    (h : Covers (triggerFederationPush env pushers st ch) hash) :
    (getByHash st hash).isSome := by
  obtain ⟨t,ht,payload,hs,hc⟩ := h
  obtain ⟨x,-,rfl⟩ := mem_map.mp ht
  split_ifs at hs
  exact pushPending_known hs hc

/-- No push of the trigger contains the new message, whatever the pushers, their cursors and
their links. -/
theorem trigger_never_covers (ing : Ingestor L) (env : String → PushEnv) (pushers : Pushers)
    (lim : Option RateLimiter) (st : Store) (disk : Disk) (d : Delivery) {message : Message}
    {st' : Store} (h : (lxmfIngest ing lim st disk d).outcome = .ok (message, st'))
    (hnew : getByHash st message.msgHash = none) :
    ¬ Covers (federate ing env pushers lim st disk d).2 message.msgHash := by
  intro hc
  simp only [federate,h] at hc
  have hk := triggerFederationPush_known hc
  rw [OpenTransaction.others,hnew] at hk
  cases hk

variable {r : Message × Store} {mo : Moment} {lim : Option RateLimiter} {prim : Primitives}
  {mp : Processor} {st' : Store}

/-- The row is new, with the next number of its channel. -/
def Appended (st : Store) (channelId : String) (r : Message × Store) : Prop :=
  st.messages.insert? r.1 = some r.2.messages ∧ r.1.channelId = channelId ∧
    r.1.seq = some (latestSeq st channelId + 1)

lemma storeMessage_numbered {env : MessageEnvelope} {channel : Channel}
    (h : storeMessage prim mp mo st env channel = .ok r)
    (hne : getByHash st r.1.msgHash = none) (hs : r.1.seq.isSome) :
    Appended st env.channelId r := by
  unfold Appended
  obtain ⟨hk,-⟩ | ⟨seq,threadSeq,st₁,b,t,-,ha,-,hi,hro,hr⟩ :=
    storeMessage_stored h
  · rw [show env.computeHash prim = r.1.msgHash from (Table.get?_key hk).symm,hne] at hk
    cases hk
  have hm : r.2.messages = t := by
    rw [hr]
    exact rememberSender_messages ..
  rw [hro] at hs ⊢
  rw [hm]
  refine ⟨hi,rfl,?_⟩
  change seq.isSome at hs
  change seq = _
  rw [(assignSeq_ok ha).2] at hs
  simp only [assignSeq,hs] at ha
  obtain ⟨⟨n,st₂⟩,hn,ha⟩ := bind_ok ha
  obtain ⟨c,hc,rfl,-⟩ := ChannelRepo.incrementSeq_ok.mp hn
  cases ha
  rw [latestSeq_eq hc]

lemma ingest_numbered {env : MessageEnvelope} (hk : ¬ Mutation env.type)
    (h : (ingest prim mp mo lim st env).2 = .ok r)
    (hne : getByHash st r.1.msgHash = none) (hse : r.1.seq.isSome) :
    Appended st env.channelId r := by
  obtain ⟨channel,env',⟨displayName,mentions,hn⟩,hs⟩ :=
    ingest_of_not_mutation hk h
  have hc : env'.channelId = env.channelId := by rw [hn]
  rw [← hc]
  exact storeMessage_numbered hs hne hse

lemma page_inserted {row : Message} (hs : Sequenced st p.channelId)
    (hi : st.messages.insert? row = some st'.messages) (hc : row.channelId = p.channelId)
    (hse : row.seq = some (latestSeq st p.channelId + 1))
    (hcu : p.pushCursor = latestSeq st p.channelId) : p.page st' = [row] := by
  have hr : st'.channelMessages p.channelId = st.channelMessages p.channelId ++ [row] := by
    rw [Store.channelMessages,Table.insert?_rows hi,filter_append]
    simp [Store.channelMessages,hc]
  have ho : (st.channelMessages p.channelId).filter
      (fun m => m.seq.any fun q : ℕ => p.pushCursor < q) = [] := by
    rw [filter_eq_nil_iff]
    intro m hm ha
    obtain ⟨q,hq,hlt⟩ := (Option.any_eq_true ..).mp ha
    have hle := (hs.bounds m hm q hq).2
    have hlt := of_decide_eq_true hlt
    omega
  have hn : [row].filter (fun m => m.seq.any fun q : ℕ => p.pushCursor < q) = [row] := by
    simp [hse,hcu]
  rw [FederationPusher.page,getHistory,hr,filter_append,ho,hn]
  rfl

/-- After the commit, the next push of a pusher that was up to date contains the message. -/
theorem committed_push_covers {ing : Ingestor L} {disk : Disk} {d : Delivery} {message : Message}
    (h : (lxmfIngest ing lim st disk d).outcome = .ok (message, st'))
    (hk : ¬ Mutation d.envelope.type) (hne : getByHash st message.msgHash = none)
    (hseq : message.seq.isSome) (hs : Sequenced st d.envelope.channelId)
    (hc : p.channelId = d.envelope.channelId) (hcu : p.pushCursor = latestSeq st p.channelId)
    (hp : filtered st' p.peerIdentityHash message = false) (hl : env.linked = true)
    (hse : env.sends = true)
    (hf : env.packedSize (pushPayload p.channelId p.nodeIdentityHash
      [attachKeys env p.nodeIdentityHash message]) ≤ maxFrameSize) :
    ∃ payload, (p.pushPending env st').2.1 = some payload ∧ Contains payload message.msgHash := by
  obtain ⟨path,he⟩ := upload_envelope ing.storage disk d
  have hk' : ¬ Mutation (upload ing.storage disk d).2.type := by
    rw [he]
    exact hk
  obtain ⟨hi,ho,hn⟩ := ingest_numbered (r := (message, st')) hk' h hne hseq
  have hsa : (upload ing.storage disk d).2.channelId = p.channelId := by rw [he,hc]
  rw [hsa] at ho hn
  rw [← hc] at hs
  have hpu : p.toPush st' = [message] := by
    rw [FederationPusher.toPush,page_inserted hs hi ho hn hcu]
    simp [hp]
  refine ⟨pushPayload p.channelId p.nodeIdentityHash
    ([message].map (attachKeys env p.nodeIdentityHash)),?_,?_⟩
  · simp [FederationPusher.pushPending,hl,hpu,hse,Nat.not_lt.mpr hf]
  · exact contains_iff.mpr ⟨message,mem_singleton_self message,rfl⟩

/-! A text in the lobby, with a pusher that has sent everything before it. -/

def lobbyPusher : FederationPusher where
  peerIdentityHash := "peer"
  channelId := "lobby"
  nodeIdentityHash := "node"
  pushCursor := 1

def helloHash : String := helloText.envelope.computeHash samplePrimitives

lemma helloText_ingested :
    ∃ message st', (lxmfIngest sampleIngestor none sampleThreads { tree := .empty }
      helloText).outcome = .ok (message, st') ∧ message.msgHash = helloHash := by
  obtain ⟨⟨message,st'⟩,h⟩ := toOption_isSome.mp (show (lxmfIngest sampleIngestor none
    sampleThreads { tree := .empty } helloText).outcome.toOption.isSome by decide +kernel)
  have hh : (lxmfIngest sampleIngestor none sampleThreads { tree := .empty }
      helloText).outcome.toOption.map (fun r => r.1.msgHash) = some helloHash := by
    decide +kernel
  rw [h] at hh
  exact ⟨message,st',h,Option.some.inj hh⟩

theorem helloText_never_covered :
    ¬ Covers (federate sampleIngestor (fun _ => {}) [("peer:lobby", lobbyPusher)] none sampleThreads
      { tree := .empty } helloText).2 helloHash := by
  obtain ⟨message,st',h,hh⟩ := helloText_ingested
  have hn : getByHash sampleThreads message.msgHash = none := by
    rw [hh]
    decide +kernel
  rw [← hh]
  exact trigger_never_covers sampleIngestor (fun _ => {}) [("peer:lobby", lobbyPusher)] none
    sampleThreads { tree := .empty } helloText h hn

def measuredEnv : PushEnv := { packedSize := fun v => (sizeAt packDepth v).getD 0 }

theorem helloText_covered_later : ∃ message st',
    (lxmfIngest sampleIngestor none sampleThreads { tree := .empty } helloText).outcome =
        .ok (message, st') ∧
      ∃ payload, (lobbyPusher.pushPending measuredEnv st').2.1 = some payload ∧
        Contains payload message.msgHash := by
  have hs : Sequenced sampleThreads "lobby" := by
    constructor
    · intro m hm q hq
      cases mem_singleton.mp hm
      cases hq
      decide +kernel
    · intro m hm m' hm' _ _ _
      rw [mem_singleton.mp hm,mem_singleton.mp hm']
  have ha : (lxmfIngest sampleIngestor none sampleThreads { tree := .empty }
      helloText).outcome.toOption.any fun r => getByHash sampleThreads r.1.msgHash = none ∧
        r.1.seq.isSome ∧ filtered r.2 "peer" r.1 = false ∧ measuredEnv.packedSize
          (pushPayload "lobby" "node" [attachKeys measuredEnv "node" r.1]) ≤ maxFrameSize := by
    decide +kernel
  obtain ⟨⟨message,st'⟩,ho,hr⟩ := (Option.any_eq_true ..).mp ha
  obtain ⟨hn,hq,hf,hz⟩ := of_decide_eq_true hr
  have ho := toOption_eq_some.mp ho
  exact ⟨message,st',ho,committed_push_covers ho (by simp [Mutation,helloText]; decide) hn hq hs
    rfl rfl hf rfl rfl hz⟩

theorem helloText_not_pushed :
    (lxmfIngest sampleIngestor none sampleThreads { tree := .empty } helloText).outcome.toOption.map
        (fun r => (r.1.seq, (lobbyPusher.pushPending {} r.2).2.1.isSome)) = some (some 2, true) ∧
      latestSeq sampleThreads "lobby" = 1 ∧
      (federate sampleIngestor (fun _ => {}) [("peer:lobby", lobbyPusher)] none sampleThreads
        { tree := .empty } helloText).2.map (fun t => t.sent.isSome) = [false] := by
  decide +kernel

end Hokora.FederationTrigger
