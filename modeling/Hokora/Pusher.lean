import Hokora.PushReceive

/-!
# Pushing to a peer

The page, the filter, the frame limit and the acknowledgement. Packed sizes are a parameter.
-/
namespace Hokora.Pusher
open BigEndian Constants Database PushReceive PyValue Repositories

structure FederationPusher where
  peerIdentityHash : String
  channelId : String
  nodeIdentityHash : String
  pushCursor : ℤ := 0
  consecutiveFailures : ℕ := 0
  lastAttempt : ℚ := 0

structure PushEnv where
  linked : Bool := true
  recallIdentity : String → Option Bytes := fun _ => none
  packedSize : Val → ℕ := fun _ => 0
  sends : Bool := true
  monotonic : ℚ := 0

def reactionVal (r : Reaction) : Val :=
  .dict [("count", .int r.count), ("identities", .list (r.identities.map .str))]

def natVal? : Option ℕ → Val
  | some n => .int n
  | none => .none

def encodeMessageForSync (m : Message) : List (String × Val) :=
  [("msg_hash", .str m.msgHash), ("channel_id", .str m.channelId),
   ("sender_hash", Val.ofStr? m.senderHash),
   ("seq", natVal? m.seq),
   ("thread_seq", natVal? m.threadSeq),
   ("timestamp", .float m.timestamp),
   ("type", .int m.type),
   ("body", .str (m.body.getD "")),
   ("media_path", Val.ofStr? m.mediaPath),
   ("reply_to", Val.ofStr? m.replyTo),
   ("deleted", .bool m.deleted),
   ("pinned", .bool m.pinned),
   ("pinned_at", (m.pinnedAt.map fun t => Val.float (.fin t)).getD .none),
   ("edit_chain", .list (m.editChain.map .str)),
   ("edited", .bool (m.editChain ≠ [])),
   ("reactions", .dict (m.reactions.map fun e => (e.1, reactionVal e.2))),
   ("lxmf_signature", Val.ofBytes? m.lxmfSignature),
   ("lxmf_signed_part", Val.ofBytes? m.lxmfSignedPart),
   ("sender_public_key", .none),
   ("sender_rns_public_key", .none),
   ("display_name", Val.ofStr? m.displayName),
   ("mentions", .list (m.mentions.map .str))]

def setItem (d : List (String × Val)) (k : String) (v : Val) : List (String × Val) :=
  if (d.lookup k).isSome then d.map fun e => if e.1 = k then (k, v) else e else d ++ [(k, v)]

lemma lookup_setItem_ne {k k' : String} (h : k ≠ k') {d : List (String × Val)} {v : Val} :
    (setItem d k' v).lookup k = d.lookup k := by
  rw [setItem,lookup_assign,if_neg h]

lemma lookup_setItem {d : List (String × Val)} {k : String} {v : Val} :
    (setItem d k v).lookup k = some v := by
  rw [setItem,lookup_assign,if_pos rfl]

def attachKeys (env : PushEnv) (nodeIdentityHash : String) (m : Message) : Val :=
  let d := setItem (encodeMessageForSync m) "origin_node" (.str nodeIdentityHash)
  match m.senderHash.filter fun s => s ≠ "" with
  | none => .dict d
  | some sender =>
    match env.recallIdentity sender with
    | none => .dict d
    | some pk =>
      if pk.length = rnsPublicKeySize then
        .dict (setItem (setItem d "sender_rns_public_key" (.bytes pk)) "sender_public_key"
          (.bytes (pk.drop 32)))
      else .dict d

def filtered (st : Store) (peerIdentityHash : String) (m : Message) : Bool :=
  m.originNode = some peerIdentityHash ||
    match m.senderHash with
    | some sender => Ban.isBlocked st sender
    | none => false

namespace FederationPusher

def page (p : FederationPusher) (st : Store) : List Message :=
  MessageRepo.getHistory st p.channelId p.pushCursor pushBatchSize

def toPush (p : FederationPusher) (st : Store) : List Message :=
  (p.page st).filter fun m => !filtered st p.peerIdentityHash m

def maxSeq (base : ℤ) (ms : List Message) : ℤ :=
  ms.foldl (fun acc m => if acc < (m.seq.getD 0 : ℕ) then (m.seq.getD 0 : ℕ) else acc) base

def fail (p : FederationPusher) (env : PushEnv) : FederationPusher :=
  { p with consecutiveFailures := p.consecutiveFailures + 1, lastAttempt := env.monotonic }

def pushPending (p : FederationPusher) (env : PushEnv) (st : Store) :
    FederationPusher × Option Val × Bool :=
  if env.linked = false then (p.fail env, none, false)
  else if p.toPush st = [] then
    -- Nothing to send: the cursor moves past what was dropped.
    ({ p with
       pushCursor := maxSeq p.pushCursor (p.page st)
       consecutiveFailures := 0 }, none, true)
  else
    let payload := pushPayload p.channelId p.nodeIdentityHash
      ((p.toPush st).map (attachKeys env p.nodeIdentityHash))
    if maxFrameSize < env.packedSize payload then (p.fail env, none, false)
    else if env.sends = false then (p.fail env, none, false)
    else ({ p with consecutiveFailures := 0 }, some payload, true)

def maxReceived : List Val → Py ℤ
  | [] => .error .valueError
  | [v] =>
    match v.int? with
    | some i => .ok i
    | none => .error .typeError
  | v :: vs => do
      let rest ← maxReceived vs
      match v.int? with
      | some i => .ok (max i rest)
      | none => .error .typeError

def handlePushAck (p : FederationPusher) (data : Val) : Py FederationPusher := do
  let received ← data.get "received" (.list [])
  if received.truthy = false then pure p
  else do
    let newest ← maxReceived (← received.iter)
    if p.pushCursor < newest then pure { p with pushCursor := newest } else pure p

end FederationPusher

def ackVal (ack : PushAck) : Val :=
  .dict [("action", .str "push_ack"), ("channel_id", ack.channelId),
    ("received", .list ack.received), ("rejected", .list ack.rejected)]

def recalledKey (env : PushEnv) (m : Message) : Option Bytes :=
  ((m.senderHash.filter fun s => s ≠ "").bind env.recallIdentity).filter
    fun pk => pk.length = rnsPublicKeySize

def pushedData (env : PushEnv) (m : Message) : MsgData :=
  { msgHash := .str m.msgHash, seq := natVal? m.seq, senderHash := Val.ofStr? m.senderHash,
    senderRnsPublicKey := Val.ofBytes? (recalledKey env m),
    lxmfSignedPart := Val.ofBytes? m.lxmfSignedPart,
    lxmfSignature := Val.ofBytes? m.lxmfSignature, type := .int m.type,
    body := .str (m.body.getD ""), encryptedBody := .none, encryptionNonce := .none,
    encryptionEpoch := .none, timestamp := .float m.timestamp,
    displayName := Val.ofStr? m.displayName }

lemma attachKeys_data {env : PushEnv} {nodeIdentityHash : String} {m : Message} :
    MsgData.ofVal (attachKeys env nodeIdentityHash m) = .ok (pushedData env m) := by
  unfold attachKeys pushedData recalledKey
  split
  next h =>
    rw [h,MsgData.ofVal_lookups]
    rfl
  next sender h =>
    rw [h,Option.bind_some]
    split
    next hr =>
      rw [hr,MsgData.ofVal_lookups]
      rfl
    next pk hr =>
      rw [hr]
      split_ifs with hl
      · rw [Option.filter_some,if_pos (by simpa using hl),MsgData.ofVal_lookups]
        rfl
      · rw [Option.filter_some,if_neg (by simpa using hl),MsgData.ofVal_lookups]
        rfl

lemma maxReceived_mem {vs : List Val} {n : ℤ}
    (h : FederationPusher.maxReceived vs = .ok n) : ∃ v ∈ vs, v.int? = some n := by
  fun_induction FederationPusher.maxReceived vs generalizing n with
  | case1 => cases h
  | case2 v i hi =>
    cases h
    exact ⟨v,List.mem_singleton_self v,hi⟩
  | case3 => cases h
  | case4 v vs hne ih =>
    obtain ⟨rest,hr,h⟩ := bind_ok h
    obtain ⟨w,hw,hwn⟩ := ih hr
    split at h
    next i hi =>
      cases h
      rcases Int.le_total i rest with hle | hle
      · exact ⟨w,List.mem_cons_of_mem v hw,by rw [Int.max_eq_right hle,hwn]⟩
      · exact ⟨v,List.mem_cons_self,by rw [Int.max_eq_left hle,hi]⟩
    · cases h

lemma handlePushAck_cursor {p p' : FederationPusher} {ack : PushAck}
    (h : p.handlePushAck (ackVal ack) = .ok p') :
    p' = p ∨ ∃ v ∈ ack.received, ∃ n, v.int? = some n ∧ p' = { p with pushCursor := n } := by
  unfold FederationPusher.handlePushAck at h
  have hg : (ackVal ack).get "received" (.list []) = .ok (.list ack.received) := rfl
  rw [hg,ok_bind] at h
  split_ifs at h
  · cases h
    exact .inl rfl
  have hi : (Val.list ack.received).iter = .ok ack.received := rfl
  rw [hi,ok_bind] at h
  obtain ⟨newest,hm,h⟩ := bind_ok h
  obtain ⟨v,hv,hn⟩ := maxReceived_mem hm
  split_ifs at h <;> cases h
  · exact .inr ⟨v,hv,newest,hn,rfl⟩
  · exact .inl rfl

end Hokora.Pusher
