import Hokora.PushReceive

/-!
# Ingestion of mirrored messages

One transaction for each message, after the checks of size, sender, time and binding.
-/
namespace Hokora.MirrorIngest
open Constants Database KeyedTable PushReceive PyValue Repositories SealedChannels SenderBinding
  WireRows
open MsgData (ofVal)

def ltClock (v : Val) (t : ℚ) : Py Bool :=
  match v.num? with
  | some x => .ok (x.lt (.fin t))
  | none => .error .typeError

def gtClock (v : Val) (t : ℚ) : Py Bool :=
  match v.num? with
  | some x => .ok ((FloatVal.fin t).lt x)
  | none => .error .typeError

def outOfWindow (timestamp : Val) (now : ℚ) : Py Bool := do
  if ← gtClock timestamp (now + clockDriftTolerance) then pure true
  else ltClock timestamp (now - mirrorMaxAgeSeconds)

def shortSenderHash (senderHash : Val) : Bool :=
  match senderHash with
  | .str s => s.length < 16
  | v => !v.truthy

def precheck (sig : SignatureScheme) (requireSigned : Bool) (now : ℚ) (d : MsgData) : Py Bool := do
  let size ← bodySize d.body
  if maxMessageBodySize < size then pure false
  else if shortSenderHash d.senderHash then pure false
  else do
    let out ← outOfWindow d.timestamp now
    if out then pure false
    else pure (verifySenderBinding sig d.senderHash d.senderRnsPublicKey d.lxmfSignedPart
      d.lxmfSignature requireSigned).1

def mirrorContent (channelSealed : Bool) (d : MsgData) : Py (Option WireBody) :=
  match validateMirrorPayload channelSealed d.body d.encryptedBody d.encryptionNonce
      d.encryptionEpoch with
  | .ok (body, encBody, encNonce, encEpoch) => .ok (some ⟨body,encBody,encNonce,encEpoch⟩)
  | .error (.hokora .sealedChannelError _) => do
      let _ ← d.msgHash.take 16
      pure none
  | .error e => .error e

def mirrorBatch (requireSigned : Bool) (st : Store) (channelId peerHash : String)
    (payloadOrigin : Val) : PushBatch :=
  { channelId := channelId
    channelSealed := (ChannelRepo.getById st channelId).any Channel.sealed
    nodeIdentity := (Val.str peerHash).or payloadOrigin
    requireSigned := requireSigned }

def ingestTx (sig : SignatureScheme) (requireSigned : Bool) (now : ℚ) (st : Store)
    (channelId : String) (msgData : Val) (peerHash : String) : Py Store := do
  let d ← ofVal msgData
  let payloadOrigin ← msgData.get "origin_node" .none
  let batch := mirrorBatch requireSigned st channelId peerHash payloadOrigin
  let pass ← precheck sig requireSigned now d
  if pass = false then pure st
  else match ← getByWireHash st d.msgHash with
  | some _ => pure st
  | none =>
    match ← mirrorContent batch.channelSealed d with
    | none => pure st
    | some content => do
        -- The numbering and the columns of the new row are those of the push path.
        let (_, st') ← storeEntry batch now st d content
        pure st'

/-- The caller logs an exception, and nothing is committed. -/
def ingest (sig : SignatureScheme) (requireSigned : Bool) (now : ℚ) (st : Store)
    (channelId : String) (msgData : Val) (peerHash : String) : Store :=
  match ingestTx sig requireSigned now st channelId msgData peerHash with
  | .ok st' => st'
  | .error _ => st

inductive MirrorEffect (sig : SignatureScheme) (requireSigned : Bool) (now : ℚ) (st : Store)
    (channelId : String) (msgData : Val) (peerHash : String) : Store → Prop
  | failed {d : MsgData} : ofVal msgData = .ok d →
      precheck sig requireSigned now d = .ok false →
      MirrorEffect sig requireSigned now st channelId msgData peerHash st
  | known {d : MsgData} {row : Message} : ofVal msgData = .ok d →
      getByWireHash st d.msgHash = .ok (some row) →
      MirrorEffect sig requireSigned now st channelId msgData peerHash st
  | refused {d : MsgData} : ofVal msgData = .ok d →
      precheck sig requireSigned now d = .ok true → getByWireHash st d.msgHash = .ok none →
      mirrorContent ((ChannelRepo.getById st channelId).any Channel.sealed) d = .ok none →
      MirrorEffect sig requireSigned now st channelId msgData peerHash st
  | stored {d : MsgData} {payloadOrigin : Val} {content : WireBody} {seq : ℕ} {st' : Store} :
      ofVal msgData = .ok d → msgData.get "origin_node" .none = .ok payloadOrigin →
      precheck sig requireSigned now d = .ok true → getByWireHash st d.msgHash = .ok none →
      mirrorContent ((ChannelRepo.getById st channelId).any Channel.sealed) d = .ok (some content) →
      storeEntry (mirrorBatch requireSigned st channelId peerHash payloadOrigin) now st d content =
        .ok (seq, st') →
      MirrorEffect sig requireSigned now st channelId msgData peerHash st'

variable {rs : Bool} {d : MsgData} {sig : SignatureScheme} {st st' : Store}
  {md : Val} {now : ℚ} {ch ph : String}

lemma ingestTx_effect (h : ingestTx sig rs now st ch md ph = .ok st') :
    MirrorEffect sig rs now st ch md ph st' := by
  obtain ⟨d,hd,h⟩ := bind_ok h
  obtain ⟨payloadOrigin,ho,h⟩ := bind_ok h
  obtain ⟨pass,hp,h⟩ := bind_ok h
  cases pass with
  | false =>
    cases h
    exact .failed hd hp
  | true =>
    obtain ⟨found,hf,h⟩ := bind_ok h
    cases found with
    | some row =>
      cases h
      exact .known hd hf
    | none =>
      obtain ⟨verdict,hv,h⟩ := bind_ok h
      cases verdict with
      | none =>
        cases h
        exact .refused hd hp hf hv
      | some content =>
        obtain ⟨⟨seq,st₁⟩,hs,h⟩ := bind_ok h
        cases h
        exact .stored hd ho hp hf hv hs

lemma ingestTx_stored {po : Val} {content : WireBody} {seq : ℕ} (hd : ofVal md = .ok d)
    (ho : md.get "origin_node" .none = .ok po)
    (hp : precheck sig rs now d = .ok true) (hf : getByWireHash st d.msgHash = .ok none)
    (hc : mirrorContent (mirrorBatch rs st ch ph po).channelSealed d = .ok (some content))
    (hs : storeEntry (mirrorBatch rs st ch ph po) now st d content = .ok (seq, st')) :
    ingestTx sig rs now st ch md ph = .ok st' := by
  simp [ingestTx,hd,ho,hp,hf,hc,hs]

lemma precheck_true : precheck sig rs now d = .ok true ↔
      (∃ size, bodySize d.body = .ok size ∧ size ≤ maxMessageBodySize) ∧
        shortSenderHash d.senderHash = false ∧ outOfWindow d.timestamp now = .ok false ∧
        (verifySenderBinding sig d.senderHash d.senderRnsPublicKey d.lxmfSignedPart
          d.lxmfSignature rs).1 = true := by
  unfold precheck
  cases bodySize d.body with
  | error e => simp
  | ok size =>
    by_cases hs : maxMessageBodySize < size
    · simp [hs,pure,Except.pure]
    cases shortSenderHash d.senderHash with
    | true => simp [pure,Except.pure]
    | false =>
      cases outOfWindow d.timestamp now with
      | error e => simp [hs]
      | ok out => cases out <;> simp [hs,Nat.le_of_not_lt hs,pure,Except.pure]

lemma ingest_changes_iff {po : Val}
    (hd : ofVal md = .ok d) (ho : md.get "origin_node" .none = .ok po) :
    (ingest sig rs now st ch md ph).messages ≠ st.messages ↔
      precheck sig rs now d = .ok true ∧ getByWireHash st d.msgHash = .ok none ∧
        ∃ content, mirrorContent (mirrorBatch rs st ch ph po).channelSealed d = .ok (some content) ∧
          ∃ r, storeEntry (mirrorBatch rs st ch ph po) now st d content = .ok r := by
  constructor
  · intro hne
    cases htx : ingestTx sig rs now st ch md ph with
    | error e =>
      simp only [ingest,htx] at hne
      exact absurd rfl hne
    | ok st' =>
      simp only [ingest,htx] at hne
      cases ingestTx_effect htx with
      | stored hd' ho' hp hf hc hs =>
        cases hd.symm.trans hd'
        cases ho.symm.trans ho'
        exact ⟨hp,hf,_,hc,_,hs⟩
      | _ => exact absurd rfl hne
  · rintro ⟨hp,hf,content,hc,⟨seq,st'⟩,hs⟩
    simp only [ingest,ingestTx_stored hd ho hp hf hc hs]
    exact storeEntry_changes hs

def HasRow (st : Store) (msgData : Val) : Prop :=
  ∃ d row, ofVal msgData = .ok d ∧ getByWireHash st d.msgHash = .ok (some row)

def refuses (sig : SignatureScheme) (requireSigned : Bool) (now : ℚ) (st : Store)
    (channelId : String) (msgData : Val) : Bool :=
  match ofVal msgData with
  | .error _ => false
  | .ok d =>
    match precheck sig requireSigned now d with
    | .error _ => false
    | .ok false => true
    | .ok true =>
      match getByWireHash st d.msgHash,
        mirrorContent ((ChannelRepo.getById st channelId).any Channel.sealed) d with
      | .ok none, .ok none => true
      | _, _ => false

lemma ingestTx_settles (h : ingestTx sig rs now st ch md ph = .ok st') :
    refuses sig rs now st ch md = true ∨ HasRow st' md := by
  cases ingestTx_effect h with
  | failed hd hp => exact .inl (by simp [refuses,hd,hp])
  | known hd hf => exact .inr ⟨_,_,hd,hf⟩
  | refused hd hp hf hc =>
    exact .inl (by simp [refuses,hd,hp,hf,hc])
  | stored hd _ _ _ _ hs =>
    obtain ⟨c,row,t,-,-,hh,-,-,-,hi,rfl⟩ := storeEntry_ok hs
    refine .inr ⟨_,row,hd,?_⟩
    have hr : t.get? row.msgHash = some row := by
      rw [Table.get?_insert? hi,if_pos rfl]
    rw [getByWireHash,hh,ok_bind,Option.bind_some]
    exact congrArg Except.ok hr

end Hokora.MirrorIngest
