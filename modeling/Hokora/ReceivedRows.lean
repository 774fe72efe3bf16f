import Hokora.FederatedAcceptance
import Hokora.PushDelivery

/-!
# The rows that a node receives

What a receipt leaves in the database, and what the same receipt does again.
-/
namespace Hokora.ReceivedRows
open Constants Database KeyedTable List MirrorIngest PushDelivery PushReceive PyValue Repositories
  SenderBinding TransitionRuns WireRows
open ChannelRepo (bumpSeq getById getById_bumpSeq)
open MirrorIngest (ingest)
open MsgData (ofVal)

/-- The table grows at its end by rows that have the property with their payloads, and each
counter by the number of new rows in its channel. -/
def Appended (P : MsgData → Message → Prop) (st st' : Store) : Prop :=
  ∃ added : List (MsgData × Message), st'.messages.rows = st.messages.rows ++ added.map Prod.snd ∧
      (∀ x ∈ added, P x.1 x.2) ∧
      ∀ k, latestSeq st' k = latestSeq st k + (added.filter fun x => x.2.channelId = k).length

section Appended
variable {P Q : MsgData → Message → Prop} {st st₁ st' : Store}

lemma Appended.refl (P : MsgData → Message → Prop) (st : Store) : Appended P st st :=
  ⟨[],by simp,by simp,by simp⟩

lemma Appended.trans (h₁ : Appended P st st₁) (h₂ : Appended P st₁ st') : Appended P st st' := by
  obtain ⟨xs,hr,hxs,hs⟩ := h₁
  obtain ⟨ys,hr',hys,hs'⟩ := h₂
  refine ⟨xs ++ ys,?_,?_,?_⟩
  · rw [hr',hr,map_append,append_assoc]
  · intro x hx
    rcases mem_append.mp hx with hx | hx
    · exact hxs x hx
    · exact hys x hx
  · intro k
    rw [hs',hs,filter_append,length_append,Nat.add_assoc]

lemma Appended.mono (h : Appended P st st') (hPQ : ∀ d row, P d row → Q d row) :
    Appended Q st st' := by
  obtain ⟨xs,hr,hxs,hs⟩ := h
  exact ⟨xs,hr,fun x hx => hPQ _ _ (hxs x hx),hs⟩

lemma Appended.initial_rows (h : Appended P st st') : st.messages.rows <+: st'.messages.rows := by
  obtain ⟨xs,hr,-,-⟩ := h
  exact ⟨xs.map Prod.snd,hr.symm⟩

end Appended

variable {d : MsgData} {sig : SignatureScheme} {st : Store} {now now' : ℚ}

lemma latestSeq_bumpSeq_of_ne {ch k : String} (h : k ≠ ch) :
    latestSeq (bumpSeq st ch) k = latestSeq st k := by
  unfold latestSeq
  rw [getById_bumpSeq,if_neg h]

/-- A payload whose sender binding was accepted, and a row with the payload's sender. -/
def Taken (sig : SignatureScheme) (requireSigned : Bool) (d : MsgData) (row : Message) : Prop :=
  (verifySenderBinding sig d.senderHash d.senderRnsPublicKey d.lxmfSignedPart d.lxmfSignature
      requireSigned).1 = true ∧
    bindText d.senderHash = .ok row.senderHash

section Store
variable {sig : SignatureScheme} {b : PushBatch} {now : ℚ} {st st' : Store} {d : MsgData}
  {content : WireBody}

lemma storeEntry_appended {P : MsgData → Message → Prop} {r : ℕ × Store}
    (h : storeEntry b now st d content = .ok r)
    (hP : ∀ row : Message, bindText d.senderHash = .ok row.senderHash → P d row) :
    Appended P st r.2 := by
  obtain ⟨seq,st'⟩ := r
  obtain ⟨c,name,row,t,hc,-,-,hb,hi,rfl⟩ := storeEntry_cases h
  have hch : row.channelId = b.channelId := (WireRow.bind_ok hb).channelId
  refine ⟨[(d, { row with seq := some (c.latestSeq + 1) })],Table.insert?_rows hi,?_,?_⟩
  · intro x hx
    cases mem_singleton.mp hx
    exact hP _ (WireRow.bind_retimed hb now).1
  intro k
  change latestSeq (bumpSeq st b.channelId) k = _
  by_cases hk : k = b.channelId
  · subst hk
    rw [latestSeq_bumpSeq hc,latestSeq_eq hc]
    simp [hch]
  · rw [latestSeq_bumpSeq_of_ne hk]
    simp [hch,Ne.symm hk]

lemma storable_retimed (h : Storable b now st d content) (now' : ℚ) :
    Storable b now' st d content := by
  obtain ⟨hc,name,row,hn,hb⟩ := h
  exact ⟨hc,name,_,hn,(WireRow.bind_retimed hb now').2⟩

lemma pushEntry_appended {a : Answer} (h : pushEntry sig b now st d = .ok (a, st')) :
    Appended (fun e row => e = d ∧ Taken sig b.requireSigned d row) st st' := by
  obtain ⟨-,-,-,rfl⟩ | ⟨-,⟨-,-,rfl⟩ | ⟨content,seq,hv,hst,-⟩⟩ := pushEntry_cases h
  · exact .refl _ _
  · exact .refl _ _
  · have hb := (vetEntry_some.mp hv).2.1
    exact storeEntry_appended hst fun row hs => ⟨rfl,hb,hs⟩

lemma pushEntries_grow {vs : List Val} {as : List Answer}
    (h : pushEntries sig b now st vs = .ok (as, st')) :
    Appended (fun e row => (∃ v ∈ vs, ofVal v = .ok e) ∧ Taken sig b.requireSigned e row)
      st st' := by
  induction vs generalizing st as with
  | nil =>
    cases h
    exact .refl _ _
  | cons v vs ih =>
    obtain ⟨d,a,st₁,as',hd,hen,hr,rfl⟩ := pushEntries_cons.mp h
    refine ((pushEntry_appended hen).mono ?_).trans ((ih hr).mono ?_)
    · rintro e row ⟨rfl,ht⟩
      exact ⟨⟨v,mem_cons_self,hd⟩,ht⟩
    · rintro e row ⟨⟨w,hw,he⟩,ht⟩
      exact ⟨⟨w,mem_cons_of_mem v hw,he⟩,ht⟩

end Store

def PushedEntry (payload : Val) (d : MsgData) : Prop :=
  ∃ messages entries, payload.get "messages" (.list []) = .ok messages ∧
    messages.iter = .ok entries ∧ ∃ v ∈ entries, ofVal v = .ok d

variable {config : Option FederationConfig} {b : PushBatch} {peerHash : String} {row : Message}

lemma handlePushMessages_appended {L : Type} (sig : SignatureScheme)
    (config : Option FederationConfig) (now : ℚ) (st : Store) (p : Val)
    (ch rq : Option String) (link : Option L) : Appended (fun d row => PushedEntry p d ∧
        Taken sig (config.any FederationConfig.requireSignedFederation) d row) st
      (committed st (handlePushMessages sig config now st p ch rq link)) := by
  rcases handlePushMessages_cases with hs | ⟨c,b,entries,as,st',ho,he,hs⟩
  · rw [hs]
    exact .refl _ st
  obtain ⟨hsi,-,messages,hm,hi⟩ := openBatch_ok ho
  rw [hs]
  refine (pushEntries_grow he).mono ?_
  rintro d row ⟨hd,ht⟩
  exact ⟨⟨messages,entries,hm,hi,hd⟩,hsi ▸ ht⟩

variable {rs : Bool} {msgData : Val}

lemma ingest_cases {ch : String} :
    ingest sig rs now st ch msgData peerHash = st ∨ ∃ d po content r, ofVal msgData = .ok d ∧
        msgData.get "origin_node" .none = .ok po ∧
        precheck sig rs now d = .ok true ∧ getByWireHash st d.msgHash = .ok none ∧
        storeEntry (mirrorBatch rs st ch peerHash po) now st d content = .ok r ∧
        ingest sig rs now st ch msgData peerHash = r.2 := by
  unfold ingest
  cases htx : ingestTx sig rs now st ch msgData peerHash with
  | error e => exact .inl rfl
  | ok st' =>
    cases ingestTx_effect htx with
    | stored hd ho hp hf _ hs =>
      exact .inr ⟨_,_,_,_,hd,ho,hp,hf,hs,rfl⟩
    | _ => exact .inl rfl

lemma ingest_appended (sig : SignatureScheme) (rs : Bool) (now : ℚ) (st : Store)
    (ch : String) (msgData : Val) (ph : String) :
    Appended (fun d row => ofVal msgData = .ok d ∧ Taken sig rs d row) st
      (ingest sig rs now st ch msgData ph) := by
  rcases ingest_cases with hsa | ⟨d,_,content,r,hd,-,hp,-,hst,hr⟩
  · rw [hsa]
    exact .refl _ st
  obtain ⟨-,-,-,hb⟩ := precheck_true.mp hp
  rw [hr]
  exact storeEntry_appended hst fun row hs => ⟨hd,hb,hs⟩

/-- The row names the holder of the payload's key, and that key signed the payload's signed
part. -/
def SenderProven (sig : SignatureScheme) (d : MsgData) (row : Message) : Prop :=
  ∃ key part signature, d.senderRnsPublicKey = .bytes key ∧ key.length = rnsPublicKeySize ∧
    d.lxmfSignedPart = .bytes part ∧ d.lxmfSignature = .bytes signature ∧
    row.senderHash = some (sig.truncatedHashHex key) ∧
    sig.verify (key.drop ed25519PublicKeySize) part signature = true

lemma Taken.proven (h : Taken sig true d row) : SenderProven sig d row := by
  obtain ⟨hb,hs⟩ := h
  obtain ⟨key,part,signature,hk,hl,hp,hsi,hh,hv⟩ :=
    verifySenderBinding_signed hb
  refine ⟨key,part,signature,hk,hl,hp,hsi,?_,hv⟩
  rw [hh] at hs
  exact (Except.ok.inj hs).symm

/-- With signatures required, every new row of either path is from the sender it names, and
the counters move for such rows only. -/
theorem received_senders_proven {L : Type} (sig : SignatureScheme) {config : FederationConfig}
    (hsigned : config.requireSignedFederation = true) (now : ℚ) (st : Store) :
    (∀ payload channelId requesterHash (link : Option L),
      Appended (fun d row => PushedEntry payload d ∧ SenderProven sig d row) st
        (committed st (handlePushMessages sig (some config) now st payload channelId requesterHash
          link))) ∧ ∀ channelId msgData peerHash,
        Appended (fun d row => ofVal msgData = .ok d ∧ SenderProven sig d row) st
          (ingest sig config.requireSignedFederation now st channelId msgData peerHash) := by
  constructor
  · intro payload channelId requesterHash link
    have hp := handlePushMessages_appended sig (some config) now st payload channelId
      requesterHash link
    simp only [Option.any_some,hsigned] at hp
    exact hp.mono fun d row h => ⟨h.1,h.2.proven⟩
  intro channelId msgData peerHash
  have hm := ingest_appended sig config.requireSignedFederation now st channelId msgData peerHash
  rw [hsigned] at hm ⊢
  exact hm.mono fun d row h => ⟨h.1,h.2.proven⟩

open FederatedAcceptance in
theorem samplePush_senders_proven : ({} : FederationConfig).requireSignedFederation = true ∧
      Appended (fun d row => PushedEntry samplePush d ∧ SenderProven sampleScheme d row) sampleStore
        (committed sampleStore (handlePushMessages sampleScheme (some {}) 1000 sampleStore
          samplePush
          none none (none : Option Unit))) :=
  ⟨rfl,(received_senders_proven sampleScheme rfl 1000 sampleStore).1 samplePush none none none⟩

section Again
variable {sig : SignatureScheme} {b : PushBatch} {now : ℚ} {st st' : Store}

structure SameContext (st st' : Store) : Prop where
  identities : st'.identities = st.identities
  peers : st'.peers = st.peers
  channelSealed : ∀ k, (getById st' k).any Channel.sealed = (getById st k).any Channel.sealed

lemma SameContext.trans {st₁ : Store} (h₁ : SameContext st st₁) (h₂ : SameContext st₁ st') :
    SameContext st st' :=
  ⟨h₂.identities.trans h₁.identities,h₂.peers.trans h₁.peers,
    fun k => (h₂.channelSealed k).trans (h₁.channelSealed k)⟩

lemma effect_context {a : Answer} (h : EntryEffect sig b st d a st') : SameContext st st' := by
  cases h with
  | duplicate => exact ⟨rfl,rfl,fun _ => rfl⟩
  | refused => exact ⟨rfl,rfl,fun _ => rfl⟩
  | stored =>
    refine ⟨rfl,rfl,fun k => ?_⟩
    change (getById (bumpSeq st b.channelId) k).any _ = _
    rw [getById_bumpSeq]
    split_ifs
    · cases getById st k <;> rfl
    · rfl

variable {as : List Answer} {vs : List Val}

lemma pushEntries_context (h : pushEntries sig b now st vs = .ok (as, st')) : SameContext st st' :=
  pushEntries_rel (fun _ => ⟨rfl,rfl,fun _ => rfl⟩) .trans
    (fun he => effect_context (pushEntry_effect he)) h

lemma openBatch_congr (h : SameContext st st') {p : Val} {ch : Option String} :
    openBatch config st' p ch = openBatch config st p ch := by
  unfold openBatch requireTrustedPeer batchFor
  rw [h.peers]
  simp [h.channelSealed]

variable {hash : Val} {row : Message}

lemma getByWireHash_kept (h : pushEntries sig b now st vs = .ok (as, st'))
    (hr : getByWireHash st hash = .ok (some row)) : getByWireHash st' hash ≠ .ok none := by
  obtain ⟨key,hk,hg⟩ := bind_ok hr
  unfold getByWireHash
  rw [hk,ok_bind]
  cases key with
  | none => cases hg
  | some k =>
    have hs : MessageRepo.getByHash st k = some row := Except.ok.inj hg
    obtain ⟨row',hr'⟩ := Option.isSome_iff_exists.mp
      (pushEntries_kept h (Option.isSome_iff_exists.mpr ⟨row,hs⟩))
    rw [Option.bind_some,hr']
    rintro ⟨⟩

lemma getByWireHash_inserted (hh : bindText hash = .ok (some row.msgHash))
    (hi : st.messages.insert? row = some st'.messages) :
    getByWireHash st' hash = .ok (some row) := by
  have hg : MessageRepo.getByHash st' row.msgHash = some row :=
    (Table.get?_insert? hi row.msgHash).trans (if_pos rfl)
  unfold getByWireHash
  rw [hh,ok_bind,Option.bind_some,hg]
  rfl

lemma effect_settled {a : Answer} (h : EntryEffect sig b st d a st') :
    (∃ row, getByWireHash st' d.msgHash = .ok (some row)) ∨ vetEntry sig b st d = .ok none := by
  cases h with
  | duplicate hf => exact .inl ⟨_,hf⟩
  | refused _ hv => exact .inr hv
  | stored _ _ _ hh _ _ _ hi => exact .inl ⟨_,getByWireHash_inserted hh hi⟩

lemma pushEntries_exhausted (h : pushEntries sig b now st vs = .ok (as, st')) :
    ∀ v ∈ vs, ∀ d, ofVal v = .ok d → ¬ Admissible sig b st' d := by
  induction vs generalizing st as with
  | nil => simp
  | cons v vs ih =>
    obtain ⟨d,a,st₁,as',hd,hen,hr,rfl⟩ := pushEntries_cons.mp h
    have hef := pushEntry_effect hen
    intro w hw e he
    rcases mem_cons.mp hw with rfl | hw
    · cases hd.symm.trans he
      rintro ⟨hn,content,hv⟩
      rcases effect_settled hef with ⟨row,hro⟩ | hre
      · exact getByWireHash_kept hr hro hn
      -- Neither the entry nor the rest of the batch touches the ban list.
      have hc := (effect_context hef).trans (pushEntries_context hr)
      rw [vetEntry_congr hc.identities,hre] at hv
      cases hv
    · exact ih hr w hw e he

lemma pushEntries_idle (h : pushEntries sig b now st vs = .ok (as, st'))
    (hi : ∀ v ∈ vs, ∀ d, ofVal v = .ok d → ¬ Admissible sig b st d) : st' = st := by
  induction vs generalizing as with
  | nil =>
    cases h
    rfl
  | cons v vs ih =>
    obtain ⟨d,a,st₁,as',hd,he,hr,rfl⟩ := pushEntries_cons.mp h
    obtain rfl := (pushEntry_effect he).unchanged (hi v mem_cons_self d hd)
    exact ih hr fun w hw => hi w (mem_cons_of_mem v hw)

lemma unexceptional_retimed {seen : List String} (h : Unexceptional sig b now st seen vs) :
    Unexceptional sig b now' st seen vs := by
  induction vs generalizing seen with
  | nil => trivial
  | cons v vs ih =>
    obtain ⟨d,key,hd,hke,hc⟩ := h
    refine ⟨d,key,hd,hke,?_⟩
    rcases hc with ⟨hk,hr⟩ | ⟨hn,⟨hv,hr⟩ | ⟨content,hv,hs,hr⟩⟩
    · exact .inl ⟨hk,ih hr⟩
    · exact .inr ⟨hn,.inl ⟨hv,ih hr⟩⟩
    · exact .inr ⟨hn,.inr ⟨content,hv,storable_retimed hs now',ih hr⟩⟩

lemma pushEntries_retimed {r : List Answer × Store} (h : pushEntries sig b now st vs = .ok r)
    (now' : ℚ) : ∃ r', pushEntries sig b now' st vs = .ok r' :=
  (pushEntries_succeeds_iff (After.refl st b)).mpr
    (unexceptional_retimed ((pushEntries_succeeds_iff (After.refl st b)).mp ⟨r,h⟩))

end Again

lemma handlePushMessages_again {L : Type} {p : Val}
    {ch rq : Option String} {link : Option L} {st₁ : Store}
    (hst₁ : st₁ = committed st (handlePushMessages sig config now st p ch rq link)) :
    committed st₁ (handlePushMessages sig config now' st₁ p ch rq link) =
      st₁ := by
  cases ha : handlePushMessages sig config now' st₁ p ch rq link with
  | error e => rfl
  | ok r =>
    obtain ⟨⟨c,b,entries⟩,ho,h⟩ := bind_ok ha
    obtain ⟨⟨as,st₂⟩,he,h⟩ := bind_ok h
    cases h
    cases hp : handlePushMessages sig config now st p ch rq link with
    | error e =>
      -- The first attempt was rolled back, so the second one ran on the same database.
      rw [hp] at hst₁
      obtain rfl : st₁ = st := hst₁
      obtain ⟨r',hr'⟩ := pushEntries_retimed he now
      unfold handlePushMessages at hp
      rw [ho,ok_bind] at hp
      simp only [hr',ok_bind] at hp
      cases hp
    | ok r₁ =>
      rw [hp] at hst₁
      obtain ⟨⟨c',b',entries'⟩,ho',h'⟩ := bind_ok hp
      obtain ⟨⟨as',st'⟩,he',h'⟩ := bind_ok h'
      cases h'
      obtain rfl : st₁ = st' := hst₁
      rw [openBatch_congr (pushEntries_context he'),ho'] at ho
      cases ho
      exact pushEntries_idle he (pushEntries_exhausted he')

lemma ingest_known {ch : String} (hd : ofVal msgData = .ok d)
    (hr : getByWireHash st d.msgHash = .ok (some row)) :
    ingest sig rs now st ch msgData peerHash = st := by
  rcases ingest_cases with hs | ⟨d',_,content,r,hd',-,-,hn,-,-⟩
  · exact hs
  cases hd.symm.trans hd'
  rw [hr] at hn
  cases hn

lemma storeEntry_known {content : WireBody} {r : ℕ × Store}
    (h : storeEntry b now st d content = .ok r) :
    ∃ row, getByWireHash r.2 d.msgHash = .ok (some row) := by
  obtain ⟨c,row,t,-,-,hh,-,-,-,hi,hr⟩ := storeEntry_ok h
  rw [hr]
  exact ⟨row,getByWireHash_inserted hh hi⟩

/-- Both clock readings lie on the same side of the age window. -/
def SameWindow (msgData : Val) (now now' : ℚ) : Prop :=
  ∀ d, ofVal msgData = .ok d → outOfWindow d.timestamp now' = outOfWindow d.timestamp now

lemma precheck_retimed (h : outOfWindow d.timestamp now' = outOfWindow d.timestamp now) :
    precheck sig rs now' d = precheck sig rs now d := by
  unfold precheck
  rw [h]

lemma ingest_again {ch : String} (hw : SameWindow msgData now now')
    {st₁ : Store} (hst₁ : st₁ = ingest sig rs now st ch msgData peerHash) :
    ingest sig rs now' st₁ ch msgData peerHash = st₁ := by
  rcases ingest_cases with hsa | ⟨d,_,content,r,hd,-,-,-,hs,hr⟩
  · rw [hsa] at hst₁
    subst hst₁
    rcases ingest_cases with hsa' | ⟨d,origin,content,r,hd,ho,-,-,hs,hr⟩
    · exact hsa'
    -- What is stored at the second reading would have been stored at the first.
    have hc := storeEntry_changes hs
    rw [← hr,ingest_changes_iff hd ho] at hc
    obtain ⟨hp,hn,content',hco,r',hs'⟩ := hc
    rw [precheck_retimed (hw d hd)] at hp
    have hst := (storeEntry_succeeds_iff hn).mp ⟨r',hs'⟩
    have hf := (storeEntry_succeeds_iff hn).mpr (storable_retimed hst now)
    have hc' := (ingest_changes_iff hd ho).mpr ⟨hp,hn,content',hco,hf⟩
    rw [hsa] at hc'
    exact absurd rfl hc'
  · obtain ⟨row,hro⟩ := storeEntry_known hs
    rw [← hr,← hst₁] at hro
    exact ingest_known hd hro

inductive Receipt where
  | push (payload : Val) (channelId requesterHash : Option String)
  | mirror (channelId : String) (msgData : Val) (peerHash : String)

def receive (sig : SignatureScheme) (config : FederationConfig) (st : Store) : ℚ × Receipt → Store
  | (now, .push payload channelId requesterHash) =>
    committed st (handlePushMessages sig (some config) now st payload channelId requesterHash
      (none : Option Unit))
  | (now, .mirror channelId msgData peerHash) =>
    ingest sig config.requireSignedFederation now st channelId msgData peerHash

/-- The second reading comes so soon that the age window has not moved over the payload.
A push has no window. -/
def Receipt.AtOnce (r : Receipt) (now now' : ℚ) : Prop :=
  match r with
  | .push _ _ _ => True
  | .mirror _ msgData _ => SameWindow msgData now now'

lemma receive_appended {config : FederationConfig} {e : ℚ × Receipt} :
    st.messages.rows <+: (receive sig config st e).messages.rows := by
  obtain ⟨now,r⟩ := e
  cases r with
  | push payload channelId rq =>
    exact (handlePushMessages_appended sig (some config) now st payload channelId rq
      (none : Option Unit)).initial_rows
  | mirror channelId msgData peerHash =>
    exact (ingest_appended sig config.requireSignedFederation now st channelId msgData
      peerHash).initial_rows

lemma receive_again {config : FederationConfig} {r : Receipt} (h : r.AtOnce now now') :
    receive sig config (receive sig config st (now, r)) (now', r) =
      receive sig config st (now, r) := by
  cases r with
  | push payload channelId requesterHash =>
    exact handlePushMessages_again rfl
  | mirror channelId msgData peerHash =>
    exact ingest_again h rfl

/-- In every sequence of receipts the rows of the start stay in place unchanged, no hash
gets a second row, and a receipt that is processed again at once has no effect. -/
theorem receive_idempotent (sig : SignatureScheme) (config : FederationConfig) (st : Store)
    (es : List (ℚ × Receipt)) :
    st.messages.rows <+: (run (receive sig config) st es).messages.rows ∧
      ((run (receive sig config) st es).messages.rows.map Message.msgHash).Nodup ∧
      ∀ (r : Receipt) (now now' : ℚ), r.AtOnce now now' →
        (run (receive sig config) st (es ++ [(now, r), (now', r)])).messages =
            (run (receive sig config) st (es ++ [(now, r)])).messages ∧
          ∀ k, latestSeq (run (receive sig config) st (es ++ [(now, r), (now', r)])) k =
            latestSeq (run (receive sig config) st (es ++ [(now, r)])) k := by
  refine ⟨?_,Table.keyed _,?_⟩
  · -- The rows of the start are a prefix in every state of the run.
    refine run_invariant (I := fun s : Store => st.messages.rows <+: s.messages.rows) ?_
      (prefix_refl _) es
    intro s e hs
    exact hs.trans receive_appended
  intro r now now' hr
  have hsa : run (receive sig config) st (es ++ [(now, r), (now', r)]) =
      run (receive sig config) st (es ++ [(now, r)]) := by
    rw [run_append,run_append]
    exact receive_again hr
  rw [hsa]
  exact ⟨rfl,fun _ => rfl⟩

def sampleReceipt : Receipt :=
  .push (pushPayload "general" "peer" [FederatedAcceptance.sampleEntry "h1" "hello",
    FederatedAcceptance.sampleEntry "h2" "a", FederatedAcceptance.sampleEntry "h2" "b"]) none none

open FederatedAcceptance in
theorem sampleReceipt_idempotent : sampleReceipt.AtOnce 1000 2000 ∧
      (run (receive sampleScheme {}) sampleStore
          ([(1000, .mirror "ops" (sampleEntry "h1" "hello") "peer")] ++
            [(1000, sampleReceipt), (2000, sampleReceipt)])).messages =
        (run (receive sampleScheme {}) sampleStore
          ([(1000, .mirror "ops" (sampleEntry "h1" "hello") "peer")] ++
            [(1000, sampleReceipt)])).messages :=
  ⟨trivial,((receive_idempotent sampleScheme {} sampleStore _).2.2 sampleReceipt 1000 2000
    trivial).1⟩

end Hokora.ReceivedRows
