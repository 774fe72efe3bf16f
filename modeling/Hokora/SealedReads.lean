import Hokora.LiveSubscriptions
import Hokora.PushedContent
import Hokora.WriteAuthorisation

/-!
# Sealed text and its readers

Every answer and live event that may hold the text of a sealed row.
-/
namespace Hokora.SealedReads
open Database KeyedTable List LiveSubscriptions PushedContent PyValue ReadHandlers Repositories
  WriteAuthorisation
open MessageRepo (getByHash)

variable {L : Type} [DecidableEq L]

structure NodeState (L : Type) where
  ctx : SyncContext
  store : Store
  live : LiveManager L
  active : L → Bool
  identity : L → Option String

structure SubscribeRequest (L : Type) where
  requested : Option String
  channelId : Option String
  supportsSealedAtRest : Bool
  link : L

def subscribeOnce (s : NodeState L) (requesterHash : Option String) (live : LiveManager L)
    (q : SubscribeRequest L) : LiveManager L :=
  match handleSubscribeLive s.ctx s.store live q.requested q.channelId requesterHash
    q.supportsSealedAtRest q.link with
  | .ok live' => live'
  | .error _ => live

def subscribed (s : NodeState L) (requesterHash : Option String)
    (requests : List (SubscribeRequest L)) : LiveManager L :=
  requests.foldl (subscribeOnce s requesterHash) s.live

inductive Sent (prim : ReadPrimitives) (s : NodeState L) (requesterHash : Option String) :
    Entry → Prop where
  | history {req : HistoryRequest} {channelId : Option String} {resp : HistoryResponse}
    {e : Entry} : handleHistory prim s.ctx s.store req channelId requesterHash = .ok resp →
      e ∈ resp.messages → Sent prim s requesterHash e
  | pins {requested channelId : Option String} {es : List Entry} {e : Entry} :
      handleGetPins prim s.ctx s.store requested channelId requesterHash = .ok es →
      e ∈ es → Sent prim s requesterHash e
  | thread {rootHash : Option String} {limit : Option ℤ} {es : List Entry} {e : Entry} :
      handleThread prim s.ctx s.store rootHash limit requesterHash = .ok es →
      e ∈ es → Sent prim s requesterHash e
  | search {req : SearchRequest} {channelId : Option String} {results : List SearchResult}
      {x : SearchResult} {e : Entry} :
      handleSearch s.ctx s.store req channelId requesterHash = .ok results →
      x ∈ results → e ∈ x.entries → Sent prim s requesterHash e
  | message (requests : List (SubscribeRequest L)) {m : Message}
      {senderPublicKey : Option BigEndian.Bytes} {link : L} {e : Entry} :
      m ∈ s.store.messages.rows → s.identity link = requesterHash →
      (link, e) ∈ pushMessage prim s.ctx.sealedManager (subscribed s requesterHash requests)
        s.active m senderPublicKey →
      Sent prim s requesterHash e
  | updated (requests : List (SubscribeRequest L)) {m : Message} {link : L} {e : Entry} :
      m ∈ s.store.messages.rows → s.identity link = requesterHash →
      (link, e) ∈ pushMessageUpdated prim s.ctx.sealedManager
        (subscribed s requesterHash requests) s.active m →
      Sent prim s requesterHash e

structure SealedRow (prim : ReadPrimitives) (ctx : SyncContext) (m : Message) (text : String) :
    Prop where
  hash : m.msgHash ≠ ""
  unreadable : m.body = none
  nonempty : text ≠ ""
  decrypts : ∃ ring, ctx.sealedManager = some ring ∧ plaintext prim ring m = some text

/-- The entry is the row's and has this text as its body. -/
def Discloses (m : Message) (text : String) (e : Entry) : Prop :=
  e.lookup "msg_hash" = some (.str m.msgHash) ∧ e.lookup "body" = some (.str text)

/-- No text of a sealed row of the channel reaches the requester. -/
def Confidential (prim : ReadPrimitives) (s : NodeState L) (requesterHash : Option String)
    (channelId : String) : Prop :=
  ∀ m ∈ s.store.channelMessages channelId, ∀ text, SealedRow prim s.ctx m text →
    ∀ e, Sent prim s requesterHash e → ¬ Discloses m text e

structure Outsider (s : NodeState L) (requesterHash : Option String) (channelId : String) :
    Prop where
  notOwner : ∀ requester, present requesterHash = some requester →
    ∀ r, s.ctx.permissionResolver = some r → r.nodeOwnerHash ≠ requester
  noRole : ∀ requester, present requesterHash = some requester →
    ¬ HoldsChannelRole s.store requester channelId

structure Shut (s : NodeState L) (requesterHash : Option String) (channelId : String)
    (m : Message) : Prop where
  channel : ∀ c, s.ctx.channels.get? channelId = some c → c.accessMode = .privateAccess ∨
    ∃ requester, present requesterHash = some requester ∧ Ban.isBlocked s.store requester = true
  thread : ∀ hash root, present m.replyTo = some hash → getByHash s.store hash = some root →
      root.channelId ≠ "" ∧ ∀ c, checkChannelRead s.ctx s.store root.channelId requesterHash ≠ .ok c
  link : ∀ link, s.identity link = requesterHash → s.active link = true →
    link ∉ (s.live.getSubscribers channelId).map Prod.fst

variable {requests : List (SubscribeRequest L)}

section
variable {prim : ReadPrimitives} {s : NodeState L} {requesterHash : Option String}
  {channelId : String} {m m' : Message} {text : String} {e : Entry}

/-- A way in which a row can reach the requester through a decrypting encoder. -/
inductive Opened (s : NodeState L) (requesterHash : Option String) (m : Message) : Prop where
  | channel {c : Channel} :
      checkChannelRead s.ctx s.store m.channelId requesterHash = .ok c → Opened s requesterHash m
  | unnamed : m.channelId = "" → Opened s requesterHash m
  | thread {hash : String} {root : Message} : present m.replyTo = some hash →
      getByHash s.store hash = some root →
      (root.channelId = "" ∨
        ∃ c, checkChannelRead s.ctx s.store root.channelId requesterHash = .ok c) →
      Opened s requesterHash m
  | link {link : L} : s.identity link = requesterHash → s.active link = true →
      link ∈ (s.live.getSubscribers m.channelId).map Prod.fst → Opened s requesterHash m

lemma foldl_subscribeOnce (hk : ∀ c, checkChannelRead s.ctx s.store channelId requesterHash ≠ .ok c)
    {live : LiveManager L} :
    (requests.foldl (subscribeOnce s requesterHash) live).getSubscribers channelId =
      live.getSubscribers channelId := by
  induction requests generalizing live with
  | nil => rfl
  | cons q requests ih =>
    rw [foldl_cons,ih,subscribeOnce]
    split
    next live' hs => exact handleSubscribeLive_unreadable hs hk
    · rfl

lemma opened_of_push {link : L} (hid : s.identity link = requesterHash) (ha : s.active link = true)
    (hl : link ∈ ((subscribed s requesterHash requests).getSubscribers m.channelId).map
      Prod.fst) : Opened s requesterHash m := by
  by_cases hr : ∃ c, checkChannelRead s.ctx s.store m.channelId requesterHash = .ok c
  · obtain ⟨c,hc⟩ := hr
    exact .channel hc
  have hcl : ∀ c, checkChannelRead s.ctx s.store m.channelId requesterHash ≠ .ok c :=
    fun c hc => hr ⟨c,hc⟩
  rw [subscribed,foldl_subscribeOnce hcl] at hl
  exact .link hid ha hl

omit [DecidableEq L] in
lemma opened_of_thread {hash : String} {limit : ℤ} {root : Message}
    (hnamed : hash ≠ "") (hroot : getByHash s.store hash = some root) (hgate : root.channelId = "" ∨
      ∃ c, checkChannelRead s.ctx s.store root.channelId requesterHash = .ok c)
    (hm : m ∈ getThreadMessages s.store hash limit) :
    m ∈ s.store.messages.rows ∧ Opened s requesterHash m := by
  obtain ⟨hrow,hself | hreply⟩ := mem_getThreadMessages hm
  · refine ⟨hrow,?_⟩
    have hsame : root = m := by
      have hget : getByHash s.store m.msgHash = some m := Table.get?_of_mem hrow
      rw [hself,hroot] at hget
      exact Option.some.inj hget
    rw [hsame] at hgate
    rcases hgate with hunnamed | ⟨c,hc⟩
    · exact .unnamed hunnamed
    · exact .channel hc
  · exact ⟨hrow,.thread (present_eq_some.mpr ⟨hreply,hnamed⟩) hroot hgate⟩

omit [DecidableEq L] in
lemma mem_rows_of_channel {st : Store} (h : m ∈ st.channelMessages channelId) :
    m ∈ st.messages.rows ∧ m.channelId = channelId := by
  obtain ⟨hrow,hchannel⟩ := mem_filter.mp h
  exact ⟨hrow,of_decide_eq_true hchannel⟩

lemma Sent.row (h : Sent prim s requesterHash e) :
    ∃ m ∈ s.store.messages.rows, e.lookup "msg_hash" = some (.str m.msgHash) ∧
      (Opened s requesterHash m ∨ Plain m e) := by
  have hh : ∀ supports m, (encodeMessageWithKeys prim s.store s.ctx.sealedManager supports
      m).lookup "msg_hash" = some (.str m.msgHash) := fun supports m =>
    lookup_encodeMessageWithKeys (by decide) prim s.store s.ctx.sealedManager supports m
  have hw : ∀ supports m, (encodeMessageForWire prim s.ctx.sealedManager supports m).lookup
      "msg_hash" = some (.str m.msgHash) := fun supports m =>
    lookup_encodeMessageForWire (by decide)
  cases h with
  | history hr he =>
    obtain ⟨chId,c,ms,hre,hsu,hms⟩ := handleHistory_ok hr
    rw [hms] at he
    obtain ⟨m,hm,rfl⟩ := mem_map.mp he
    obtain ⟨hrow,rfl⟩ := mem_rows_of_channel (hsu hm)
    exact ⟨m,hrow,hh _ m,.inl (.channel hre)⟩
  | pins hr he =>
    obtain ⟨chId,c,ms,hre,hsu,rfl⟩ := handleGetPins_ok hr
    obtain ⟨m,hm,rfl⟩ := mem_map.mp he
    obtain ⟨hrow,rfl⟩ := mem_rows_of_channel (hsu hm)
    exact ⟨m,hrow,hh _ m,.inl (.channel hre)⟩
  | thread hr he =>
    obtain ⟨hash,root,hpr,hro,hg,rfl⟩ := handleThread_ok hr
    obtain ⟨m,hm,rfl⟩ := mem_map.mp he
    obtain ⟨hrow,ho⟩ :=
      opened_of_thread (present_eq_some.mp hpr).2 hro hg hm
    exact ⟨m,hrow,hh _ m,.inl ho⟩
  | search hr hx he =>
    obtain ⟨chId,m,hm,hp⟩ := handleSearch_ok hr hx he
    refine ⟨m,(mem_rows_of_channel hm).1,?_,.inr hp⟩
    rcases hp with rfl | ⟨rank,rfl⟩ <;> rfl
  | @message requests m key link e hrow hid hs =>
    obtain ⟨hl,ha,capable,rfl⟩ := mem_pushMessage hs
    refine ⟨m,hrow,?_,.inl (opened_of_push hid ha hl)⟩
    rw [lookup_populateSenderPubkey (by decide),hw]
  | @updated requests m link e hrow hid hs =>
    obtain ⟨hl,ha,rfl⟩ := mem_pushToSubscribers hs
    exact ⟨m,hrow,hw false m,.inl (opened_of_push hid ha hl)⟩

lemma eq_of_msgHash {st : Store} (hm : m ∈ st.messages.rows) (hm' : m' ∈ st.messages.rows)
    (h : m.msgHash = m'.msgHash) : m = m' := by
  have hg : st.messages.get? m.msgHash = some m := Table.get?_of_mem hm
  rw [h,Table.get?_of_mem hm'] at hg
  exact (Option.some.inj hg).symm

omit [DecidableEq L] in
lemma plain_discloses_nothing (hrow : SealedRow prim s.ctx m text) (h : Plain m e) :
    ¬ Discloses m text e := by
  rintro ⟨-,hbody⟩
  rcases h with rfl | ⟨rank,rfl⟩
  · have hcolumn : (Pusher.encodeMessageForSync m).lookup "body" =
        some (.str (m.body.getD "")) := rfl
    rw [hcolumn,hrow.unreadable] at hbody
    cases hbody
    exact hrow.nonempty rfl
  · have hcolumn : (ftsEntry rank m).lookup "body" = some (Val.ofStr? m.body) := rfl
    rw [hcolumn,hrow.unreadable] at hbody
    cases hbody

omit [DecidableEq L] in
lemma Outsider.readable_iff (h : Outsider s requesterHash channelId) {c : Channel} :
    checkChannelRead s.ctx s.store channelId requesterHash = .ok c ↔
      s.ctx.channels.get? channelId = some c ∧ c.accessMode ≠ .privateAccess ∧
        ∀ requester, present requesterHash = some requester →
          Ban.isBlocked s.store requester = false := by
  rw [checkChannelRead_ok]
  constructor
  · rintro ⟨hcached,hfree,hmember⟩
    refine ⟨hcached,fun hp => ?_,hfree⟩
    obtain ⟨requester,hr,⟨r,hres,hown⟩ | hroles⟩ := hmember hp
    · exact h.notOwner requester hr r hres hown
    obtain ⟨role,hrole⟩ := exists_mem_of_ne_nil _ hroles
    rw [← Table.get?_key hcached] at hrole
    obtain ⟨a,ha,hidentity,hscope,hget⟩ := MessageProcessor.strict_role_assignment hrole
    rw [Table.get?_key hcached] at hscope
    exact h.noRole requester hr ⟨a,ha,hidentity,hscope,by rw [hget]; rfl⟩
  · rintro ⟨hcached,hopen,hfree⟩
    exact ⟨hcached,hfree,fun hp => absurd hp hopen⟩

omit [DecidableEq L] in
lemma Shut.not_opened (hout : Outsider s requesterHash channelId) (hnamed : channelId ≠ "")
    (hchannel : m.channelId = channelId) (h : Shut s requesterHash channelId m) :
    ¬ Opened s requesterHash m := by
  subst hchannel
  intro hopen
  cases hopen with
  | channel hread =>
    obtain ⟨hcached,hpublic,hfree⟩ := hout.readable_iff.mp hread
    rcases h.channel _ hcached with hp | ⟨requester,hr,hblocked⟩
    · exact hpublic hp
    · rw [hfree requester hr] at hblocked
      cases hblocked
  | unnamed hempty => exact hnamed hempty
  | thread hhash hroot hgate =>
    obtain ⟨hne,hclosed⟩ := h.thread _ _ hhash hroot
    rcases hgate with hempty | ⟨c,hc⟩
    · exact hne hempty
    · exact hclosed c hc
  | link hid hactive hlink => exact h.link _ hid hactive hlink

lemma sent_of_thread {hash : String} {root : Message} (hn : hash ≠ "")
    (hr : getByHash s.store hash = some root) (hg : root.channelId = "" ∨
      ∃ c, checkChannelRead s.ctx s.store root.channelId requesterHash = .ok c)
    (hm : m ∈ s.store.messages.rows) (ht : m.msgHash = hash ∨ m.replyTo = some hash) :
    Sent prim s requesterHash (encodeMessageWithKeys prim s.store s.ctx.sealedManager false m) := by
  obtain ⟨es,hre,he⟩ := handleThread_whole hn hr hg hm ht
  exact .thread hre he

lemma sent_of_link {link : L} (hid : s.identity link = requesterHash)
    (ha : s.active link = true) (hl : link ∈ (s.live.getSubscribers m.channelId).map Prod.fst)
    (hm : m ∈ s.store.messages.rows) :
    Sent prim s requesterHash (encodeMessageForWire prim s.ctx.sealedManager false m) :=
  .updated [] hm hid (pushToSubscribers_mem (by decide) hl ha)

lemma shut_of_confidential (hou : Outsider s requesterHash channelId)
    (hm : m ∈ s.store.channelMessages channelId) (hrow : SealedRow prim s.ctx m text)
    (h : ∀ e, Sent prim s requesterHash e → ¬ Discloses m text e) :
    Shut s requesterHash channelId m := by
  obtain ⟨hme,rfl⟩ := mem_rows_of_channel hm
  obtain ⟨ring,hri,ht⟩ := hrow.decrypts
  have hk : Discloses m text (encodeMessageWithKeys prim s.store s.ctx.sealedManager false m) := by
    refine ⟨lookup_encodeMessageWithKeys (by decide) _ _ _ _ _,?_⟩
    rw [hri]
    exact encodeMessageWithKeys_body ht
  have hw : Discloses m text (encodeMessageForWire prim s.ctx.sealedManager false m) := by
    refine ⟨lookup_encodeMessageForWire (by decide),?_⟩
    rw [hri]
    exact encodeMessageForWire_body ht
  constructor
  · intro c hc
    by_contra ho
    rw [not_or] at ho
    have hf : ∀ rq, present requesterHash = some rq → Ban.isBlocked s.store rq = false := by
      intro rq hr
      cases hb : Ban.isBlocked s.store rq with
      | false => rfl
      | true => exact absurd ⟨rq,hr,hb⟩ ho.2
    have hrea := hou.readable_iff.mpr ⟨hc,ho.1,hf⟩
    exact h _ (sent_of_thread hrow.hash (Table.get?_of_mem hme) (.inr ⟨c,hrea⟩) hme (.inl rfl)) hk
  · intro hash root hh hro
    obtain ⟨hre,hn⟩ := present_eq_some.mp hh
    constructor
    · intro he
      exact h _ (sent_of_thread hn hro (.inl he) hme (.inr hre)) hk
    · intro c hc
      exact h _ (sent_of_thread hn hro (.inr ⟨c,hc⟩) hme (.inr hre)) hk
  · intro link hid ha hl
    exact h _ (sent_of_link hid ha hl hme) hw

/-- The text of a sealed channel stays from an outsider exactly when each of its sealed rows
is shut. -/
theorem confidential_iff_shut (prim : ReadPrimitives)
    (hsealed : ∃ c, ChannelRepo.getById s.store channelId = some c ∧ c.sealed = true)
    (hout : Outsider s requesterHash channelId) : Confidential prim s requesterHash channelId ↔
      ∀ m ∈ s.store.channelMessages channelId, ∀ text, SealedRow prim s.ctx m text →
        Shut s requesterHash channelId m := by
  obtain ⟨c,hc,-⟩ := hsealed
  have hn : channelId ≠ "" := by
    rw [← Table.get?_key hc]
    exact c.id_ne
  constructor
  · intro h m hm text hr
    exact shut_of_confidential hout hm hr (h m hm text hr)
  intro h m hm text hr e hs hd
  obtain ⟨hme,hch⟩ := mem_rows_of_channel hm
  obtain ⟨m',hm',hh,hw⟩ := hs.row
  have hk : m.msgHash = m'.msgHash := by
    simpa using hd.1.symm.trans hh
  have hsa : m' = m := (eq_of_msgHash hme hm' hk).symm
  rw [hsa] at hw
  rcases hw with ho | hp
  · exact (h m hm text hr).not_opened hout hn hch ho
  · exact plain_discloses_nothing hr hp hd

end

/-! The post to the sealed channel, on a node where the channel is private and on one where
it is open. The stand-in cipher undoes that one post. -/

def vaultDecryption : ReadPrimitives :=
  { aesGcmDecrypt := fun _ _ ciphertext _ => if ciphertext = [5] then some [7] else none
    decodeUtf8 := fun b => if b = [7] then some "secret" else none }

def vaultNode (accessMode : AccessMode) : NodeState ℕ :=
  { ctx := {
      channels := .singleton { vault with accessMode := accessMode }
      sealedManager := some { current := ⟨.singleton ⟨"vault",[1],1⟩⟩ } }
    store := { vaultSender with
      channels := .singleton { vault with accessMode := accessMode, latestSeq := 1 } }
    live := {}
    active := fun _ => true
    identity := fun _ => none }

variable {accessMode : AccessMode}

lemma vaultNode_outsider : Outsider (vaultNode accessMode) none "vault" :=
  ⟨fun _ h => (nomatch h),fun _ h => (nomatch h)⟩

lemma vaultRow_sealed : SealedRow vaultDecryption (vaultNode accessMode).ctx vaultRow "secret" :=
  ⟨by decide,rfl,by decide,_,rfl,rfl⟩

theorem vaultNode_confidential :
    Confidential vaultDecryption (vaultNode .privateAccess) none "vault" := by
  refine (confidential_iff_shut vaultDecryption ⟨_,rfl,rfl⟩
    vaultNode_outsider).mpr fun m hm _ _ => ?_
  have hr : (vaultNode .privateAccess).store.channelMessages "vault" = [vaultRow] := by
    decide +kernel
  have hro : m = vaultRow := mem_singleton.mp (hr ▸ hm)
  rw [hro]
  refine ⟨fun c hc => .inl ?_,fun _ _ hh => (nomatch hh),fun _ _ _ hl => (nomatch hl)⟩
  rw [mem_singleton.mp (Table.get?_mem hc)]

theorem vaultNode_discloses :
    (∃ c, ChannelRepo.getById (vaultNode .openAccess).store "vault" = some c ∧ c.sealed = true) ∧
      Outsider (vaultNode .openAccess) none "vault" ∧
      ¬ Confidential vaultDecryption (vaultNode .openAccess) none "vault" := by
  refine ⟨⟨_,rfl,rfl⟩,vaultNode_outsider,fun h => ?_⟩
  refine h vaultRow (by decide +kernel) "secret" vaultRow_sealed
    (encodeMessageWithKeys vaultDecryption (vaultNode .openAccess).store
      (vaultNode .openAccess).ctx.sealedManager false vaultRow) ?_ ⟨rfl,rfl⟩
  have hr : handleHistory vaultDecryption (vaultNode .openAccess).ctx
      (vaultNode .openAccess).store { channelId := some "vault" } none none = .ok _ := rfl
  exact .history hr (mem_singleton_self _)

end Hokora.SealedReads
