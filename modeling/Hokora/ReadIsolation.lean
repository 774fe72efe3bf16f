import Hokora.ReadHandlers
import Hokora.WriteFrames

/-!
# Which channels a response shows

What the read handlers may show of a message, for any request of one identity.
-/
namespace Hokora.ReadIsolation
open Constants Database KeyedTable MessageProcessor PyValue ReadHandlers Repositories
  WriteAuthorisation WriteFrames

def Readable (ctx : SyncContext) (st : Store) (requesterHash : Option String) (chId : String) :
    Prop :=
  ∃ c, checkChannelRead ctx st chId requesterHash = .ok c

lemma readable_iff {ctx : SyncContext} {st : Store} {rq : Option String} {chId : String} :
    (checkChannelRead ctx st chId rq).toOption.isSome ↔
      Readable ctx st rq chId := by
  rw [Option.isSome_iff_exists]
  simp only [toOption_eq_some]
  rfl

instance (ctx : SyncContext) (st : Store) (requesterHash : Option String) (chId : String) :
    Decidable (Readable ctx st requesterHash chId) :=
  decidable_of_iff _ readable_iff

inductive Shown (prim : ReadPrimitives) (ctx : SyncContext) (st : Store)
    (requesterHash : Option String) : Entry → Prop where
  | history {req : HistoryRequest} {channelId : Option String} {resp : HistoryResponse}
      {e : Entry} : handleHistory prim ctx st req channelId requesterHash = .ok resp →
      e ∈ resp.messages → Shown prim ctx st requesterHash e
  | search {req : SearchRequest} {channelId : Option String} {results : List SearchResult}
      {x : SearchResult} {e : Entry} :
      handleSearch ctx st req channelId requesterHash = .ok results →
      x ∈ results → e ∈ x.entries → Shown prim ctx st requesterHash e
  | pins {requested channelId : Option String} {es : List Entry} {e : Entry} :
      handleGetPins prim ctx st requested channelId requesterHash = .ok es →
      e ∈ es → Shown prim ctx st requesterHash e
  | thread {rootHash : Option String} {limit : Option ℤ} {es : List Entry} {e : Entry} :
      handleThread prim ctx st rootHash limit requesterHash = .ok es →
      e ∈ es → Shown prim ctx st requesterHash e

/-- Everything that the requester is shown belongs to a channel that they may read. -/
def Isolated (prim : ReadPrimitives) (ctx : SyncContext) (st : Store)
    (requesterHash : Option String) : Prop :=
  ∀ e, Shown prim ctx st requesterHash e →
    ∃ chId, e.lookup "channel_id" = some (.str chId) ∧ Readable ctx st requesterHash chId

structure Confined (ctx : SyncContext) (st : Store) (requesterHash : Option String) : Prop where
  named : ∀ root ∈ st.messages.rows, root.msgHash ≠ "" → root.channelId ≠ ""
  replies : ∀ root ∈ st.messages.rows, root.msgHash ≠ "" →
    Readable ctx st requesterHash root.channelId →
    ∀ m ∈ st.messages.rows, m.replyTo = some root.msgHash →
      Readable ctx st requesterHash m.channelId

section
variable {prim : ReadPrimitives} {ctx : SyncContext} {st : Store} {rq : Option String}
  {e : Entry} {m : Message}

lemma lookup_channelId {supports : Bool} :
    (encodeMessageWithKeys prim st ctx.sealedManager supports m).lookup "channel_id" =
      some (.str m.channelId) :=
  lookup_encodeMessageWithKeys (by decide) prim st ctx.sealedManager supports m

lemma Plain.channelId (h : Plain m e) : e.lookup "channel_id" = some (.str m.channelId) := by
  rcases h with rfl | ⟨rank,rfl⟩ <;> rfl

lemma readable_of_encoded {chId : String} {c : Channel} {supports : Bool} {ms : List Message}
    (hr : checkChannelRead ctx st chId rq = .ok c) (hs : ms ⊆ st.channelMessages chId)
    (he : e ∈ encodeMessagesWithKeys prim st ctx.sealedManager supports ms) :
    ∃ chId, e.lookup "channel_id" = some (.str chId) ∧ Readable ctx st rq chId := by
  obtain ⟨m,hm,rfl⟩ := List.mem_map.mp he
  have hc : m.channelId = chId := of_decide_eq_true (List.mem_filter.mp (hs hm)).2
  exact ⟨chId,by rw [lookup_channelId,hc],c,hr⟩

lemma Confined.isolated (h : Confined ctx st rq) :
    Isolated prim ctx st rq := by
  intro e hsh
  cases hsh with
  | history hre he =>
    obtain ⟨chId,c,ms,hr,hsu,hms⟩ := handleHistory_ok hre
    rw [hms] at he
    exact readable_of_encoded hr hsu he
  | search hre hx he =>
    obtain ⟨chId,c,hr,m,hm,hpl⟩ := handleSearch_gated hre hx he
    have hc : m.channelId = chId := of_decide_eq_true (List.mem_filter.mp hm).2
    exact ⟨chId,by rw [Plain.channelId hpl,hc],c,hr⟩
  | pins hre he =>
    obtain ⟨chId,c,ms,hr,hsu,rfl⟩ := handleGetPins_ok hre
    exact readable_of_encoded hr hsu he
  | thread hre he =>
    obtain ⟨hash,root,hp,hro,hg,rfl⟩ := handleThread_ok hre
    obtain ⟨m,hm,rfl⟩ := List.mem_map.mp he
    refine ⟨m.channelId,lookup_channelId,?_⟩
    have hme := Table.get?_mem hro
    have hk : root.msgHash = hash := Table.get?_key hro
    have hne : root.msgHash ≠ "" := hk ▸ (present_eq_some.mp hp).2
    have hr := hg.resolve_left (h.named root hme hne)
    obtain ⟨hrow,hse | hrep⟩ := mem_getThreadMessages hm
    · have hs : MessageRepo.getByHash st m.msgHash = some m := Table.get?_of_mem hrow
      rw [hse,hro] at hs
      cases hs
      exact hr
    · exact h.replies root hme hne hr m hrow (hk ▸ hrep)

lemma Isolated.readable {root : Message} (h : Isolated prim ctx st rq)
    (hr : root ∈ st.messages.rows) (hne : root.msgHash ≠ "")
    (hg : root.channelId = "" ∨ Readable ctx st rq root.channelId)
    (hm : m ∈ st.messages.rows) (ht : m.msgHash = root.msgHash ∨ m.replyTo = some root.msgHash) :
    Readable ctx st rq m.channelId := by
  obtain ⟨es,hre,he⟩ :=
    handleThread_whole hne (Table.get?_of_mem hr) hg hm ht
  obtain ⟨chId,hc,hrea⟩ := h _ (.thread hre he)
  rw [lookup_channelId] at hc
  cases hc
  exact hrea

end

/-- What a requester is shown stays within the channels that they may read exactly when the
stored threads do. -/
theorem reads_isolated_iff (prim : ReadPrimitives) (ctx : SyncContext) (st : Store)
    (requesterHash : Option String) :
    Isolated prim ctx st requesterHash ↔ Confined ctx st requesterHash := by
  constructor
  · intro h
    constructor
    · intro root hr hne he
      obtain ⟨c,hc⟩ := h.readable hr hne (.inl he) hr (.inl rfl)
      exact checkChannelRead_cached hc he
    · intro root hr hne hrea m hm hre
      exact h.readable hr hne (.inr hrea) hm (.inr hre)
  · intro h
    exact h.isolated

/-! A member of a private channel replies there to a message of the lobby. -/

def privateReply : MessageEnvelope :=
  { channelId := "board", senderHash := "bob", timestamp := .fin 3, type := msgThreadReply,
    body := some "between us", replyTo := some "root" }

def privateBoard : Store :=
  { sampleThreads with
    channels := (Table.singleton { id := "lobby", latestSeq := 1 }).set
      { id := "board", accessMode := .privateAccess }
    assignments := [{ roleId := "e", identityHash := "bob", channelId := some "board" }] }

def repliedStore : Store :=
  committed privateBoard
    (ingest samplePrimitives sampleProcessor ⟨4,[]⟩ none privateBoard privateReply).2

def boardContext : SyncContext :=
  { channels := privateBoard.channels, permissionResolver := some ⟨"owner"⟩ }

theorem privateReply_shown : ¬ Readable boardContext repliedStore none "board" ∧
      ¬ Isolated noDecryption boardContext repliedStore none := by
  have hc : ¬ Readable boardContext repliedStore none "board" := by decide +kernel
  obtain ⟨root,hro,hn,ho⟩ : ∃ root ∈ repliedStore.messages.rows,
      root.msgHash = "root" ∧ Readable boardContext repliedStore none root.channelId := by
    decide +kernel
  obtain ⟨m,hm,hre,hb⟩ : ∃ m ∈ repliedStore.messages.rows,
      m.replyTo = some "root" ∧ m.channelId = "board" := by
    decide +kernel
  refine ⟨hc,fun h => hc ?_⟩
  have hr := h.readable hro (by rw [hn]; decide) (.inr ho) hm (.inr (by rw [hre,hn]))
  rw [hb] at hr
  exact hr

end Hokora.ReadIsolation
