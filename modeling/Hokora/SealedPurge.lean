import Hokora.CommittedStates
import Hokora.FtsTotals
import Hokora.GroupKeys
import Hokora.Redelivery

/-!
# The purge of plaintext at startup

The purge deletes the rows of sealed channels that have no ciphertext and takes the plaintext out of
those that have both, in one transaction. An error, of a foreign key or of the full-text index, is
caught: then nothing is changed and the answer is 0.
-/
namespace Hokora.SealedPurge
open BigEndian Constants Database GroupKeys HandlerTransactions KeyedTable List MessageProcessor
  PushedContent RateLimit Repositories SealedChannels TransitionRuns WriteFrames
open FtsTotals (Totals)

def unsealedRow (st : Store) (m : Message) : Bool :=
  isSealed st m.channelId && m.encryptedBody.isNone

def leakedRow (st : Store) (m : Message) : Bool :=
  isSealed st m.channelId && m.encryptedBody.isSome && m.body.isSome

def nullify (m : Message) : Message := { m with body := none, mediaPath := none }

def nullifyLeaked (st : Store) (t : Table Message.msgHash) : Table Message.msgHash where
  rows := t.rows.map fun m => if leakedRow st m then nullify m else m
  keyed := by
    have hkeys : (t.rows.map fun m => if leakedRow st m then nullify m else m).map
        Message.msgHash = t.rows.map Message.msgHash := by
      rw [map_map]
      refine map_congr_left fun m _ => ?_
      rw [Function.comp]
      split_ifs <;> rfl
    rw [hkeys]
    exact t.keyed

def entryOf (m : Message) : Option FtsEntry :=
  m.body.map fun body => ⟨m.msgHash,m.channelId,body⟩

def purgePlaintextFromSealedChannels (totals : Totals) (db : Db) : ℕ × Db :=
  let st := db.store
  if (sealedChannels st).isEmpty then (0, db)
  else
    let deleted := st.messages.rows.filter (unsealedRow st)
    if deleted.any fun m => (st.threads.get? m.msgHash).isSome then (0, db)
    else
      let kept := st.messages.select fun m => !unsealedRow st m
      let leaked := kept.rows.filter (leakedRow st)
      -- `messages_ad` for the deleted rows, and a delete of its own for each leaked one
      if totals.Covers (deleted ++ leaked) then
        let gone := (deleted ++ leaked).filterMap entryOf
        (deleted.length + leaked.length,
          { store := { st with messages := nullifyLeaked st kept }
            messagesFts := db.messagesFts.filter fun e => !gone.contains e })
      else (0, db)

/-- The rows that the purge leaves alone. -/
def AtRest (m : Message) : Prop := m.body = none ∧ m.encryptedBody.isSome = true

def Compliant (st : Store) : Prop :=
  ∀ m ∈ st.messages.rows, isSealed st m.channelId = true → AtRest m

lemma purge_compliant (totals : Totals) {db : Db} (h : Compliant db.store) :
    purgePlaintextFromSealedChannels totals db = (0, db) := by
  have hu : ∀ m ∈ db.store.messages.rows, unsealedRow db.store m = false := by
    intro m hm
    unfold unsealedRow
    cases hs : isSealed db.store m.channelId with
    | false => rfl
    | true =>
      obtain ⟨-,hc⟩ := h m hm hs
      simpa using hc
  have hl : ∀ m ∈ db.store.messages.rows, leakedRow db.store m = false := by
    intro m hm
    unfold leakedRow
    cases hs : isSealed db.store m.channelId with
    | false => rfl
    | true =>
      obtain ⟨hb,-⟩ := h m hm hs
      rw [hb]
      exact Bool.and_false _
  have hd : db.store.messages.rows.filter (unsealedRow db.store) = [] :=
    filter_eq_nil_iff.mpr fun m hm => by simp [hu m hm]
  have hk : db.store.messages.select (fun m => !unsealedRow db.store m) = db.store.messages :=
    Table.ext (filter_eq_self.mpr fun m hm => by simp [hu m hm])
  have hn : db.store.messages.rows.filter (leakedRow db.store) = [] :=
    filter_eq_nil_iff.mpr fun m hm => by simp [hl m hm]
  have hsa : nullifyLeaked db.store db.store.messages = db.store.messages := by
    refine Table.ext ?_
    conv_rhs => rw [← map_id db.store.messages.rows]
    refine map_congr_left fun m hm => ?_
    rw [hl m hm]
    rfl
  unfold purgePlaintextFromSealedChannels
  simp only [hd,hk,hn,hsa]
  simp

section
variable {P : Message → Prop} {t t' : Table Message.msgHash}

lemma rows_insert {row : Message} (ht : ∀ m ∈ t.rows, P m) (hr : P row)
    (hi : t.insert? row = some t') : ∀ m ∈ t'.rows, P m := by
  intro m hm
  rw [Table.insert?_rows hi] at hm
  rcases mem_append.mp hm with ho | hn
  · exact ht m ho
  · rw [mem_singleton.mp hn]
    exact hr

lemma rows_update {k : String} {f : Message → Message} (hf : ∀ m, (f m).msgHash = m.msgHash)
    (ht : ∀ m ∈ t.rows, P m) (hk : ∀ m, t.get? k = some m → P m → P (f m)) :
    ∀ m ∈ (t.update k f hf).rows, P m := by
  intro m hm
  obtain ⟨old,ho,rfl⟩ := mem_map.mp hm
  split_ifs with hke
  · exact hk old (hke ▸ Table.get?_of_mem ho) (ht old ho)
  · exact ht old ho

end

/-- The types whose handlers write no text of the envelope. -/
def Wordless (type : ℤ) : Prop := type = msgDelete ∨ type = msgPin ∨ type = msgReaction

instance (type : ℤ) : Decidable (Wordless type) :=
  inferInstanceAs (Decidable (_ ∨ _))

/-- The envelope has a text if its handler writes one. -/
def HasText (env : MessageEnvelope) : Prop := Wordless env.type ∨ env.body.getD "" ≠ ""

instance (env : MessageEnvelope) : Decidable (HasText env) :=
  inferInstanceAs (Decidable (_ ∨ _))

lemma pinText_ne {env : MessageEnvelope} {pinned : Bool} : pinText env pinned ≠ "" := by
  intro h
  have hl := congrArg String.length h
  unfold pinText at hl
  simp only [String.length_append] at hl
  have hs : " ".length = 1 := rfl
  have he : "".length = 0 := rfl
  omega

section
variable {prim : Primitives} {mp : Processor} {m : Moment} {st : Store} {env : MessageEnvelope}
  {channel : Channel} {r : Message × Store}

lemma route_isSealed (h : route prim mp m st env channel = .ok r) (c : String) :
    isSealed r.2 c = isSealed st c := by
  have hb : isSealed (ChannelRepo.bumpSeq st env.channelId) c = isSealed st c := by
    unfold isSealed
    rw [ChannelRepo.getById_bumpSeq]
    split_ifs
    · cases ChannelRepo.getById st c <;> rfl
    · rfl
  unfold route at h
  split_ifs at h
  · obtain ⟨_,_,_,_,_,-,-,-,-,-,-,-,-,-,hr⟩ := processEdit_ok h
    rw [hr]
    rfl
  · obtain ⟨_,_,_,-,-,-,hr⟩ := processDelete_store h
    rw [hr]
    rfl
  · obtain ⟨_,_,_,_,_,-,-,-,-,-,-,hr⟩ := processPin_store h
    rw [hr]
    exact hb
  · obtain ⟨_,_,-,-,-,hr | ⟨_,hr⟩⟩ := processReaction_ok h
    · rw [hr]
    · rw [hr]
      rfl
  · obtain ⟨-,hr⟩ | ⟨_,_,st₁,_,t,-,hse,-,-,-,hr⟩ := storeMessage_stored h
    · rw [hr]
    obtain ⟨identities,hs⟩ := rememberSender_eq { st₁ with messages := t } env m.now
    rw [hr,hs]
    obtain ⟨threads,rfl⟩ | rfl := assignSeq_eq hse
    · rfl
    · exact hb

lemma route_atRest (hc : ChannelRepo.getById st env.channelId = some channel)
    (ht : isSealed st env.channelId = true → HasText env) (hst : Compliant st)
    (h : route prim mp m st env channel = .ok r) :
    ∀ row ∈ r.2.messages.rows, isSealed st row.channelId = true → AtRest row := by
  -- the sealed text of a handler, for the channel that the flag belongs to
  have hs : ∀ {ch : Channel} {text : Option String} {b : StoredBody},
      ChannelRepo.getById st env.channelId = some ch →
      sealForOrigin prim.aesGcm ch text mp.sealedManager m.gcmNonce = .ok b →
      isSealed st env.channelId = true → text.getD "" ≠ "" →
      b.body = none ∧ b.encryptedBody.isSome = true := by
    intro ch text b hch hb hf hne
    unfold isSealed at hf
    rw [hch] at hf
    obtain ⟨hn,hsome⟩ := (sealForOrigin_ok hb).1 hf
    exact ⟨hn,hsome hne⟩
  unfold route at h
  split_ifs at h with he hd hpi hrea
  · obtain ⟨th,o,ch,b,t,-,ho,how,-,hch,hb,hi,-,-,hr⟩ :=
      processEdit_ok h
    rw [hr]
    have hw : isSealed st env.channelId = true → env.body.getD "" ≠ "" := by
      intro hf
      refine (ht hf).resolve_left ?_
      simp [Wordless,he,msgEdit,msgDelete,msgPin,msgReaction]
    have hre : isSealed st env.channelId = true → b.body = none ∧ b.encryptedBody.isSome = true :=
      fun hf => hs hch hb hf (hw hf)
    refine rows_update applyEdit_msgHash (rows_insert hst hre hi) ?_
    intro row hro _ hf
    have hta : row = o :=
      Option.some.inj (hro.symm.trans (Table.get?_insert?_of_some hi ho))
    refine hre ?_
    rw [← how,← hta]
    exact hf
  · obtain ⟨th,o,-,-,-,hr⟩ := processDelete_ok h
    rw [hr]
    refine rows_update (by exact fun _ => rfl) hst ?_
    intro row _ hro hf
    exact ⟨rfl,(hro hf).2⟩
  · obtain ⟨th,o,seq,b,t,-,-,-,hb,hi,-,hr⟩ := processPin_store h
    rw [hr]
    have hp : ∀ row ∈ (MessageRepo.setPinned st th (!o.pinned)
        m.now).messages.rows, isSealed st row.channelId = true → AtRest row := by
      refine rows_update (by exact fun _ => rfl) hst ?_
      intro row _ hro hf
      exact hro hf
    refine rows_insert hp ?_ hi
    intro hf
    exact hs hc hb hf pinText_ne
  · obtain ⟨th,o,-,-,-,hr | ⟨rs,hr⟩⟩ := processReaction_ok h
    · rw [hr]
      exact hst
    rw [hr]
    refine rows_update (by exact fun _ => rfl) hst ?_
    intro row _ hro hf
    exact hro hf
  · obtain ⟨-,hr⟩ | ⟨seq,threadSeq,b,t,-,-,hb,hi,-,hr⟩ := storeMessage_ok h
    · rw [hr]
      exact hst
    rw [hr]
    refine rows_insert hst ?_ hi
    intro hf
    refine hs hc hb hf ((ht hf).resolve_left ?_)
    simp [Wordless,hd,hpi,hrea]

end

structure IngestCall where
  processor : Processor
  moment : Moment
  limiter : Option RateLimiter := none
  env : MessageEnvelope

def ingestStep (prim : Primitives) (st : Store) (call : IngestCall) : Store :=
  committed st (ingest prim call.processor call.moment call.limiter st call.env).2

lemma ingestStep_compliant {prim : Primitives} {st : Store} {call : IngestCall}
    (ht : isSealed st call.env.channelId = true → HasText call.env) (hst : Compliant st) :
    (∀ c, isSealed (ingestStep prim st call) c = isSealed st c) ∧
      Compliant (ingestStep prim st call) := by
  unfold ingestStep
  cases hin : (ingest prim call.processor call.moment call.limiter st call.env).2 with
  | error e => exact ⟨fun _ => rfl,hst⟩
  | ok r =>
    obtain ⟨channel,env',hc,-,hp,hr⟩ := ingest_ok hin
    obtain ⟨_,_,rfl⟩ := checkPermissions_normalised hp
    have hf := route_isSealed hr
    have hro := route_atRest (by exact hc) (by exact ht) hst hr
    refine ⟨hf,?_⟩
    intro row hrow hfl
    exact hro row hrow ((hf row.channelId).symm.trans hfl)

/-- Channels that were sealed before their first message, and messages with a text: the purge
finds nothing. -/
theorem purge_harmless {prim : Primitives} {st : Store} {calls : List IngestCall}
    (hcreated : ∀ c, isSealed st c = true → st.channelMessages c = [])
    (htext : ∀ call ∈ calls, isSealed st call.env.channelId = true → HasText call.env)
    (totals : Totals) (fts : List FtsEntry) :
    purgePlaintextFromSealedChannels totals ⟨run (ingestStep prim) st calls,fts⟩ =
      (0, ⟨run (ingestStep prim) st calls,fts⟩) := by
  have hst : Compliant st := by
    intro row hr hfl
    have hm : row ∈ st.channelMessages row.channelId :=
      mem_filter.mpr ⟨hr,decide_eq_true rfl⟩
    rw [hcreated _ hfl] at hm
    cases hm
  have hru : (∀ c, isSealed (run (ingestStep prim) st calls) c = isSealed st c) ∧
      Compliant (run (ingestStep prim) st calls) := by
    refine run_invariant_mem (I := fun s : Store => (∀ c, isSealed s c = isSealed st c) ∧
      Compliant s) ?_ ⟨fun _ => rfl,hst⟩
    rintro s call hc ⟨hf,hs⟩
    have hw : isSealed s call.env.channelId = true → HasText call.env := by
      rw [hf]
      exact htext call hc
    obtain ⟨hf',hs'⟩ := ingestStep_compliant hw hs
    exact ⟨fun c => (hf' c).trans (hf c),hs'⟩
  exact purge_compliant totals hru.2

def vaultMessage (env : MessageEnvelope) : IngestCall :=
  { processor := vaultProcessor, moment := ⟨1000,[9]⟩, env := env }

def vaultAndHall : Store := { channels := (Table.singleton vault).set { id := "hall" } }

def hallPosts : List MessageEnvelope :=
  [{ vaultPost with channelId := "hall" },
    { vaultPost with channelId := "hall", body := some "tea" }]

def postedVault (envs : List MessageEnvelope) : Store :=
  run (ingestStep vaultPrimitives) vaultAndHall ((hallPosts ++ envs).map vaultMessage)

/-- The index that the inserts have built, with one token for each text. -/
def postedTotals (envs : List MessageEnvelope) : Totals :=
  let n := ((postedVault envs).messages.rows.flatMap indexed).length
  ⟨fun _ => 1,n,n⟩

lemma vaultAndHall_empty (c : String) (_ : isSealed vaultAndHall c = true) :
    vaultAndHall.channelMessages c = [] := rfl

theorem vaultPost_survives : ((postedVault [vaultPost]).channelMessages "vault").length = 1 ∧
      purgePlaintextFromSealedChannels (postedTotals [vaultPost]) ⟨postedVault [vaultPost],[]⟩ =
        (0, ⟨postedVault [vaultPost],[]⟩) := by
  refine ⟨by decide +kernel,purge_harmless vaultAndHall_empty ?_ (postedTotals [vaultPost]) []⟩
  have ht : ((hallPosts ++ [vaultPost]).map vaultMessage).all
      fun call => decide (HasText call.env) := by decide +kernel
  exact fun call hc _ => of_decide_eq_true (all_eq_true.mp ht call hc)

def vaultPhoto : MessageEnvelope :=
  { vaultPost with type := msgMedia, body := some "", mediaPath := some "vault/photo.jpg" }

def vaultEmptied : List MessageEnvelope :=
  [vaultPost, { vaultPost with
      type := msgEdit, body := some "", replyTo := some (vaultPost.computeHash vaultPrimitives) }]

/-- With two texts in the index from another channel, the rows of the sealed one go. -/
theorem vaultPhoto_purged :
    let photo := purgePlaintextFromSealedChannels (postedTotals [vaultPhoto])
      ⟨postedVault [vaultPhoto],[]⟩
    ((postedVault [vaultPhoto]).channelMessages "vault").length = 1 ∧ photo.1 = 1 ∧
      photo.2.store.channelMessages "vault" = [] ∧
      (photo.2.store.channelMessages "hall").length = 2 ∧
      ((postedVault vaultEmptied).channelMessages "vault").length = 2 ∧
      (purgePlaintextFromSealedChannels (postedTotals vaultEmptied)
        ⟨postedVault vaultEmptied,[]⟩).1 = 2 := by
  decide +kernel

end Hokora.SealedPurge
