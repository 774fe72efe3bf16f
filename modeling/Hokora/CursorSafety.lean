import Hokora.ClientMessages
import Hokora.HistoryPagination

/-!
# The client's cursor of a channel

The rows of the daemon, answers and live events on the way, and the client, in any interleaving with
restarts.
-/
namespace Hokora.CursorSafety
open ClientMessages CumulativeAck Database KeyedTable PyValue Repositories SenderBinding
  TransitionRuns
open BigEndian (Bytes)
open HistoryPagination (shown)
open PushDelivery (Sequenced latestSeq postOr)
open ReadHandlers (Entry)
open List
open ReadHandlers (getHistory sqlLimit)

/-- A row with the hash of the message was stored. -/
def Known (stored : List Entry) (e : Entry) : Prop := ∃ d ∈ stored, entryKey d = entryKey e

variable {s : Client} {e m : Entry} {ms stored stored' : List Entry} {g : Merge} {latest : Val}

lemma Known.mono (h : Known stored e) (hs : stored ⊆ stored') :
    Known stored' e := by
  obtain ⟨d,hd,hk⟩ := h
  exact ⟨d,hs hd,hk⟩

lemma Known.of_key {e' : Entry} (h : Known stored e)
    (hk : entryKey e' = entryKey e) : Known stored e' := by
  obtain ⟨d,hd,hdk⟩ := h
  exact ⟨d,hd,hdk.trans hk.symm⟩

lemma entryKey_congr {d : Entry} (h : field d "msg_hash" = field e "msg_hash") :
    entryKey d = entryKey e := by
  simp [entryKey,h]

lemma entryKey_merged {x : Entry} (h : entryKey x = entryKey m) :
    entryKey (merged x m) = entryKey x := by
  have hf := field_merged x m "msg_hash"
  split_ifs at hf
  · exact (entryKey_congr hf).trans h.symm
  · exact entryKey_congr hf

lemma entryKey_withThread {x : Entry} : entryKey (withThread x m) = entryKey x :=
  entryKey_congr (field_withThread x m (by decide) (by decide) (by decide) (by decide))

lemma entryKey_threaded (x : Entry) : entryKey (threaded x) = entryKey x :=
  entryKey_congr (field_assign_ne (by decide))

def Hashed (m : Entry) : Prop := ∃ h, h ≠ "" ∧ field m "msg_hash" = .str h

lemma Hashed.entryKey (hm : Hashed m) :
    ∃ h, field m "msg_hash" = .str h ∧ ClientMessages.entryKey m = some (.text h) := by
  obtain ⟨h,hne,hf⟩ := hm
  have ht : (Val.str h).truthy = true := decide_eq_true hne
  exact ⟨h,hf,by simp only [ClientMessages.entryKey,hf,ht,if_true]; rfl⟩

lemma field_of_entryKey {d : Entry} {h : String} (hk : entryKey d = some (.text h)) :
    field d "msg_hash" = .str h := by
  simp only [entryKey] at hk
  split_ifs at hk
  cases hv : field d "msg_hash" with
  | float x =>
    rw [hv] at hk
    cases x <;> cases hk
  | _ =>
    rw [hv] at hk
    cases hk <;> rfl

lemma mergeOne_hashed (hm : Hashed m) : ∃ g', mergeOne g m = .ok g' := by
  obtain ⟨h,hne,hf⟩ := hm
  have ht : (Val.str h).truthy = true := decide_eq_true hne
  simp only [mergeOne,hf,ht,Bool.true_eq_false,if_false,hashKey,ok_bind]
  split
  · exact ⟨_,rfl⟩
  · exact ⟨_,rfl⟩

lemma mergeOne_known {g' : Merge} (hm : mergeOne g m = .ok g')
    (hg : ∀ e ∈ g.cached, Known stored e) : ∀ e ∈ g'.cached, Known stored e := by
  intro e he
  rcases mergeOne_cached hm he with he | ⟨x,hx,hk,rfl | rfl⟩
  · exact hg e he
  · exact (hg x hx).of_key (entryKey_merged hk)
  · exact (hg x hx).of_key entryKey_withThread

lemma mergeAll_fresh_subset (ms : List Entry) (g : Merge) : g.fresh ⊆ (mergeAll g ms).1.fresh := by
  induction ms generalizing g with
  | nil => exact fun _ he => he
  | cons m ms ih =>
    rw [mergeAll]
    cases hm : mergeOne g m with
    | error e => exact fun _ he => he
    | ok g' =>
      refine fun e he => ih g' ?_
      rcases mergeOne_cases hm with ⟨-,rfl⟩ | ⟨-,rfl | ⟨i,x,hx,hk,rfl⟩⟩
      · exact he
      · exact mem_append_left _ he
      · rw [mergeKnown_fresh]
        exact he

lemma mergeAll_hashed (hms : ∀ m ∈ ms, Hashed m)
    (hg : ∀ e ∈ g.cached, Known stored e) : (mergeAll g ms).2 = .ok () ∧
      ∀ m ∈ ms, m ∈ (mergeAll g ms).1.fresh ∨ Known stored m := by
  induction ms generalizing g with
  | nil => exact ⟨rfl,nofun⟩
  | cons m ms ih =>
    obtain ⟨g',hm⟩ := mergeOne_hashed (hms m mem_cons_self)
    obtain ⟨hok,hr⟩ := ih (fun m' hm' => hms m' (mem_cons_of_mem _ hm')) (mergeOne_known hm hg)
    rw [mergeAll,hm]
    refine ⟨hok,?_⟩
    intro m' hm'
    rcases mem_cons.mp hm' with rfl | hm'
    · rcases mergeOne_cases hm with ⟨hfa,-⟩ | ⟨-,rfl | ⟨i,x,hx,hk,-⟩⟩
      · obtain ⟨h,hne,hf⟩ := hms m' mem_cons_self
        rw [hf] at hfa
        exact absurd hne (of_decide_eq_false hfa)
      · exact .inl (mergeAll_fresh_subset ms _ (mem_append_right _ mem_cons_self))
      · exact .inr ((hg x hx).of_key hk.symm)
    · exact hr m' hm'

variable {c : Option Key}

lemma persist_stored {rows : List Entry} : (s.persist c rows latest).stored = s.stored ++ rows := by
  unfold Client.persist
  split_ifs with hr
  · rw [isEmpty_iff.mp hr,append_nil]
  · cases c <;> rfl
  · rfl

lemma keep_stored : (s.keep c g latest).stored = s.stored ++ g.rows := by
  simp only [Client.keep]
  split_ifs <;> exact persist_stored

lemma setCached_stored : (s.setCached c ms).stored = s.stored := by
  cases c <;> rfl

lemma setCached_cursors (s : Client) (c : Option Key) (ms : List Entry) :
    (s.setCached c ms).cursors = s.cursors ∧ (s.setCached c ms).savedCursors = s.savedCursors := by
  cases c <;> exact ⟨rfl,rfl⟩

structure Advance (channelId latestSeq : Val) (s s' : Client) : Prop where
  stored : s.stored ⊆ s'.stored
  held : Held (Known s'.stored) s'
  cursors : s'.cursors = s.cursors
  saved : s'.savedCursors = s.savedCursors ∨
    latestSeq.truthy = true ∧ ∃ k, hashKey channelId = .ok (some k) ∧
      s'.savedCursors = s.savedCursors.set ⟨k,latestSeq⟩

variable {s' : Client}

lemma Advance.schedule {ch latest : Val} (h : Advance ch latest s s')
    {a : Alarm} (ha : a.entries = []) : Advance ch latest s (s'.schedule a) :=
  ⟨h.stored,h.held.schedule (by rw [ha]; nofun),h.cursors,h.saved⟩

lemma keep_saved :
    (s.keep c g latest).cursors = s.cursors ∧ ((s.keep c g latest).savedCursors = s.savedCursors ∨
        latest.truthy = true ∧ ∃ k, c = some k ∧
          (s.keep c g latest).savedCursors = s.savedCursors.set ⟨k,latest⟩) := by
  have hp : (s.persist c g.rows latest).cursors = s.cursors ∧
      ((s.persist c g.rows latest).savedCursors = s.savedCursors ∨
        latest.truthy = true ∧ ∃ k, c = some k ∧
          (s.persist c g.rows latest).savedCursors = s.savedCursors.set ⟨k,latest⟩) := by
    unfold Client.persist
    split_ifs with hr hl
    · exact ⟨rfl,.inl rfl⟩
    · cases c with
      | none => exact ⟨rfl,.inl rfl⟩
      | some k => exact ⟨rfl,.inr ⟨hl,k,rfl,rfl⟩⟩
    · exact ⟨rfl,.inl rfl⟩
  simp only [Client.keep]
  split_ifs <;> exact hp

lemma mergeAll_known (hg : ∀ e ∈ g.cached, Known stored e) :
    ∀ e ∈ (mergeAll g ms).1.cached, Known stored e := by
  apply mergeAll_cached _ _ hg
  · intro x m hx _ hk
    exact hx.of_key (entryKey_merged hk)
  · intro x m hx
    exact hx.of_key entryKey_withThread

lemma onMessages_stored (s : Client) (ch : Val) (ms : List Entry) (latest : Val) :
    s.stored ⊆ (onMessages s ch ms latest).1.stored := by
  unfold onMessages
  cases hashKey ch with
  | error e => exact fun _ hd => hd
  | ok c =>
    dsimp only
    cases (mergeAll { cached := s.cached c } ms).2 with
    | error e =>
      rw [setCached_stored]
      exact fun _ hd => hd
    | ok u =>
      rw [keep_stored,setCached_stored]
      exact subset_append_left _ _

lemma onMessages_advance (h : Held (Known s.stored) s) {ch : Val}
    (hms : ∀ m ∈ numbered ms, Known (onMessages s ch ms latest).1.stored m) :
    Advance ch latest s (onMessages s ch ms latest).1 := by
  have hsu := onMessages_stored s ch ms latest
  have hh := h.mono fun e he => Known.mono he hsu
  have hn := hh.onMessages ch latest (fun c _ => mergeAll_known (hh.cached c)) hms
  have hcu : (onMessages s ch ms latest).1.cursors = s.cursors ∧
      ((onMessages s ch ms latest).1.savedCursors = s.savedCursors ∨
        latest.truthy = true ∧ ∃ k, hashKey ch = .ok (some k) ∧
          (onMessages s ch ms latest).1.savedCursors = s.savedCursors.set ⟨k,latest⟩) := by
    unfold onMessages
    cases hashKey ch with
    | error e => exact ⟨rfl,.inl rfl⟩
    | ok c =>
      have hse := setCached_cursors s c (mergeAll { cached := s.cached c } ms).1.cached
      dsimp only
      cases (mergeAll { cached := s.cached c } ms).2 with
      | error e => exact ⟨hse.1,.inl hse.2⟩
      | ok u =>
        obtain ⟨hc,hs⟩ := keep_saved
        rw [hse.2] at hs
        refine ⟨hc.trans hse.1,hs.imp_right ?_⟩
        rintro ⟨hl,k,rfl,hk⟩
        exact ⟨hl,k,rfl,hk⟩
  exact ⟨hsu,hn,hcu.1,hcu.2⟩

lemma onMessages_known (h : Held (Known s.stored) s) (ch : String)
    (hms : ∀ m ∈ ms, Hashed m) (latest : Val) :
    ∀ m ∈ numbered ms, Known (onMessages s (.str ch) ms latest).1.stored m := by
  intro m hm
  obtain ⟨hme,hs⟩ := mem_filter.mp hm
  obtain ⟨hok,hall⟩ := mergeAll_hashed hms (g := { cached := s.cached (some (.text ch)) })
    (h.cached _)
  rcases hall m hme with hf | hk
  · have ho : (onMessages s (.str ch) ms latest).1 = (s.setCached (some (.text ch))
          (mergeAll { cached := s.cached (some (.text ch)) } ms).1.cached).keep (some (.text ch))
            (mergeAll { cached := s.cached (some (.text ch)) } ms).1 latest := by
      simp [onMessages,hashKey,hok]
    rw [ho,keep_stored]
    refine ⟨m,mem_append_right _ (mem_append_left _ ?_),rfl⟩
    exact mem_filter.mpr ⟨hf,hs⟩
  · exact hk.mono (onMessages_stored _ _ _ _)

lemma cursor_congr (h : s'.cursors = s.cursors) : s'.cursor c = s.cursor c := by
  rw [Client.cursor,Client.cursor,h]

structure SameData (s s' : Client) : Prop where
  messages : s'.messages = s.messages
  alarms : s'.alarms = s.alarms
  stored : s'.stored = s.stored
  savedCursors : s'.savedCursors = s.savedCursors

lemma SameData.trans {a b c : Client} (h : SameData a b) (h' : SameData b c) : SameData a c :=
  ⟨h'.messages.trans h.messages,h'.alarms.trans h.alarms,h'.stored.trans h.stored,
    h'.savedCursors.trans h.savedCursors⟩

lemma SameData.held (h : SameData s s') (hs : Held (Known s.stored) s) :
    Held (Known s'.stored) s' := by
  have hc : ∀ c, s'.cached c = s.cached c := by
    intro c
    rw [Client.cached,Client.cached,h.messages]
  rw [h.stored]
  refine ⟨?_,?_,?_⟩
  · intro c
    rw [hc]
    exact hs.cached c
  · rw [h.alarms]
    exact hs.alarms
  · rw [h.stored]
    exact hs.stored

lemma verify_same {sig : SignatureScheme} {verdict : Option Bool}
    (hv : s.verify sig m = (s', .ok verdict)) : SameData s s' ∧ s'.cursors = s.cursors := by
  rcases s.verify_cases sig m with ⟨e,he⟩ | ⟨v,i,t,-,he⟩
  · rw [he] at hv
    cases hv
  rw [he] at hv
  cases hv
  exact ⟨⟨rfl,rfl,rfl,rfl⟩,rfl⟩

structure Carries (channelId : String) (m : Message) (e : Entry) : Prop where
  hash : field e "msg_hash" = .str m.msgHash
  channel : field e "channel_id" = .str channelId
  seq : e.lookup "seq" = some (Pusher.natVal? m.seq)
  sender : ∃ x, field e "sender_hash" = Val.ofStr? x
  publicKey : ∃ b, field e "sender_public_key" = Val.ofBytes? b

namespace Carries
variable {channelId : String} {m : Message} {e : Entry}

lemma assign (h : Carries channelId m e) (v : Val) :
    Carries channelId m (assign e "verified" v) := by
  have hf : ∀ k, k ≠ "verified" → field (ClientMessages.assign e "verified" v) k = field e k :=
    fun k hk => field_assign_ne hk
  refine ⟨(hf _ (by decide)).trans h.hash,(hf _ (by decide)).trans h.channel,?_,?_,?_⟩
  · rw [ClientMessages.assign,lookup_cons]
    exact h.seq
  · rw [hf _ (by decide)]
    exact h.sender
  · rw [hf _ (by decide)]
    exact h.publicKey

lemma marked (h : Carries channelId m e) (verdict : Option Bool) :
    Carries channelId m (marked e verdict) := by
  cases verdict with
  | none => exact h
  | some b => exact h.assign _

lemma hashed (h : Carries channelId m e) (hm : m.msgHash ≠ "") : Hashed e :=
  ⟨m.msgHash,hm,h.hash⟩

lemma seqOf (h : Carries channelId m e) : seqOf e = Pusher.natVal? m.seq := by
  rw [ClientMessages.seqOf,h.seq,Option.getD_some]

lemma numbered (h : Carries channelId m e) {n : ℕ} (hn : m.seq = some n) :
    (!isNone (field e "seq")) = true := by
  rw [field,h.seq,hn]
  rfl

lemma verify (h : Carries channelId m e) (sig : SignatureScheme) (s : Client) :
    ∃ verdict s', s.verify sig e = (s', .ok verdict) := by
  have hok : ∃ v, verifyMessageSignature sig s.identityKeys e = .ok v := by
    obtain ⟨x,hx⟩ := h.sender
    obtain ⟨b,hb⟩ := h.publicKey
    have hke : ∃ k, hashKey (field e "sender_hash") = .ok k := by
      rw [hx]
      cases x <;> exact ⟨_,rfl⟩
    have hc : ∃ r, checkSigned sig (field e "sender_public_key")
        (field e "lxmf_signed_part") (field e "lxmf_signature") = .ok r := by
      rw [hb]
      cases b <;> exact ⟨_,rfl⟩
    obtain ⟨k,hk⟩ := hke
    obtain ⟨r,hr⟩ := hc
    unfold verifyMessageSignature
    split_ifs
    · exact ⟨_,rfl⟩
    rw [hk,ok_bind]
    dsimp only
    split_ifs
    · exact ⟨_,rfl⟩
    · rw [hr]
      exact ⟨_,rfl⟩
  obtain ⟨v,hv⟩ := hok
  exact ⟨v.verified,_,s.verify_ok hv⟩

end Carries

variable {prim : ReadPrimitives} {sm : Option Keyring}

section Encoders
open ReadHandlers Pusher

lemma carries_of_lookup {m : Message} (h : ∀ k ∈ ["msg_hash", "channel_id", "seq", "sender_hash"],
      e.lookup k = (encodeMessageForSync m).lookup k)
    (hk : ∃ b, field e "sender_public_key" = Val.ofBytes? b) : Carries m.channelId m e := by
  refine ⟨?_,?_,?_,⟨m.senderHash,?_⟩,hk⟩
  · rw [field,h _ (by decide)]
    rfl
  · rw [field,h _ (by decide)]
    rfl
  · rw [h _ (by decide)]
    rfl
  · rw [field,h _ (by decide)]
    rfl

end Encoders

/-- A row of the channel was stored on the client. -/
def InStore (stored : List Entry) (m : Message) : Prop :=
  ∃ d ∈ stored, field d "msg_hash" = .str m.msgHash

lemma InStore.mono {m : Message} (h : InStore stored m)
    (hs : stored ⊆ stored') : InStore stored' m := by
  obtain ⟨d,hd,hf⟩ := h
  exact ⟨d,hs hd,hf⟩

lemma Carries.inStore {ch : String} {m : Message}
    (h : Carries ch m e) (hm : m.msgHash ≠ "") (hk : Known stored e) : InStore stored m := by
  obtain ⟨d,hd,hke⟩ := hk
  obtain ⟨x,hx,hxk⟩ := (h.hashed hm).entryKey
  have hs : x = m.msgHash := Val.str.inj (hx.symm.trans h.hash)
  exact ⟨d,hd,hs ▸ field_of_entryKey (hke.trans hxk)⟩

structure Delivered (channelId : String) where
  message : Message
  entry : Entry
  carries : Carries channelId message entry

lemma verifyAll_carries (sig : SignatureScheme) {ch : String}
    (page : List (Delivered ch)) (s : Client) :
    ∃ s' checked, verifyAll sig s (page.map Delivered.entry) = (s', .ok checked) ∧
      SameData s s' ∧ s'.cursors = s.cursors ∧ (∀ d ∈ page, ∃ c ∈ checked, Carries ch d.message c) ∧
      ∀ c ∈ checked, ∃ d ∈ page, Carries ch d.message c := by
  induction page generalizing s with
  | nil =>
    exact ⟨s,[],rfl,⟨rfl,rfl,rfl,rfl⟩,rfl,fun _ hd => (not_mem_nil hd).elim,
      fun _ hc => (not_mem_nil hc).elim⟩
  | cons d page ih =>
    obtain ⟨verdict,s₁,hv⟩ := d.carries.verify sig s
    obtain ⟨hsame₁,hcur₁⟩ := verify_same hv
    obtain ⟨s₂,checked,hr,hsame₂,hcur₂,hcarried,hf⟩ := ih s₁
    have hd := d.carries.assign (.bool (verdict = some true))
    refine ⟨s₂,assign d.entry "verified" (.bool (verdict = some true)) :: checked,?_,
      hsame₁.trans hsame₂,hcur₂.trans hcur₁,?_,?_⟩
    · rw [map_cons,verifyAll,hv]
      dsimp only
      rw [hr]
      rfl
    · intro x hx
      rcases mem_cons.mp hx with rfl | hx
      · exact ⟨_,mem_cons_self,hd⟩
      · obtain ⟨c,hc,hca⟩ := hcarried x hx
        exact ⟨c,mem_cons_of_mem _ hc,hca⟩
    · intro c hc
      rcases mem_cons.mp hc with rfl | hc
      · exact ⟨d,mem_cons_self,hd⟩
      · obtain ⟨x,hx,hca⟩ := hf c hc
        exact ⟨x,mem_cons_of_mem _ hx,hca⟩

lemma pyMax_int {a b : ℤ} : pyMax (.int a) (.int b) = .ok (.int a) ∨
    pyMax (.int a) (.int b) = .ok (.int b) := by
  simp only [pyMax,Val.num?]
  split_ifs
  · exact .inr rfl
  · exact .inl rfl

lemma maxSeq_int (hms : ∀ m ∈ ms, ∃ n : ℤ, seqOf m = .int n) (t : ℤ) :
    ∃ r : ℤ, maxSeq (.int t) ms = .ok (.int r) ∧ (r = t ∨ ∃ m ∈ ms, seqOf m = .int r) := by
  induction ms generalizing t with
  | nil => exact ⟨t,rfl,.inl rfl⟩
  | cons m ms ih =>
    obtain ⟨n,hn⟩ := hms m mem_cons_self
    have hre := ih fun m' hm' => hms m' (mem_cons_of_mem _ hm')
    rw [maxSeq,hn]
    rcases pyMax_int with hp | hp
    · rw [hp,ok_bind]
      obtain ⟨r,hr,hc⟩ := hre t
      refine ⟨r,hr,hc.imp_right ?_⟩
      rintro ⟨m',hm',hs⟩
      exact ⟨m',mem_cons_of_mem _ hm',hs⟩
    · rw [hp,ok_bind]
      obtain ⟨r,hr,rfl | ⟨m',hm',hs⟩⟩ := hre n
      · exact ⟨r,hr,.inr ⟨m,mem_cons_self,hn⟩⟩
      · exact ⟨r,hr,.inr ⟨m',mem_cons_of_mem _ hm',hs⟩⟩

lemma nextCursor_int (hms : ∀ m ∈ ms, ∃ n : ℤ, seqOf m = .int n) (c : ℤ) :
    ∃ r : ℤ, nextCursor (.int c) ms = .ok (.int r) ∧ (r = c ∨ ∃ m ∈ ms, seqOf m = .int r) := by
  cases ms with
  | nil => exact ⟨c,rfl,.inl rfl⟩
  | cons m ms =>
    obtain ⟨n,hn⟩ := hms m mem_cons_self
    obtain ⟨r,hr,hc⟩ := maxSeq_int (fun m' hm' => hms m' (mem_cons_of_mem _ hm')) n
    have ht : ∃ m' ∈ m :: ms, seqOf m' = .int r := by
      obtain rfl | ⟨m',hm',hs⟩ := hc
      · exact ⟨m,mem_cons_self,hn⟩
      · exact ⟨m',mem_cons_of_mem _ hm',hs⟩
    rw [nextCursor,hn,hr,ok_bind]
    rcases pyMax_int with hp | hp
    · exact ⟨c,hp,.inl rfl⟩
    · exact ⟨r,hp,.inr ht⟩

structure Session where
  daemon : Store
  client : Client := {}
  requests : List ℤ := []
  pages : List (List Message) := []

inductive Action (channelId : String) where
  | post (row : Message)
  | request
  | respond (sinceSeq : ℤ) (limit : ℕ) (direction : String)
  | history (page : List (Delivered channelId))
  | live (d : Delivered channelId)
  | reply (msg : Entry)
  | alarm
  | restart

def answer (st : Store) (channelId : String) (sinceSeq : ℤ) (limit : ℕ) (direction : String) :
    List Message :=
  (getHistory st channelId sinceSeq limit direction).filter shown

section Session
variable (sig : SignatureScheme) (channelId : String)

def act (s : Session) : Action channelId → Session
  | .post row =>
    -- the hash of a message is a digest
    if row.msgHash = "" then s else { s with daemon := postOr s.daemon channelId row }
  | .request =>
    match s.client.cursor (some (.text channelId)) with
    | .int c => { s with requests := c :: s.requests }
    | _ => s
  | .respond sinceSeq limit direction =>
    if sinceSeq ∈ s.requests then
      { s with pages := answer s.daemon channelId sinceSeq limit direction :: s.pages }
    else s
  | .history page =>
    if page.map Delivered.message ∈ s.pages then
      { s with client :=
          (handleHistory sig s.client (.str channelId) (page.map Delivered.entry)).1 }
    else s
  | .live d =>
    if d.message ∈ s.daemon.channelMessages channelId then
      { s with client := (dispatchMessage sig s.client d.entry).1 }
    else s
  | .reply msg =>
    if isNone (field msg "seq") ∧ (seqOf msg).truthy = false then
      { s with client := (dispatchMessage sig s.client msg).1 }
    else s
  | .alarm => { s with client := step sig s.client .alarm }
  | .restart => { daemon := s.daemon, client := s.client.restart }

/-- Every message up to the saved cursor that is no thread reply is in the client's store. -/
def CursorSafe (s : Session) : Prop :=
  ∀ row, s.client.savedCursors.get? (.text channelId) = some row → ∀ k, row.lastSeq.int? = some k →
      ∀ m ∈ s.daemon.channelMessages channelId, shown m = true →
        ∀ n : ℕ, m.seq = some n → (n : ℤ) ≤ k → InStore s.client.stored m

/-- A live message comes when all messages before it are in the client's store. -/
def CaughtUp (s : Session) : Action channelId → Prop
  | .live d => ∀ q, d.message.seq = some q →
      ∀ m ∈ s.daemon.channelMessages channelId, shown m = true →
        ∀ n, m.seq = some n → n < q → InStore s.client.stored m
  | _ => True

end Session

variable {sinceSeq : ℤ} {mid : Client}

section Invariant
variable {channelId : String}

structure Covered (channelId : String) (st : Store) (stored : List Entry) (k : ℤ) : Prop where
  bound : k ≤ latestSeq st channelId
  settled : SettledUpTo (fun m => m ∈ st.channelMessages channelId ∧ shown m = true) Message.seq
    (InStore stored) k

structure Gapless (channelId : String) (st : Store) (stored : List Entry) (page : List Message) :
    Prop where
  rows : ∀ q ∈ page, q ∈ st.channelMessages channelId ∧ ∃ a, q.seq = some a
  complete : ∀ q ∈ page, ∀ a, q.seq = some a → ∀ m ∈ st.channelMessages channelId,
    shown m = true → ∀ n, m.seq = some n → n ≤ a → m ∈ page ∨ InStore stored m

structure Grown (channelId : String) (st st' : Store) (stored stored' : List Entry) : Prop where
  latest : latestSeq st channelId ≤ latestSeq st' channelId
  kept : ∀ m ∈ st.channelMessages channelId, m ∈ st'.channelMessages channelId
  fresh : ∀ m ∈ st'.channelMessages channelId, m ∈ st.channelMessages channelId ∨
    ∃ q, m.seq = some q ∧ latestSeq st channelId < q
  stored : stored ⊆ stored'

variable {msg : Entry} {s : Session} {st : Store}

lemma Grown.refl (st : Store) (h : stored ⊆ stored') :
    Grown channelId st st stored stored' :=
  ⟨Nat.le_refl _,fun _ hm => hm,fun _ hm => .inl hm,h⟩

lemma Covered.grow {st' : Store} {k : ℤ}
    (h : Covered channelId st stored k) (hg : Grown channelId st st' stored stored') :
    Covered channelId st' stored' k := by
  have hb := h.bound
  have hl := hg.latest
  refine ⟨by omega,h.settled.mono ?_ fun m hm => hm.mono hg.stored⟩
  rintro m ⟨hm,hs⟩
  rcases hg.fresh m hm with hm | ⟨q,hq,hlt⟩
  · exact .inl ⟨hm,hs⟩
  · exact .inr ⟨q,hq,by omega⟩

lemma Gapless.grow {st' : Store} {page : List Message}
    (h : Gapless channelId st stored page) (hs : Sequenced st channelId)
    (hg : Grown channelId st st' stored stored') : Gapless channelId st' stored' page := by
  refine ⟨fun q hq => ⟨hg.kept q (h.rows q hq).1,(h.rows q hq).2⟩,?_⟩
  intro q hq a ha m hm hsh n hn hna
  rcases hg.fresh m hm with hm | ⟨n',hn',hlt⟩
  · exact (h.complete q hq a ha m hm hsh n hn hna).imp_right fun hi => hi.mono hg.stored
  -- a new row has a larger number than every row of the page
  have hle := (hs.bounds q (h.rows q hq).1 a ha).2
  rw [hn] at hn'
  cases hn'
  omega

lemma getHistory_forward {limit : ℕ} : getHistory st channelId sinceSeq limit "forward" =
      MessageRepo.getHistory st channelId sinceSeq limit := by
  have hp : (fun m : Message => m.seq.any fun q : ℕ =>
      decide (sinceSeq < q) && (none : Option ℤ).all fun b => decide ((q : ℤ) < b)) =
      fun m => m.seq.any fun q : ℕ => decide (sinceSeq < q) := by
    funext m
    simp
  rw [getHistory,if_pos rfl]
  simp only [hp]
  rfl

lemma getHistory_below {limit : ℕ} {dir : String} (hd : dir ≠ "forward") {m : Message}
    (hm : m ∈ getHistory st channelId sinceSeq limit dir) :
    ∃ q : ℕ, m.seq = some q ∧ (q : ℤ) < sinceSeq := by
  have hme : m ∈ sqlLimit limit (((st.channelMessages channelId).filter fun m =>
      m.seq.any fun q : ℕ => decide ((q : ℤ) < sinceSeq)).insertionSort
        fun a b => MessageRepo.seqLe b a) := by
    simp only [getHistory,if_neg hd] at hm
    split_ifs at hm
    · exact mem_reverse.mp hm
    · exact hm
  have hs := ReadHandlers.sqlLimit_subset hme
  rw [mem_insertionSort,mem_filter,Option.any_eq_true] at hs
  obtain ⟨-,q,hq,hlt⟩ := hs
  exact ⟨q,hq,of_decide_eq_true hlt⟩

lemma answer_gapless (hs : Sequenced st channelId)
    (hc : Covered channelId st stored sinceSeq) {limit : ℕ} {dir : String} :
    Gapless channelId st stored (answer st channelId sinceSeq limit dir) := by
  by_cases hd : dir = "forward"
  · subst hd
    rw [answer,getHistory_forward]
    constructor
    · intro q hq
      obtain ⟨hr,a,ha,-⟩ := MessageRepo.mem_getHistory (mem_of_mem_filter hq)
      exact ⟨hr,a,ha⟩
    intro q hq a ha m hm hsh n hn hna
    by_cases hlt : sinceSeq < n
    · refine .inl (mem_filter.mpr ⟨?_,hsh⟩)
      exact PushDelivery.getHistory_complete hs hm hn hlt (mem_of_mem_filter hq) ha hna
    · exact .inr (hc.settled m ⟨hm,hsh⟩ n hn (by omega))
  · constructor
    · intro q hq
      have hme := mem_of_mem_filter hq
      obtain ⟨a,ha,-⟩ := getHistory_below hd hme
      exact ⟨ReadHandlers.getHistory_subset hme,a,ha⟩
    intro q hq a ha m hm hsh n hn hna
    obtain ⟨a',ha',hlt⟩ := getHistory_below hd (mem_of_mem_filter hq)
    rw [ha] at ha'
    cases ha'
    exact .inr (hc.settled m ⟨hm,hsh⟩ n hn (by omega))

structure Inv (channelId : String) (s : Session) : Prop where
  sequenced : Sequenced s.daemon channelId
  named : ∀ m ∈ s.daemon.channelMessages channelId, m.msgHash ≠ ""
  held : Held (Known s.client.stored) s.client
  cursor : ∃ c : ℤ, s.client.cursor (some (.text channelId)) = .int c ∧
    Covered channelId s.daemon s.client.stored c
  saved : ∀ row, s.client.savedCursors.get? (.text channelId) = some row →
    ∃ k : ℤ, row.lastSeq = .int k ∧ Covered channelId s.daemon s.client.stored k
  requests : ∀ k ∈ s.requests, Covered channelId s.daemon s.client.stored k
  pages : ∀ page ∈ s.pages, Gapless channelId s.daemon s.client.stored page

lemma Inv.cursor_kept (h : Inv channelId s) (hm : mid.cursors = s.client.cursors)
    (hs : s.client.stored ⊆ stored') : ∃ c : ℤ, mid.cursor (some (.text channelId)) = .int c ∧
      Covered channelId s.daemon stored' c := by
  obtain ⟨c,hc,hco⟩ := h.cursor
  exact ⟨c,(cursor_congr hm).trans hc,hco.grow (.refl s.daemon hs)⟩

lemma Inv.advance (h : Inv channelId s) {v latest : Val} {client : Client}
    (hs : SameData s.client mid) (ha : Advance v latest mid client)
    (hcu : ∃ c : ℤ, mid.cursor (some (.text channelId)) = .int c ∧
      Covered channelId s.daemon client.stored c)
        (hl : latest.truthy = true → ∃ k : ℤ, latest = .int k ∧
      Covered channelId s.daemon client.stored k) : Inv channelId { s with client := client } := by
  have hg : Grown channelId s.daemon s.daemon s.client.stored client.stored :=
    .refl s.daemon (hs.stored ▸ ha.stored)
  obtain ⟨c,hc,hco⟩ := hcu
  refine ⟨h.sequenced,h.named,ha.held,⟨c,(cursor_congr ha.cursors).trans hc,hco⟩,?_,
    fun k hk => (h.requests k hk).grow hg,
    fun page hp => (h.pages page hp).grow h.sequenced hg⟩
  intro row hr
  have ho : s.client.savedCursors.get? (.text channelId) = some row →
      ∃ k : ℤ, row.lastSeq = .int k ∧ Covered channelId s.daemon client.stored k := by
    intro hge
    obtain ⟨k,hk,hkc⟩ := h.saved row hge
    exact ⟨k,hk,hkc.grow hg⟩
  rcases ha.saved with hke | ⟨ht,k,-,hse⟩
  · exact ho (by rw [← hs.savedCursors,← hke,hr])
  rw [hse,Table.get?_set,hs.savedCursors] at hr
  split_ifs at hr
  · cases hr
    exact hl ht
  · exact ho hr

lemma covered_page (h : Inv channelId s) {page : List (Delivered channelId)}
    (hp : Gapless channelId s.daemon s.client.stored (page.map Delivered.message))
    (hsu : s.client.stored ⊆ stored)
    (hpa : ∀ d ∈ page, InStore stored d.message) {d : Delivered channelId} (hd : d ∈ page)
    {a : ℕ} (ha : d.message.seq = some a) : Covered channelId s.daemon stored a := by
  have hr := hp.rows d.message (mem_map_of_mem hd)
  refine ⟨by exact_mod_cast (h.sequenced.bounds d.message hr.1 a ha).2,?_⟩
  rintro m ⟨hm,hs⟩ n hn hna
  rcases hp.complete d.message (mem_map_of_mem hd) a ha m hm hs n hn
    (by exact_mod_cast hna) with hme | hin
  · obtain ⟨d',hd',rfl⟩ := mem_map.mp hme
    exact hpa d' hd'
  · exact hin.mono hsu

lemma page_inv (h : Inv channelId s) {page : List (Delivered channelId)}
    (hp : Gapless channelId s.daemon s.client.stored (page.map Delivered.message))
    {checked : List Entry} (hcarried : ∀ d ∈ page, ∃ c ∈ checked, Carries channelId d.message c)
    (hhashed : ∀ c ∈ checked, Hashed c) (hs : SameData s.client mid) {r : ℤ}
    (hcu : mid.cursor (some (.text channelId)) = .int r)
    (hr : Covered channelId s.daemon s.client.stored r ∨
      ∃ d ∈ page, ∃ a : ℕ, d.message.seq = some a ∧ r = a) :
    Inv channelId { s with client := (onMessages mid (.str channelId) checked (.int r)).1 } := by
  have hh := hs.held h.held
  have hk := onMessages_known hh channelId hhashed (.int r)
  have had := onMessages_advance hh hk
  have hsu := hs.stored ▸ had.stored
  have hpa : ∀ d ∈ page,
      InStore (onMessages mid (.str channelId) checked (.int r)).1.stored d.message := by
    intro d hd
    obtain ⟨c,hc,hca⟩ := hcarried d hd
    obtain ⟨hro,a,ha⟩ := hp.rows d.message (mem_map_of_mem hd)
    exact hca.inStore (h.named _ hro) (hk c (mem_filter.mpr ⟨hc,hca.numbered ha⟩))
  have hco : Covered channelId s.daemon
      (onMessages mid (.str channelId) checked (.int r)).1.stored r := by
    rcases hr with hr | ⟨d,hd,a,ha,rfl⟩
    · exact hr.grow (.refl s.daemon hsu)
    · exact covered_page h hp hsu hpa hd ha
  exact h.advance hs had ⟨r,hcu,hco⟩ fun _ => ⟨r,rfl,hco⟩

variable {sig : SignatureScheme}

lemma history_inv (h : Inv channelId s) {page : List (Delivered channelId)}
    (hp : Gapless channelId s.daemon s.client.stored (page.map Delivered.message)) :
    Inv channelId { s with client :=
      (handleHistory sig s.client (.str channelId) (page.map Delivered.entry)).1 } := by
  unfold handleHistory
  split_ifs with hch
  · exact h
  obtain ⟨s₁,checked,hv,hs,hcur,hcarried,hf⟩ := verifyAll_carries sig page s.client
  obtain ⟨c,hc,hco⟩ := h.cursor
  have hse : ∀ e ∈ checked, ∃ d ∈ page, ∃ a : ℕ, d.message.seq = some a ∧ seqOf e = .int a := by
    intro e he
    obtain ⟨d,hd,hca⟩ := hf e he
    obtain ⟨a,ha⟩ := (hp.rows d.message (mem_map_of_mem hd)).2
    exact ⟨d,hd,a,ha,by rw [hca.seqOf,ha]; rfl⟩
  have hh : ∀ e ∈ checked, Hashed e := by
    intro e he
    obtain ⟨d,hd,hca⟩ := hf e he
    exact hca.hashed (h.named _ (hp.rows _ (mem_map_of_mem hd)).1)
  obtain ⟨r,hr,hcas⟩ := nextCursor_int (c := c) fun e he => by
    obtain ⟨d,-,a,-,ha⟩ := hse e he
    exact ⟨a,ha⟩
  have hcu : s₁.cursor (some (.text channelId)) = .int c := (cursor_congr hcur).trans hc
  have ht : Covered channelId s.daemon s.client.stored r ∨
      ∃ d ∈ page, ∃ a : ℕ, d.message.seq = some a ∧ r = a := by
    rcases hcas with rfl | ⟨e,he,her⟩
    · exact .inl hco
    · obtain ⟨d,hd,a,ha,hea⟩ := hse e he
      exact .inr ⟨d,hd,a,ha,Val.int.inj (her.symm.trans hea)⟩
  rw [hv]
  simp only [hashKey,hcu,hr]
  apply page_inv h hp hcarried hh _ _ ht
  · split_ifs
    · exact hs
    · exact hs.trans ⟨rfl,rfl,rfl,rfl⟩
  split_ifs with hem
  · rw [isEmpty_iff.mp hem] at hr
    cases hr
    exact hcu
  · simp only [Client.cursor,Client.setCursor,Option.bind_some,Table.get?_set,if_true]
    rfl

def called (s : Client) (msg : Entry) (verified : Option Bool) : Client × Py Unit :=
  onMessages s (field msg "channel_id") [marked msg verified] (seqOf (marked msg verified))

lemma dispatchMessage_advance {s : Client} {verdict : Option Bool}
    (ht : (field msg "channel_id").truthy = true) (hv : s.verify sig msg = (s', .ok verdict))
    (hs : Held (Known s'.stored) s')
    (hk : ∀ m ∈ numbered [marked msg verdict], Known (called s' msg verdict).1.stored m) :
    Advance (field msg "channel_id") (seqOf (marked msg verdict)) s' (dispatchMessage sig s msg).1 ∧
      (dispatchMessage sig s msg).1.stored = (called s' msg verdict).1.stored := by
  have ha : Advance _ _ s' (called s' msg verdict).1 := onMessages_advance hs hk
  simp only [dispatchMessage,ht,Bool.true_eq_false,if_false,hv]
  rw [called] at *
  cases hr : onMessages s' (field msg "channel_id") [marked msg verdict]
      (seqOf (marked msg verdict)) with
  | mk t outcome =>
    rw [hr] at ha
    cases outcome with
    | error e => exact ⟨ha,rfl⟩
    | ok u =>
      split_ifs
      · exact ⟨ha.schedule rfl,rfl⟩
      · exact ⟨ha,rfl⟩

lemma live_inv (sig : SignatureScheme) (h : Inv channelId s) {d : Delivered channelId}
    (hd : d.message ∈ s.daemon.channelMessages channelId) (hok : CaughtUp channelId s (.live d)) :
    Inv channelId { s with client := (dispatchMessage sig s.client d.entry).1 } := by
  by_cases ht : (field d.entry "channel_id").truthy = true
  · obtain ⟨verdict,s',hv⟩ := d.carries.verify sig s.client
    obtain ⟨hs,hcu⟩ := verify_same hv
    have hc := d.carries.marked verdict
    have hna := h.named d.message hd
    have hh : ∀ m ∈ [marked d.entry verdict], Hashed m := by
      intro m hm
      rw [mem_singleton.mp hm]
      exact hc.hashed hna
    have hk := onMessages_known (hs.held h.held) channelId hh (seqOf (marked d.entry verdict))
    rw [← d.carries.channel] at hk
    obtain ⟨ha,hst⟩ := dispatchMessage_advance ht hv (hs.held h.held) hk
    have hsu : s.client.stored ⊆ (dispatchMessage sig s.client d.entry).1.stored :=
      hs.stored ▸ ha.stored
    apply h.advance hs ha (h.cursor_kept hcu hsu)
    rw [hc.seqOf]
    intro htr
    cases hq : d.message.seq with
    | none =>
      rw [hq] at htr
      cases htr
    | some q =>
      refine ⟨q,rfl,by exact_mod_cast (h.sequenced.bounds d.message hd q hq).2,?_⟩
      rintro m ⟨hm,hsh⟩ n hn hnq
      by_cases hlt : n < q
      · exact (hok q hq m hm hsh n hn hlt).mono hsu
      -- the message itself
      have hnq' : n = q := by omega
      have hse := h.sequenced.distinct m hm d.message hd n hn (hnq' ▸ hq)
      rw [hse,hst]
      exact hc.inStore hna (hk _ (mem_filter.mpr ⟨mem_cons_self,hc.numbered hq⟩))
  · have hs : (dispatchMessage sig s.client d.entry).1 = s.client := by
      simp [dispatchMessage,Bool.eq_false_of_not_eq_true ht]
    rw [hs]
    exact h

lemma reply_inv (h : Inv channelId s) (hse : isNone (field msg "seq") = true)
    (hf : (seqOf msg).truthy = false) :
    Inv channelId { s with client := (dispatchMessage sig s.client msg).1 } := by
  have hma : ∀ verdict, isNone (field (marked msg verdict) "seq") = true ∧
      seqOf (marked msg verdict) = seqOf msg := by
    intro verdict
    cases verdict with
    | none => exact ⟨hse,rfl⟩
    | some b =>
      exact ⟨hse,rfl⟩
  by_cases ht : (field msg "channel_id").truthy = true
  · rcases s.client.verify_cases sig msg with ⟨e,he⟩ | ⟨verdict,i,t,-,he⟩
    · have hs : (dispatchMessage sig s.client msg).1 = s.client := by
        simp [dispatchMessage,ht,he]
      rw [hs]
      exact h
    obtain ⟨hs,hc⟩ := verify_same he
    obtain ⟨ha,-⟩ := dispatchMessage_advance ht he (hs.held h.held) (by
      intro m hm
      obtain ⟨hme,hn⟩ := mem_filter.mp hm
      rw [mem_singleton.mp hme,(hma verdict).1] at hn
      cases hn)
    apply h.advance hs ha (h.cursor_kept hc ha.stored)
    rw [(hma verdict).2,hf]
    nofun
  · have hs : (dispatchMessage sig s.client msg).1 = s.client := by
      simp [dispatchMessage,Bool.eq_false_of_not_eq_true ht]
    rw [hs]
    exact h

lemma fire_frame (s : Client) (a : Alarm) :
    s.stored ⊆ (fire s a).stored ∧ (fire s a).cursors = s.cursors ∧
      (fire s a).savedCursors = s.savedCursors := by
  have hse : ∀ c ms rows, s.stored ⊆ ((s.setCached c ms).store rows).stored ∧
      ((s.setCached c ms).store rows).cursors = s.cursors ∧
      ((s.setCached c ms).store rows).savedCursors = s.savedCursors := by
    intro c ms rows
    cases c <;> exact ⟨subset_append_left _ _,rfl,rfl⟩
  cases a with
  | extend c ms =>
    obtain ⟨hc,hs⟩ := setCached_cursors s c (s.cached c ++ ms)
    exact ⟨by rw [fire,setCached_stored]; exact fun _ hd => hd,hc,hs⟩
  | update msg =>
    simp only [fire]
    split_ifs
    · exact hse _ _ _
    · exact ⟨fun _ hd => hd,rfl,rfl⟩
  | markThread c rootHash =>
    simp only [fire]
    split
    · exact hse _ _ _
    · exact ⟨fun _ hd => hd,rfl,rfl⟩

lemma alarm_inv (h : Inv channelId s) :
    Inv channelId { s with client := step sig s.client .alarm } := by
  simp only [step]
  cases ha : s.client.alarms with
  | nil => exact h
  | cons a rest =>
    obtain ⟨hsu,hc,hs⟩ := fire_frame { s.client with alarms := rest } a
    have hh := h.held.mono fun e he => Known.mono he hsu
    have hr : Held (Known (fire { s.client with alarms := rest } a).stored)
        { s.client with alarms := rest } :=
      ⟨hh.cached,fun b hb => hh.alarms b (ha ▸ mem_cons_of_mem _ hb),hh.stored⟩
    have hf := hr.fire (fun e he => he.of_key (entryKey_threaded e))
      (hh.alarms a (ha ▸ mem_cons_self))
    have had : Advance .none .none s.client (fire { s.client with alarms := rest } a) :=
      ⟨hsu,hf,hc,.inl hs⟩
    exact h.advance ⟨rfl,rfl,rfl,rfl⟩ had (h.cursor_kept rfl hsu) nofun

lemma Covered.zero (hs : Sequenced st channelId) (stored : List Entry) :
    Covered channelId st stored 0 := by
  refine ⟨by omega,?_⟩
  rintro m ⟨hm,-⟩ n hn hle
  have hp := (hs.bounds m hm n hn).1
  omega

lemma restart_inv (h : Inv channelId s) :
    Inv channelId { daemon := s.daemon, client := s.client.restart } := by
  refine ⟨h.sequenced,h.named,?_,?_,h.saved,nofun,nofun⟩
  · refine ⟨?_,nofun,fun d hd => ⟨d,hd,rfl⟩⟩
    intro c e he
    cases c <;> exact absurd he not_mem_nil
  cases hr : s.client.savedCursors.get? (.text channelId) with
  | none =>
    refine ⟨0,?_,Covered.zero h.sequenced _⟩
    simp only [Client.cursor,Client.restart,Option.bind_some,hr]
    rfl
  | some row =>
    obtain ⟨k,hk,hc⟩ := h.saved row hr
    refine ⟨k,?_,hc⟩
    simp only [Client.cursor,Client.restart,Option.bind_some,hr]
    exact hk

lemma postOr_grown (ch : String) (st : Store) (row : Message) (stored : List Entry) :
    Grown ch st (postOr st ch row) stored stored := by
  rcases PushDelivery.postOr_history st ch row with ⟨hro,hl⟩ | ⟨r,hr,hro,hl⟩
  · exact ⟨by omega,by rw [hro]; exact fun _ hm => hm,by rw [hro]; exact fun _ hm => .inl hm,
      fun _ hd => hd⟩
  refine ⟨by omega,?_,?_,fun _ hd => hd⟩
  · rw [hro]
    exact fun m hm => mem_append_left _ hm
  rw [hro]
  intro m hm
  rcases mem_append.mp hm with hm | hm
  · exact .inl hm
  · rw [mem_singleton.mp hm]
    exact .inr ⟨_,hr,by omega⟩

lemma postOr_named {row m : Message}
    (hm : m ∈ (postOr st channelId row).channelMessages channelId) :
    m ∈ st.channelMessages channelId ∨ m.msgHash = row.msgHash := by
  rcases PushDelivery.postOr_cases with h | ⟨c,t,-,ht,h⟩
  · rw [h] at hm
    exact .inl hm
  rw [h,Store.channelMessages,Table.insert?_rows ht,filter_append] at hm
  rcases mem_append.mp hm with hm | hm
  · exact .inl hm
  · rw [mem_singleton.mp (mem_of_mem_filter hm)]
    exact .inr rfl

lemma post_inv (h : Inv channelId s) {row : Message} (hro : row.msgHash ≠ "") :
    Inv channelId { s with daemon := postOr s.daemon channelId row } := by
  have hg := postOr_grown channelId s.daemon row s.client.stored
  refine ⟨h.sequenced.postOr row,?_,h.held,?_,?_,?_,?_⟩
  · intro m hm
    rcases postOr_named hm with hm | hm
    · exact h.named m hm
    · rw [hm]
      exact hro
  · obtain ⟨c,hc,hco⟩ := h.cursor
    exact ⟨c,hc,hco.grow hg⟩
  · intro r hr
    obtain ⟨k,hk,hco⟩ := h.saved r hr
    exact ⟨k,hk,hco.grow hg⟩
  · exact fun k hk => (h.requests k hk).grow hg
  · exact fun page hp => (h.pages page hp).grow h.sequenced hg

lemma act_inv (s : Session) (a : Action channelId) (h : Inv channelId s)
    (hok : CaughtUp channelId s a) : Inv channelId (act sig channelId s a) := by
  cases a with
  | post row =>
    simp only [act]
    split_ifs with hr
    · exact h
    · exact post_inv h hr
  | request =>
    obtain ⟨c,hc,hco⟩ := h.cursor
    simp only [act,hc]
    refine ⟨h.sequenced,h.named,h.held,h.cursor,h.saved,?_,h.pages⟩
    intro k hk
    rcases mem_cons.mp hk with rfl | hk
    · exact hco
    · exact h.requests k hk
  | respond sinceSeq limit direction =>
    simp only [act]
    split_ifs with hre
    · refine ⟨h.sequenced,h.named,h.held,h.cursor,h.saved,h.requests,?_⟩
      intro page hp
      rcases mem_cons.mp hp with rfl | hp
      · exact answer_gapless h.sequenced (h.requests sinceSeq hre)
      · exact h.pages page hp
    · exact h
  | history page =>
    simp only [act]
    split_ifs with hp
    · exact history_inv h (h.pages _ hp)
    · exact h
  | live d =>
    simp only [act]
    split_ifs with hd
    · exact live_inv sig h hd hok
    · exact h
  | reply msg =>
    simp only [act]
    split_ifs with hm
    · exact reply_inv h hm.1 hm.2
    · exact h
  | alarm => exact alarm_inv h
  | restart => exact restart_inv h

end Invariant

/-- In every run whose live messages come to a client that has caught up, the saved cursor is
safe, from any history of the channel and whatever else happens in between. -/
theorem cursor_safe_of_caughtUp (sig : SignatureScheme) (channelId : String) {st : Store}
    (hs : Sequenced st channelId) (hnamed : ∀ m ∈ st.channelMessages channelId, m.msgHash ≠ "")
    (actions : List (Action channelId))
    (h : Guarded (act sig channelId) (CaughtUp channelId) { daemon := st } actions) :
    CursorSafe channelId (run (act sig channelId) { daemon := st } actions) := by
  have hi : Inv channelId { daemon := st } := by
    refine ⟨hs,hnamed,?_,⟨0,rfl,Covered.zero hs _⟩,(fun _ hr => by cases hr),nofun,nofun⟩
    refine ⟨?_,nofun,nofun⟩
    intro c e he
    cases c <;> exact absurd he not_mem_nil
  have hru := Guarded.invariant (I := Inv channelId) act_inv hi h
  intro row hr k hk m hm hsh n hn hnk
  obtain ⟨k',hk',hc⟩ := hru.saved row hr
  rw [hk'] at hk
  cases hk
  exact hc.settled m ⟨hm,hsh⟩ n hn hnk

def hallStore : Store := { channels := .singleton HistoryPagination.hall }

def note (msgHash : String) (seq : Option ℕ) : Message :=
  { msgHash := msgHash, channelId := "hall", seq := seq, timestamp := .fin 0, type := 1 }

lemma note_carries {hash : String} {seq : Option ℕ} :
    Carries "hall" (note hash seq) (Pusher.encodeMessageForSync (note hash seq)) :=
  carries_of_lookup (m := note hash seq) (fun _ _ => rfl) ⟨none,rfl⟩

def sent (msgHash : String) (seq : ℕ) : Delivered "hall" :=
  ⟨note msgHash (some seq),_,note_carries⟩

lemma hallStore_sequenced : Sequenced hallStore "hall" := by
  constructor
  · intro m hm
    exact (not_mem_nil hm).elim
  · intro m hm
    exact (not_mem_nil hm).elim

theorem live_message_hides_history :
    Sequenced hallStore "hall" ∧ ¬ CursorSafe "hall" (run (act sampleScheme "hall")
      { daemon := hallStore }
      [.post (note "a" none), .post (note "b" none), .request, .live (sent "b" 2), .restart]) := by
  refine ⟨hallStore_sequenced,fun h => ?_⟩
  obtain ⟨d,hd,hf⟩ := h ⟨.text "hall",.int 2⟩ rfl 2 rfl (sent "a" 1).message
    (by decide +kernel) rfl 1 rfl (by decide)
  have hm : d ∈ [(sent "b" 2).entry] := hd
  rw [mem_singleton.mp hm] at hf
  exact absurd (Val.str.inj hf) (by decide)

def syncedActions : List (Action "hall") :=
  [.post (note "a" none), .request, .respond 0 50 "forward", .history [sent "a" 1],
    .post (note "b" none)]

theorem live_message_after_history :
    Guarded (act sampleScheme "hall") (CaughtUp "hall") { daemon := hallStore }
        (syncedActions ++ [.live (sent "b" 2), .restart]) ∧
      ((run (act sampleScheme "hall") { daemon := hallStore }
        (syncedActions ++ [.live (sent "b" 2), .restart])).client.savedCursors.get?
          (.text "hall")).isSome = true ∧
      CursorSafe "hall" (run (act sampleScheme "hall") { daemon := hallStore }
        (syncedActions ++ [.live (sent "b" 2), .restart])) := by
  have hl : CaughtUp "hall" (run (act sampleScheme "hall") { daemon := hallStore }
      syncedActions) (.live (sent "b" 2)) := by
    intro q hq m hm _ n hn hlt
    have hme : m ∈ [note "a" (some 1), note "b" (some 2)] := hm
    cases hq
    simp only [mem_cons,not_mem_nil,or_false] at hme
    rcases hme with rfl | rfl
    · exact ⟨assign (sent "a" 1).entry "verified" (.bool false),mem_cons_self,rfl⟩
    · cases hn
      exact absurd hlt (Nat.lt_irrefl 2)
  have hg : Guarded (act sampleScheme "hall") (CaughtUp "hall") { daemon := hallStore }
      (syncedActions ++ [.live (sent "b" 2), .restart]) :=
    Guarded.append.mpr ⟨⟨trivial,trivial,trivial,trivial,trivial,trivial⟩,hl,trivial,trivial⟩
  refine ⟨hg,rfl,cursor_safe_of_caughtUp sampleScheme "hall" hallStore_sequenced ?_ _ hg⟩
  intro m hm
  exact (not_mem_nil hm).elim

end Hokora.CursorSafety
