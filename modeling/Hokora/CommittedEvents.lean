import Hokora.LxmfIngestor
import Hokora.FederatedAcceptance
import Hokora.TransitionRuns

/-!
# Live events and the transactions that they are sent from

What a live event announces against what its transaction left. Any commit may fail.
-/
namespace Hokora.CommittedEvents
open Database KeyedTable LiveSubscriptions LxmfIngestor MediaFiles MessageProcessor MirrorIngest
  PushReceive PyValue RateLimit Repositories SenderBinding TransitionRuns WireRows WriteFrames
open MessageRepo (getByHash)

abbrev Announcement := Val × ℕ

def storeAnnouncement (b : PushBatch) (st : Store) (d : MsgData) : Option Announcement :=
  match SequenceManager.nextSeq st b.channelId, shortName d.displayName with
  | .ok (seq, _), .ok _ => some (d.msgHash, seq)
  | _, _ => none

def entryAnnouncement (sig : SignatureScheme) (b : PushBatch) (st : Store) (d : MsgData) :
    Option Announcement :=
  match getByWireHash st d.msgHash, vetEntry sig b st d with
  | .ok none, .ok (some _) => storeAnnouncement b st d
  | _, _ => none

def batchAnnouncements (sig : SignatureScheme) (b : PushBatch) (now : ℚ) :
    Store → List Val → List Announcement
  | _, [] => []
  | st, v :: vs =>
    match MsgData.ofVal v with
    | .error _ => []
    | .ok d =>
      (entryAnnouncement sig b st d).toList ++
        match pushEntry sig b now st d with
        | .ok (_, st₁) => batchAnnouncements sig b now st₁ vs
        | .error _ => []

def mirrorAnnouncement (sig : SignatureScheme) (requireSigned : Bool) (now : ℚ) (st : Store)
    (channelId : String) (msgData : Val) (peerHash : String) : Option Announcement :=
  match MsgData.ofVal msgData, msgData.get "origin_node" .none with
  | .ok d, .ok payloadOrigin =>
    let batch := mirrorBatch requireSigned st channelId peerHash payloadOrigin
    match precheck sig requireSigned now d, getByWireHash st d.msgHash,
      mirrorContent batch.channelSealed d with
    | .ok true, .ok none, .ok (some _) => storeAnnouncement batch st d
    | _, _, _ => none
  | _, _ => none

/-- A row with the announced hash has the announced number. -/
def Founded (st : Store) (msgHash : Val) (seq : Option ℕ) : Prop :=
  ∃ row, getByWireHash st msgHash = .ok (some row) ∧ row.seq = seq

section
variable {sig : SignatureScheme} {b : PushBatch} {now : ℚ} {st st' : Store}

lemma Founded.mono {hash : Val} {seq : Option ℕ}
    (hr : ∀ k row, getByHash st k = some row → getByHash st' k = some row)
    (h : Founded st hash seq) : Founded st' hash seq := by
  obtain ⟨row,hro,hs⟩ := h
  obtain ⟨key,hke,hg⟩ := bind_ok hro
  obtain ⟨k,rfl,hk⟩ := Option.bind_eq_some_iff.mp (Except.ok.inj hg)
  refine ⟨row,?_,hs⟩
  rw [getByWireHash,hke,ok_bind,Option.bind_some,hr k row hk]
  rfl

variable {x : Announcement} {a : Answer} {as : List Answer} {vs : List Val} {d : MsgData}
  {k : String}

lemma storeAnnouncement_founded {content : WireBody} {r : ℕ × Store} {a : Announcement}
    (h : storeEntry b now st d content = .ok r) (ha : storeAnnouncement b st d = some a) :
    Founded r.2 a.1 (some a.2) := by
  obtain ⟨seq,st'⟩ := r
  obtain ⟨c,row,t,hc,-,hh,-,hs,-,hi,rfl⟩ := storeEntry_ok h
  unfold storeAnnouncement at ha
  split at ha
  next n st₁ name hn hna =>
    cases ha
    obtain ⟨c',hc',rfl,-⟩ := ChannelRepo.incrementSeq_ok.mp hn
    cases hc.symm.trans hc'
    refine ⟨row,?_,hs⟩
    rw [getByWireHash,hh,ok_bind,Option.bind_some]
    change (pure (t.get? row.msgHash) : Py (Option Message)) = _
    rw [Table.get?_insert? hi,if_pos rfl]
    rfl
  · cases ha

lemma pushEntry_rows (h : pushEntry sig b now st d = .ok (a, st')) {row : Message}
    (hr : getByHash st k = some row) : getByHash st' k = some row := by
  cases pushEntry_effect h with
  | duplicate => exact hr
  | refused => exact hr
  | stored _ _ _ _ _ _ _ hi => exact Table.get?_insert?_of_some hi hr

lemma pushEntries_rows (h : pushEntries sig b now st vs = .ok (as, st')) {row : Message}
    (hro : getByHash st k = some row) : getByHash st' k = some row :=
  pushEntries_rel (R := fun s s' => getByHash s k = some row → getByHash s' k = some row)
    (fun _ => id) (fun h₁ h₂ h => h₂ (h₁ h)) (fun he hr => pushEntry_rows he hr) h hro

lemma entryAnnouncement_founded (h : pushEntry sig b now st d = .ok (a, st'))
    (hx : entryAnnouncement sig b st d = some x) : Founded st' x.1 (some x.2) := by
  unfold entryAnnouncement at hx
  split at hx
  next content hf hv =>
    obtain ⟨row,hk,-,-⟩ | ⟨-,⟨hr,-,-⟩ | ⟨content',seq,-,hs,-⟩⟩ :=
      pushEntry_cases h
    · cases hf.symm.trans hk
    · cases hv.symm.trans hr
    · exact storeAnnouncement_founded hs hx
  · cases hx

lemma batchAnnouncements_founded (h : pushEntries sig b now st vs = .ok (as, st'))
    (hx : x ∈ batchAnnouncements sig b now st vs) : Founded st' x.1 (some x.2) := by
  induction vs generalizing st as with
  | nil => cases hx
  | cons v vs ih =>
    obtain ⟨d,a,st₁,as',hd,he,hr,-⟩ := pushEntries_cons.mp h
    simp only [batchAnnouncements,hd,he] at hx
    rcases List.mem_append.mp hx with ho | hl
    · have hf := entryAnnouncement_founded he (Option.mem_toList.mp ho)
      exact hf.mono fun k row hro => pushEntries_rows hr hro
    · exact ih hr hl

/-- A mirrored row that can be written. -/
def MirrorStorable (sig : SignatureScheme) (requireSigned : Bool) (now : ℚ) (st : Store)
    (channelId : String) (msgData : Val) (peerHash : String) : Prop :=
  ∀ d payloadOrigin content, MsgData.ofVal msgData = .ok d →
    msgData.get "origin_node" .none = .ok payloadOrigin →
    precheck sig requireSigned now d = .ok true → getByWireHash st d.msgHash = .ok none →
    mirrorContent (mirrorBatch requireSigned st channelId peerHash payloadOrigin).channelSealed d =
      .ok (some content) →
    Storable (mirrorBatch requireSigned st channelId peerHash payloadOrigin) now st d content

lemma mirrorAnnouncement_founded {rs : Bool} {ch ph : String} {md : Val}
    (hx : mirrorAnnouncement sig rs now st ch md ph = some x)
    (hs : MirrorStorable sig rs now st ch md ph) :
    Founded (MirrorIngest.ingest sig rs now st ch md ph) x.1 (some x.2) := by
  unfold mirrorAnnouncement at hx
  split at hx
  next d po hd ho =>
    simp only at hx
    split at hx
    next content hp hf hc =>
      obtain ⟨⟨seq,st'⟩,hst⟩ := (storeEntry_succeeds_iff hf).mpr (hs d po content hd ho hp hf hc)
      simp only [MirrorIngest.ingest,ingestTx_stored hd ho hp hf hc hst]
      exact storeAnnouncement_founded hst hx
    · cases hx
  · cases hx

end

structure EventNode (L : Type) where
  ingestor : Ingestor L
  sig : SignatureScheme
  config : Option FederationConfig
  requireSigned : Bool

inductive Label where
  | lxmf (d : Delivery) (commits : Bool)
  | push (now : ℚ) (payload : Val) (channelId : Option String) (commits : Bool)
  | mirror (now : ℚ) (channelId : String) (msgData : Val) (peerHash : String) (commits : Bool)

structure EventState (L : Type) where
  limiter : Option RateLimiter := none
  store : Store
  disk : Disk
  unfounded : List (LiveEvent L) := []

variable {L : Type}

def announce (node : EventNode L) (channelId : String) (x : Announcement) : List (LiveEvent L) :=
  match node.ingestor.live with
  | none => []
  | some live => broadcast live node.ingestor.active channelId .message x.1 (some x.2)

def pushEvents (node : EventNode L) (now : ℚ) (st : Store) (payload : Val)
    (channelId : Option String) : List (LiveEvent L) :=
  match openBatch node.config st payload channelId with
  | .ok (.str _, b, entries) =>
    (batchAnnouncements node.sig b now st entries).flatMap (announce node b.channelId)
  | _ => []

def transact (node : EventNode L) (s : EventState L) : Label → List (LiveEvent L) × Store
  | .lxmf d commits =>
    let r := lxmfIngest node.ingestor s.limiter s.store s.disk d
    (r.events, if commits then committed s.store r.outcome else s.store)
  | .push now payload channelId commits =>
    (pushEvents node now s.store payload channelId,
      if commits then committed s.store
        (handlePushMessages node.sig node.config now s.store payload channelId none
          (none : Option L))
      else s.store)
  | .mirror now channelId msgData peerHash commits =>
    ((mirrorAnnouncement node.sig node.requireSigned now s.store channelId msgData
        peerHash).toList.flatMap (announce node channelId),
      if commits then
        MirrorIngest.ingest node.sig node.requireSigned now s.store channelId msgData peerHash
      else s.store)

def founded (st : Store) (ev : LiveEvent L) : Bool :=
  match getByWireHash st ev.msgHash with
  | .ok (some row) => row.seq = ev.seq
  | _ => false

def step (node : EventNode L) (s : EventState L) (l : Label) : EventState L :=
  let t := transact node s l
  let lost := t.1.filter fun ev => ev.kind = .message && !founded t.2 ev
  match l with
  | .lxmf d _ =>
    let r := lxmfIngest node.ingestor s.limiter s.store s.disk d
    { limiter := r.limiter, store := t.2, disk := r.disk, unfounded := s.unfounded ++ lost }
  | _ => { s with store := t.2, unfounded := s.unfounded ++ lost }

def Unheard (node : EventNode L) (channelId : String) : Prop :=
  ∀ live, node.ingestor.live = some live →
    ∀ x ∈ live.getSubscribers channelId, node.ingestor.active x.1 = false

/-- Nobody listens, or the transaction is committed and nothing in it raises. -/
def Settles (node : EventNode L) (s : EventState L) : Label → Prop
  | .lxmf d commits => Unheard node d.envelope.channelId ∨ commits = true
  | .push now payload channelId commits =>
    ∀ c b entries, openBatch node.config s.store payload channelId = .ok (c, b, entries) →
      Unheard node b.channelId ∨ (commits = true ∧ Unexceptional node.sig b now s.store [] entries)
  | .mirror now channelId msgData peerHash commits =>
    Unheard node channelId ∨ (commits = true ∧
      MirrorStorable node.sig node.requireSigned now s.store channelId msgData peerHash)

variable {d : Delivery} {s : EventState L} {l : Label} {ev : LiveEvent L} {st : Store}

lemma founded_iff : founded st ev = true ↔ Founded st ev.msgHash ev.seq := by
  unfold founded Founded
  split
  next row hr => simp [hr]
  next hn =>
    refine iff_of_false Bool.false_ne_true ?_
    rintro ⟨row,hr,-⟩
    exact hn row hr

variable {node : EventNode L}

lemma Unheard.broadcast {ch : String} (h : Unheard node ch)
    {live : LiveManager L} (hl : node.ingestor.live = some live) (kind : EventKind)
    (hash : Val) (seq : Option ℕ) :
    broadcast live node.ingestor.active ch kind hash seq = [] := by
  unfold LxmfIngestor.broadcast
  rw [List.map_eq_nil_iff,List.filter_eq_nil_iff]
  intro x hx
  rw [h live hl x hx]
  exact Bool.false_ne_true

lemma Unheard.announce {ch : String} (h : Unheard node ch)
    (x : Announcement) : announce node ch x = [] := by
  unfold CommittedEvents.announce
  split
  · rfl
  next live hl => exact h.broadcast hl _ _ _

lemma mem_announce {ch : String} {x : Announcement}
    (h : ev ∈ announce node ch x) : ev.msgHash = x.1 ∧ ev.seq = some x.2 := by
  unfold announce at h
  split at h
  · cases h
  · exact (mem_broadcast h).2

lemma Unheard.lxmf (h : Unheard node d.envelope.channelId)
    (lim : Option RateLimiter) (st : Store) (disk : Disk) :
    (lxmfIngest node.ingestor lim st disk d).events = [] := by
  obtain ⟨path,he⟩ := upload_envelope node.ingestor.storage disk d
  simp only [lxmfIngest,he]
  split
  · unfold liveEvents
    split
    · rfl
    next live hl =>
      split_ifs
      · split
        · exact h.broadcast hl _ _ _
        · rfl
      · exact h.broadcast hl _ _ _
  · rfl

lemma lxmfIngest_founded {ing : Ingestor L} {lim : Option RateLimiter} {disk : Disk}
    (hev : ev ∈ (lxmfIngest ing lim st disk d).events) (hk : ev.kind = .message) :
    Founded (committed st (lxmfIngest ing lim st disk d).outcome) ev.msgHash ev.seq := by
  cases ho : (lxmfIngest ing lim st disk d).outcome with
  | error e =>
    have hr : (ingest ing.prim ing.processor d.moment lim st
      (upload ing.storage disk d).2).2 = .error e := ho
    simp only [lxmfIngest,hr] at hev
    cases hev
  | ok r =>
    obtain ⟨message,st'⟩ := r
    have hd : (ingest ing.prim ing.processor d.moment lim st
      (upload ing.storage disk d).2).2 = .ok (message, st') := ho
    simp only [lxmfIngest,hd,liveEvents] at hev
    split at hev
    · cases hev
    split_ifs at hev with ht
    · -- A change is announced as an event of the other kind.
      split at hev
      · rw [(mem_broadcast hev).1] at hk
        cases hk
      · cases hev
    · obtain ⟨-,hh,hs⟩ := mem_broadcast hev
      obtain ⟨-,hro,-⟩ := ingest_stored (fun h => ht (mem_updateTypes.mpr h)) hd
      rw [hh,hs]
      exact ⟨message,congrArg Except.ok hro,rfl⟩

lemma pushEvents_founded {now : ℚ} {p : Val} {ch : Option String} {commits : Bool}
    (h : Settles node s (.push now p ch commits)) (hev : ev ∈ pushEvents node now s.store p ch) :
    Founded (transact node s (.push now p ch commits)).2 ev.msgHash ev.seq := by
  unfold pushEvents at hev
  split at hev
  next text b entries ho =>
    obtain ⟨x,hx,hev⟩ := List.mem_flatMap.mp hev
    rcases h _ _ _ ho with hu | ⟨hc,he⟩
    · rw [hu.announce] at hev
      cases hev
    obtain ⟨⟨as,st'⟩,hp⟩ := (pushEntries_succeeds_iff (.refl s.store b)).mpr he
    have hd : (transact node s (.push now p ch commits)).2 = st' := by
      simp only [transact,if_pos hc,handlePushMessages,ho,hp,ok_bind]
      rfl
    obtain ⟨hh,hs⟩ := mem_announce hev
    rw [hd,hh,hs]
    exact batchAnnouncements_founded hp hx
  · cases hev

lemma transact_founded (h : Settles node s l)
    (hev : ev ∈ (transact node s l).1) (hk : ev.kind = .message) :
    Founded (transact node s l).2 ev.msgHash ev.seq := by
  cases l with
  | lxmf d commits =>
    rcases h with hu | hc
    · rw [transact,hu.lxmf] at hev
      cases hev
    · rw [transact,if_pos hc]
      exact lxmfIngest_founded hev hk
  | push now payload channelId commits => exact pushEvents_founded h hev
  | mirror now channelId msgData peerHash commits =>
    obtain ⟨x,hx,hev⟩ := List.mem_flatMap.mp hev
    rcases h with hu | ⟨hc,hs⟩
    · rw [hu.announce] at hev
      cases hev
    obtain ⟨hh,hse⟩ := mem_announce hev
    rw [transact,if_pos hc,hh,hse]
    exact mirrorAnnouncement_founded (Option.mem_toList.mp hx) hs

lemma step_unfounded : (step node s l).unfounded = s.unfounded ++
      (transact node s l).1.filter fun ev =>
        ev.kind = .message && !founded (transact node s l).2 ev := by
  cases l <;> rfl

lemma step_founded (hs : s.unfounded = []) (h : Settles node s l) :
    (step node s l).unfounded = [] := by
  rw [step_unfounded,hs,List.nil_append,List.filter_eq_nil_iff]
  intro ev hev hl
  obtain ⟨hk,hn⟩ := Bool.and_eq_true_iff.mp hl
  have hf := founded_iff.mpr (transact_founded h hev (of_decide_eq_true hk))
  rw [hf] at hn
  cases hn

/-- In a run in which every announcing transaction is settled, the row of every message event is
there, with the announced number, when its transaction has ended. -/
theorem events_founded (node : EventNode L) (st : Store) (disk : Disk) {ls : List Label}
    (h : Guarded (step node) (Settles node) { store := st, disk := disk } ls) :
    (run (step node) { store := st, disk := disk } ls).unfounded = [] :=
  Guarded.invariant (I := fun s => s.unfounded = []) (fun _ _ hs hl => step_founded hs hl) rfl h

/-! A subscriber of the lobby, a local sender and a trusted peer. -/

def lobbyNode : EventNode Unit where
  ingestor := sampleIngestor
  sig := FederatedAcceptance.sampleScheme
  config := some {}
  requireSigned := true

def peeredStore : Store :=
  { sampleThreads with peers := .singleton { identityHash := "peer", federationTrusted := true } }

def pushOf (entries : List Val) : Label :=
  .push 1000 (pushPayload "lobby" "peer" (FederatedAcceptance.sampleEntry "h1" "hi" :: entries))
    none true

theorem helloAndPush_founded :
    (run (step lobbyNode) { store := peeredStore, disk := { tree := .empty } }
        [pushOf [], .lxmf helloText true]).store.messages.rows.length = 3 ∧
      (run (step lobbyNode) { store := peeredStore, disk := { tree := .empty } }
        [pushOf [], .lxmf helloText true]).unfounded = [] := by
  refine ⟨by decide +kernel,events_founded lobbyNode peeredStore { tree := .empty }
    ⟨fun c b entries ho => .inr ⟨rfl,?_⟩,.inr rfl,trivial⟩⟩
  cases show Except.ok (Val.str "lobby", batchFor (some {}) peeredStore "lobby" (.str "peer"),
    [FederatedAcceptance.sampleEntry "h1" "hi"]) = .ok (c, b, entries) from ho
  refine (pushEntries_succeeds_iff (.refl peeredStore _)).mp (toOption_isSome.mp ?_)
  decide +kernel

theorem hello_and_push_not_founded :
    (run (step lobbyNode) { store := peeredStore, disk := { tree := .empty } }
        [.lxmf helloText false]).unfounded.length = 1 ∧
      (run (step lobbyNode) { store := peeredStore, disk := { tree := .empty } }
        [pushOf [.int 3]]).unfounded.length = 1 := by
  decide +kernel

end Hokora.CommittedEvents
