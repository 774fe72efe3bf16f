import Hokora.Permissions
import Hokora.Pusher

/-!
# Read handlers

History, threads, pins and search with their gates. The search engine and AES-GCM are parameters.
-/
namespace Hokora.ReadHandlers
open BigEndian Constants Database KeyedTable List Permissions PushReceive Pusher PyValue
  Repositories SealedChannels
open MessageRepo (getByHash seqLe)

structure ProfileLimits where
  maxSyncLimit : ℤ
  defaultSyncLimit : ℤ
  searchLimit : ℤ
  livePush : Bool
  historyDirection : Option String := none

def fullLimits : ProfileLimits := ⟨100,50,100,true,none⟩

def cdspProfileLimits (profile : ℤ) : ProfileLimits :=
  if profile = cdspProfilePrioritized then ⟨20,10,10,true,some "backward"⟩
  else if profile = cdspProfileMinimal then ⟨5,3,0,false,none⟩
  else if profile = cdspProfileBatched then ⟨50,25,20,true,none⟩
  else fullLimits

structure Session where
  sessionId : String
  identityHash : Option String
  syncProfile : ℤ := cdspProfileFull
  state : String := "init"
  lastActivity : ℚ := 0

def getActiveSession (sessions : List Session) (identityHash : Option String) : Option Session :=
  ((sessions.filter fun s => s.identityHash = identityHash && s.state = "active").insertionSort
    fun a b => b.lastActivity ≤ a.lastActivity).head?

structure ReadPrimitives where
  aesGcmDecrypt : Bytes → Bytes → Bytes → Bytes → Option Bytes
  decodeUtf8 : Bytes → Option String

def noDecryption : ReadPrimitives := ⟨fun _ _ _ _ => none,fun _ => none⟩

structure Keyring where
  current : SealedChannelManager := {}
  previousKeys : List KeyInfo := []

structure SearchEngine where
  found : String → Message → Bool
  rank : String → Message → ℚ

structure SyncContext where
  channels : Table Channel.id := .empty
  permissionResolver : Option PermissionResolver := none
  sealedManager : Option Keyring := none
  hasCdspManager : Bool := true
  sessions : List Session := []
  ftsManager : Option SearchEngine := none
  ilike : String → String → Bool := fun _ _ => false

def getSessionProfile (ctx : SyncContext) (requesterHash : Option String) : ProfileLimits :=
  if ctx.hasCdspManager = false then fullLimits
  else match getActiveSession ctx.sessions requesterHash with
  | none => fullLimits
  | some s => cdspProfileLimits s.syncProfile

lemma maxSyncLimit_pos (ctx : SyncContext) (rq : Option String) :
    1 ≤ (getSessionProfile ctx rq).maxSyncLimit := by
  unfold getSessionProfile
  split_ifs
  · decide
  split
  · decide
  · unfold cdspProfileLimits
    split_ifs <;> decide

def present (hash : Option String) : Option String := hash.filter fun h => h ≠ ""

@[simp] lemma present_eq_some {hash : Option String} {h : String} :
    present hash = some h ↔ hash = some h ∧ h ≠ "" := by
  simp [present,Option.filter_eq_some_iff]

def permissionDenied (text : String) : PyError := .hokora .permissionDenied text

def checkChannelRead (ctx : SyncContext) (st : Store) (chId : String)
    (requesterHash : Option String) : Py Channel :=
  match ctx.channels.get? chId with
  | none => .error (syncError ("Channel " ++ chId ++ " not found"))
  | some channel => do
      match present requesterHash with
      | some requester => Ban.checkNotBlocked st requester
      | none => pure ()
      if channel.accessMode = .privateAccess then
        match present requesterHash with
        | none => .error (permissionDenied "Authentication required for private channel")
        | some requester =>
          if ctx.permissionResolver.any fun r => r.nodeOwnerHash = requester then pure channel
          else if (RoleRepo.getIdentityRoles st requester (some chId) true).isEmpty then
            .error (permissionDenied "Not a member of this private channel")
          else pure channel
      else pure channel

def Keyring.decrypt (prim : ReadPrimitives) (ring : Keyring) (channelId : String)
    (nonce ciphertext : Bytes) (epoch : Option ℤ) : Option Bytes :=
  match ring.current.keys.get? channelId with
  | none => none
  | some info =>
    if epoch = none ∨ epoch = some info.epoch then
      prim.aesGcmDecrypt info.key nonce ciphertext (utf8 channelId)
    else
      match ring.previousKeys.find? fun k => k.channelId = channelId && some k.epoch = epoch with
      | none => none
      | some old => prim.aesGcmDecrypt old.key nonce ciphertext (utf8 channelId)

def ciphertext (m : Message) : Option (Bytes × Bytes) :=
  match m.encryptedBody, m.encryptionNonce with
  | some (c :: cs), some (n :: ns) => some (c :: cs, n :: ns)
  | _, _ => none

def plaintext (prim : ReadPrimitives) (ring : Keyring) (m : Message) : Option String :=
  (ciphertext m).bind fun x =>
    (ring.decrypt prim m.channelId x.2 x.1 m.encryptionEpoch).bind prim.decodeUtf8

def unavailable : String := "[encrypted - key unavailable]"

abbrev Entry := List (String × Val)

def encodeMessageForWire (prim : ReadPrimitives) (sealedManager : Option Keyring)
    (supportsSealedAtRest : Bool) (m : Message) : Entry :=
  let d := encodeMessageForSync m
  match sealedManager, ciphertext m with
  | some ring, some x =>
    if supportsSealedAtRest then
      setItem (setItem (setItem (setItem d "body" (.str "")) "encrypted_body" (.bytes x.1))
        "encryption_nonce" (.bytes x.2)) "encryption_epoch"
        ((m.encryptionEpoch.map Val.int).getD .none)
    else setItem d "body" (.str ((plaintext prim ring m).getD unavailable))
  | _, _ => d

def populateSenderPubkey (d : Entry) (key : Option Bytes) : Entry :=
  match key with
  | some (b :: bs) => setItem d "sender_public_key" (.bytes (b :: bs))
  | _ => d

def addThreadCount (st : Store) (m : Message) (d : Entry) : Entry :=
  match ((present (some m.msgHash)).bind st.threads.get?).filter fun t => 0 < t.replyCount with
  | some t => setItem (setItem d "has_thread" (.bool true)) "reply_count" (.int t.replyCount)
  | none => d

def senderKey (st : Store) (m : Message) : Option Bytes :=
  ((present m.senderHash).bind (IdentityRepo.getByHash st)).bind Identity.publicKey

def encodeMessageWithKeys (prim : ReadPrimitives) (st : Store) (sealedManager : Option Keyring)
    (supportsSealedAtRest : Bool) (m : Message) : Entry :=
  populateSenderPubkey (addThreadCount st m
    (encodeMessageForWire prim sealedManager supportsSealedAtRest m)) (senderKey st m)

def encodeMessagesWithKeys (prim : ReadPrimitives) (st : Store) (sealedManager : Option Keyring)
    (supportsSealedAtRest : Bool) (messages : List Message) : List Entry :=
  messages.map (encodeMessageWithKeys prim st sealedManager supportsSealedAtRest)

def sqlLimit (limit : ℤ) (rows : List Message) : List Message :=
  if limit < 0 then rows else rows.take limit.toNat

def getHistory (st : Store) (channelId : String) (sinceSeq limit : ℤ) (direction : String)
    (beforeSeq : Option ℤ := none) : List Message :=
  let rows := st.channelMessages channelId
  if direction = "forward" then
    sqlLimit limit ((rows.filter fun m =>
      m.seq.any fun q : ℕ => sinceSeq < q && beforeSeq.all fun b => (q : ℤ) < b).insertionSort
        seqLe)
  else
    let newest := sqlLimit limit ((rows.filter fun m =>
      m.seq.any fun q : ℕ => (q : ℤ) < beforeSeq.getD sinceSeq).insertionSort fun a b => seqLe b a)
    if direction = "backward" then newest.reverse else newest

def pinnedLater (a b : Message) : Bool :=
  match a.pinnedAt, b.pinnedAt with
  | _, none => true
  | none, some _ => false
  | some x, some y => y ≤ x

def getPinned (st : Store) (channelId : String) : List Message :=
  ((st.channelMessages channelId).filter Message.pinned).insertionSort
    fun a b => pinnedLater a b = true

def threadOrder (a b : Message) : Bool :=
  match a.threadSeq, b.threadSeq with
  | none, some _ => true
  | some _, none => false
  | none, none => a.seq.getD 0 ≤ b.seq.getD 0
  | some x, some y => x < y || (x = y && a.seq.getD 0 ≤ b.seq.getD 0)

def getThreadMessages (st : Store) (rootHash : String) (limit : ℤ) : List Message :=
  sqlLimit limit ((st.messages.rows.filter fun m =>
    m.msgHash = rootHash || m.replyTo = some rootHash).insertionSort
      fun a b => threadOrder a b = true)

structure HistoryRequest where
  channelId : Option String := none
  sinceSeq : ℤ := 0
  limit : Option ℤ := none
  direction : Option String := none
  supportsSealedAtRest : Bool := false

structure HistoryResponse where
  channelId : String
  messages : List Entry
  hasMore : Bool

def requireChannelId (requested channelId : Option String) (text : String) : Py String :=
  match present (requested.or channelId) with
  | some chId => .ok chId
  | none => .error (syncError text)

variable {channel : Channel} {ring : Keyring} {m : Message} {requesterHash : Option String}
  {prim : ReadPrimitives} {st : Store} {chId k : String} {text : String} {limit : ℤ}
  {rows : List Message}

lemma requireChannelId_ok {requested ch : Option String}
    (hok : requireChannelId requested ch text = .ok chId) :
    present (requested.or ch) = some chId := by
  unfold requireChannelId at hok
  split at hok
  next hid =>
    cases hok
    exact hid
  · cases hok

def historyDirection (profile : ProfileLimits) (req : HistoryRequest) : String :=
  match req.direction with
  | some d => d
  | none => if profile.historyDirection = some "backward" then "backward" else "forward"

def handleHistory (prim : ReadPrimitives) (ctx : SyncContext) (st : Store)
    (req : HistoryRequest) (channelId requesterHash : Option String) : Py HistoryResponse := do
  let chId ← requireChannelId req.channelId channelId "No channel_id provided for sync_history"
  let _ ← checkChannelRead ctx st chId requesterHash
  let profile := getSessionProfile ctx requesterHash
  let limit := min (req.limit.getD profile.defaultSyncLimit) profile.maxSyncLimit
  let rawMessages := getHistory st chId req.sinceSeq limit (historyDirection profile req)
  pure {
    channelId := chId
    messages := encodeMessagesWithKeys prim st ctx.sealedManager req.supportsSealedAtRest
      (rawMessages.filter fun m => m.type ≠ msgThreadReply)
    hasMore := (rawMessages.length : ℤ) = limit }

def handleGetPins (prim : ReadPrimitives) (ctx : SyncContext) (st : Store)
    (requested channelId requesterHash : Option String) : Py (List Entry) := do
  let chId ← requireChannelId requested channelId "No channel_id for get_pins"
  let _ ← checkChannelRead ctx st chId requesterHash
  pure (encodeMessagesWithKeys prim st ctx.sealedManager false (getPinned st chId))

def handleThread (prim : ReadPrimitives) (ctx : SyncContext) (st : Store)
    (rootHash : Option String) (limit : Option ℤ) (requesterHash : Option String) :
    Py (List Entry) :=
  match present rootHash with
  | none => .error (syncError "root_hash required for sync_thread")
  | some rootHash =>
    match getByHash st rootHash with
    | none => .error (syncError "Thread root message not found")
    | some root => do
        if root.channelId ≠ "" then
          let _ ← checkChannelRead ctx st root.channelId requesterHash
        let profile := getSessionProfile ctx requesterHash
        let limit := min (limit.getD profile.defaultSyncLimit) profile.maxSyncLimit
        pure (encodeMessagesWithKeys prim st ctx.sealedManager false
          (getThreadMessages st rootHash limit))

structure SearchRequest where
  channelId : Option String := none
  query : String := ""
  limit : Option ℤ := none

structure SearchResult where
  entry : Entry
  contextBefore : List Entry
  contextAfter : List Entry

def SearchResult.entries (x : SearchResult) : List Entry :=
  x.entry :: (x.contextBefore ++ x.contextAfter)

def getSearchContext (st : Store) (channelId : String) (entry : Entry) (m : Message) :
    SearchResult :=
  match m.seq with
  | none => ⟨entry,[],[]⟩
  | some q =>
    { entry := entry
      contextBefore := (getHistory st channelId 0 2 "backward" (some q)).map encodeMessageForSync
      contextAfter := (getHistory st channelId q 2 "forward").map encodeMessageForSync }

def ftsEntry (rank : ℚ) (m : Message) : Entry :=
  [("msg_hash", .str m.msgHash), ("channel_id", .str m.channelId), ("body", Val.ofStr? m.body),
    ("rank", .float (.fin rank))]

def searchResults (ctx : SyncContext) (st : Store) (chId query : String) (limit : ℤ) :
    List SearchResult :=
  match ctx.ftsManager with
  | some fts =>
    (sqlLimit limit (((st.channelMessages chId).filter (fts.found query)).insertionSort
      fun a b => fts.rank query a ≤ fts.rank query b)).map fun m =>
        getSearchContext st chId (ftsEntry (fts.rank query m) m) m
  | none =>
    (sqlLimit limit (((st.channelMessages chId).filter fun m =>
        (m.body.any fun b => ctx.ilike query b) && !m.deleted).insertionSort
      fun a b => seqLe b a)).map fun m =>
        getSearchContext st chId (encodeMessageForSync m) m

def handleSearch (ctx : SyncContext) (st : Store) (req : SearchRequest)
    (channelId requesterHash : Option String) : Py (List SearchResult) :=
  let profile := getSessionProfile ctx requesterHash
  -- Deferred to the session's queue.
  if profile.searchLimit = 0 then .ok []
  else
    match present (req.channelId.or channelId), present (some req.query) with
    | some chId, some query => do
        let channel ← checkChannelRead ctx st chId requesterHash
        if channel.sealed then .error (syncError "Search not available for sealed channels")
        else pure (searchResults ctx st chId (String.ofList (query.toList.take 500))
          (min (req.limit.getD 20) profile.searchLimit))
    | _, _ => .error (syncError "channel_id and query required for search")

def overlaid : List String :=
  ["body", "encrypted_body", "encryption_nonce", "encryption_epoch", "has_thread", "reply_count",
    "sender_public_key"]

lemma lookup_encodeMessageForWire (h : k ∉ overlaid) {sm : Option Keyring} {supports : Bool} :
    (encodeMessageForWire prim sm supports m).lookup k = (encodeMessageForSync m).lookup k := by
  simp only [overlaid,mem_cons,not_or] at h
  unfold encodeMessageForWire
  split
  · split_ifs
    · rw [lookup_setItem_ne h.2.2.2.1,lookup_setItem_ne h.2.2.1,lookup_setItem_ne h.2.1,
        lookup_setItem_ne h.1]
    · exact lookup_setItem_ne h.1
  · rfl

lemma lookup_addThreadCount (ht : k ≠ "has_thread") (hc : k ≠ "reply_count") {d : Entry} :
    (addThreadCount st m d).lookup k = d.lookup k := by
  unfold addThreadCount
  split
  · rw [lookup_setItem_ne hc,lookup_setItem_ne ht]
  · rfl

lemma lookup_populateSenderPubkey (h : k ≠ "sender_public_key") {d : Entry} {key : Option Bytes} :
    (populateSenderPubkey d key).lookup k = d.lookup k := by
  unfold populateSenderPubkey
  split
  · exact lookup_setItem_ne h
  · rfl

lemma lookup_encodeMessageWithKeys (h : k ∉ overlaid) (prim : ReadPrimitives) (st : Store)
    (sm : Option Keyring) (supports : Bool) (m : Message) :
    (encodeMessageWithKeys prim st sm supports m).lookup k = (encodeMessageForSync m).lookup k := by
  rw [encodeMessageWithKeys,lookup_populateSenderPubkey,lookup_addThreadCount,
    lookup_encodeMessageForWire h]
  all_goals
    rintro rfl
    exact h (by decide)

lemma encodeMessageForWire_body (h : plaintext prim ring m = some text) :
    (encodeMessageForWire prim (some ring) false m).lookup "body" = some (.str text) := by
  obtain ⟨x,hx,-⟩ := Option.bind_eq_some_iff.mp h
  simp only [encodeMessageForWire,hx,h,Bool.false_eq_true,if_false]
  exact lookup_setItem

lemma encodeMessageWithKeys_body (h : plaintext prim ring m = some text) :
    (encodeMessageWithKeys prim st (some ring) false m).lookup "body" = some (.str text) := by
  rw [encodeMessageWithKeys,lookup_populateSenderPubkey (by decide),
    lookup_addThreadCount (by decide) (by decide),encodeMessageForWire_body h]

lemma sqlLimit_subset : sqlLimit limit rows ⊆ rows := by
  unfold sqlLimit
  split_ifs
  · exact List.Subset.refl rows
  · exact take_subset _ rows

lemma sortedPage_subset {p : Message → Bool} {r : Message → Message → Prop} [DecidableRel r] :
    sqlLimit limit ((rows.filter p).insertionSort r) ⊆ rows := by
  intro m hm
  have hme := sqlLimit_subset hm
  rw [mem_insertionSort] at hme
  exact (mem_filter.mp hme).1

lemma getHistory_subset {ch : String} {sinceSeq : ℤ} {dir : String} {beforeSeq : Option ℤ} :
    getHistory st ch sinceSeq limit dir beforeSeq ⊆ st.channelMessages ch := by
  unfold getHistory
  split_ifs
  · exact sortedPage_subset
  · intro m hm
    exact sortedPage_subset (mem_reverse.mp hm)
  · exact sortedPage_subset

section Handlers
variable {prim : ReadPrimitives} {ctx : SyncContext} {st : Store}
  {ch requesterHash : Option String}

lemma handleHistory_ok {req : HistoryRequest} {resp : HistoryResponse}
    (h : handleHistory prim ctx st req ch requesterHash = .ok resp) :
    ∃ chId c ms, checkChannelRead ctx st chId requesterHash = .ok c ∧ ms ⊆ st.channelMessages chId ∧
      resp.messages =
        encodeMessagesWithKeys prim st ctx.sealedManager req.supportsSealedAtRest ms := by
  obtain ⟨chId,-,h⟩ := bind_ok h
  obtain ⟨c,hr,h⟩ := bind_ok h
  cases h
  refine ⟨chId,c,_,hr,fun m hm => ?_,rfl⟩
  exact getHistory_subset (mem_filter.mp hm).1

variable {e : Entry} {es : List Entry} {results : List SearchResult} {m : Message}
  {req : SearchRequest} {x : SearchResult}

lemma handleGetPins_ok {requested : Option String}
    (h : handleGetPins prim ctx st requested ch requesterHash = .ok es) :
    ∃ chId c ms, checkChannelRead ctx st chId requesterHash = .ok c ∧ ms ⊆ st.channelMessages chId ∧
      es = encodeMessagesWithKeys prim st ctx.sealedManager false ms := by
  obtain ⟨chId,-,h⟩ := bind_ok h
  obtain ⟨c,hr,h⟩ := bind_ok h
  cases h
  refine ⟨chId,c,getPinned st chId,hr,fun m hm => ?_,rfl⟩
  rw [getPinned,mem_insertionSort] at hm
  exact (mem_filter.mp hm).1

lemma handleThread_ok {rootHash : Option String} {limit : Option ℤ}
    (h : handleThread prim ctx st rootHash limit requesterHash = .ok es) :
    ∃ hash root, present rootHash = some hash ∧ getByHash st hash = some root ∧
      (root.channelId = "" ∨ ∃ c, checkChannelRead ctx st root.channelId requesterHash = .ok c) ∧
      es = encodeMessagesWithKeys prim st ctx.sealedManager false (getThreadMessages st hash
        (min (limit.getD (getSessionProfile ctx requesterHash).defaultSyncLimit)
          (getSessionProfile ctx requesterHash).maxSyncLimit)) := by
  unfold handleThread at h
  split at h
  · cases h
  next hash hh =>
    split at h
    · cases h
    next root hr =>
      split_ifs at h with hn
      · obtain ⟨c,hre,h⟩ := bind_ok h
        cases h
        exact ⟨hash,root,hh,hr,.inr ⟨c,hre⟩,rfl⟩
      · cases h
        exact ⟨hash,root,hh,hr,.inl (not_not.mp hn),rfl⟩

/-- Search encodes the columns of rows as they are. -/
def Plain (m : Message) (e : Entry) : Prop :=
  e = encodeMessageForSync m ∨ ∃ rank, e = ftsEntry rank m

lemma getSearchContext_plain {entry : Entry} (hm : m ∈ st.channelMessages chId)
    (he : Plain m entry) (h : e ∈ (getSearchContext st chId entry m).entries) :
    ∃ m' ∈ st.channelMessages chId, Plain m' e := by
  unfold getSearchContext SearchResult.entries at h
  split at h
  · rw [append_nil,mem_singleton] at h
    exact ⟨m,hm,h ▸ he⟩
  rcases mem_cons.mp h with rfl | h
  · exact ⟨m,hm,he⟩
  rcases mem_append.mp h with h | h
  · obtain ⟨m',hm',rfl⟩ := mem_map.mp h
    exact ⟨m',getHistory_subset hm',.inl rfl⟩
  · obtain ⟨m',hm',rfl⟩ := mem_map.mp h
    exact ⟨m',getHistory_subset hm',.inl rfl⟩

lemma handleSearch_gated (h : handleSearch ctx st req ch requesterHash = .ok results)
    (hx : x ∈ results) (he : e ∈ x.entries) :
    ∃ chId c, checkChannelRead ctx st chId requesterHash = .ok c ∧
      ∃ m ∈ st.channelMessages chId, Plain m e := by
  unfold handleSearch at h
  simp only at h
  split_ifs at h
  · cases h
    cases hx
  split at h
  next chId query _ _ =>
    obtain ⟨channel,hr,h⟩ := bind_ok h
    split_ifs at h
    cases h
    refine ⟨chId,channel,hr,?_⟩
    unfold searchResults at hx
    split at hx
    · obtain ⟨m,hm,rfl⟩ := mem_map.mp hx
      exact getSearchContext_plain (sortedPage_subset hm) (.inr ⟨_,rfl⟩) he
    · obtain ⟨m,hm,rfl⟩ := mem_map.mp hx
      exact getSearchContext_plain (sortedPage_subset hm) (.inl rfl) he
  · cases h

lemma handleSearch_ok (h : handleSearch ctx st req ch requesterHash = .ok results)
    (hx : x ∈ results) (he : e ∈ x.entries) : ∃ chId, ∃ m ∈ st.channelMessages chId, Plain m e := by
  obtain ⟨chId,-,-,hm⟩ := handleSearch_gated h hx he
  exact ⟨chId,hm⟩

lemma mem_getThreadMessages {hash : String} {limit : ℤ} (h : m ∈ getThreadMessages st hash limit) :
    m ∈ st.messages.rows ∧ (m.msgHash = hash ∨ m.replyTo = some hash) := by
  have hm := sqlLimit_subset h
  rw [mem_insertionSort,mem_filter,Bool.or_eq_true,decide_eq_true_eq, decide_eq_true_eq] at hm
  exact hm

lemma handleThread_whole {hash : String} {root : Message} (hn : hash ≠ "")
    (hr : getByHash st hash = some root) (hg : root.channelId = "" ∨
      ∃ c, checkChannelRead ctx st root.channelId requesterHash = .ok c)
    (hm : m ∈ st.messages.rows) (ht : m.msgHash = hash ∨ m.replyTo = some hash) :
    ∃ es, handleThread prim ctx st (some hash) (some (-1)) requesterHash = .ok es ∧
      encodeMessageWithKeys prim st ctx.sealedManager false m ∈ es := by
  have hma := maxSyncLimit_pos ctx requesterHash
  have hl : min (-1) (getSessionProfile ctx requesterHash).maxSyncLimit = -1 := by omega
  have hp : present (some hash) = some hash := present_eq_some.mpr ⟨rfl,hn⟩
  refine ⟨encodeMessagesWithKeys prim st ctx.sealedManager false (getThreadMessages st hash (-1)),
    ?_,mem_map_of_mem ?_⟩
  · rw [handleThread,hp]
    simp only [hr,Option.getD_some,hl]
    split_ifs with hne
    · obtain he | ⟨c,hc⟩ := hg
      · exact absurd he hne
      · rw [hc]
        rfl
    · rfl
  · rw [getThreadMessages,sqlLimit,if_pos (by decide),mem_insertionSort,mem_filter,
      Bool.or_eq_true,decide_eq_true_eq,decide_eq_true_eq]
    exact ⟨hm,ht⟩

end Handlers

lemma checkChannelRead_ok {ctx : SyncContext} :
    checkChannelRead ctx st chId requesterHash = .ok channel ↔
      ctx.channels.get? chId = some channel ∧
        (∀ rq, present requesterHash = some rq → Ban.isBlocked st rq = false) ∧
        (channel.accessMode = .privateAccess → ∃ rq, present requesterHash = some rq ∧
          ((∃ r, ctx.permissionResolver = some r ∧ r.nodeOwnerHash = rq) ∨
            RoleRepo.getIdentityRoles st rq (some chId) true ≠ [])) := by
  unfold checkChannelRead
  cases hc : ctx.channels.get? chId with
  | none => simp
  | some c =>
    simp only [Option.some.injEq]
    cases hr : present requesterHash with
    | none =>
      split_ifs with hp
      · constructor
        · intro h
          cases h
        rintro ⟨rfl,-,hm⟩
        obtain ⟨_,hx,-⟩ := hm hp
        cases hx
      constructor
      · intro h
        cases h
        exact ⟨rfl,fun _ hx => (nomatch hx),fun hp' => absurd hp' hp⟩
      · rintro ⟨rfl,-,-⟩
        rfl
    | some rq =>
      dsimp only
      constructor
      · intro h
        obtain ⟨_,hb,h⟩ := bind_ok h
        have hf : ∀ x, some rq = some x → Ban.isBlocked st x = false := by
          rintro x ⟨⟩
          exact Ban.checkNotBlocked_ok.mp hb
        split_ifs at h with hp ho hro <;> cases h
        · obtain ⟨r,hr,hh⟩ := (Option.any_eq_true _ _).mp ho
          exact ⟨rfl,hf,fun _ => ⟨rq,rfl,.inl ⟨r,hr,of_decide_eq_true hh⟩⟩⟩
        · exact ⟨rfl,hf,fun _ => ⟨rq,rfl,.inr (by simpa using hro)⟩⟩
        · exact ⟨rfl,hf,fun hp' => absurd hp' hp⟩
      · rintro ⟨rfl,hb,hm⟩
        refine bind_eq_ok.mpr ⟨(),Ban.checkNotBlocked_ok.mpr (hb rq rfl),?_⟩
        split_ifs with hp ho hro
        · rfl
        · obtain ⟨_,⟨⟩,⟨r,hr,hh⟩ | hs⟩ := hm hp
          · exact absurd (by simp [hr,hh]) ho
          · exact absurd (by simpa using hro) hs
        · rfl
        · rfl

lemma checkChannelRead_cached {ctx : SyncContext}
    (h : checkChannelRead ctx st chId requesterHash = .ok channel) : chId ≠ "" := by
  have hc := (checkChannelRead_ok.mp h).1
  rw [← Table.get?_key hc]
  exact channel.id_ne

end Hokora.ReadHandlers
