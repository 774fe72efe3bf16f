import Hokora.MediaAccess
import Mathlib.Data.Finset.Card

/-!
# Node metadata and member lists

The answers to `sync_node_meta` and `get_member_list`, and the sizes of the pages that history,
threads and member lists return. `handle_node_meta` looks at the channels that the node holds in
memory, the write path at the row of the channel: the two may differ. Names, keys and categories of
channels are one value of a type left open.
-/
namespace Hokora.MetadataHandlers
open Constants Database List MediaAccess Permissions PyValue RateLimit ReadHandlers Repositories
open MessageProcessor hiding permissionDenied

structure ChannelMeta (D : Type) where
  id : String
  described : D
  accessMode : AccessMode
  sealed : Bool
  canWrite : Bool
  latestSeq : ℕ
  memberCount : ℕ
  lastActivity : Option FloatVal

structure NodeMeta (D : Type) where
  channels : List (ChannelMeta D)
  roles : List Role
  metadataPartial : Bool

structure MetadataContext (D : Type) where
  sync : SyncContext
  showPrivateChannels : Bool := true
  describe : Channel → D
  displayName : String → Option String := fun _ => none

variable {D : Type}

def latest (xs : List FloatVal) : Option FloatVal :=
  xs.foldl (fun acc x =>
    if x = .nan then acc
    else match acc with
    | none => some x
    | some y => if y.lt x then some x else some y) none

def memberCount (st : Store) (chId : String) : ℕ :=
  ((st.channelMessages chId).filterMap Message.senderHash).dedup.length

def lastActivity (st : Store) (chId : String) : Option FloatVal :=
  latest ((st.channelMessages chId).map Message.timestamp)

def listed (ctx : MetadataContext D) (st : Store) (requesterHash : Option String)
    (channel : Channel) : Bool :=
  match present requesterHash with
  | some requester =>
    ctx.sync.permissionResolver.any (fun r => r.nodeOwnerHash = requester) ||
      ctx.showPrivateChannels || channel.accessMode ≠ .privateAccess ||
      st.assignments.any fun a => a.identityHash = requester && a.channelId = some channel.id
  | none => ctx.showPrivateChannels || channel.accessMode ≠ .privateAccess

def canWrite (ctx : MetadataContext D) (st : Store) (requesterHash : Option String)
    (channel : Channel) : Bool :=
  match present requesterHash, ctx.sync.permissionResolver with
  | some requester, some resolver =>
    Perms.has (getEffectivePermissions resolver st requester channel) permSendMessages
  | some _, none => true
  | none, _ => channel.accessMode ≠ .privateAccess && channel.accessMode ≠ .writeRestricted

def channelMeta (ctx : MetadataContext D) (st : Store) (requesterHash : Option String)
    (channel : Channel) : ChannelMeta D where
  id := channel.id
  described := ctx.describe channel
  accessMode := channel.accessMode
  sealed := channel.sealed
  canWrite := canWrite ctx st requesterHash channel
  latestSeq := channel.latestSeq
  memberCount := memberCount st channel.id
  lastActivity := lastActivity st channel.id

def handleNodeMeta (ctx : MetadataContext D) (st : Store) (requesterHash : Option String) :
    NodeMeta D :=
  let included := (getSessionSwitches ctx.sync requesterHash).includeMetadata
  { channels := (ctx.sync.channels.rows.filter (listed ctx st requesterHash)).map
      (channelMeta ctx st requesterHash)
    roles := if included then st.roles.rows else []
    metadataPartial := !included }

/-! The flag is the permission bit alone. Who sends a text to a private or sealed channel has to
pass the membership gate as well, which the node owner and the holders of node-wide roles may
fail. -/

/-- What the membership gate asks for. -/
def Admitted (mp : Processor) (st : Store) (sender : String) (channel : Channel) : Prop :=
  (channel.accessMode ≠ .privateAccess ∧ channel.sealed = false) ∨
    some sender = mp.nodeIdentityHash ∨
      RoleRepo.getIdentityRoles st sender (some channel.id) true ≠ []

section CanWrite
variable {ctx : MetadataContext D} {mp : Processor} {lim : Option RateLimiter} {st : Store}
  {requester : String} {channel row : Channel} {env : MessageEnvelope} {now : ℚ}

lemma membershipGate_iff_admitted :
    membershipGate mp st requester channel = .ok () ↔ Admitted mp st requester channel := by
  by_cases hp : channel.accessMode = .privateAccess ∨ channel.sealed = true
  · have hc : ¬(channel.accessMode ≠ .privateAccess ∧ channel.sealed = false) := by
      rintro ⟨hm,hs⟩
      simp [hm,hs] at hp
    rw [membershipGate_ok hp,Admitted,or_iff_right hc]
    exact or_congr_right ⟨fun ⟨_,hr⟩ => ne_nil_of_mem hr,exists_mem_of_ne_nil _⟩
  · rw [not_or,Bool.not_eq_true] at hp
    exact iff_of_true (by simp [membershipGate,hp]) (.inl hp)

lemma checkPermissions_text (hf : Ban.isBlocked st requester = false)
    (hra : (rateGate lim requester channel now).2 = .ok ()) (hse : env.senderHash = requester)
    (ht : env.type = msgText) {rv : PermissionResolver}
    (hr : mp.permissionResolver = some rv) :
    (∃ env', (checkPermissions mp lim st env channel now).2 = .ok env') ↔
      Admitted mp st requester channel ∧
        (getEffectivePermissions rv st requester channel).has permSendMessages = true := by
  have hte : ∀ perms, typeGate st env perms = .ok () ↔ perms.has permSendMessages = true := by
    intro perms
    rw [typeGate,if_pos ht,requirePerm_ok]
  subst hse
  simp only [checkPermissions_ok hr,accessGate_ok,hte,membershipGate_iff_admitted]
  constructor
  · rintro ⟨env',-,-,ha,hs,-⟩
    exact ⟨ha,hs⟩
  · rintro ⟨ha,hs⟩
    exact ⟨_,hf,hra,ha,hs,rfl⟩

/-- The flag of a listed channel is right exactly when the SEND_MESSAGES bit for the channel in
memory is set just if it is set for the row of the channel, whose membership gate the requester
passes. -/
theorem can_write_truthful_iff (hresolver : mp.permissionResolver = ctx.sync.permissionResolver)
    (hid : requester ≠ "") (hfree : Ban.isBlocked st requester = false)
    (hrate : (rateGate lim requester row now).2 = .ok ())
    (hsender : env.senderHash = requester) (htype : env.type = msgText)
    (hcached : channel ∈ ctx.sync.channels.rows)
      (hlisted : listed ctx st (some requester) channel) :
    ∃ entry ∈ (handleNodeMeta ctx st (some requester)).channels, entry.id = channel.id ∧
      ((entry.canWrite = true ↔ ∃ env', (checkPermissions mp lim st env row now).2 = .ok env') ↔
        ∀ resolver, mp.permissionResolver = some resolver →
          ((getEffectivePermissions resolver st requester channel).has permSendMessages = true ↔
            Admitted mp st requester row ∧
              (getEffectivePermissions resolver st requester row).has permSendMessages =
                true)) := by
  refine ⟨channelMeta ctx st (some requester) channel,
    mem_map.mpr ⟨channel,mem_filter.mpr ⟨hcached,hlisted⟩,rfl⟩,rfl,?_⟩
  have hp : present (some requester) = some requester := present_eq_some.mpr ⟨rfl,hid⟩
  rw [channelMeta,canWrite,hp,← hresolver]
  cases hr : mp.permissionResolver with
  | none => simp [checkPermissions,hr]
  | some resolver =>
    rw [checkPermissions_text hfree hrate hsender htype hr]
    simp only [Option.some.injEq,forall_eq']

def posts (sealed : Bool) : Channel := { id := "c", sealed := sealed }

def postingNode (sealed : Bool) : Store where
  channels := .singleton (posts sealed)
  roles := .singleton ⟨"r",roleEveryone,permSendMessages⟩

def postingContext (sealed : Bool) : MetadataContext Unit where
  sync := { channels := .singleton (posts sealed), permissionResolver := some ⟨"owner"⟩ }
  describe := fun _ => ()

def postingProcessor : Processor := ⟨some ⟨"owner"⟩,some "node",none⟩

def bobsText : MessageEnvelope :=
  { channelId := "c", senderHash := "bob", timestamp := .fin 0, body := some "hello" }

def busyPosts : Channel := { id := "c", latestSeq := 3 }

theorem openChannel_truthful :
    ∃ entry ∈ (handleNodeMeta (postingContext false) (postingNode false) (some "bob")).channels,
      entry.id = "c" ∧ (entry.canWrite = true ↔ ∃ env',
        (checkPermissions postingProcessor none (postingNode false) bobsText busyPosts 0).2 =
          .ok env') := by
  have hr : postingProcessor.permissionResolver =
      (postingContext false).sync.permissionResolver := rfl
  have hf : Ban.isBlocked (postingNode false) "bob" = false := rfl
  have hra : (rateGate none "bob" busyPosts 0).2 = .ok () := rfl
  have hs : bobsText.senderHash = "bob" := rfl
  obtain ⟨entry,he,hid,hi⟩ := can_write_truthful_iff hr (by decide) hf hra hs rfl mem_cons_self rfl
  refine ⟨entry,he,hid,hi.mpr ?_⟩
  rintro _ ⟨⟩
  exact iff_of_true (by decide) ⟨.inl ⟨by decide,rfl⟩,by decide⟩

theorem sealedChannel_overstated :
    ∃ entry ∈ (handleNodeMeta (postingContext true) (postingNode true) (some "bob")).channels,
      entry.canWrite = true ∧ (checkPermissions postingProcessor none (postingNode true) bobsText
        (posts true) 0).2 =
          .error (MessageProcessor.permissionDenied "Not a member of this channel") :=
  ⟨_,mem_cons_self,rfl,rfl⟩

end CanWrite

structure Member where
  identityHash : String
  displayName : Option String
  roles : List (String × String)

def addRole (displayName : String → Option String) (members : List Member)
    (row : Identity × Role) : List Member :=
  if members.any fun m => m.identityHash = row.1.hash then
    members.map fun m =>
      if m.identityHash = row.1.hash then { m with roles := m.roles ++ [(row.2.id, row.2.name)] }
      else m
  else members ++ [⟨row.1.hash,displayName row.1.hash,[(row.2.id, row.2.name)]⟩]

def memberRows (st : Store) (chId : String) : List (Identity × Role) :=
  (st.assignments.filter fun a => a.channelId = some chId || a.channelId = none).filterMap fun a =>
    (IdentityRepo.getByHash st a.identityHash).bind fun i =>
      (st.roles.get? a.roleId).map fun r => (i, r)

def members (ctx : MetadataContext D) (st : Store) (chId : String) : List Member :=
  (memberRows st chId).foldl (addRole ctx.displayName) []

/-- The number of rows in the answer to a member list without a limit. -/
def memberTotal (st : Store) (chId : String) : ℕ :=
  ((memberRows st chId).map fun row => row.1.hash).toFinset.card

def slice {A : Type} (l : List A) (a b : ℤ) : List A :=
  (l.take (if b < 0 then (l.length : ℤ) + b else b).toNat).drop a.toNat

structure MemberRequest where
  channelId : Option String := none
  limit : Option ℤ := none
  offset : ℤ := 0

structure MemberList where
  channelId : String
  members : List Member
  total : ℕ
  hasMore : Bool

def checkMemberList (ctx : SyncContext) (st : Store) (chId : String)
    (requesterHash : Option String) : Py Unit :=
  match ctx.channels.get? chId, ctx.permissionResolver, present requesterHash with
  | some channel, some resolver, some requester =>
    if channel.accessMode = .privateAccess then
      if (RoleRepo.getIdentityRoles st requester (some chId) true).isEmpty then
        .error (permissionDenied "Private channel member list requires membership")
      else .ok ()
    else if Perms.has (getEffectivePermissions resolver st requester channel)
        permManageMembers then .ok ()
    else .error (permissionDenied "Member list requires MANAGE_MEMBERS permission")
  | _, _, _ => .ok ()

def handleMemberList (ctx : MetadataContext D) (st : Store) (req : MemberRequest)
    (channelId requesterHash : Option String) : Py MemberList := do
  let chId ← requireChannelId req.channelId channelId "No channel_id for get_member_list"
  checkMemberList ctx.sync st chId requesterHash
  let profile := getSessionProfile ctx.sync requesterHash
  let allMembers := members ctx st chId
  let limit := min (min (req.limit.getD 50) profile.maxSyncLimit) 200
  let offset := max 0 req.offset
  pure {
    channelId := chId
    members := slice allMembers offset (offset + limit)
    total := allMembers.length
    hasMore := offset + limit < allMembers.length }

/-- The rows that a history request selects, before its limit is applied. -/
def historyRows (st : Store) (chId : String) (sinceSeq : ℤ) (direction : String) : ℕ :=
  (st.channelMessages chId).countP fun m => m.type ≠ msgThreadReply && m.seq.any fun q : ℕ =>
    if direction = "forward" then sinceSeq < q else q < sinceSeq

def threadRows (st : Store) (rootHash : String) : ℕ :=
  st.messages.rows.countP fun m => m.msgHash = rootHash || m.replyTo = some rootHash

section Members
variable {ctx : MetadataContext D} {displayName : String → Option String} {ms : List Member}

lemma addRole_hashes {row : Identity × Role} : (addRole displayName ms row).map (·.identityHash) =
      if row.1.hash ∈ ms.map (·.identityHash) then ms.map (·.identityHash)
      else ms.map (·.identityHash) ++ [row.1.hash] := by
  have hm : (ms.any fun m => m.identityHash = row.1.hash) ↔
      row.1.hash ∈ ms.map (·.identityHash) := by simp
  simp only [addRole,hm]
  split_ifs
  · rw [map_map]
    refine map_congr_left fun m _ => ?_
    simp only [Function.comp_apply]
    split_ifs <;> rfl
  · simp

lemma foldl_addRole_hashes (rows : List (Identity × Role)) :
    ((rows.foldl (addRole displayName) []).map (·.identityHash)).Nodup ∧
      ((rows.foldl (addRole displayName) []).map (·.identityHash)).toFinset =
        (rows.map fun row => row.1.hash).toFinset := by
  induction rows using List.reverseRecOn with
  | nil => exact ⟨nodup_nil,rfl⟩
  | append_singleton rows row ih =>
    rw [foldl_append,foldl_cons,foldl_nil,addRole_hashes,map_append, toFinset_append,← ih.2]
    split_ifs with hm
    · refine ⟨ih.1,?_⟩
      have hsub : [row.1.hash].toFinset ⊆ ((rows.foldl (addRole displayName) []).map
          (·.identityHash)).toFinset := by simpa using hm
      exact (Finset.union_eq_left.mpr hsub).symm
    · exact ⟨nodup_append.mpr ⟨ih.1,nodup_singleton _,by simpa using hm⟩,by simp⟩

lemma members_length {st : Store} {chId : String} :
    (members ctx st chId).length = memberTotal st chId := by
  obtain ⟨hn,hs⟩ := @foldl_addRole_hashes ctx.displayName (memberRows st chId)
  rw [memberTotal,← hs,toFinset_card_of_nodup hn,length_map,members]

end Members

section Limits
variable {A : Type} {st : Store} {chId direction : String} {limit top since : ℤ}

lemma sqlLimit_length {rows : List Message} (h : 0 ≤ limit) :
    ((sqlLimit limit rows).length : ℤ) ≤ limit := by
  rw [sqlLimit,if_neg h.not_gt,length_take]
  omega

lemma sqlLimit_neg {rows : List Message} (h : limit < 0) : sqlLimit limit rows = rows := if_pos h

lemma capped_iff {F : ℤ → List A} {n : ℕ} (hc : ∀ l, 0 ≤ l → ((F l).length : ℤ) ≤ l)
    (hall : ∀ l, l < 0 → (F l).length = n) (ht : 1 ≤ top) :
    ((F (min limit top)).length : ℤ) ≤ top ↔ 0 ≤ limit ∨ (n : ℤ) ≤ top := by
  by_cases h : 0 ≤ limit
  · exact iff_of_true ((hc _ (by omega)).trans (min_le_right ..)) (.inl h)
  · rw [hall _ (by omega),or_iff_right h]

lemma getHistory_length (h : 0 ≤ limit) : (((getHistory st chId since limit direction).filter
      fun m => m.type ≠ msgThreadReply).length : ℤ) ≤ limit := by
  refine (Int.ofNat_le.mpr (length_filter_le ..)).trans ?_
  unfold getHistory
  split_ifs
  all_goals simpa using sqlLimit_length h

lemma countP_sorted (r : A → A → Prop) [DecidableRel r] (p q : A → Bool) (l : List A) :
    ((l.filter p).insertionSort r).countP q = l.countP fun m => q m && p m := by
  rw [(perm_insertionSort r _).countP_eq,countP_filter]

lemma getHistory_rows (h : limit < 0) : ((getHistory st chId since limit direction).filter
      fun m => m.type ≠ msgThreadReply).length = historyRows st chId since direction := by
  rw [← countP_eq_length_filter,getHistory,historyRows]
  by_cases hd : direction = "forward"
  · simp [hd,sqlLimit_neg h,countP_sorted]
  · simp only [hd,sqlLimit_neg h,if_false]
    split_ifs <;> simp [countP_sorted]

lemma getThreadMessages_rows {rootHash : String} (h : limit < 0) :
    (getThreadMessages st rootHash limit).length = threadRows st rootHash := by
  rw [getThreadMessages,sqlLimit_neg h,length_insertionSort,threadRows, countP_eq_length_filter]

lemma slice_bounded_iff {l : List A} {a : ℤ} (ha : 0 ≤ a) (ht : 1 ≤ top) :
    ((slice l a (a + min (min limit top) 200)).length : ℤ) ≤ top ↔
      0 ≤ limit ∨ 0 ≤ a + limit ∨ l.length + limit ≤ top := by
  rw [slice,length_drop,length_take]
  split_ifs <;> omega

end Limits

/-- A profile caps the pages of history, threads and members unless the request asks for less than
nothing: the answer is then every row that is selected, or all but as many members. -/
theorem pages_bounded_iff (prim : ReadPrimitives) (ctx : MetadataContext D) (st : Store)
    (channelId requesterHash : Option String) (limit : ℤ) :
    let profile := getSessionProfile ctx.sync requesterHash
    (∀ (req : HistoryRequest) (chId : String) (hist : HistoryResponse),
      present (req.channelId.or channelId) = some chId →
      handleHistory prim ctx.sync st { req with limit := some limit } channelId requesterHash =
        .ok hist →
      (hist.messages.length ≤ profile.maxSyncLimit ↔ 0 ≤ limit ∨
        historyRows st chId req.sinceSeq (historyDirection profile req) ≤ profile.maxSyncLimit)) ∧
    (∀ (rootHash : String) (es : List Entry),
      handleThread prim ctx.sync st (some rootHash) (some limit) requesterHash = .ok es →
      (es.length ≤ profile.maxSyncLimit ↔
        0 ≤ limit ∨ threadRows st rootHash ≤ profile.maxSyncLimit)) ∧
    ∀ (req : MemberRequest) (chId : String) (list : MemberList),
      present (req.channelId.or channelId) = some chId →
      handleMemberList ctx st { req with limit := some limit } channelId requesterHash = .ok list →
      (list.members.length ≤ profile.maxSyncLimit ↔ 0 ≤ limit ∨ 0 ≤ max 0 req.offset + limit ∨
        memberTotal st chId + limit ≤ profile.maxSyncLimit) := by
  intro profile
  have hpo : 1 ≤ profile.maxSyncLimit := maxSyncLimit_pos ctx.sync requesterHash
  refine ⟨?_,?_,?_⟩
  · intro req chId hist hch hhist
    obtain ⟨chId',hch',hhist⟩ := bind_ok hhist
    obtain ⟨-,-,hhist⟩ := bind_ok hhist
    obtain rfl := Option.some.inj (hch.symm.trans (requireChannelId_ok hch'))
    cases hhist
    simp only [encodeMessagesWithKeys,length_map,Option.getD_some]
    exact capped_iff (F := fun l => (getHistory st chId req.sinceSeq l _).filter _)
      (fun l hl => getHistory_length hl) (fun l hl => getHistory_rows hl) hpo
  · intro rootHash es hes
    obtain ⟨hash,-,hp,-,-,rfl⟩ := handleThread_ok hes
    obtain rfl : rootHash = hash := Option.some.inj (present_eq_some.mp hp).1
    simp only [encodeMessagesWithKeys,length_map,Option.getD_some]
    exact capped_iff (F := getThreadMessages st rootHash) (fun l hl => sqlLimit_length hl)
      (fun l hl => getThreadMessages_rows hl) hpo
  · intro req chId list hch hlist
    obtain ⟨chId',hch',hlist⟩ := bind_ok hlist
    obtain ⟨-,-,hlist⟩ := bind_ok hlist
    obtain rfl := Option.some.inj (hch.symm.trans (requireChannelId_ok hch'))
    cases hlist
    rw [slice_bounded_iff (le_max_left 0 req.offset) hpo,members_length]
    rfl

def crowd (n : ℕ) : Message where
  msgHash := String.ofList (.replicate (n + 1) 'm')
  channelId := "c"
  seq := some (n + 1)
  timestamp := .fin 0
  type := msgText

lemma crowd_keyed : (((range 6).map crowd).map Message.msgHash).Nodup := by decide

def crowdedNode : Store := { messages := ⟨(range 6).map crowd,crowd_keyed⟩ }

def minimalContext : MetadataContext Unit where
  sync := { channels := .singleton (posts false)
            sessions := [⟨"s",some "bob",cdspProfileMinimal,"active",0⟩] }
  describe := fun _ => ()

theorem crowd_bounded : (∃ hist, handleHistory noDecryption minimalContext.sync crowdedNode
      { channelId := some "c", limit := some 3 } none (some "bob") = .ok hist ∧
        (hist.messages.length : ℤ) ≤ 5) ∧
    (∃ es, handleThread noDecryption minimalContext.sync crowdedNode (some "m") (some (-1))
      (some "bob") = .ok es ∧ (es.length : ℤ) ≤ 5) ∧
    ∃ list, handleMemberList minimalContext crowdedNode
      { channelId := some "c", limit := some (-1) } none (some "bob") = .ok list ∧
        (list.members.length : ℤ) ≤ 5 := by
  have hp := pages_bounded_iff noDecryption minimalContext crowdedNode none (some "bob")
  refine ⟨⟨_,rfl,?_⟩,⟨_,rfl,?_⟩,⟨_,rfl,?_⟩⟩
  · exact ((hp 3).1 { channelId := some "c" } "c" _ rfl rfl).mpr (.inl (by decide))
  · exact ((hp (-1)).2.1 "m" _ rfl).mpr (.inr (by decide))
  · exact ((hp (-1)).2.2 { channelId := some "c" } "c" _ rfl rfl).mpr (.inr (.inr (by decide)))

theorem crowd_unbounded : ∃ hist, handleHistory noDecryption minimalContext.sync crowdedNode
    { channelId := some "c", limit := some (-1) } none (some "bob") = .ok hist ∧
      ¬ (hist.messages.length : ℤ) ≤
        (getSessionProfile minimalContext.sync (some "bob")).maxSyncLimit :=
  ⟨_,rfl,by decide⟩

end Hokora.MetadataHandlers
