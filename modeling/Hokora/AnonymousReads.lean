import Hokora.MetadataHandlers
import Hokora.TransitionRuns

/-!
# Requests without an identity

The seven read actions with and without an identity, compared by the facts that a response shows.
-/
namespace Hokora.AnonymousReads
open BigEndian Constants Database FileTree MediaAccess MetadataHandlers PyValue ReadHandlers
  ReadIsolation Repositories TransitionRuns

def Identified (sessions : List Session) : Prop := ∀ s ∈ sessions, s.identityHash ≠ none

structure NodeState (D : Type) where
  ctx : MetadataContext D
  store : Store
  server : MediaServer
  resolved : ctx.sync.permissionResolver.isSome
  identified : Identified ctx.sync.sessions

inductive ReadRequest (L : Type) where
  | nodeMeta
  | history (req : HistoryRequest) (channelId : Option String)
  | search (req : SearchRequest) (channelId : Option String)
  | pins (requested channelId : Option String)
  | thread (rootHash : Option String) (limit : Option ℤ)
  | memberList (req : MemberRequest) (channelId : Option String)
  | fetchMedia (req : FetchRequest) (channelId : Option String) (link : Option L)

inductive Response (D L : Type) where
  | nodeMeta (info : NodeMeta D)
  | history (resp : HistoryResponse)
  | search (results : List SearchResult)
  | messages (es : List Entry)
  | memberList (page : MemberList)
  | media (transfer : Option (Transfer L))

inductive Fact where
  | message (e : Entry)
  | member (m : Member)
  | channel (id : String) (latestSeq memberCount : ℕ) (lastActivity : Option FloatVal)
  | file (p : Path) (data : Bytes)

variable {D L : Type}

def Response.facts : Response D L → List Fact
  | .nodeMeta info =>
    info.channels.map fun c => .channel c.id c.latestSeq c.memberCount c.lastActivity
  | .history resp => resp.messages.map .message
  | .search results => (results.flatMap SearchResult.entries).map .message
  | .messages es => es.map .message
  | .memberList page => page.members.map .member
  | .media transfer => transfer.toList.map fun t => .file t.file t.data

def respond (prim : ReadPrimitives) (node : NodeState D) (requesterHash : Option String) :
    ReadRequest L → Py (Response D L)
  | .nodeMeta => .ok (.nodeMeta (handleNodeMeta node.ctx node.store requesterHash))
  | .history req channelId =>
    (handleHistory prim node.ctx.sync node.store req channelId requesterHash).map .history
  | .search req channelId =>
    (handleSearch node.ctx.sync node.store req channelId requesterHash).map .search
  | .pins requested channelId =>
    (handleGetPins prim node.ctx.sync node.store requested channelId requesterHash).map .messages
  | .thread rootHash limit =>
    (handleThread prim node.ctx.sync node.store rootHash limit requesterHash).map .messages
  | .memberList req channelId =>
    (handleMemberList node.ctx node.store req channelId requesterHash).map .memberList
  | .fetchMedia req channelId link =>
    (handleFetchMedia node.ctx.sync node.store node.server req channelId requesterHash link).map
      .media

/-- The identity is answered as a request without one is, or better. -/
def NoAdvantage (prim : ReadPrimitives) (node : NodeState D) (identity : String)
    (a : ReadRequest L) : Prop :=
  ∀ r, respond prim node none a = .ok r →
    ∃ r', respond prim node (some identity) a = .ok r' ∧ r.facts ⊆ r'.facts

/-- The identity passes the check of a member list. -/
def ListsMembers (node : NodeState D) (identity : String) : ReadRequest L → Prop
  | .memberList req channelId => ∀ chId, present (req.channelId.or channelId) = some chId →
      checkMemberList node.ctx.sync node.store chId (some identity) = .ok ()
  | _ => True

section
variable {prim : ReadPrimitives} {ctx : SyncContext} {st : Store} {identity : String}

lemma getActiveSession_none {i : Option String} (h : ∀ s ∈ sessions, s.identityHash ≠ i) :
    getActiveSession sessions i = none := by
  have hn : (sessions.filter fun s =>
      s.identityHash = i && s.state = "active") = [] := by
    rw [List.filter_eq_nil_iff]
    intro s hs
    simp [h s hs]
  rw [getActiveSession,hn]
  rfl

lemma profile_eq {a b : Option String} (ha : getActiveSession ctx.sessions a = none)
    (hb : getActiveSession ctx.sessions b = none) :
    getSessionProfile ctx a = getSessionProfile ctx b ∧
      getSessionSwitches ctx a = getSessionSwitches ctx b := by
  simp [getSessionProfile,getSessionSwitches,ha,hb]

structure AtLeast (ctx : SyncContext) (st : Store) (identity : String) : Prop where
  gate : ∀ {chId c}, checkChannelRead ctx st chId none = .ok c →
    checkChannelRead ctx st chId (some identity) = .ok c
  profile : getSessionProfile ctx (some identity) = getSessionProfile ctx none
  switches : getSessionSwitches ctx (some identity) = getSessionSwitches ctx none

lemma atLeast (hba : Ban.checkNotBlocked st identity = .ok ())
    (hs : ∀ s ∈ ctx.sessions, s.identityHash ≠ some identity)
    (hi : Identified ctx.sessions) : AtLeast ctx st identity := by
  have hp := profile_eq (getActiveSession_none hs) (getActiveSession_none hi)
  refine ⟨fun {chId c} h => ?_,hp.1,hp.2⟩
  obtain ⟨hc,-,hpr⟩ := checkChannelRead_ok.mp h
  refine checkChannelRead_ok.mpr ⟨hc,fun rq hr => ?_,fun hm => ?_⟩
  · obtain ⟨heq,-⟩ := present_eq_some.mp hr
    cases heq
    unfold Ban.checkNotBlocked at hba
    split_ifs at hba with hb
    exact Bool.not_eq_true _ |>.mp hb
  · obtain ⟨rq,hr,-⟩ := hpr hm
    cases hr

namespace AtLeast
variable (h : AtLeast ctx st identity)
include h

lemma history {req : HistoryRequest} {ch : Option String} {resp : HistoryResponse}
    (hok : handleHistory prim ctx st req ch none = .ok resp) :
    handleHistory prim ctx st req ch (some identity) = .ok resp := by
  obtain ⟨chId,hid,hok⟩ := bind_ok hok
  obtain ⟨c,hr,hok⟩ := bind_ok hok
  rw [handleHistory,hid,ok_bind,h.gate hr,ok_bind,h.profile]
  exact hok

lemma pins {requested ch : Option String} {es : List Entry}
    (hok : handleGetPins prim ctx st requested ch none = .ok es) :
    handleGetPins prim ctx st requested ch (some identity) = .ok es := by
  obtain ⟨chId,hid,hok⟩ := bind_ok hok
  obtain ⟨c,hr,hok⟩ := bind_ok hok
  rw [handleGetPins,hid,ok_bind,h.gate hr,ok_bind]
  exact hok

lemma search {req : SearchRequest} {ch : Option String} {results : List SearchResult}
    (hok : handleSearch ctx st req ch none = .ok results) :
    handleSearch ctx st req ch (some identity) = .ok results := by
  unfold handleSearch at hok ⊢
  simp only [h.profile] at hok ⊢
  split_ifs at hok ⊢
  · exact hok
  split at hok
  · obtain ⟨c,hr,hok⟩ := bind_ok hok
    rw [h.gate hr]
    exact hok
  · exact hok

lemma thread {rootHash : Option String} {limit : Option ℤ} {es : List Entry}
    (hok : handleThread prim ctx st rootHash limit none = .ok es) :
    handleThread prim ctx st rootHash limit (some identity) = .ok es := by
  unfold handleThread at hok ⊢
  split at hok
  · exact hok
  split at hok
  · exact hok
  simp only [h.profile] at hok ⊢
  split_ifs at hok ⊢
  · obtain ⟨c,hr,hok⟩ := bind_ok hok
    rw [h.gate hr]
    exact hok
  · exact hok

lemma fetchMedia {server : MediaServer} {req : FetchRequest} {ch : Option String}
    {link : Option L} {t : Option (Transfer L)}
    (hok : handleFetchMedia ctx st server req ch none link = .ok t) :
    handleFetchMedia ctx st server req ch (some identity) link = .ok t := by
  unfold handleFetchMedia at hok ⊢
  rw [h.switches]
  split_ifs at hok ⊢
  · exact hok
  obtain ⟨u,hn,hok⟩ := bind_ok hok
  have hr := checkNamedChannel_ok.mp hn
  have hn' : checkNamedChannel ctx st (req.channelId.or ch) (some identity) = .ok () :=
    checkNamedChannel_ok.mpr fun chId hid => by
      obtain ⟨c,hc⟩ := hr chId hid
      exact ⟨c,h.gate hc⟩
  rw [hn']
  exact hok

end AtLeast

lemma listed_identity {ctx : MetadataContext D} {channel : Channel}
    (h : listed ctx st none channel = true) (identity : String) :
    listed ctx st (some identity) channel = true := by
  have ha : (ctx.showPrivateChannels || channel.accessMode ≠ .privateAccess) = true := h
  unfold listed
  split
  · rw [Bool.or_assoc,Bool.or_assoc,← Bool.or_assoc ctx.showPrivateChannels,ha,Bool.true_or,
      Bool.or_true]
  · exact ha

lemma nodeMeta_facts {ctx : MetadataContext D} :
    (Response.nodeMeta (L := L) (handleNodeMeta ctx st none)).facts ⊆
      (Response.nodeMeta (L := L) (handleNodeMeta ctx st (some identity))).facts := by
  intro fact hf
  obtain ⟨c,hc,rfl⟩ := List.mem_map.mp hf
  obtain ⟨channel,hch,rfl⟩ := List.mem_map.mp hc
  obtain ⟨hca,hl⟩ := List.mem_filter.mp hch
  have hl' := listed_identity hl identity
  exact List.mem_map.mpr ⟨channelMeta ctx st (some identity) channel,
    List.mem_map_of_mem (List.mem_filter.mpr ⟨hca,hl'⟩),rfl⟩

lemma handleMemberList_anonymous {ctx : MetadataContext D} {req : MemberRequest}
    {ch : Option String} {chId : String}
    (hid : present (req.channelId.or ch) = some chId) :
    ∃ page, handleMemberList ctx st req ch none = .ok page := by
  have ho : checkMemberList ctx.sync st chId none = .ok () := by
    unfold checkMemberList
    split
    next hn => cases hn
    · rfl
  rw [handleMemberList,requireChannelId,hid,ok_bind,ho]
  exact ⟨_,rfl⟩

lemma handleMemberList_identity {ctx : MetadataContext D} {req : MemberRequest}
    {ch : Option String} {page : MemberList} (h : AtLeast ctx.sync st identity)
    (hok : handleMemberList ctx st req ch none = .ok page)
    (hc : ∀ chId, present (req.channelId.or ch) = some chId →
      checkMemberList ctx.sync st chId (some identity) = .ok ()) :
    handleMemberList ctx st req ch (some identity) = .ok page := by
  obtain ⟨chId,hid,hok⟩ := bind_ok hok
  obtain ⟨u,-,hok⟩ := bind_ok hok
  have hp := requireChannelId_ok hid
  rw [handleMemberList,hid,ok_bind,hc chId hp,ok_bind,h.profile]
  exact hok

end

lemma noAdvantage_of_same {A : Type} {x y : Py A} {f : A → Response D L} {r : Response D L}
    (hs : ∀ a, x = .ok a → y = .ok a) (h : x.map f = .ok r) :
    ∃ r', y.map f = .ok r' ∧ r.facts ⊆ r'.facts := by
  obtain ⟨a,ha,rfl⟩ := map_eq_ok.mp h
  exact ⟨f a,map_eq_ok.mpr ⟨a,hs a ha,rfl⟩,List.Subset.refl _⟩

/-- A request without an identity gains nothing over an identity exactly where the identity
passes the check of the requested member list. -/
theorem no_advantage_iff (prim : ReadPrimitives) (node : NodeState D) (identity : String)
    (hban : Ban.checkNotBlocked node.store identity = .ok ())
    (hsession : ∀ s ∈ node.ctx.sync.sessions, s.identityHash ≠ some identity) (a : ReadRequest L) :
    NoAdvantage prim node identity a ↔ ListsMembers node identity a := by
  have hat : AtLeast node.ctx.sync node.store identity :=
    atLeast hban hsession node.identified
  cases a with
  | nodeMeta =>
    refine iff_of_true (fun r hr => ?_) trivial
    cases hr
    exact ⟨_,rfl,nodeMeta_facts⟩
  | history req channelId =>
    exact iff_of_true (fun r hr => noAdvantage_of_same (fun _ => hat.history) hr) trivial
  | search req channelId =>
    exact iff_of_true (fun r hr => noAdvantage_of_same (fun _ => hat.search) hr) trivial
  | pins requested channelId =>
    exact iff_of_true (fun r hr => noAdvantage_of_same (fun _ => hat.pins) hr) trivial
  | thread rootHash limit =>
    exact iff_of_true (fun r hr => noAdvantage_of_same (fun _ => hat.thread) hr) trivial
  | fetchMedia req channelId link =>
    exact iff_of_true (fun r hr => noAdvantage_of_same (fun _ => hat.fetchMedia) hr) trivial
  | memberList req channelId =>
    constructor
    · intro h chId hid
      obtain ⟨page,hp⟩ := handleMemberList_anonymous hid
      obtain ⟨r',hr',-⟩ := h (.memberList page) (map_eq_ok.mpr ⟨page,hp,rfl⟩)
      obtain ⟨page',hp',-⟩ := map_eq_ok.mp hr'
      rw [handleMemberList,requireChannelId,hid,ok_bind] at hp'
      obtain ⟨u,hc,-⟩ := bind_ok hp'
      exact hc
    · intro h r hr
      exact noAdvantage_of_same (fun _ hok => handleMemberList_identity hat hok h) hr

/-! An open channel whose members only a manager may list. -/

def lobbyStore : Store :=
  { channels := .singleton { id := "lobby" }
    identities := .singleton { hash := "alice" }
    roles := .singleton { id := "e", name := roleEveryone, permissions := permSendMessages }
    assignments := [{ roleId := "e", identityHash := "alice", channelId := some "lobby" }] }

def lobbyNode : NodeState Unit where
  ctx := {
    sync := { channels := lobbyStore.channels, permissionResolver := some ⟨"owner"⟩ }
    describe := fun _ => () }
  store := lobbyStore
  server := ⟨none,.empty⟩
  resolved := rfl
  identified := fun _ hs => nomatch hs

def lobbyMembers : ReadRequest Unit := .memberList { channelId := some "lobby" } none

theorem eve_no_advantage_iff : Ban.checkNotBlocked lobbyNode.store "eve" = .ok () ∧
      (NoAdvantage noDecryption lobbyNode "eve" lobbyMembers ↔
        ListsMembers lobbyNode "eve" lobbyMembers) :=
  ⟨rfl,no_advantage_iff noDecryption lobbyNode "eve" rfl (fun _ hs => nomatch hs) lobbyMembers⟩

theorem lobby_members_shown : Ban.checkNotBlocked lobbyNode.store "eve" = .ok () ∧
      (respond noDecryption lobbyNode none lobbyMembers).toOption.any
        (fun r => !r.facts.isEmpty) = true ∧
      ¬ NoAdvantage noDecryption lobbyNode "eve" lobbyMembers := by
  refine ⟨rfl,by decide +kernel,fun h => ?_⟩
  obtain ⟨r,hr⟩ := toOption_isSome.mp (show
    (respond noDecryption lobbyNode none lobbyMembers).toOption.isSome by decide +kernel)
  obtain ⟨r',hr',-⟩ := h r hr
  have hre : ¬ (respond noDecryption lobbyNode (some "eve") lobbyMembers).toOption.isSome := by
    decide +kernel
  exact hre (toOption_isSome.mpr ⟨r',hr'⟩)

end Hokora.AnonymousReads
