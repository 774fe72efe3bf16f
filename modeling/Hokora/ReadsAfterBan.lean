import Hokora.CdspSessions
import Hokora.KeysAfterBan
import Hokora.LiveDelivery

/-!
# Reading after a ban

Requests, live events and deferred tasks in any order, with any commits of the database in between.
-/
namespace Hokora.ReadsAfterBan
open AnonymousReads BigEndian CdspSessions Constants Database GroupKeys Invites KeyDistribution
  KeyRotation KeyedTable KeysAfterBan List LiveDelivery MediaAccess Memberships MetadataHandlers
  PyValue RateLimit ReadHandlers Repositories TransitionRuns

structure CdspConfig where
  sessionTimeout : ℚ := 3600
  deferredQueueLimit : ℕ := 1000

structure Backend (D : Type) where
  ctx : MetadataContext D
  server : MediaServer
  db : KeyStore
  resolved : ctx.sync.permissionResolver.isSome
  referenced : ∀ m ∈ db.store.messages.rows, (db.store.channels.get? m.channelId).isSome = true

structure Node (D L : Type) [DecidableEq L] where
  backend : Backend D
  limiter : Option RateLimiter := none
  cdsp : CdspStore := {}
  live : LiveSubscriptionManager L := {}
  tasks : List (String × Push) := []

inductive Shown where
  | message (e : Entry)
  | memberList (page : MemberList)
  | key (blob : Bytes)
  | event (eventType : String) (data : Entry)

variable {D L : Type} [DecidableEq L]

inductive AsideAction where
  | redeemInvite
  | federationHandshake
  | pushMessages
  | createInvite
  | listInvites
  | listSeeds

inductive SyncRequest (L : Type) where
  | read (req : ReadRequest L)
  | subscribeLive (requested channelId : Option String) (supportsSealedAtRest : Bool)
  | unsubscribe (requested channelId : Option String)
  | requestSealedKey (requested channelId : Option String)
  | sessionInit (req : SessionInit) (draw : SessionDraw)
  | profileUpdate (sessionId : Option String) (syncProfile : Option ℤ)
  | aside (action : AsideAction)

def responseShown : Response D L → List Shown
  | .nodeMeta _ => []
  | .history resp => resp.messages.map .message
  | .search results => (results.flatMap SearchResult.entries).map .message
  | .messages es => es.map .message
  | .memberList page => [.memberList page]
  | .media _ => []

def itemShown (i : FlushedItem) : Option Shown :=
  match i.payload with
  | .event eventType data => some (.event eventType data)
  | .stored (.wireHex eventType data) => some (.event eventType data)
  | .stored (.request _) => none

namespace Node
variable (n : Node D L)

def store : Store := n.backend.db.store

def ctx : SyncContext := { n.backend.ctx.sync with sessions := n.cdsp.view }

def readState : NodeState D where
  ctx := { n.backend.ctx with sync := n.ctx }
  store := n.store
  server := n.backend.server
  resolved := n.backend.resolved
  identified := view_identified

def answer (prim : ReadPrimitives) (cfg : CdspConfig) (requesterHash : Option String) (link : L)
    (now : ℚ) : SyncRequest L → Node D L × List Shown
  | .read req =>
    (n, match respond prim n.readState requesterHash req with
      | .ok r => responseShown r
      | .error _ => [])
  | .subscribeLive requested channelId supports =>
    match handleSubscribeLive n.ctx n.store n.live requested channelId requesterHash supports
        link with
    | .ok live => ({ n with live := live }, [])
    | .error _ => (n, [])
  | .unsubscribe requested channelId =>
    ({ n with live := handleUnsubscribe n.live requested channelId link }, [])
  | .requestSealedKey requested channelId =>
    let r := handleRequestSealedKey n.ctx n.limiter n.backend.db requested channelId
      requesterHash now
    ({ n with limiter := r.1 },
      match r.2 with
      | .ok resp => resp.encryptedKeyBlob.toList.map .key
      | .error _ => [])
  | .sessionInit req draw =>
    match handleCdspSessionInit n.ctx.hasCdspManager cfg.sessionTimeout n.cdsp requesterHash req
        draw now with
    | .ok r => ({ n with cdsp := r.1 }, r.2.items.filterMap itemShown)
    | .error _ => (n, [])
  | .profileUpdate sessionId syncProfile =>
    match handleCdspProfileUpdate n.ctx.hasCdspManager n.cdsp sessionId syncProfile now with
    | .ok r => ({ n with cdsp := r.1 }, r.2.items.filterMap itemShown)
    | .error _ => (n, [])
  | .aside _ => (n, [])

end Node

inductive LiveEvent (L : Type) where
  | pushMessage (net : Network L) (channelId : String) (m : Message)
      (senderPublicKey : Option Bytes)
  | pushEvent (net : Network L) (push : Push)
  | linkDeath (link : L)
  | flushBatches (net : Network L) (reachable : String → Bool)

def LiveEvent.apply (prim : ReadPrimitives) (sealedManager : Option Keyring)
    (s : LiveSubscriptionManager L) : LiveEvent L → LiveSubscriptionManager L
  | .pushMessage net channelId m senderPublicKey =>
    LiveDelivery.pushMessage prim sealedManager net s channelId m senderPublicKey
  | .pushEvent net push => LiveDelivery.pushEvent net s push
  | .linkDeath link => handleLinkDeath s link
  | .flushBatches net reachable => LiveDelivery.flushBatches net reachable s

def deferredTask (x : Delivered L) : Option (String × Push) :=
  match x.via with
  | .deferred h => some (h, x.push)
  | _ => none

def reaches (s : LiveSubscriptionManager L) (h : String) (x : Delivered L) : Bool :=
  match x.via with
  | .sent => s.identityOf x.link = some h
  | .lxmf k => k = h
  | _ => false

inductive Event (D L : Type) where
  | request (requesterHash : Option String) (link : L) (req : SyncRequest L) (now : ℚ)
  | commit (backend : Backend D)
  | live (e : LiveEvent L)
  | storeDeferred (index : ℕ) (now : ℚ)
  | deferRequest (identityHash : String) (channelId : Option String) (action : ℤ) (payload : Val)
      (now : ℚ)
  | cleanup (now : ℚ)

structure Watch (D L : Type) [DecidableEq L] where
  node : Node D L
  shown : List Shown := []

def storeTask (cfg : CdspConfig) (n : Node D L) (index : ℕ) (now : ℚ) : Node D L :=
  match n.tasks[index]? with
  | none => n
  | some t =>
    { n with
      cdsp := n.cdsp.deferLiveEvent cfg.deferredQueueLimit t.1 t.2.channelId t.2.eventType
        t.2.data now
      tasks := n.tasks.eraseIdx index }

def step (prim : ReadPrimitives) (cfg : CdspConfig) (h : String) (s : Watch D L) :
    Event D L → Watch D L
  | .request requesterHash link req now =>
    let r := s.node.answer prim cfg requesterHash link now req
    { node := r.1, shown := s.shown ++ if requesterHash = some h then r.2 else [] }
  | .commit backend => { s with node := { s.node with backend := backend } }
  | .live e =>
    let live := e.apply prim s.node.ctx.sealedManager s.node.live
    let added := live.journal.drop s.node.live.journal.length
    { node := { s.node with live := live, tasks := s.node.tasks ++ added.filterMap deferredTask }
      shown := s.shown ++ (added.filter (reaches s.node.live h)).map fun x =>
        .event x.push.eventType x.push.data }
  | .storeDeferred index now => { s with node := storeTask cfg s.node index now }
  | .deferRequest identityHash channelId action payload now =>
    { s with node := { s.node with
        cdsp := s.node.cdsp.deferSyncItem cfg.deferredQueueLimit identityHash channelId action
          payload now } }
  | .cleanup now =>
    { s with node := { s.node with
        cdsp := s.node.cdsp.cleanupExpired cfg.sessionTimeout now } }

structure Quiet (h : String) (n : Node D L) : Prop where
  links : ∀ l, n.live.identityOf l ≠ some h
  tasks : ∀ t ∈ n.tasks, t.1 ≠ h
  queue : EventsOf (fun k => k ≠ h) n.cdsp

/-- What a request of the identity may ask for: a member list that the check refuses it, the key of
a channel where it has no role or no row, the profile of a session of its own. -/
def Modest (h : String) (n : Node D L) : SyncRequest L → Prop
  | .read (.memberList q channelId) => ∀ chId, present (q.channelId.or channelId) = some chId →
      checkMemberList n.ctx n.store chId (some h) ≠ .ok ()
  | .requestSealedKey requested channelId => ∀ chId, present (requested.or channelId) = some chId →
      RoleRepo.getIdentityRoles n.store h (some chId) true = [] ∨
        latestKey n.backend.db.sealedKeys chId h = none
  | .profileUpdate sessionId _ => ∀ id x, present sessionId = some id →
      n.cdsp.sessions.get? id = some x → x.identityHash = h
  | _ => True

/-- The identity asks for no more than that, and no transaction lifts the ban. -/
def Spares (h : String) (s : Watch D L) : Event D L → Prop
  | .request requesterHash _ req _ => requesterHash = some h → Modest h s.node req
  | .commit backend => Ban.isBlocked backend.db.store h = true
  | _ => True

variable {now : ℚ}

section
variable {n : Node D L} {h : String}

lemma checkChannelRead_blocked {ctx : SyncContext} {st : Store} (hn : h ≠ "")
    (hb : Ban.isBlocked st h = true) (chId : String) (c : Channel) :
    checkChannelRead ctx st chId (some h) ≠ .ok c := by
  intro hok
  obtain ⟨-,hf,-⟩ := checkChannelRead_ok.mp hok
  have := hf h (present_eq_some.mpr ⟨rfl,hn⟩)
  rw [hb] at this
  cases this

lemma referenced_named {b : Backend D} {m : Message} (hm : m ∈ b.db.store.messages.rows) :
    m.channelId ≠ "" := by
  obtain ⟨c,hc⟩ := Option.isSome_iff_exists.mp (b.referenced m hm)
  rw [← Table.get?_key hc]
  exact c.id_ne

lemma respond_blocked {prim : ReadPrimitives} {req : ReadRequest L} {r : Response D L}
    (hn : h ≠ "") (hb : Ban.isBlocked n.store h = true) (hm : Modest h n (.read req))
    (hok : respond prim n.readState (some h) req = .ok r) : responseShown r = [] := by
  have hg : ∀ chId c, checkChannelRead n.ctx n.store chId (some h) ≠ .ok c :=
    checkChannelRead_blocked hn hb
  cases req with
  | nodeMeta =>
    cases hok
    rfl
  | history q channelId =>
    obtain ⟨resp,hres,rfl⟩ := map_eq_ok.mp hok
    obtain ⟨chId,c,-,hr,-⟩ := handleHistory_ok hres
    exact absurd hr (hg chId c)
  | search q channelId =>
    obtain ⟨results,hre,rfl⟩ := map_eq_ok.mp hok
    refine map_eq_nil_iff.mpr (eq_nil_iff_forall_not_mem.mpr fun e he => ?_)
    obtain ⟨x,hx,hex⟩ := mem_flatMap.mp he
    obtain ⟨chId,c,hr,-⟩ := handleSearch_gated hre hx hex
    exact hg chId c hr
  | pins requested channelId =>
    obtain ⟨es,hes,rfl⟩ := map_eq_ok.mp hok
    obtain ⟨chId,c,-,hr,-⟩ := handleGetPins_ok hes
    exact absurd hr (hg chId c)
  | thread rootHash limit =>
    obtain ⟨es,hes,rfl⟩ := map_eq_ok.mp hok
    obtain ⟨hash,root,-,hro,hr,-⟩ := handleThread_ok hes
    rcases hr with hem | ⟨c,hr⟩
    · exact absurd hem (referenced_named (Table.get?_mem hro))
    · exact absurd hr (hg _ c)
  | memberList q channelId =>
    obtain ⟨page,hp,rfl⟩ := map_eq_ok.mp hok
    obtain ⟨chId,hid,hp⟩ := bind_ok hp
    obtain ⟨u,hc,-⟩ := bind_ok hp
    exact absurd hc (hm chId (requireChannelId_ok hid))
  | fetchMedia q channelId link =>
    obtain ⟨transfer,-,rfl⟩ := map_eq_ok.mp hok
    rfl

lemma sealedKey_blocked {requested c : Option String} {resp : SealedKeyResponse}
    {limiter : Option RateLimiter} (hm : Modest h n (.requestSealedKey requested c))
    (hok : handleRequestSealedKey n.ctx n.limiter n.backend.db requested c (some h) now =
      (limiter, .ok resp)) : resp.encryptedKeyBlob = none := by
  obtain ⟨hna,⟨ch,-,-,hb⟩ | ⟨hr,row,hro,-⟩⟩ := handleRequestSealedKey_ok hok
  · exact hb
  rcases hm resp.channelId hna with hn | hn
  · exact absurd hn hr
  · rw [hn] at hro
    cases hro

lemma itemShown_request {i : DeferredSyncItem} (hi : i.payload.isEvent = false) :
    itemShown (unwrapDeferredItem i) = none ∧ itemShown (storedItem i) = none := by
  cases hp : i.payload with
  | wireHex eventType data =>
    rw [hp] at hi
    cases hi
  | request payload => simp [itemShown,unwrapDeferredItem,storedItem,hp]

lemma sessionInit_quiet {timeout : ℚ} {req : SessionInit} {draw : SessionDraw} {cdsp : CdspStore}
    {answer : SessionAnswer} (hq : Quiet h n)
    (hok : handleSessionInit timeout n.cdsp h req draw now = .ok (cdsp, answer)) :
    answer.items.filterMap itemShown = [] := by
  rw [filterMap_eq_nil_iff]
  intro item hit
  obtain ⟨x,ha,i,hi,rfl⟩ := handleSessionInit_items hok hit
  obtain ⟨hx,hh,-⟩ := getActiveSession_mem ha
  exact (itemShown_request (hq.queue.queue hx (fun hne => hne hh) hi)).1

lemma profileUpdate_quiet {sid : String} {np : ℤ} (hq : Quiet h n)
    (ho : ∀ x, n.cdsp.sessions.get? sid = some x → x.identityHash = h) :
    (handleProfileUpdate n.cdsp sid np now).2.items.filterMap itemShown = [] := by
  rw [filterMap_eq_nil_iff]
  intro item hit
  obtain ⟨x,hx,i,hi,rfl⟩ := handleProfileUpdate_items hit
  have hid : x.sessionId = sid := Table.get?_key hx
  rw [← hid] at hi
  exact (itemShown_request (hq.queue.queue (Table.get?_mem hx) (fun hne => hne (ho x hx)) hi)).2

end

section
variable {prim : ReadPrimitives} {cfg : CdspConfig} {h : String} {n : Node D L}

lemma answer_backend {rq : Option String} {link : L} {req : SyncRequest L} :
    (n.answer prim cfg rq link now req).1.backend = n.backend := by
  cases req <;> simp only [Node.answer] <;> split <;> rfl

lemma Quiet.answer (hq : Quiet h n) (hn : h ≠ "")
    (hb : Ban.isBlocked n.store h = true) (rq : Option String) (link : L) (now : ℚ)
    (req : SyncRequest L) : Quiet h (n.answer prim cfg rq link now req).1 := by
  cases req with
  | read req => exact hq
  | subscribeLive requested channelId supports =>
    simp only [Node.answer]
    split
    next live hok =>
      refine ⟨fun l hl => ?_,hq.tasks,hq.queue⟩
      rcases handleSubscribeLive_identity hok hl with ho | ⟨hp,chId,c,hr⟩
      · exact hq.links l ho
      · rw [(present_eq_some.mp hp).1] at hr
        exact checkChannelRead_blocked hn hb chId c hr
    · exact hq
  | unsubscribe requested channelId =>
    refine ⟨fun l hl => hq.links l ?_,hq.tasks,hq.queue⟩
    simp only [Node.answer,handleUnsubscribe] at hl
    split at hl <;> exact hl
  | requestSealedKey requested channelId => exact ⟨hq.links,hq.tasks,hq.queue⟩
  | sessionInit req draw =>
    simp only [Node.answer]
    split
    next r hok =>
      refine ⟨hq.links,hq.tasks,?_⟩
      unfold handleCdspSessionInit at hok
      split_ifs at hok
      split at hok
      · cases hok
      · exact hq.queue.sessionInit hok
    · exact hq
  | profileUpdate sessionId syncProfile =>
    simp only [Node.answer]
    split
    next r hok =>
      refine ⟨hq.links,hq.tasks,?_⟩
      unfold handleCdspProfileUpdate at hok
      split_ifs at hok
      split at hok
      · cases hok
        exact hq.queue.profileUpdate _ _ now
      · cases hok
    · exact hq
  | aside action => exact hq

lemma answer_shown (hq : Quiet h n) (hn : h ≠ "") (hb : Ban.isBlocked n.store h = true)
    {req : SyncRequest L} (hm : Modest h n req) {link : L} :
    (n.answer prim cfg (some h) link now req).2 = [] := by
  have hp : present (some h) = some h := present_eq_some.mpr ⟨rfl,hn⟩
  cases req with
  | read req =>
    simp only [Node.answer]
    split
    next r hok => exact respond_blocked hn hb hm hok
    · rfl
  | subscribeLive requested channelId supports =>
    simp only [Node.answer]
    split <;> rfl
  | unsubscribe requested channelId => rfl
  | requestSealedKey requested channelId =>
    simp only [Node.answer]
    split
    next resp hok =>
      rw [sealedKey_blocked hm (Prod.ext rfl hok)]
      rfl
    · rfl
  | sessionInit req draw =>
    simp only [Node.answer]
    split
    next r hok =>
      simp only [handleCdspSessionInit,hp] at hok
      split_ifs at hok
      exact sessionInit_quiet hq hok
    · rfl
  | profileUpdate sessionId syncProfile =>
    simp only [Node.answer]
    split
    next r hok =>
      unfold handleCdspProfileUpdate at hok
      split_ifs at hok
      split at hok
      next id newProfile hid =>
        cases hok
        exact profileUpdate_quiet hq fun x hx => hm id x hid hx
      · cases hok
    · rfl
  | aside action => rfl

lemma LiveEvent.addressed (prim : ReadPrimitives) (sm : Option Keyring)
    (s : LiveSubscriptionManager L) (e : LiveEvent L) : Addressed s (e.apply prim sm s) := by
  cases e with
  | pushMessage net channelId m pk =>
    exact .pushMessage prim sm net s channelId m pk
  | pushEvent net push => exact .pushToSubscribers net push s _
  | linkDeath link => exact .handleLinkDeath s link
  | flushBatches net re => exact .flushBatches net re s

structure Silent (h : String) (s : Watch D L) : Prop where
  blocked : Ban.isBlocked s.node.store h = true
  quiet : Quiet h s.node
  shown : s.shown = []

lemma Silent.live {s : Watch D L} (hs : Silent h s) (e : LiveEvent L) :
    Silent h (step prim cfg h s (.live e)) := by
  obtain ⟨hid,added,hj,hv⟩ :=
    LiveEvent.addressed prim s.node.ctx.sealedManager s.node.live e
  have ha : (e.apply prim s.node.ctx.sealedManager s.node.live).journal.drop
      s.node.live.journal.length = added := by
    rw [hj,drop_left]
  have ho : ∀ x ∈ added, x.via.identity ≠ some h :=
    fun x hx hh => hs.quiet.links x.link (hv x hx h hh)
  refine ⟨hs.blocked,⟨fun l hl => hs.quiet.links l (hid l h hl),?_,hs.quiet.queue⟩,?_⟩
  · intro t ht
    simp only [step,ha] at ht
    rcases mem_append.mp ht with hol | hn
    · exact hs.quiet.tasks t hol
    obtain ⟨x,hx,hta⟩ := mem_filterMap.mp hn
    unfold deferredTask at hta
    split at hta
    next k hk =>
      cases hta
      rintro rfl
      exact ho x hx (by rw [hk]; rfl)
    · cases hta
  · simp only [step,ha,hs.shown,nil_append,map_eq_nil_iff]
    refine filter_eq_nil_iff.mpr fun x hx hr => ?_
    unfold reaches at hr
    split at hr
    · exact hs.quiet.links x.link (of_decide_eq_true hr)
    next k hk =>
      obtain rfl := of_decide_eq_true hr
      exact ho x hx (by rw [hk]; rfl)
    · cases hr

lemma Quiet.storeTask (hq : Quiet h n) (index : ℕ) (now : ℚ) :
    Quiet h (storeTask cfg n index now) := by
  unfold ReadsAfterBan.storeTask
  split
  · exact hq
  next t ht =>
    have hne : t.1 ≠ h := hq.tasks t (mem_of_getElem? ht)
    refine ⟨hq.links,fun u hu => hq.tasks u (mem_of_mem_eraseIdx hu),?_⟩
    exact hq.queue.deferLiveEvent hne _ _ _ _ now

lemma Silent.step (hn : h ≠ "") (s : Watch D L) (e : Event D L) (hs : Silent h s)
    (hok : Spares h s e) : Silent h (step prim cfg h s e) := by
  cases e with
  | request rq link req now =>
    refine ⟨?_,hs.quiet.answer hn hs.blocked rq link now req,?_⟩
    · show Ban.isBlocked (s.node.answer prim cfg rq link now req).1.backend.db.store h = true
      rw [answer_backend]
      exact hs.blocked
    simp only [ReadsAfterBan.step,hs.shown,nil_append]
    split_ifs with hr
    · subst hr
      exact answer_shown hs.quiet hn hs.blocked (hok rfl)
    · rfl
  | commit backend => exact ⟨hok,⟨hs.quiet.links,hs.quiet.tasks,hs.quiet.queue⟩,hs.shown⟩
  | live e => exact hs.live e
  | storeDeferred index now =>
    refine ⟨?_,hs.quiet.storeTask index now,hs.shown⟩
    have hst : (storeTask cfg s.node index now).store = s.node.store := by
      unfold ReadsAfterBan.storeTask
      split <;> rfl
    show Ban.isBlocked (storeTask cfg s.node index now).store h = true
    rw [hst]
    exact hs.blocked
  | deferRequest i channelId action payload now =>
    exact ⟨hs.blocked,⟨hs.quiet.links,hs.quiet.tasks,
      hs.quiet.queue.deferSyncItem _ i channelId action payload now⟩,hs.shown⟩
  | cleanup now =>
    exact ⟨hs.blocked,⟨hs.quiet.links,hs.quiet.tasks,hs.quiet.queue.cleanupExpired _ now⟩,hs.shown⟩

end

/-- Where the identity had no link and no waiting events when the ban committed, a run in which it
asks for no member list, key or session that the checks of these would give it shows it nothing. -/
theorem no_reads_after_ban {prim : ReadPrimitives} {cfg : CdspConfig} {owner : Option String}
    {db : KeyStore} {h actor : String} {now : ℚ} {result : BanResult} {n : Node D L}
    (hban : ban owner db h actor now = .ok (result, n.backend.db)) (hquiet : Quiet h n)
    {es : List (Event D L)} (hg : Guarded (step prim cfg h) (Spares h) { node := n } es) :
    (run (step prim cfg h) { node := n } es).shown = [] := by
  obtain ⟨hn,-,-⟩ := ban_ok hban
  have hs : Silent h { node := n } := ⟨isBlocked_ban hban,hquiet,rfl⟩
  exact (Guarded.invariant (Silent.step hn) hs hg).shown

def vault : Channel :=
  { id := "vault", accessMode := .privateAccess, sealed := true }

def vaultMessage : Message :=
  { msgHash := "m1", channelId := "vault", timestamp := .fin 0, type := 1, seq := some 1,
    body := some "hi" }

def vaultKeys (members : List String) : KeyNode where
  db :=
    { store :=
        { channels := .singleton vault
          messages := .singleton vaultMessage
          roles := .singleton { id := "m", name := roleMember }
          assignments := members.map fun h => ⟨"m",h,some "vault"⟩ }
      sealedKeys := members.map fun h => keyRow openCipher h ⟨"vault",[1],1⟩ [] 0 }

lemma vaultKeys_referenced {members : List String} :
    ∀ m ∈ (banned (vaultKeys members) "eve").store.messages.rows,
      ((banned (vaultKeys members) "eve").store.channels.get? m.channelId).isSome = true := by
  intro m hm
  cases mem_singleton.mp hm
  rfl

def vaultContext : MetadataContext Unit where
  sync := { channels := .singleton vault, permissionResolver := some ⟨"node"⟩ }
  describe := fun _ => ()

def vaultNode (members : List String) (cdsp : CdspStore) (live : LiveSubscriptionManager ℕ) :
    Node Unit ℕ where
  backend :=
    { ctx := vaultContext
      server := boardServer
      db := banned (vaultKeys members) "eve"
      resolved := rfl
      referenced := vaultKeys_referenced }
  cdsp := cdsp
  live := live

def subscribed (link : ℕ) (identityHash : String) : LiveSubscriptionManager ℕ where
  live := { subscriptions := [("vault", link, cdspProfileFull)] }
  linkIdentities := .singleton ⟨link,identityHash⟩

def waiting (identityHash : String) : CdspStore where
  sessions := .singleton
    { sessionId := "s1", identityHash := identityHash, syncProfile := cdspProfileMinimal,
      resumeToken := some [9], lastActivity := 0, expiresAt := some 3600 }
  deferred :=
    [{ id := 1, sessionId := "s1", channelId := some "vault", syncAction := syncLiveEvent
       payload := .wireHex "message" (Pusher.encodeMessageForSync vaultMessage), createdAt := 0
       expiresAt := some 3600 }]

def afterBanOfEve (n : Node Unit ℕ) (es : List (Event Unit ℕ)) : Watch Unit ℕ :=
  run (step tagPrimitives {} "eve") { node := n } es

def askHistory : SyncRequest ℕ := .read (.history { channelId := some "vault" } none)

def everyLinkUp : Network ℕ := ⟨fun _ => true,fun _ => true,5⟩

def postToVault : Event Unit ℕ := .live (.pushMessage everyLinkUp "vault" vaultMessage none)

lemma quiet_subscribed {n : Node Unit ℕ} {link : ℕ} {ih h : String}
    (hli : n.live = subscribed link ih) (hne : ih ≠ h) (hta : n.tasks = [])
    (hq : n.cdsp.deferred = []) : Quiet h n := by
  refine ⟨fun l hl => ?_,fun t ht => ?_,fun i hi => ?_⟩
  · rw [hli] at hl
    obtain ⟨row,hr,rfl⟩ := Option.map_eq_some_iff.mp hl
    cases mem_singleton.mp (Table.get?_mem hr)
    exact hne rfl
  · rw [hta] at ht
    cases ht
  · rw [hq] at hi
    cases hi

theorem banned_member_refused :
    ((vaultNode ["alice", "eve"] {} (subscribed 2 "alice")).answer tagPrimitives {} (some "alice")
        2 5 askHistory).2.length = 1 ∧
      (afterBanOfEve (vaultNode ["alice", "eve"] {} (subscribed 2 "alice"))
        [.request (some "eve") 1 askHistory 5,
          .request (some "eve") 1 (.subscribeLive (some "vault") none false) 5,
          postToVault]).shown = [] := by
  refine ⟨by decide +kernel,?_⟩
  obtain ⟨result,hb⟩ := banned_ok (n := vaultKeys ["alice", "eve"]) (h := "eve") (by decide +kernel)
  have hq : Quiet "eve" (vaultNode ["alice", "eve"] {} (subscribed 2 "alice")) :=
    quiet_subscribed rfl (by decide) rfl rfl
  exact no_reads_after_ban hb hq ⟨fun _ => trivial,fun _ => trivial,trivial,trivial⟩

theorem banned_member_reads :
    (ban (some "node") (vaultKeys ["eve"]).db "eve" "node" 1).toOption.isSome = true ∧
      (ban (some "node") (vaultKeys []).db "eve" "node" 1).toOption.isSome = true ∧
      (afterBanOfEve (vaultNode ["eve"] {} {})
        [.request (some "eve") 1 (.read (.memberList { channelId := some "vault" } none)) 5]
      ).shown.length = 1 ∧
      (afterBanOfEve (vaultNode ["eve"] {} {})
        [.request (some "eve") 1 (.requestSealedKey (some "vault") none) 5]).shown.length = 1 ∧
      (afterBanOfEve (vaultNode ["eve"] {} (subscribed 1 "eve")) [postToVault]).shown.length = 1 ∧
      (afterBanOfEve (vaultNode [] (waiting "eve") {})
        [.request (some "eve") 1 (.sessionInit { resumeToken := some [9] } ⟨"s2",[8]⟩) 5]
      ).shown.length = 1 ∧
      (afterBanOfEve (vaultNode [] (waiting "alice") {})
        [.request (some "eve") 1 (.profileUpdate (some "s1") (some cdspProfileFull)) 5]
      ).shown.length = 1 := by
  decide +kernel

end Hokora.ReadsAfterBan
