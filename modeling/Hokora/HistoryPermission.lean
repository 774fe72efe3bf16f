import Hokora.ReadHandlers

/-!
# The permission to read history

History, pins and threads against the READ_HISTORY bit.
-/
namespace Hokora.HistoryPermission
open Constants Database Permissions PyValue ReadHandlers Repositories

inductive PriorRequest where
  | history (req : HistoryRequest) (channelId : Option String)
  | pins (requested channelId : Option String)
  | thread (rootHash : Option String) (limit : Option ℤ)

def respond (prim : ReadPrimitives) (ctx : SyncContext) (st : Store)
    (requesterHash : Option String) : PriorRequest → Py (List Entry)
  | .history req channelId =>
    (handleHistory prim ctx st req channelId requesterHash).map HistoryResponse.messages
  | .pins requested channelId => handleGetPins prim ctx st requested channelId requesterHash
  | .thread rootHash limit => handleThread prim ctx st rootHash limit requesterHash

def channelOf (st : Store) : PriorRequest → Option String
  | .history req channelId => present (req.channelId.or channelId)
  | .pins requested channelId => present (requested.or channelId)
  | .thread rootHash _ =>
    ((present rootHash).bind (MessageRepo.getByHash st)).map Message.channelId

def pageLimit (ctx : SyncContext) (requesterHash : Option String) (limit : Option ℤ) : ℤ :=
  let profile := getSessionProfile ctx requesterHash
  min (limit.getD profile.defaultSyncLimit) profile.maxSyncLimit

def selected (ctx : SyncContext) (st : Store) (requesterHash : Option String) :
    PriorRequest → List Message
  | .history req channelId =>
    (getHistory st ((present (req.channelId.or channelId)).getD "") req.sinceSeq
      (pageLimit ctx requesterHash req.limit)
      (historyDirection (getSessionProfile ctx requesterHash) req)).filter
        fun m => m.type ≠ msgThreadReply
  | .pins requested channelId => getPinned st ((present (requested.or channelId)).getD "")
  | .thread rootHash limit =>
    getThreadMessages st ((present rootHash).getD "") (pageLimit ctx requesterHash limit)

def supportsSealedAtRest : PriorRequest → Bool
  | .history req _ => req.supportsSealedAtRest
  | _ => false

def Permitted (resolver : PermissionResolver) (ctx : SyncContext) (st : Store)
    (requester chId : String) : Prop :=
  ∃ c, ctx.channels.get? chId = some c ∧
    Perms.has (getEffectivePermissions resolver st requester c) permReadHistory = true

/-- A response with messages is for a requester with the flag. -/
def Enforced (prim : ReadPrimitives) (resolver : PermissionResolver) (ctx : SyncContext)
    (st : Store) (requester : String) (req : PriorRequest) : Prop :=
  ∀ es, respond prim ctx st (some requester) req = .ok es → es ≠ [] →
    ∃ chId, channelOf st req = some chId ∧ Permitted resolver ctx st requester chId

/-- The read gate lets the requester into the channel. -/
def LetIn (resolver : PermissionResolver) (ctx : SyncContext) (st : Store)
    (requester chId : String) : Prop :=
  ∃ c, ctx.channels.get? chId = some c ∧ Ban.isBlocked st requester = false ∧
    (c.accessMode = .privateAccess → resolver.nodeOwnerHash = requester ∨
      RoleRepo.getIdentityRoles st requester (some chId) true ≠ [])

structure Overlooked (resolver : PermissionResolver) (ctx : SyncContext) (st : Store)
    (requester : String) (req : PriorRequest) (chId : String) : Prop where
  channel : channelOf st req = some chId
  gate : chId ≠ "" → LetIn resolver ctx st requester chId
  rows : selected ctx st (some requester) req ≠ []
  flag : ¬ Permitted resolver ctx st requester chId

section
variable {prim : ReadPrimitives} {ctx : SyncContext} {st : Store} {rq : Option String}

lemma requireChannelId_eq_ok {requested ch : Option String} {text chId : String} :
    requireChannelId requested ch text = .ok chId ↔ present (requested.or ch) = some chId := by
  refine ⟨requireChannelId_ok,fun h => ?_⟩
  rw [requireChannelId,h]

lemma respond_ok {req : PriorRequest} {es : List Entry} :
    respond prim ctx st rq req = .ok es ↔ ∃ chId, channelOf st req = some chId ∧
        (chId ≠ "" → ∃ c, checkChannelRead ctx st chId rq = .ok c) ∧
        es = encodeMessagesWithKeys prim st ctx.sealedManager (supportsSealedAtRest req)
          (selected ctx st rq req) := by
  cases req with
  | history req channelId =>
    simp only [respond,channelOf,map_eq_ok,handleHistory,bind_eq_ok,requireChannelId_eq_ok]
    constructor
    · rintro ⟨resp,⟨chId,hid,c,hr,h⟩,rfl⟩
      cases h
      refine ⟨chId,hid,fun _ => ⟨c,hr⟩,?_⟩
      simp only [selected,hid,Option.getD_some]
      rfl
    rintro ⟨chId,hid,hg,rfl⟩
    obtain ⟨c,hr⟩ := hg (present_eq_some.mp hid).2
    refine ⟨_,⟨chId,hid,c,hr,rfl⟩,?_⟩
    simp only [selected,hid,Option.getD_some]
    rfl
  | pins requested channelId =>
    simp only [respond,channelOf,handleGetPins,bind_eq_ok,requireChannelId_eq_ok]
    constructor
    · rintro ⟨chId,hid,c,hr,h⟩
      cases h
      refine ⟨chId,hid,fun _ => ⟨c,hr⟩,?_⟩
      simp only [selected,hid,Option.getD_some]
      rfl
    rintro ⟨chId,hid,hg,rfl⟩
    obtain ⟨c,hr⟩ := hg (present_eq_some.mp hid).2
    refine ⟨chId,hid,c,hr,?_⟩
    simp only [selected,hid,Option.getD_some]
    rfl
  | thread rootHash limit =>
    simp only [respond,channelOf,handleThread]
    cases hro : present rootHash with
    | none => simp
    | some hash =>
      cases hm : MessageRepo.getByHash st hash with
      | none => simp [hm]
      | some root =>
        simp only [Option.bind_some,hm,Option.map_some,Option.some.injEq]
        have hrow : selected ctx st rq (.thread rootHash limit) =
            getThreadMessages st hash (pageLimit ctx rq limit) := by
          simp [selected,hro]
        rw [hrow]
        constructor
        · intro h
          refine ⟨root.channelId,rfl,?_⟩
          split_ifs at h with hn
          · obtain ⟨c,hr,h⟩ := bind_ok h
            cases h
            exact ⟨fun _ => ⟨c,hr⟩,rfl⟩
          · cases h
            exact ⟨fun hne => absurd hne hn,rfl⟩
        · rintro ⟨_,rfl,hg,rfl⟩
          split_ifs with hn
          · obtain ⟨c,hr⟩ := hg hn
            rw [hr]
            rfl
          · rfl

end

/-- The flag is enforced on a request exactly where the requester has it, the read gate refuses
them for another reason, or there is nothing to show. -/
theorem historyPermission_enforced_iff (prim : ReadPrimitives) (resolver : PermissionResolver)
    {ctx : SyncContext} (hresolver : ctx.permissionResolver = some resolver) (st : Store)
    {requester : String} (hrequester : requester ≠ "") (req : PriorRequest) :
    Enforced prim resolver ctx st requester req ↔
      ∀ chId, ¬ Overlooked resolver ctx st requester req chId := by
  have hpr : present (some requester) = some requester :=
    present_eq_some.mpr ⟨rfl,hrequester⟩
  have hg : ∀ chId, (∃ c, checkChannelRead ctx st chId (some requester) = .ok c) ↔
      LetIn resolver ctx st requester chId := by
    intro chId
    simp [LetIn,checkChannelRead_ok,hpr,hresolver]
  constructor
  · intro he chId ho
    have hok : respond prim ctx st (some requester) req = .ok (encodeMessagesWithKeys prim st
        ctx.sealedManager (supportsSealedAtRest req) (selected ctx st (some requester) req)) :=
      respond_ok.mpr ⟨chId,ho.channel,fun hne => (hg chId).mpr (ho.gate hne),rfl⟩
    have hs : encodeMessagesWithKeys prim st ctx.sealedManager (supportsSealedAtRest req)
        (selected ctx st (some requester) req) ≠ [] := fun h => ho.rows (List.map_eq_nil_iff.mp h)
    obtain ⟨chId',hc,hp⟩ := he _ hok hs
    rw [ho.channel] at hc
    cases hc
    exact ho.flag hp
  · intro hn es hok hes
    obtain ⟨chId,hc,hr,rfl⟩ := respond_ok.mp hok
    refine ⟨chId,hc,?_⟩
    by_contra hf
    refine hn chId ⟨hc,fun hne => (hg chId).mp (hr hne),fun h => hes ?_,hf⟩
    rw [h]
    rfl

def archive : Channel := { id := "archive" }

def openArchive : Store where
  channels := .singleton archive
  roles := .singleton { id := "e", name := roleEveryone, permissions := 0x80AF }
  messages := .singleton
    { msgHash := "root", channelId := "archive", seq := some 1, timestamp := .fin 1,
      type := msgText, body := some "minutes", pinned := true }

def archiveContext : SyncContext :=
  { channels := .singleton archive, permissionResolver := some ⟨"owner"⟩ }

theorem archive_shown : ¬ Enforced noDecryption ⟨"owner"⟩ archiveContext openArchive "alice"
        (.history {} (some "archive")) ∧
      ¬ Enforced noDecryption ⟨"owner"⟩ archiveContext openArchive "alice"
        (.pins none (some "archive")) ∧
      ¬ Enforced noDecryption ⟨"owner"⟩ archiveContext openArchive "alice"
        (.thread (some "root") none) := by
  have hf : ¬ Permitted ⟨"owner"⟩ archiveContext openArchive "alice" "archive" := by
    rintro ⟨c,hc,hh⟩
    have hca : archiveContext.channels.get? "archive" = some archive := by decide +kernel
    obtain rfl := Option.some.inj (hc.symm.trans hca)
    exact absurd hh (by decide +kernel)
  have hr : ∃ c, checkChannelRead archiveContext openArchive "archive" (some "alice") = .ok c :=
    toOption_isSome.mp (by decide +kernel)
  have hs : ∀ req, channelOf openArchive req = some "archive" →
      selected archiveContext openArchive (some "alice") req ≠ [] →
      ¬ Enforced noDecryption ⟨"owner"⟩ archiveContext openArchive "alice" req := by
    intro req hcha hro he
    have hok : respond noDecryption archiveContext openArchive (some "alice") req = .ok _ :=
      respond_ok.mpr ⟨"archive",hcha,fun _ => hr,rfl⟩
    obtain ⟨chId,hch,hp⟩ := he _ hok fun h => hro (List.map_eq_nil_iff.mp h)
    rw [hcha] at hch
    cases hch
    exact hf hp
  exact ⟨hs _ (by decide +kernel) (by decide +kernel),hs _ (by decide +kernel) (by decide +kernel),
    hs _ (by decide +kernel) (by decide +kernel)⟩

theorem owner_reads_archive : Enforced noDecryption ⟨"owner"⟩ archiveContext openArchive "owner"
      (.history {} (some "archive")) := by
  refine (historyPermission_enforced_iff noDecryption ⟨"owner"⟩ rfl openArchive
    (by decide) _).mpr ?_
  intro chId ho
  have hc : some "archive" = some chId := ho.channel
  cases hc
  exact ho.flag ⟨archive,by decide +kernel,by decide +kernel⟩

end Hokora.HistoryPermission
