import Hokora.MediaFiles
import Hokora.ReadIsolation

/-!
# Who is sent a media file

The checks before a file is sent, and the transfer as bytes. Resources of RNS are not modelled.
-/
namespace Hokora.MediaAccess
open BigEndian Constants Database FileTree MediaFiles PushReceive PyValue ReadHandlers ReadIsolation

structure ProfileSwitches where
  mediaFetch : Bool
  includeMetadata : Bool

def fullSwitches : ProfileSwitches := ⟨true,true⟩

def cdspProfileSwitches (profile : ℤ) : ProfileSwitches :=
  if profile = cdspProfilePrioritized then ⟨false,false⟩
  else if profile = cdspProfileMinimal then ⟨false,false⟩
  else if profile = cdspProfileBatched then ⟨true,true⟩
  else fullSwitches

def getSessionSwitches (ctx : SyncContext) (requesterHash : Option String) : ProfileSwitches :=
  if ctx.hasCdspManager = false then fullSwitches
  else match getActiveSession ctx.sessions requesterHash with
  | none => fullSwitches
  | some s => cdspProfileSwitches s.syncProfile

structure Transfer (L : Type) where
  link : L
  file : Path
  data : Bytes

variable {L : Type}

def serveMedia (ms : MediaStorage) (tree : FileSystem Bytes) (link : L) (relativePath : String) :
    Py (Option (Transfer L)) := do
  let data ← ms.get tree relativePath
  let file ← validatePath ms relativePath
  match data with
  | none => pure none
  | some data => pure (if data = [] then none else some ⟨link,file,data⟩)

structure FetchRequest where
  channelId : Option String := none
  path : Option String := none

structure MediaServer where
  storage : Option MediaStorage
  tree : FileSystem Bytes

def checkNamedChannel (ctx : SyncContext) (st : Store) (named requesterHash : Option String) :
    Py Unit :=
  match present named with
  | some chId => do
      let _ ← checkChannelRead ctx st chId requesterHash
      pure ()
  | none => pure ()

def handleFetchMedia (ctx : SyncContext) (st : Store) (server : MediaServer) (req : FetchRequest)
    (channelId requesterHash : Option String) (link : Option L) : Py (Option (Transfer L)) :=
  if (getSessionSwitches ctx requesterHash).mediaFetch = false then .ok none
  else do
    checkNamedChannel ctx st (req.channelId.or channelId) requesterHash
    match present req.path, server.storage, link with
    | none, _, _ => .error (syncError "No path provided for fetch_media")
    | some _, none, _ => .error (syncError "Media transfer not available")
    | some _, some _, none => .error (syncError "No link provided for fetch_media")
    | some path, some ms, some link => do
        let served ← serveMedia ms server.tree link path
        match served with
        | none => .error (syncError ("Media not found: " ++ path))
        | some t => pure (some t)

structure Fetchable (ctx : SyncContext) (st : Store) (server : MediaServer) (req : FetchRequest)
    (channelId requesterHash : Option String) (link : Option L) (p : Path) : Prop where
  allowed : (getSessionSwitches ctx requesterHash).mediaFetch = true
  gate : ∀ chId, present (req.channelId.or channelId) = some chId →
    Readable ctx st requesterHash chId
  path : ∃ ms s, server.storage = some ms ∧ present req.path = some s ∧ validatePath ms s = .ok p
  linked : link.isSome
  content : ∃ f, server.tree.file? p = some f ∧ f.content ≠ []

lemma serveMedia_ok {ms : MediaStorage} {tree : FileSystem Bytes} {link : L} {s : String}
    {t : Transfer L} :
    serveMedia ms tree link s = .ok (some t) ↔
      ∃ f, validatePath ms s = .ok t.file ∧ tree.file? t.file = some f ∧ f.content ≠ [] ∧
        t = ⟨link,t.file,f.content⟩ := by
  constructor
  · intro h
    obtain ⟨data,hg,h⟩ := bind_ok h
    obtain ⟨p,hp,h⟩ := bind_ok h
    rw [MediaStorage.get,hp,ok_bind] at hg
    split_ifs at hg
    cases hf : tree.file? p with
    | none =>
      rw [hf] at hg
      cases hg
      cases h
    | some f =>
      rw [hf] at hg
      cases hg
      by_cases he : f.content = []
      · simp [he,pure,Except.pure] at h
      simp only [Option.map_some,if_neg he] at h
      cases h
      exact ⟨f,hp,hf,he,rfl⟩
  · rintro ⟨f,hp,hf,he,ht⟩
    have hd : ¬ tree.isDir t.file = true := fun hd =>
      FileSystem.not_file_of_isDir hd (Option.isSome_iff_exists.mpr ⟨f,hf⟩)
    rw [serveMedia,MediaStorage.get,hp,ok_bind,if_neg hd,hf]
    simp only [Option.map_some,pure_bind,ok_bind,if_neg he]
    rw [← ht]
    rfl

lemma checkNamedChannel_ok {ctx : SyncContext} {st : Store} {named rq : Option String} :
    checkNamedChannel ctx st named rq = .ok () ↔
      ∀ chId, present named = some chId → Readable ctx st rq chId := by
  unfold checkNamedChannel
  cases present named with
  | none => simp [pure,Except.pure]
  | some chId =>
    constructor
    · intro h id hid
      cases hid
      obtain ⟨c,hc,-⟩ := bind_ok h
      exact ⟨c,hc⟩
    · intro h
      obtain ⟨c,hc⟩ := h chId rfl
      exact bind_eq_ok.mpr ⟨c,hc,rfl⟩

section
variable {ctx : SyncContext} {st : Store} {server : MediaServer} {req : FetchRequest}
  {channelId rq : Option String} {link : Option L} {p : Path}

lemma handleFetchMedia_ok {t : Transfer L}
    (h : handleFetchMedia ctx st server req channelId rq link = .ok (some t)) :
    Fetchable ctx st server req channelId rq link t.file := by
  unfold handleFetchMedia at h
  by_cases hd : (getSessionSwitches ctx rq).mediaFetch = false
  · rw [if_pos hd] at h
    cases h
  rw [if_neg hd] at h
  obtain ⟨u,hg,h⟩ := bind_ok h
  cases hp : present req.path with
  | none =>
    rw [hp] at h
    cases h
  | some path =>
  cases hms : server.storage with
  | none =>
    rw [hp,hms] at h
    cases h
  | some ms =>
  cases link with
  | none =>
    rw [hp,hms] at h
    cases h
  | some link =>
    rw [hp,hms] at h
    obtain ⟨served,hs,h⟩ := bind_ok h
    cases served with
    | none => cases h
    | some t' =>
      cases h
      obtain ⟨f,hv,hf,hne,-⟩ := serveMedia_ok.mp hs
      exact ⟨Bool.not_eq_false _ |>.mp hd,checkNamedChannel_ok.mp hg,
        ⟨ms,path,hms,hp,hv⟩,rfl,f,hf,hne⟩

lemma Fetchable.sent (h : Fetchable ctx st server req channelId rq link p) :
    ∃ t, handleFetchMedia ctx st server req channelId rq link = .ok (some t) ∧ t.file = p := by
  obtain ⟨ms,path,hms,hp,hv⟩ := h.path
  obtain ⟨f,hf,hne⟩ := h.content
  obtain ⟨l,rfl⟩ := Option.isSome_iff_exists.mp h.linked
  refine ⟨⟨l,p,f.content⟩,?_,rfl⟩
  have hs : serveMedia ms server.tree l path = .ok (some ⟨l,p,f.content⟩) :=
    serveMedia_ok.mpr ⟨f,hv,hf,hne,rfl⟩
  unfold handleFetchMedia
  rw [if_neg (by rw [h.allowed]; decide),checkNamedChannel_ok.mpr h.gate,ok_bind]
  simp only [hp,hms,hs,ok_bind]
  rfl

end

structure StoredFile where
  storage : MediaStorage
  host : Host
  disk : Disk
  channelId : String
  msgHash : String
  data : Bytes
  extension : String
  file : Path
  stored : (store storage host disk channelId msgHash data extension).2 =
    .ok (relativePath channelId msgHash extension)
  placed : validatePath storage (relativePath channelId msgHash extension) = .ok file

/-- A fetch keeps a stored file to the readers of its channel exactly where the requester is
such a reader or the request does not lead to the file at all. -/
theorem fetch_isolated_iff (ctx : SyncContext) (st : Store) (server : MediaServer)
    (stored : StoredFile) (req : FetchRequest) (channelId requesterHash : Option String)
    (link : Option L) :
    (∀ t, handleFetchMedia ctx st server req channelId requesterHash link = .ok (some t) →
        t.file = stored.file → Readable ctx st requesterHash stored.channelId) ↔
      Readable ctx st requesterHash stored.channelId ∨
        ¬ Fetchable ctx st server req channelId requesterHash link stored.file := by
  constructor
  · intro h
    by_cases hfe : Fetchable ctx st server req channelId requesterHash link stored.file
    · obtain ⟨t,ht,hf⟩ := hfe.sent
      exact .inl (h t ht hf)
    · exact .inr hfe
  · intro h t ht hf
    exact h.resolve_right (not_not_intro (hf ▸ handleFetchMedia_ok ht))

def sampleStorage : MediaStorage := .init ["media"] (by decide)

def sampleHost : Host := { now := 1 }

def boardFile : StoredFile where
  storage := sampleStorage
  host := sampleHost
  disk := { tree := .empty }
  channelId := "board"
  msgHash := "plan"
  data := [7]
  extension := "bin"
  file := ["media", "board", "plan.bin"]
  stored := by decide +kernel
  placed := by decide +kernel

def boardServer : MediaServer :=
  ⟨some sampleStorage,
    (store sampleStorage sampleHost { tree := .empty } "board" "plan" [7]).1.tree⟩

def bareRequest : FetchRequest := { path := some "board/plan.bin" }

theorem board_file_sent : ¬ Readable boardContext privateBoard none boardFile.channelId ∧
      ¬ ∀ t, handleFetchMedia boardContext privateBoard boardServer bareRequest none none
        (some ()) = .ok (some t) → t.file = boardFile.file →
          Readable boardContext privateBoard none boardFile.channelId := by
  have hc : ¬ Readable boardContext privateBoard none boardFile.channelId := by
    decide +kernel
  obtain ⟨sent,hs⟩ := Option.isSome_iff_exists.mp (show (handleFetchMedia boardContext
    privateBoard boardServer bareRequest none none (some ())).toOption.join.isSome = true by
      decide +kernel)
  have hf : (handleFetchMedia boardContext privateBoard boardServer bareRequest none none
      (some ())).toOption.join.map Transfer.file = some boardFile.file := by
    decide +kernel
  refine ⟨hc,fun h => hc (h sent ?_ ?_)⟩
  · exact toOption_eq_some.mp (Option.join_eq_some_iff.mp hs)
  · rw [hs] at hf
    exact Option.some.inj hf

end Hokora.MediaAccess
