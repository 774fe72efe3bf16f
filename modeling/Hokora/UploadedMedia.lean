import Hokora.LxmfIngestor
import Hokora.TransitionRuns

/-!
# Files of media messages

Runs of media messages on one disk. A refused message may leave a file.
-/
namespace Hokora.UploadedMedia
open BigEndian Constants Database FileTree List LxmfIngestor MediaAccess MediaFiles MessageProcessor
  PyValue RateLimit Repositories TransitionRuns WriteAuthorisation WriteFrames
open MessageRepo (getByHash)

structure MediaMessage where
  delivery : Delivery
  path : String
  data : Bytes
  media : delivery.envelope.type = msgMedia
  attached : delivery.attachment = some (path, data)

structure Upload where
  msgHash : String
  data : Bytes
  file : Option Path

structure MediaState where
  limiter : Option RateLimiter := none
  store : Store
  disk : Disk
  uploads : List Upload := []

def unlinked? : FileOp → Option Path
  | .unlink p => some p
  | .write _ => none

def written? : FileOp → Option Path
  | .write p => some p
  | .unlink _ => none

def newOps (disk disk' : Disk) : List FileOp := disk'.log.drop disk.log.length

variable {L : Type}

def survivors (s : MediaState) (disk : Disk) : List Upload :=
  s.uploads.filter fun u => u.file.all fun p =>
    ((newOps s.disk disk).filterMap unlinked?).all fun q => q ≠ p

def step (ing : Ingestor L) (s : MediaState) (m : MediaMessage) : MediaState :=
  let r := lxmfIngest ing s.limiter s.store s.disk m.delivery
  match r.outcome with
  | .error _ =>
    { limiter := r.limiter, store := s.store, disk := r.disk, uploads := survivors s r.disk }
  | .ok (message, st) =>
    { limiter := r.limiter
      store := st
      disk := r.disk
      uploads :=
        -- A repeated message has its row already.
        if (getByHash s.store message.msgHash).isSome then survivors s r.disk
        else survivors s r.disk ++
          [⟨message.msgHash,m.data,((newOps s.disk r.disk).filterMap written?).head?⟩] }

/-- The path in each message's row leads to its bytes. -/
def Intact (ms : MediaStorage) (s : MediaState) : Prop :=
  ∀ u ∈ s.uploads, ∃ row path, getByHash s.store u.msgHash = some row ∧
    row.mediaPath = some path ∧ ms.get s.disk.tree path = .ok (some u.data)

variable {data : Bytes} {disk disk' : Disk} {ps : List Path} {s : MediaState} {ms : MediaStorage}

lemma intact_iff : (∀ u ∈ s.uploads, ((getByHash s.store u.msgHash).bind Message.mediaPath).any
      (fun path => ms.get s.disk.tree path = .ok (some u.data)) = true) ↔ Intact ms s := by
  simp only [Option.any_eq_true,Option.bind_eq_some_iff,decide_eq_true_eq]
  refine forall₂_congr fun u _ => ?_
  constructor
  · rintro ⟨path,⟨row,hr,hp⟩,hg⟩
    exact ⟨row,path,hr,hp,hg⟩
  · rintro ⟨row,path,hr,hp,hg⟩
    exact ⟨path,⟨row,hr,hp⟩,hg⟩

instance (ms : MediaStorage) (s : MediaState) : Decidable (Intact ms s) :=
  decidable_of_iff _ intact_iff

/-- The storage takes the upload, under a name that is free. -/
def Accepts (ms : MediaStorage) (s : MediaState) (m : MediaMessage) : Prop :=
  ∃ p, Storable ms m.delivery.host s.disk.tree m.delivery.envelope.channelId (stem m.path) m.data
    (extensionOf m.path) p ∧ s.disk.tree.file? p = none

structure Uploaded (ms : MediaStorage) (disk disk' : Disk) (data : Bytes) (stored : String)
    (ps : List Path) (p : Path) : Prop where
  valid : validatePath ms stored = .ok p
  free : disk.tree.file? p = none
  ops : newOps disk disk' = ps.map .unlink ++ [.write p]
  written : ∃ f, disk'.tree.file? p = some f ∧ f.content = data
  kept : ∀ q, q ≠ p → q ∉ ps → disk'.tree.file? q = disk.tree.file? q

lemma newOps_append {ops : List FileOp} (h : disk'.log = disk.log ++ ops) :
    newOps disk disk' = ops := by
  rw [newOps,h,drop_left]

variable {ing : Ingestor L} {m : MediaMessage}

lemma upload_stored (hms : ing.storage = some ms)
    (h : Accepts ms s m) : ∃ stored ps p, (upload ing.storage s.disk m.delivery).2 =
        { m.delivery.envelope with mediaPath := some stored } ∧
      Uploaded ms s.disk (upload ing.storage s.disk m.delivery).1 m.data stored ps p := by
  obtain ⟨p,hs,hfr⟩ := h
  have hok := store_succeeds hs
  have hu : upload ing.storage s.disk m.delivery =
      ((storeAttachment ms s.disk m.delivery m.path m.data).1, { m.delivery.envelope with
          mediaPath := some (relativePath m.delivery.envelope.channelId (stem m.path)
            (extensionOf m.path)) }) := by
    simp [upload,hms,m.attached,storeAttachment,hok]
  obtain ⟨ps,disk₁,hps,⟨q,tree,hq,hst,hf⟩ | ⟨⟨e,he⟩,-⟩⟩ :=
    store_cases ms m.delivery.host s.disk m.delivery.envelope.channelId (stem m.path) m.data
      (extensionOf m.path)
  · have hsa : q = p := Except.ok.inj (hq.valid.symm.trans hs.writable.valid)
    subst hsa
    have hd : (storeAttachment ms s.disk m.delivery m.path m.data).1 =
        { tree, log := disk₁.log ++ [.write q] } := by
      rw [storeAttachment,hst]
    rw [hu,hd]
    refine ⟨_,ps,q,rfl,hq.valid,hfr,?_,⟨⟨q,m.data,m.delivery.host.now⟩,?_,rfl⟩,?_⟩
    · apply newOps_append
      rw [hps.log,append_assoc]
    · rw [hf,if_pos rfl]
    · intro q' hne hn
      rw [hf,if_neg (Ne.symm hne),hps.files,if_neg hn]
  · rw [hok] at he
    cases he

/-- A record whose file holds the bytes. -/
def Kept (ms : MediaStorage) (s : MediaState) (u : Upload) : Prop :=
  ∃ row path p f, getByHash s.store u.msgHash = some row ∧ row.mediaPath = some path ∧
    validatePath ms path = .ok p ∧ u.file = some p ∧ s.disk.tree.file? p = some f ∧
    f.content = u.data

lemma Kept.get {u : Upload} (h : Kept ms s u) : ∃ row path, getByHash s.store u.msgHash = some row ∧
      row.mediaPath = some path ∧ ms.get s.disk.tree path = .ok (some u.data) := by
  obtain ⟨row,path,p,f,hr,hp,hv,-,hf,hd⟩ := h
  have hdi : ¬ s.disk.tree.isDir p = true := fun hdi =>
    FileSystem.not_file_of_isDir hdi (Option.isSome_iff_exists.mpr ⟨f,hf⟩)
  refine ⟨row,path,hr,hp,?_⟩
  rw [MediaStorage.get,hv,ok_bind,if_neg hdi,hf,Option.map_some,hd]
  rfl

lemma Uploaded.unlinked {stored : String} {p : Path} (h : Uploaded ms disk disk' data stored ps p) :
    (newOps disk disk').filterMap unlinked? = ps := by
  rw [h.ops,filterMap_append,filterMap_map]
  change ps.filterMap some ++ [] = ps
  rw [filterMap_some,append_nil]

lemma Uploaded.file {stored : String} {p : Path} (h : Uploaded ms disk disk' data stored ps p) :
    (newOps disk disk').filterMap written? = [p] := by
  rw [h.ops,filterMap_append,filterMap_map]
  have hn : ps.filterMap (written? ∘ .unlink) = [] :=
    filterMap_eq_nil_iff.mpr fun q _ => rfl
  rw [hn]
  rfl

lemma Kept.after {u : Upload} {stored : String} {q : Path} {st : Store}
    {lim : Option RateLimiter} {us : List Upload} (h : ∀ u ∈ s.uploads, Kept ms s u)
    (hu : u ∈ survivors s disk) (hup : Uploaded ms s.disk disk data stored ps q)
    (hr : ∀ k row, getByHash s.store k = some row → getByHash st k = some row) :
    Kept ms { limiter := lim, store := st, disk := disk, uploads := us } u := by
  obtain ⟨hm,hn⟩ := mem_filter.mp hu
  obtain ⟨row,path,p,f,hro,hpa,hv,hf,hg,hd⟩ := h u hm
  have ho : p ≠ q := by
    intro e
    rw [e,hup.free] at hg
    cases hg
  rw [hf,hup.unlinked,Option.all_some] at hn
  have hk : p ∉ ps := fun hp => of_decide_eq_true (all_eq_true.mp hn p hp) rfl
  refine ⟨row,path,p,f,hr _ _ hro,hpa,hv,hf,?_,hd⟩
  rw [hup.kept p ho hk,hg]

lemma step_kept (hms : ing.storage = some ms)
    (h : ∀ u ∈ s.uploads, Kept ms s u) (hok : Accepts ms s m) :
    ∀ u ∈ (step ing s m).uploads, Kept ms (step ing s m) u := by
  obtain ⟨stored,ps,p,he,hup⟩ := upload_stored hms hok
  have hki : ¬ Mutation (upload ing.storage s.disk m.delivery).2.type := by
    rw [he,show MessageEnvelope.type _ = _ from m.media]
    unfold Mutation
    decide
  intro u hu
  cases ho : (lxmfIngest ing s.limiter s.store s.disk m.delivery).outcome with
  | error e =>
    simp only [step,ho] at hu ⊢
    exact .after h hu hup fun k row hk => hk
  | ok r =>
    obtain ⟨message,st⟩ := r
    obtain ⟨hr,hro,hp⟩ := ingest_stored hki ho
    simp only [step,ho] at hu ⊢
    split_ifs at hu with hkn
    · exact .after h hu hup hr
    rcases mem_append.mp hu with hu | hu
    · exact .after h hu hup hr
    rw [mem_singleton.mp hu]
    obtain ⟨f,hf,hd⟩ := hup.written
    rw [Option.not_isSome_iff_eq_none] at hkn
    refine ⟨message,stored,p,f,hro,?_,hup.valid,?_,hf,hd⟩
    · rw [hp hkn,he]
    · exact congrArg List.head? hup.file

/-- In a run in which every upload is stored under a free name, the path of every message leads
to its bytes. -/
theorem uploads_intact {ing : Ingestor L} {ms : MediaStorage} (hms : ing.storage = some ms)
    (st : Store) (disk : Disk) {messages : List MediaMessage}
    (h : Guarded (step ing) (Accepts ms) { store := st, disk := disk } messages) :
    Intact ms (run (step ing) { store := st, disk := disk } messages) := by
  have hst : ∀ u ∈ (MediaState.uploads { store := st, disk := disk }),
      Kept ms { store := st, disk := disk } u := fun u hu => absurd hu not_mem_nil
  have hk := Guarded.invariant (I := fun s => ∀ u ∈ s.uploads, Kept ms s u)
    (fun s m hs hok => step_kept hms hs hok) hst h
  exact fun u hu => (hk u hu).get

def mediaFrom (sender path : String) (data : Bytes) : Delivery where
  envelope :=
    { channelId := "lobby", senderHash := sender, timestamp := .fin 2, type := msgMedia,
      mediaPath := some path }
  mediaBytes := some data
  moment := ⟨2,[]⟩
  host := sampleHost

def aliceCat : MediaMessage where
  delivery := mediaFrom "alice" "cat.png" [1]
  path := "cat.png"
  data := [1]
  media := rfl
  attached := by decide

def bobCat : MediaMessage where
  delivery := mediaFrom "bob" "pets/cat.png" [2]
  path := "pets/cat.png"
  data := [2]
  media := rfl
  attached := by decide

def bobDog : MediaMessage where
  delivery := mediaFrom "bob" "dog.png" [2]
  path := "dog.png"
  data := [2]
  media := rfl
  attached := by decide

def freshNode : MediaState := { store := sampleThreads, disk := { tree := .empty } }

lemma catAndDog_accepted :
    Guarded (step sampleIngestor) (Accepts sampleStorage) freshNode [aliceCat, bobDog] := by
  refine ⟨⟨["media", "lobby", "cat.png"],⟨by decide +kernel,⟨[],rfl,.inl (by decide +kernel)⟩,
    ⟨by decide +kernel,rfl,by decide +kernel,rfl,by decide +kernel⟩⟩,rfl⟩,
    ⟨["media", "lobby", "dog.png"],⟨by decide +kernel,
      ⟨[⟨["media", "lobby", "cat.png"],[1],1⟩],by decide +kernel,.inl (by decide +kernel)⟩,
      ⟨by decide +kernel,by decide +kernel,by decide +kernel,rfl,by decide +kernel⟩⟩,
      by decide +kernel⟩,trivial⟩

theorem catAndDog_intact :
    (run (step sampleIngestor) freshNode [aliceCat, bobDog]).uploads.length = 2 ∧
      Intact sampleStorage (run (step sampleIngestor) freshNode [aliceCat, bobDog]) :=
  ⟨by decide +kernel,uploads_intact rfl sampleThreads { tree := .empty } catAndDog_accepted⟩

theorem twoCats_not_intact :
    (run (step sampleIngestor) freshNode [aliceCat, bobCat]).uploads.length = 2 ∧
      ¬ Intact sampleStorage (run (step sampleIngestor) freshNode [aliceCat, bobCat]) := by
  decide +kernel

end Hokora.UploadedMedia
