import Mathlib.Data.List.Sort
import Hokora.Constants
import Hokora.FileTree
import Hokora.PyValue

/-!
# Media files

Storing, pruning and reading over a file tree. The clock and the files that can be opened are given.
-/
namespace Hokora.MediaFiles
open BigEndian Constants FileTree List PyValue
open FileSystem (file? isDir mem_children mkdirs_dirs mkdirs_files mkdirs_isSome not_file_of_isDir
  walk_eq write_isSome)
open KeyedTable.Table (get?_key get?_mem get?_of_mem)

structure Host where
  now : ℕ
  creates : Path → Bool := fun _ => true
  opens : Path → Bool := fun _ => true

inductive FileOp where
  | write (p : Path)
  | unlink (p : Path)
  deriving DecidableEq

structure Disk where
  tree : FileSystem Bytes
  log : List FileOp := []

def Disk.unlink (disk : Disk) (p : Path) : Disk :=
  { tree := disk.tree.unlink p, log := disk.log ++ [.unlink p] }

structure MediaStorage where
  mediaDir : Path
  maxUploadBytes : ℕ
  maxStorageBytes : ℕ
  maxGlobalStorageBytes : ℕ
  named : ∀ c ∈ mediaDir, IsName c
  capped : maxUploadBytes ≤ maxUploadBytesLimit

def MediaStorage.init (mediaDir : Path) (named : ∀ c ∈ mediaDir, IsName c)
    (maxUploadBytes : ℕ := Constants.maxUploadBytes)
    (maxStorageBytes : ℕ := Constants.maxStorageBytes)
    (maxGlobalStorageBytes : ℕ := Constants.maxGlobalStorageBytes) : MediaStorage :=
  { mediaDir, maxUploadBytes := min maxUploadBytes maxUploadBytesLimit, maxStorageBytes,
    maxGlobalStorageBytes, named, capped := Nat.min_le_right _ _ }

def mediaError (text : String) : PyError := .hokora .mediaError text

def hasNul (s : String) : Bool := s.toList.any fun c => c.toNat = 0

def validatePath (ms : MediaStorage) (relativePath : String) : Py Path :=
  if hasNul relativePath then .error .valueError
  else if ms.mediaDir <+: resolve ms.mediaDir relativePath then
    .ok (resolve ms.mediaDir relativePath)
  else .error (mediaError "Path traversal blocked")

def MediaStorage.get (ms : MediaStorage) (tree : FileSystem Bytes) (relativePath : String) :
    Py (Option Bytes) := do
  let p ← validatePath ms relativePath
  if tree.isDir p then .error .osError
  else pure ((tree.file? p).map File.content)

def delete (ms : MediaStorage) (host : Host) (disk : Disk) (relativePath : String) :
    Disk × Py Unit :=
  match validatePath ms relativePath with
  | .error e => (disk, .error e)
  | .ok p =>
    if (disk.tree.file? p).isSome then
      if host.opens p then (disk.unlink p, .ok ())
      else (disk, .error .osError)
    else if disk.tree.isDir p then (disk, .error .osError)
    else (disk, .ok ())

def usage (fs : List (File Bytes)) : ℕ := fs.foldr (fun f n => f.content.length + n) 0

def locate (ms : MediaStorage) (tree : FileSystem Bytes) (channelId : String) : Option Path :=
  if hasNul channelId then none
  else tree.walk [] (start ms.mediaDir channelId ++ parts channelId)

def listFiles (tree : FileSystem Bytes) (d : Path) : Py (List (File Bytes)) :=
  if (tree.file? d).isSome then .error .osError
  else .ok (if tree.isDir d then tree.children d else [])

def channelFiles (ms : MediaStorage) (tree : FileSystem Bytes) (channelId : String) :
    Py (List (File Bytes)) :=
  match locate ms tree channelId with
  | none => .ok []
  | some d => listFiles tree d

def getChannelUsage (ms : MediaStorage) (tree : FileSystem Bytes) (channelId : String) : Py ℕ := do
  let fs ← channelFiles ms tree channelId
  pure (usage fs)

def getGlobalUsage (ms : MediaStorage) (tree : FileSystem Bytes) : Py ℕ :=
  if (tree.file? ms.mediaDir).isSome then .error .osError
  else .ok (if tree.isDir ms.mediaDir then
    (tree.subdirs ms.mediaDir).foldr (fun d n => usage (tree.children d) + n) 0 else 0)

def pruneFiles (ms : MediaStorage) (host : Host) (channelId : String) (needed : ℕ) :
    List (File Bytes) → ℕ → Disk → Disk × Py Unit
  | [], _, disk => (disk, .ok ())
  | f :: fs, freed, disk =>
    if needed ≤ freed then (disk, .ok ())
    else
      match delete ms host disk (channelId ++ "/" ++ f.name) with
      | (disk', .error e) => (disk', .error e)
      | (disk', .ok ()) =>
        pruneFiles ms host channelId needed fs (freed + f.content.length) disk'

def oldestFirst (fs : List (File Bytes)) : List (File Bytes) :=
  fs.insertionSort fun a b => a.mtime ≤ b.mtime

def pruneOldest (ms : MediaStorage) (host : Host) (disk : Disk) (channelId : String)
    (needed : ℕ) : Disk × Py Unit :=
  match channelFiles ms disk.tree channelId with
  | .error e => (disk, .error e)
  | .ok fs => pruneFiles ms host channelId needed (oldestFirst fs) 0 disk

def relativePath (channelId msgHash extension : String) : String :=
  channelId ++ "/" ++ (msgHash ++ "." ++ extension)

def place (ms : MediaStorage) (host : Host) (disk : Disk) (rel : String) (data : Bytes) :
    Disk × Py String :=
  match validatePath ms rel with
  | .error e => (disk, .error e)
  | .ok p =>
    if disk.tree.isDir p.dropLast || host.creates p.dropLast then
      match disk.tree.mkdirs p.dropLast with
      | none => (disk, .error .osError)
      | some tree =>
        if host.opens p then
          match tree.write p data host.now with
          | none => ({ disk with tree := tree }, .error .osError)
          | some tree' => ({ tree := tree', log := disk.log ++ [.write p] }, .ok rel)
        else ({ disk with tree := tree }, .error .osError)
    else (disk, .error .osError)

def makeRoom (ms : MediaStorage) (host : Host) (disk : Disk) (channelId : String) (size : ℕ) :
    Disk × Py Unit :=
  match getChannelUsage ms disk.tree channelId with
  | .error e => (disk, .error e)
  | .ok u =>
    if ms.maxStorageBytes < u + size then
      match pruneOldest ms host disk channelId size with
      | (disk', .error e) => (disk', .error e)
      | (disk', .ok ()) =>
        match getChannelUsage ms disk'.tree channelId with
        | .error e => (disk', .error e)
        | .ok u' =>
          if ms.maxStorageBytes < u' + size then
            (disk', .error (mediaError "Channel storage quota exceeded"))
          else (disk', .ok ())
    else (disk, .ok ())

def admission (ms : MediaStorage) (tree : FileSystem Bytes) (size : ℕ) : Py Unit := do
  if ms.maxUploadBytes < size then
    .error (mediaError ("File size " ++ toString size ++ " exceeds max upload size " ++
      toString ms.maxUploadBytes))
  let g ← getGlobalUsage ms tree
  if ms.maxGlobalStorageBytes < g + size then
    .error (mediaError "Global storage quota exceeded")

def store (ms : MediaStorage) (host : Host) (disk : Disk) (channelId msgHash : String)
    (data : Bytes) (extension : String := "bin") : Disk × Py String :=
  match admission ms disk.tree data.length with
  | .error e => (disk, .error e)
  | .ok () =>
    match makeRoom ms host disk channelId data.length with
    | (disk', .error e) => (disk', .error e)
    | (disk', .ok ()) =>
      place ms host disk' (relativePath channelId msgHash extension) data

structure Unlinks (disk : Disk) (ps : List Path) (disk' : Disk) : Prop where
  log : disk'.log = disk.log ++ ps.map .unlink
  files : ∀ q, disk'.tree.file? q = if q ∈ ps then none else disk.tree.file? q
  dirs : disk'.tree.dirs = disk.tree.dirs

lemma Unlinks.refl (disk : Disk) : Unlinks disk [] disk :=
  ⟨(append_nil _).symm,fun _ => rfl,rfl⟩

variable {ps : List Path}

lemma Unlinks.trans {a b c : Disk} {qs : List Path} (h : Unlinks a ps b) (h' : Unlinks b qs c) :
    Unlinks a (ps ++ qs) c := by
  refine ⟨?_,fun q => ?_,h'.dirs.trans h.dirs⟩
  · rw [h'.log,h.log,append_assoc,map_append]
  rw [h'.files,h.files]
  by_cases hq : q ∈ qs
  · simp [hq]
  · simp [hq]

section
variable {ms : MediaStorage} {host : Host} {disk : Disk} {ch : String} {rel : String}
  {data : Bytes} {p : Path}

def Deletable (ms : MediaStorage) (host : Host) (tree : FileSystem Bytes) (rel : String)
    (p : Path) : Prop :=
  validatePath ms rel = .ok p ∧ (tree.file? p).isSome ∧ host.opens p

lemma delete_of_deletable (h : Deletable ms host disk.tree rel p) :
    delete ms host disk rel = (disk.unlink p, .ok ()) := by
  obtain ⟨hv,hf,ho⟩ := h
  simp [delete,hv,if_pos hf,if_pos ho]

lemma delete_of_not (h : ∀ p, ¬ Deletable ms host disk.tree rel p) :
    (delete ms host disk rel).1 = disk := by
  unfold delete
  split
  · rfl
  next p hv =>
    split_ifs with hf ho
    · exact absurd ⟨hv,hf,ho⟩ (h p)
    all_goals rfl

lemma unlinks_unlink : Unlinks disk [p] (disk.unlink p) := by
  refine ⟨rfl,fun q => ?_,rfl⟩
  rw [Disk.unlink,FileSystem.file?_unlink]
  simp [eq_comm]

lemma delete_unlinks (ms : MediaStorage) (host : Host) (disk : Disk) (rel : String) :
    ∃ ps, Unlinks disk ps (delete ms host disk rel).1 := by
  by_cases h : ∃ p, Deletable ms host disk.tree rel p
  · obtain ⟨p,hp⟩ := h
    rw [delete_of_deletable hp]
    exact ⟨[p],unlinks_unlink⟩
  · rw [delete_of_not (not_exists.mp h)]
    exact ⟨[],.refl disk⟩

lemma pruneFiles_unlinks (ms : MediaStorage) (host : Host) (ch : String) (needed : ℕ)
    (fs : List (File Bytes)) (freed : ℕ) (disk : Disk) :
    ∃ ps, Unlinks disk ps (pruneFiles ms host ch needed fs freed disk).1 := by
  induction fs generalizing freed disk with
  | nil => exact ⟨[],.refl disk⟩
  | cons f fs ih =>
    unfold pruneFiles
    split_ifs
    · exact ⟨[],.refl disk⟩
    obtain ⟨ps,hps⟩ := delete_unlinks ms host disk (ch ++ "/" ++ f.name)
    split
    next disk' e hd =>
      rw [hd] at hps
      exact ⟨ps,hps⟩
    next disk' hd =>
      rw [hd] at hps
      obtain ⟨qs,hqs⟩ := ih (freed + f.content.length) disk'
      exact ⟨ps ++ qs,hps.trans hqs⟩

lemma pruneOldest_unlinks (ms : MediaStorage) (host : Host) (disk : Disk) (ch : String)
    (needed : ℕ) : ∃ ps, Unlinks disk ps (pruneOldest ms host disk ch needed).1 := by
  unfold pruneOldest
  split
  · exact ⟨[],.refl disk⟩
  · exact pruneFiles_unlinks ms host ch needed _ 0 disk

lemma makeRoom_unlinks (ms : MediaStorage) (host : Host) (disk : Disk) (ch : String)
    (size : ℕ) : ∃ ps, Unlinks disk ps (makeRoom ms host disk ch size).1 := by
  unfold makeRoom
  split
  · exact ⟨[],.refl disk⟩
  split_ifs
  · obtain ⟨ps,hps⟩ := pruneOldest_unlinks ms host disk ch size
    split
    next disk' e hp =>
      rw [hp] at hps
      exact ⟨ps,hps⟩
    next disk' hp =>
      rw [hp] at hps
      split
      · exact ⟨ps,hps⟩
      split_ifs
      · exact ⟨ps,hps⟩
      · exact ⟨ps,hps⟩
  · exact ⟨[],.refl disk⟩

structure Writable (ms : MediaStorage) (host : Host) (tree : FileSystem Bytes) (rel : String)
    (p : Path) : Prop where
  valid : validatePath ms rel = .ok p
  created : tree.isDir p.dropLast || host.creates p.dropLast
  unobstructed : ∀ f ∈ tree.files.rows, ¬ f.path <+: p.dropLast
  opened : host.opens p
  noDir : p ∉ tree.dirs

lemma validatePath_names (h : validatePath ms rel = .ok p) : ∀ c ∈ p, IsName c := by
  unfold validatePath at h
  split_ifs at h
  cases h
  exact resolve_names ms.named

variable {f : File Bytes} {tree : FileSystem Bytes} {fs : List (File Bytes)} {d : Path}
  {extension : String}

lemma not_mem_inits_dropLast (h : p ∉ tree.dirs) : p ∉ tree.dirs ++ p.dropLast.inits := by
  rw [mem_append,mem_inits,not_or]
  refine ⟨h,fun hp => ?_⟩
  have hl := hp.length_le
  rw [length_dropLast] at hl
  have hn : p ≠ [] := fun e => h (e ▸ tree.root)
  have hpo := length_pos_of_ne_nil hn
  omega

lemma place_of_writable (h : Writable ms host disk.tree rel p) (data : Bytes) :
    ∃ tree, place ms host disk rel data = ({ tree, log := disk.log ++ [.write p] }, .ok rel) ∧
      ∀ q, tree.file? q = if p = q then some ⟨p,data,host.now⟩ else disk.tree.file? q := by
  obtain ⟨tree,hmk⟩ := Option.isSome_iff_exists.mp (mkdirs_isSome.mpr h.unobstructed)
  have hd := mkdirs_dirs hmk
  have hp : p.dropLast ∈ tree.dirs := by
    rw [hd]
    exact mem_append_right _ ((mem_inits _ _).mpr prefix_rfl)
  have hn : p ∉ tree.dirs := by
    rw [hd]
    exact not_mem_inits_dropLast h.noDir
  have hwr : (tree.write p data host.now).isSome :=
    write_isSome.mpr ⟨⟨hp,hn⟩,validatePath_names h.valid⟩
  obtain ⟨tree',hw⟩ := Option.isSome_iff_exists.mp hwr
  refine ⟨tree',?_,fun q => ?_⟩
  · simp only [place,h.valid,if_pos h.created,hmk,if_pos h.opened,hw]
  · rw [FileSystem.file?_write hw,file?,mkdirs_files hmk]
    rfl

variable {tree' : FileSystem Bytes} {disk' : Disk} {hash : String}

lemma Writable.of_written (hv : validatePath ms rel = .ok p)
    (hc : (disk.tree.isDir p.dropLast || host.creates p.dropLast) = true)
    (hmk : disk.tree.mkdirs p.dropLast = some tree) (ho : host.opens p = true)
    (hw : tree.write p data host.now = some tree') : Writable ms host disk.tree rel p := by
  have hf := mkdirs_isSome.mp (Option.isSome_iff_exists.mpr ⟨tree,hmk⟩)
  have hok := write_isSome.mp (Option.isSome_iff_exists.mpr ⟨tree',hw⟩)
  refine ⟨hv,hc,hf,ho,fun hm => hok.1.2 ?_⟩
  rw [mkdirs_dirs hmk]
  exact mem_append_left _ hm

lemma place_of_not (h : ∀ p, ¬ Writable ms host disk.tree rel p) :
    (∃ e, (place ms host disk rel data).2 = .error e) ∧
      (place ms host disk rel data).1.log = disk.log ∧
      (place ms host disk rel data).1.tree.files = disk.tree.files := by
  unfold place
  split
  · exact ⟨⟨_,rfl⟩,rfl,rfl⟩
  next p hv =>
    by_cases hc : (disk.tree.isDir p.dropLast || host.creates p.dropLast) = true
    · rw [if_pos hc]
      cases hmk : disk.tree.mkdirs p.dropLast with
      | none => exact ⟨⟨_,rfl⟩,rfl,rfl⟩
      | some tree =>
        have hf := mkdirs_files hmk
        dsimp only
        by_cases ho : host.opens p = true
        · rw [if_pos ho]
          cases hw : tree.write p data host.now with
          | none => exact ⟨⟨_,rfl⟩,rfl,hf⟩
          | some tree' =>
            exact absurd (Writable.of_written hv hc hmk ho hw) (h p)
        · rw [if_neg ho]
          exact ⟨⟨_,rfl⟩,rfl,hf⟩
    · rw [if_neg hc]
      exact ⟨⟨_,rfl⟩,rfl,rfl⟩

lemma store_cases (ms : MediaStorage) (host : Host) (disk : Disk) (ch hash : String)
    (data : Bytes) (extension : String) : ∃ ps disk₁, Unlinks disk ps disk₁ ∧
      ((∃ p tree, Writable ms host disk₁.tree (relativePath ch hash extension) p ∧
        store ms host disk ch hash data extension = ({ tree, log := disk₁.log ++ [.write p] },
            .ok (relativePath ch hash extension)) ∧
        ∀ q, tree.file? q = if p = q then some ⟨p,data,host.now⟩ else disk₁.tree.file? q) ∨
      ((∃ e, (store ms host disk ch hash data extension).2 = .error e) ∧
        (store ms host disk ch hash data extension).1.log = disk₁.log ∧
        (store ms host disk ch hash data extension).1.tree.files = disk₁.tree.files)) := by
  unfold store
  split
  · exact ⟨[],disk,.refl disk,.inr ⟨⟨_,rfl⟩,rfl,rfl⟩⟩
  obtain ⟨ps,hps⟩ := makeRoom_unlinks ms host disk ch data.length
  split
  next disk₁ e hr =>
    rw [hr] at hps
    exact ⟨ps,disk₁,hps,.inr ⟨⟨e,rfl⟩,rfl,rfl⟩⟩
  next disk₁ hr =>
    rw [hr] at hps
    refine ⟨ps,disk₁,hps,?_⟩
    by_cases hw : ∃ p, Writable ms host disk₁.tree (relativePath ch hash extension) p
    · obtain ⟨p,hp⟩ := hw
      obtain ⟨tree,hpl,hf⟩ := place_of_writable hp data
      exact .inl ⟨p,tree,hp,hpl,hf⟩
    · exact .inr (place_of_not (not_exists.mp hw))

lemma locate_eq (h : locate ms tree ch = some d) : d = resolve ms.mediaDir ch := by
  unfold locate at h
  split_ifs at h
  have hw := walk_eq h
  have hs : ∀ c ∈ start ms.mediaDir ch, IsName c := by
    unfold start
    split_ifs
    · intro c hc
      cases hc
    · exact ms.named
  rw [← hw,foldl_append,foldl_descend_names hs,nil_append]
  rfl

lemma locate_congr (h : tree'.dirs = tree.dirs) : locate ms tree' ch = locate ms tree ch := by
  simp [locate,FileSystem.walk_congr h]

lemma channelFiles_ok (h : channelFiles ms tree ch = .ok fs) :
    fs = [] ∨ ∃ d, locate ms tree ch = some d ∧ tree.isDir d ∧ fs = tree.children d := by
  unfold channelFiles at h
  split at h
  · cases h
    exact .inl rfl
  next d hd =>
    unfold listFiles at h
    split_ifs at h with hf hdi
    · cases h
      exact .inr ⟨d,hd,hdi,rfl⟩
    · cases h
      exact .inl rfl

lemma validatePath_child (hfs : channelFiles ms tree ch = .ok fs) (hf : f ∈ fs)
    (hv : validatePath ms (ch ++ "/" ++ f.name) = .ok p) :
    tree.file? p = some f ∨ tree.isDir p := by
  obtain rfl | ⟨d,hd,hdi,rfl⟩ := channelFiles_ok hfs
  · cases hf
  obtain ⟨hp,hn⟩ := FileSystem.path_of_mem_children hf
  have hfi : tree.file? f.path = some f :=
    get?_of_mem (mem_children.mp hf).1
  have hl := locate_eq hd
  unfold validatePath at hv
  split_ifs at hv with hnu hi
  cases hv
  by_cases hid : ch = ""
  · subst hid
    rw [resolve_empty_child hn] at hi ⊢
    have hm : d = ms.mediaDir := hl
    rcases prefix_cons_iff.mp hi with hni | ⟨rest,hr,hpr⟩
    · left
      rw [hp,hm,hni,nil_append] at hfi
      exact hfi
    right
    rw [prefix_nil.mp hpr] at hr
    rw [← hr,← hm]
    exact hdi
  · left
    rw [hp,hl,← resolve_child hid hn] at hfi
    exact hfi

lemma Deletable.path_eq (hfs : channelFiles ms tree ch = .ok fs) (hf : f ∈ fs)
    (h : Deletable ms host tree (ch ++ "/" ++ f.name) p) : p = f.path := by
  obtain ⟨hv,hfi,-⟩ := h
  rcases validatePath_child hfs hf hv with hs | hd
  · exact (get?_key hs).symm
  · exact absurd hfi (not_file_of_isDir hd)

lemma usage_perm {gs : List (File Bytes)} (h : fs.Perm gs) : usage fs = usage gs := by
  induction h with
  | nil => rfl
  | cons f _ ih => exact congrArg (f.content.length + ·) ih
  | swap f g fs => exact Nat.add_left_comm g.content.length f.content.length (usage fs)
  | trans _ _ ih ih' => exact ih.trans ih'

lemma pruneFiles_frees (needed : ℕ) (freed : ℕ) (hfs : (disk.tree.children d).Perm fs)
    (hde : ∀ f ∈ fs, validatePath ms (ch ++ "/" ++ f.name) = .ok f.path ∧ host.opens f.path) :
    ∃ disk', pruneFiles ms host ch needed fs freed disk = (disk', .ok ()) ∧
      (usage (disk'.tree.children d) = 0 ∨
        usage (disk'.tree.children d) + needed ≤ usage (disk.tree.children d) + freed) := by
  induction fs generalizing freed disk with
  | nil =>
    refine ⟨disk,rfl,.inl ?_⟩
    rw [usage_perm hfs]
    rfl
  | cons f fs ih =>
    by_cases hd : needed ≤ freed
    · exact ⟨disk,if_pos hd,.inr (by omega)⟩
    obtain ⟨hv,ho⟩ := hde f mem_cons_self
    have hm : f ∈ disk.tree.files.rows :=
      (mem_children.mp (hfs.mem_iff.mpr mem_cons_self)).1
    have hfi : (disk.tree.file? f.path).isSome :=
      Option.isSome_iff_exists.mpr ⟨f,get?_of_mem hm⟩
    have hs : usage (disk.tree.children d) = f.content.length + usage fs := usage_perm hfs
    have hr : ((disk.unlink f.path).tree.children d).Perm fs :=
      FileSystem.children_unlink_perm hfs
    obtain ⟨disk',hp,hf⟩ := ih (freed + f.content.length) hr
      fun g hg => hde g (mem_cons_of_mem f hg)
    refine ⟨disk',?_,?_⟩
    · rw [pruneFiles,if_neg hd,delete_of_deletable ⟨hv,hfi,ho⟩]
      exact hp
    · rw [usage_perm hr] at hf
      omega

/-- A channel has room for an upload, if need be after pruning. -/
def HasRoom (ms : MediaStorage) (host : Host) (tree : FileSystem Bytes) (channelId : String)
    (size : ℕ) : Prop :=
  ∃ fs, channelFiles ms tree channelId = .ok fs ∧ (usage fs + size ≤ ms.maxStorageBytes ∨
      (usage fs ≤ ms.maxStorageBytes ∧ size ≤ ms.maxStorageBytes ∧
        ∀ f ∈ fs, ∃ p, Deletable ms host tree (channelId ++ "/" ++ f.name) p))

lemma getChannelUsage_eq (h : channelFiles ms tree ch = .ok fs) :
    getChannelUsage ms tree ch = .ok (usage fs) := by
  rw [getChannelUsage,h]
  rfl

lemma Unlinks.channelFiles (h : Unlinks disk ps disk')
    (hd : locate ms disk.tree ch = some d) (hdi : disk.tree.isDir d) :
    MediaFiles.channelFiles ms disk'.tree ch = .ok (disk'.tree.children d) := by
  have hd' : disk'.tree.isDir d = true := by
    rw [isDir,h.dirs]
    exact hdi
  rw [MediaFiles.channelFiles,locate_congr h.dirs,hd]
  simp [listFiles,if_neg (not_file_of_isDir hd'),if_pos hd']

lemma makeRoom_succeeds {size : ℕ} (h : HasRoom ms host disk.tree ch size) :
    ∃ disk', makeRoom ms host disk ch size = (disk', .ok ()) := by
  obtain ⟨fs,hfs,hr⟩ := h
  by_cases hfi : usage fs + size ≤ ms.maxStorageBytes
  · refine ⟨disk,?_⟩
    rw [makeRoom,getChannelUsage_eq hfs]
    exact if_neg (not_lt.mpr hfi)
  obtain ⟨hus,hsi,hde⟩ := hr.resolve_left hfi
  obtain rfl | ⟨d,hd,hdi,rfl⟩ := channelFiles_ok hfs
  · exact absurd (by rw [show usage [] = 0 from rfl]; omega) hfi
  have hs : (disk.tree.children d).Perm (oldestFirst (disk.tree.children d)) :=
    (perm_insertionSort _ _).symm
  have hall : ∀ f ∈ oldestFirst (disk.tree.children d),
      validatePath ms (ch ++ "/" ++ f.name) = .ok f.path ∧ host.opens f.path := by
    intro f hf
    have hm := hs.mem_iff.mpr hf
    obtain ⟨p,hp⟩ := hde f hm
    have hpa := hp.path_eq hfs hm
    exact hpa ▸ ⟨hp.1,hp.2.2⟩
  obtain ⟨disk',hpr,hfr⟩ := pruneFiles_frees size 0 hs hall
  have hu := pruneFiles_unlinks ms host ch size (oldestFirst (disk.tree.children d)) 0 disk
  rw [hpr] at hu
  obtain ⟨ps,hps⟩ := hu
  have hfs' := hps.channelFiles hd hdi
  refine ⟨disk',?_⟩
  have hpru : pruneOldest ms host disk ch size = (disk', .ok ()) := by
    rw [pruneOldest,hfs]
    exact hpr
  simp only [makeRoom,getChannelUsage_eq hfs,if_pos (not_le.mp hfi),hpru,getChannelUsage_eq hfs']
  exact if_neg (by omega)

lemma Unlinks.writable (h : Unlinks disk ps disk')
    (hw : Writable ms host disk.tree rel p) : Writable ms host disk'.tree rel p where
  valid := hw.valid
  created := by
    rw [isDir,h.dirs]
    exact hw.created
  unobstructed := fun f hf => by
    have hfi : disk'.tree.file? f.path = some f := get?_of_mem hf
    rw [h.files] at hfi
    split_ifs at hfi
    exact hw.unobstructed f (get?_mem hfi)
  opened := hw.opened
  noDir := h.dirs ▸ hw.noDir

structure Storable (ms : MediaStorage) (host : Host) (tree : FileSystem Bytes)
    (channelId msgHash : String) (data : Bytes) (extension : String) (p : Path) : Prop where
  admitted : admission ms tree data.length = .ok ()
  room : HasRoom ms host tree channelId data.length
  writable : Writable ms host tree (relativePath channelId msgHash extension) p

lemma store_succeeds (h : Storable ms host disk.tree ch hash data extension p) :
    (store ms host disk ch hash data extension).2 = .ok (relativePath ch hash extension) := by
  obtain ⟨disk',hr⟩ := makeRoom_succeeds h.room
  obtain ⟨ps,hps⟩ := makeRoom_unlinks ms host disk ch data.length
  rw [hr] at hps
  obtain ⟨tree,hp,-⟩ := place_of_writable (hps.writable h.writable) data
  simp [store,h.admitted,hr,hp]

/-- A file is written, or the oldest file of the channel is pruned. -/
def Touches (ms : MediaStorage) (host : Host) (tree : FileSystem Bytes) (channelId msgHash : String)
    (data : Bytes) (extension : String) : Prop :=
  admission ms tree data.length = .ok () ∧ ∃ fs, channelFiles ms tree channelId = .ok fs ∧
    ((usage fs + data.length ≤ ms.maxStorageBytes ∧
        ∃ p, Writable ms host tree (relativePath channelId msgHash extension) p) ∨
      (ms.maxStorageBytes < usage fs + data.length ∧ ∃ f, (oldestFirst fs).head? = some f ∧
        ∃ p, Deletable ms host tree (channelId ++ "/" ++ f.name) p))

lemma pruneFiles_untouched {needed : ℕ}
    (hs : ∀ f ∈ fs, ∀ p, validatePath ms (ch ++ "/" ++ f.name) = .ok p →
      (disk.tree.file? p).isSome ∨ disk.tree.isDir p) (h : ∀ f, fs.head? = some f →
      ∀ p, ¬ Deletable ms host disk.tree (ch ++ "/" ++ f.name) p) :
    (pruneFiles ms host ch needed fs 0 disk).1 = disk := by
  cases fs with
  | nil => rfl
  | cons f fs =>
    have hn := h f rfl
    unfold pruneFiles
    split_ifs
    · rfl
    -- The deletion raises, which ends the loop.
    have her : ∃ e, delete ms host disk (ch ++ "/" ++ f.name) = (disk, .error e) := by
      unfold delete
      split
      next e _ => exact ⟨e,rfl⟩
      next p hv =>
        split_ifs with hf ho hd
        · exact absurd ⟨hv,hf,ho⟩ (hn p)
        · exact ⟨_,rfl⟩
        · exact ⟨_,rfl⟩
        · exact absurd (hs f mem_cons_self p hv) (not_or.mpr ⟨hf,hd⟩)
    obtain ⟨e,he⟩ := her
    rw [he]

lemma pruneFiles_touched {needed : ℕ} (hn : needed ≠ 0)
    (h : Deletable ms host disk.tree (ch ++ "/" ++ f.name) p) :
    disk.log.length < (pruneFiles ms host ch needed (f :: fs) 0 disk).1.log.length := by
  rw [pruneFiles,if_neg (by omega),delete_of_deletable h]
  obtain ⟨ps,hps⟩ := pruneFiles_unlinks ms host ch needed fs (0 + f.content.length) (disk.unlink p)
  rw [hps.log,length_append,Disk.unlink,length_append,length_singleton]
  omega

lemma makeRoom_over {size : ℕ} (hfs : channelFiles ms disk.tree ch = .ok fs)
    (ho : ms.maxStorageBytes < usage fs + size) : (makeRoom ms host disk ch size).1 =
        (pruneFiles ms host ch size (oldestFirst fs) 0 disk).1 ∧
      ((pruneFiles ms host ch size (oldestFirst fs) 0 disk).1 = disk →
        ∃ e, makeRoom ms host disk ch size = (disk, .error e)) := by
  have hp : pruneOldest ms host disk ch size =
      pruneFiles ms host ch size (oldestFirst fs) 0 disk := by
    rw [pruneOldest,hfs]
  simp only [makeRoom,getChannelUsage_eq hfs,if_pos ho,hp]
  rcases pruneFiles ms host ch size (oldestFirst fs) 0 disk with ⟨disk',e | u⟩
  · exact ⟨rfl,fun h => ⟨e,Prod.ext h rfl⟩⟩
  constructor
  · dsimp only
    split
    · rfl
    · split_ifs <;> rfl
  intro hs
  have hd : disk' = disk := hs
  refine ⟨mediaError "Channel storage quota exceeded",?_⟩
  simp [hd,getChannelUsage_eq hfs,if_pos ho]

lemma store_log_length (hash extension : String) (host : Host) (ch : String)
    (ha : admission ms disk.tree data.length = .ok ()) :
    (makeRoom ms host disk ch data.length).1.log.length ≤
      (store ms host disk ch hash data extension).1.log.length := by
  simp only [store,ha]
  split
  next disk' e hr => rw [hr]
  next disk' hr =>
    rw [hr]
    by_cases hw : ∃ p, Writable ms host disk'.tree (relativePath ch hash extension) p
    · obtain ⟨p,hp⟩ := hw
      obtain ⟨tree,hpl,-⟩ := place_of_writable hp data
      rw [hpl,length_append]
      exact Nat.le_add_right _ _
    · rw [(place_of_not (not_exists.mp hw)).2.1]

lemma store_untouched_fits (ha : admission ms disk.tree data.length = .ok ())
    (hfs : channelFiles ms disk.tree ch = .ok fs)
    (hf : usage fs + data.length ≤ ms.maxStorageBytes) :
    (store ms host disk ch hash data extension).1.log = disk.log ↔
      ¬ ∃ p, Writable ms host disk.tree (relativePath ch hash extension) p := by
  have hr : makeRoom ms host disk ch data.length = (disk, .ok ()) := by
    rw [makeRoom,getChannelUsage_eq hfs]
    exact if_neg (not_lt.mpr hf)
  simp only [store,ha,hr]
  by_cases hw : ∃ p, Writable ms host disk.tree (relativePath ch hash extension) p
  · refine iff_of_false (fun hl => ?_) (not_not_intro hw)
    obtain ⟨p,hp⟩ := hw
    obtain ⟨tree,hpl,-⟩ := place_of_writable hp data
    rw [hpl] at hl
    exact cons_ne_nil _ _ (append_right_eq_self.mp hl)
  · exact iff_of_true (place_of_not (not_exists.mp hw)).2.1 hw

lemma store_untouched_over (hd : data ≠ []) (ha : admission ms disk.tree data.length = .ok ())
    (hfs : channelFiles ms disk.tree ch = .ok fs)
    (ho : ms.maxStorageBytes < usage fs + data.length) :
    (store ms host disk ch hash data extension).1.log = disk.log ↔
      ¬ ∃ f, (oldestFirst fs).head? = some f ∧
        ∃ p, Deletable ms host disk.tree (ch ++ "/" ++ f.name) p := by
  obtain ⟨hfst,hfa⟩ := makeRoom_over hfs ho
  by_cases hde : ∃ f, (oldestFirst fs).head? = some f ∧
      ∃ p, Deletable ms host disk.tree (ch ++ "/" ++ f.name) p
  · refine iff_of_false (fun hl => ?_) (not_not_intro hde)
    obtain ⟨f,hh,p,hp⟩ := hde
    obtain ⟨gs,hgs⟩ := List.head?_eq_some_iff.mp hh
    have hs : data.length ≠ 0 := fun e => hd (length_eq_zero_iff.mp e)
    have ht : disk.log.length < (pruneFiles ms host ch data.length (f :: gs) 0 disk).1.log.length :=
      pruneFiles_touched hs hp
    have hle := store_log_length hash extension host ch ha
    rw [hfst,hgs,hl] at hle
    omega
  refine iff_of_true ?_ hde
  have hu : (pruneFiles ms host ch data.length (oldestFirst fs) 0 disk).1 =
      disk := by
    apply pruneFiles_untouched
    · intro f hf q hv
      have hm : f ∈ fs := (mem_insertionSort _).mp hf
      rcases validatePath_child hfs hm hv with hse | hdi
      · exact .inl (Option.isSome_iff_exists.mpr ⟨f,hse⟩)
      · exact .inr hdi
    · intro f hh q hq
      exact hde ⟨f,hh,q,hq⟩
  obtain ⟨e,he⟩ := hfa hu
  simp [store,ha,he]

lemma store_untouched_iff (hd : data ≠ []) :
    (store ms host disk ch hash data extension).1.log = disk.log ↔
      ¬ Touches ms host disk.tree ch hash data extension := by
  cases ha : admission ms disk.tree data.length with
  | error e =>
    refine iff_of_true (by simp [store,ha]) fun h => ?_
    rw [h.1] at ha
    cases ha
  | ok u =>
    cases hfs : channelFiles ms disk.tree ch with
    | error e =>
      refine iff_of_true ?_ fun h => ?_
      · simp [store,ha,makeRoom,getChannelUsage,hfs]
      obtain ⟨-,fs,hok,-⟩ := h
      rw [hfs] at hok
      cases hok
    | ok fs =>
      rcases le_or_gt (usage fs + data.length) ms.maxStorageBytes with hf | ho
      · rw [store_untouched_fits ha hfs hf]
        simp [Touches,ha,hfs,hf,not_lt.mpr hf]
      · rw [store_untouched_over hd ha hfs ho]
        simp [Touches,ha,hfs,ho,not_le.mpr ho]

end

end Hokora.MediaFiles
