import Hokora.FtsTotals
import Hokora.Invites
import Hokora.NodeRuns

/-!
# Maintenance of the database

The pruning transaction of a tick: rows past the retention period, past their lifetime and over the
limit of their channel, spent invites, and the scrub of old senders. A delete raises if a thread
refers to the row or if the full-text index has too little to take off its totals, and removing a
file may raise; then nothing is committed. Runs interleave ticks with local and federated writes.
The totals that a tick finds in the index are given with it: the writes do not keep them up.
-/
namespace Hokora.Maintenance
open Constants Database FtsTotals Invites KeyedTable List PyValue ReadHandlers Repositories
  TransitionRuns
open Message (mediaPath msgHash)

structure Retention where
  retentionDays : ℤ := 0
  metadataScrubDays : ℤ := 0
  maxRetention : String → ℤ := fun _ => 10000

structure Clock where
  pruneOld : ℚ
  pruneExpired : ℚ
  pruneInvites : ℚ
  scrub : ℚ

abbrev Files := String → Py Unit

structure Base where
  store : Store
  fts : Totals

structure Tables extends Base where
  invites : Table Invite.tokenHash := .empty

def batchSize : ℕ := 500

def cutoff (now : ℚ) (days : ℤ) : FloatVal := .fin (now - days * 86400)

def addSeconds (x : FloatVal) (seconds : ℤ) : FloatVal :=
  match x with
  | .fin q => .fin (q + seconds)
  | x => x

def outdated (now : ℚ) (days : ℤ) (m : Message) : Bool :=
  decide (0 < days) && m.timestamp.lt (cutoff now days)

def expired (now : ℚ) (m : Message) : Bool :=
  match m.ttl with
  | some ttl => (addSeconds m.timestamp ttl).lt (.fin now)
  | none => false

def cleared (st : Store) (p : Message → Bool) : Store :=
  { st with messages := st.messages.select fun m => !p m }

def Base.gone (s : Base) (p : Message → Bool) : List Message := s.store.messages.rows.filter p

def Base.cleared (s : Base) (p : Message → Bool) : Base :=
  ⟨Maintenance.cleared s.store p,s.fts.without (s.gone p)⟩

/-- One DELETE: the foreign key of the threads, then `messages_ad` on each row. -/
def deleteMessages (s : Base) (p : Message → Bool) : Py Base :=
  if (s.gone p).any fun m => (s.store.threads.get? m.msgHash).isSome then .error .integrityError
  else if s.fts.Covers (s.gone p) then .ok (s.cleared p)
  else .error .databaseError

def deleteRows : Base → List Message → Py Base
  | s, [] => .ok s
  | s, m :: ms => do
      let s' ← deleteMessages s fun r => r.msgHash = m.msgHash
      deleteRows s' ms

def removeFile (files : Files) : Option String → Py Unit
  | some path => files path
  | none => .ok ()

def removeMedia (files : Files) (media : Message → Option String) : List Message → Py Unit
  | [] => .ok ()
  | m :: ms => do
      removeFile files (media m)
      removeMedia files media ms

def pruneBatch (files : Files) (media : Message → Option String) (s : Base)
    (batch : List Message) : Py Base := do
  removeMedia files media batch
  deleteRows s batch

/-- The batches of at most 500 rows, until a query finds none; the fuel is the number of rows. -/
def pruneLoop (files : Files) (media : Message → Option String) (p : Message → Bool) :
    ℕ → Base → Py Base
  | 0, s => .ok s
  | fuel + 1, s =>
    match (s.gone p).take batchSize with
    | [] => .ok s
    | m :: ms => do
        let s' ← pruneBatch files media s (m :: ms)
        pruneLoop files media p fuel s'

def pruneOldMessages (files : Files) (now : ℚ) (retentionDays : ℤ) (s : Base) : Py Base :=
  if retentionDays ≤ 0 then .ok s
  else do
    let s' ← pruneLoop files mediaPath
      (fun m => m.timestamp.lt (cutoff now retentionDays) && m.mediaPath.isSome)
      s.store.messages.rows.length s
    deleteMessages s' fun m => m.timestamp.lt (cutoff now retentionDays)

def filledPath (m : Message) : Option String := present m.mediaPath

def pruneExpiredMessages (files : Files) (now : ℚ) (s : Base) : Py Base :=
  pruneLoop files filledPath (expired now) s.store.messages.rows.length s

def excess (limit : ℤ) (st : Store) (channelId : String) : ℕ :=
  if limit ≤ 0 then 0 else ((st.channelMessages channelId).length - limit).toNat

def oldest (limit : ℤ) (st : Store) (channelId : String) : List Message :=
  ((st.channelMessages channelId).insertionSort MessageRepo.seqLe).take (excess limit st channelId)

def pruneChannels (files : Files) (maxRetention : String → ℤ) : Base → List Channel → Py Base
  | s, [] => .ok s
  | s, c :: cs => do
      let s' ← pruneBatch files filledPath s (oldest (maxRetention c.id) s.store c.id)
      pruneChannels files maxRetention s' cs

def pruneRetention (files : Files) (maxRetention : String → ℤ) (s : Base) : Py Base :=
  pruneChannels files maxRetention s s.store.channels.rows

def spent (now : ℚ) (i : Invite) : Bool :=
  (i.expiresAt.any fun t => t < now) || (decide (0 < i.maxUses) && decide (i.maxUses ≤ i.uses))

def pruneExpiredInvites (now : ℚ) (invites : Table Invite.tokenHash) : Table Invite.tokenHash :=
  invites.select fun i => !spent now i

def scrubSender (now : ℚ) (days : ℤ) (m : Message) : Message :=
  if m.timestamp.lt (cutoff now days) then { m with senderHash := none } else m

lemma scrubSender_msgHash {now : ℚ} {days : ℤ} (m : Message) :
    (scrubSender now days m).msgHash = m.msgHash := by
  unfold scrubSender
  split_ifs <;> rfl

/-- The rows on which the UPDATE fires `messages_au`, a delete and an insert. -/
def reindexed (now : ℚ) (days : ℤ) (m : Message) : Bool :=
  m.timestamp.lt (cutoff now days) && m.senderHash.isSome && indexed m

def scrubMetadata (now : ℚ) (days : ℤ) (s : Base) : Py Base :=
  if days ≤ 0 then .ok s
  else if (s.gone (reindexed now days)).all fun m => s.fts.Covers [m] then
    .ok { s with store := { s.store with
      messages := s.store.messages.rewrite (scrubSender now days) scrubSender_msgHash } }
  else .error .databaseError

def prune (files : Files) (cfg : Retention) (t : Clock) (s : Tables) : Py Tables := do
  let s₁ ← pruneOldMessages files t.pruneOld cfg.retentionDays s.toBase
  let s₂ ← pruneExpiredMessages files t.pruneExpired s₁
  let s₃ ← pruneRetention files cfg.maxRetention s₂
  let s₄ ← scrubMetadata t.scrub cfg.metadataScrubDays s₃
  pure ⟨s₄,pruneExpiredInvites t.pruneInvites s.invites⟩

def runMaintenance (files : Files) (cfg : Retention) (t : Clock) (s : Tables) : Tables × Bool :=
  match prune files cfg t s with
  | .ok s' => (s', true)
  | .error _ => (s, false)

structure Yields {A : Type} (ok : Prop) (a : A) (r : Py A) : Prop where
  done : ok → r = .ok a
  raised : ¬ ok → ∃ e, r = .error e

section Yields
variable {A B : Type} {p q : Prop} {a : A} {b : B} {r : Py A}

lemma Yields.pure (a : A) : Yields True a (.ok a) := ⟨fun _ => rfl,fun h => absurd trivial h⟩

lemma Yields.bind {f : A → Py B} (h : Yields p a r) (hf : Yields q b (f a)) :
    Yields (p ∧ q) b (r >>= f) := by
  constructor
  · intro hok
    rw [h.done hok.1,ok_bind]
    exact hf.done hok.2
  intro hn
  by_cases hp : p
  · rw [h.done hp,ok_bind]
    exact hf.raised fun hq => hn ⟨hp,hq⟩
  · obtain ⟨e,he⟩ := h.raised hp
    exact ⟨e,by rw [he]; rfl⟩

lemma Yields.congr (h : Yields p a r) (hpq : p ↔ q) : Yields q a r :=
  ⟨fun hq => h.done (hpq.mpr hq),fun hq => h.raised fun hp => hq (hpq.mp hp)⟩

lemma Yields.isOk_iff (h : Yields p a r) : (∃ x, r = .ok x) ↔ p := by
  constructor
  · rintro ⟨x,hx⟩
    by_contra hn
    obtain ⟨e,he⟩ := h.raised hn
    rw [he] at hx
    cases hx
  · intro hp
    exact ⟨a,h.done hp⟩

end Yields

/-- The row can be deleted: no thread refers to it and its file raises nothing. -/
def Removable (files : Files) (media : Message → Option String) (st : Store) (m : Message) : Prop :=
  (∀ path ∈ media m, files path = .ok ()) ∧ st.threads.get? m.msgHash = none

section Deletion
variable {files : Files} {media : Message → Option String} {st : Store} {s : Base}
  {batch : List Message} {m : Message} {p q : Message → Bool} {R : Message → Prop}

lemma cleared_congr (h : ∀ m ∈ st.messages.rows, p m = q m) : cleared st p = cleared st q := by
  unfold cleared
  congr 1
  exact Table.ext (filter_congr fun m hm => by rw [h m hm])

lemma cleared_cleared (st : Store) (p q : Message → Bool) :
    cleared (cleared st p) q = cleared st fun m => p m || q m := by
  unfold cleared
  congr 1
  refine Table.ext ?_
  simp only [Table.select,filter_filter]
  refine filter_congr fun m _ => ?_
  rw [Bool.not_or,Bool.and_comm]

lemma cleared_none (h : ∀ m ∈ st.messages.rows, p m = false) : cleared st p = st := by
  have hr : st.messages.select (fun m => !p m) = st.messages :=
    Table.ext (filter_eq_self.mpr fun m hm => by rw [h m hm]; rfl)
  unfold cleared
  rw [hr]

lemma mem_cleared : m ∈ (cleared st p).messages.rows ↔ m ∈ st.messages.rows ∧ p m = false := by
  simp [cleared,Table.select]

/-- What may be deleted is deleted together: each row for itself, and all of them by the index. -/
def Deletable (R : Message → Prop) (s : Base) (p : Message → Bool) : Prop :=
  (∀ m ∈ s.store.messages.rows, p m = true → R m) ∧ s.fts.Covers (s.gone p)

lemma Base.cleared_cleared (s : Base) (p q : Message → Bool) :
    (s.cleared p).cleared q = s.cleared fun m => p m || q m := by
  unfold Base.cleared
  rw [Maintenance.cleared_cleared]
  exact congrArg (Base.mk _) without_or

lemma gone_congr (h : ∀ m ∈ s.store.messages.rows, p m = q m) : s.gone p = s.gone q :=
  filter_congr h

lemma Base.cleared_congr (h : ∀ m ∈ s.store.messages.rows, p m = q m) :
    s.cleared p = s.cleared q := by
  rw [Base.cleared,Maintenance.cleared_congr h,gone_congr h]
  rfl

lemma deletable_congr (h : ∀ m ∈ s.store.messages.rows, p m = q m) :
    Deletable R s p ↔ Deletable R s q := by
  unfold Deletable
  rw [gone_congr h]
  exact and_congr_left fun _ => forall₂_congr fun m hm => by rw [h m hm]

lemma deletable_or :
    Deletable R s (fun m => p m || q m) ↔ Deletable R s p ∧ Deletable R (s.cleared p) q := by
  have hr : (∀ m ∈ s.store.messages.rows, (p m || q m) = true → R m) ↔
      (∀ m ∈ s.store.messages.rows, p m = true → R m) ∧
        ∀ m ∈ (s.cleared p).store.messages.rows, q m = true → R m := by
    refine ⟨fun h => ⟨fun m hm hp => h m hm (by simp [hp]),fun m hm hq => ?_⟩,?_⟩
    · exact h m (mem_cleared.mp hm).1 (by simp [hq])
    rintro ⟨h,h'⟩ m hm ho
    cases hp : p m with
    | true => exact h m hm hp
    | false => exact h' m (mem_cleared.mpr ⟨hm,hp⟩) (by simpa [hp] using ho)
  unfold Deletable
  rw [hr,Base.gone,covers_or]
  exact and_and_and_comm

lemma yields_idle (h : ∀ m ∈ s.store.messages.rows, p m = false) :
    Yields (Deletable R s p) (s.cleared p) (.ok s) := by
  have hg : s.gone p = [] := filter_eq_nil_iff.mpr fun m hm => by simp [h m hm]
  have hs : s.cleared p = s := by
    rw [Base.cleared,hg,cleared_none h]
    rfl
  rw [hs]
  refine (Yields.pure s).congr (iff_of_true trivial ⟨fun m hm hp => ?_,?_⟩)
  · rw [h m hm] at hp
    cases hp
  · rw [hg]
    exact ⟨Nat.zero_le _,Nat.zero_le _⟩

lemma deleteMessages_yields (s : Base) (p : Message → Bool) :
    Yields (Deletable (fun m => s.store.threads.get? m.msgHash = none) s p) (s.cleared p)
      (deleteMessages s p) := by
  have hi : ((s.gone p).any fun m => (s.store.threads.get? m.msgHash).isSome) = true ↔
      ¬ ∀ m ∈ s.store.messages.rows, p m = true → s.store.threads.get? m.msgHash = none := by
    simp [Base.gone,any_eq_true,Option.isSome_iff_ne_none]
  unfold deleteMessages
  constructor
  · rintro ⟨h,hc⟩
    rw [if_neg fun ha => hi.mp ha h,if_pos hc]
  intro h
  split_ifs with ha hc
  · exact ⟨_,rfl⟩
  · exact absurd ⟨not_not.mp (mt hi.mpr ha),hc⟩ h
  · exact ⟨_,rfl⟩

def inBatch (batch : List Message) (m : Message) : Bool := m.msgHash ∈ batch.map msgHash

lemma deleteRows_yields (s : Base) (batch : List Message) :
    Yields (Deletable (fun m => s.store.threads.get? m.msgHash = none) s (inBatch batch))
      (s.cleared (inBatch batch)) (deleteRows s batch) := by
  induction batch generalizing s with
  | nil => exact yields_idle fun _ _ => rfl
  | cons b bs ih =>
    have h := (deleteMessages_yields s fun r => r.msgHash = b.msgHash).bind
      (f := fun s' => deleteRows s' bs) (ih _)
    have hb : inBatch (b :: bs) = fun m => decide (m.msgHash = b.msgHash) || inBatch bs m := by
      funext m
      simp [inBatch]
    rw [Base.cleared_cleared] at h
    rw [hb]
    exact h.congr deletable_or.symm

lemma removeFile_yields (files : Files) (path : Option String) :
    Yields (∀ p ∈ path, files p = .ok ()) () (removeFile files path) := by
  cases path with
  | none => exact (Yields.pure ()).congr (by simp)
  | some p =>
    refine ⟨fun h => h p rfl,fun h => ?_⟩
    cases hf : files p with
    | ok u => exact absurd (fun q hq => by cases hq; exact hf) h
    | error e => exact ⟨e,hf⟩

lemma removeMedia_yields (files : Files) (media : Message → Option String) (batch : List Message) :
    Yields (∀ m ∈ batch, ∀ path ∈ media m, files path = .ok ()) ()
      (removeMedia files media batch) := by
  induction batch with
  | nil => exact (Yields.pure ()).congr (by simp)
  | cons b bs ih =>
    have h := (removeFile_yields files (media b)).bind (f := fun _ => removeMedia files media bs) ih
    exact h.congr (by simp)

lemma mem_batch_iff (hs : ∀ m ∈ batch, m ∈ st.messages.rows) (hm : m ∈ st.messages.rows) :
    m.msgHash ∈ batch.map msgHash ↔ m ∈ batch := by
  refine ⟨fun hh => ?_,fun hb => mem_map_of_mem hb⟩
  obtain ⟨b,hb,hbm⟩ := mem_map.mp hh
  have hr : st.messages.get? b.msgHash = some b := Table.get?_of_mem (hs b hb)
  rw [hbm,Table.get?_of_mem hm] at hr
  exact Option.some.inj hr ▸ hb

lemma pruneBatch_yields (files : Files) (media : Message → Option String)
    (hs : ∀ m ∈ batch, m ∈ s.store.messages.rows) :
    Yields (Deletable (Removable files media s.store) s (inBatch batch))
      (s.cleared (inBatch batch)) (pruneBatch files media s batch) := by
  have h := (removeMedia_yields files media batch).bind
    (f := fun _ => deleteRows s batch) (deleteRows_yields s batch)
  refine h.congr ?_
  constructor
  · rintro ⟨hme,ht,hc⟩
    refine ⟨fun m hm hb => ⟨hme m ?_,ht m hm hb⟩,hc⟩
    exact (mem_batch_iff hs hm).mp (of_decide_eq_true hb)
  rintro ⟨h,hc⟩
  refine ⟨fun m hm => (h m (hs m hm) ?_).1,fun m hm hb => (h m hm hb).2,hc⟩
  exact decide_eq_true (mem_map_of_mem hm)

lemma pruneLoop_yields (files : Files) (media : Message → Option String) (p : Message → Bool)
    {fuel : ℕ} (hfu : (s.gone p).length ≤ fuel) :
    Yields (Deletable (Removable files media s.store) s p) (s.cleared p)
      (pruneLoop files media p fuel s) := by
  have hi : s.gone p = [] → ∀ m ∈ s.store.messages.rows, p m = false := by
    intro hn
    simpa using filter_eq_nil_iff.mp hn
  induction fuel generalizing s with
  | zero => exact yields_idle (hi (length_eq_zero_iff.mp (Nat.le_zero.mp hfu)))
  | succ fuel ih =>
    unfold pruneLoop
    cases hba : (s.gone p).take batchSize with
    | nil =>
      rcases take_eq_nil_iff.mp hba with hz | hn
      · exact absurd hz (by decide)
      · exact yields_idle (hi hn)
    | cons b bs =>
      have hf : ∀ m ∈ b :: bs, m ∈ s.store.messages.rows ∧ p m = true := by
        intro m hm
        rw [← hba] at hm
        exact mem_filter.mp (mem_of_mem_take hm)
      have hs : ∀ m ∈ b :: bs, m ∈ s.store.messages.rows := fun m hm => (hf m hm).1
      -- The first row of the batch is gone, so fewer rounds are left.
      have hfe : ((s.cleared (inBatch (b :: bs))).gone p).length ≤ fuel := by
        have hfi : (s.cleared (inBatch (b :: bs))).gone p =
            (s.gone p).filter fun m => !inBatch (b :: bs) m := by
          simp only [Base.gone,Base.cleared,cleared,Table.select,filter_filter]
          exact filter_congr fun m _ => Bool.and_comm _ _
        have hlt : ((s.gone p).filter fun m => !inBatch (b :: bs) m).length < (s.gone p).length :=
          length_filter_lt_length_iff_exists.mpr
            ⟨b,mem_filter.mpr (hf b mem_cons_self),by simp [inBatch]⟩
        rw [hfi]
        omega
      have h := (pruneBatch_yields files media hs).bind (f := pruneLoop files media p fuel)
        (ih hfe fun hn => by simpa using filter_eq_nil_iff.mp hn)
      have hq : ∀ m ∈ s.store.messages.rows, (inBatch (b :: bs) m || p m) = p m := by
        intro m hm
        cases hb : inBatch (b :: bs) m with
        | false => rfl
        | true => exact (hf m ((mem_batch_iff hs hm).mp (of_decide_eq_true hb))).2.symm
      rw [Base.cleared_cleared,Base.cleared_congr hq] at h
      exact h.congr (deletable_or.symm.trans (deletable_congr hq))

lemma pruneOldMessages_yields (files : Files) (now : ℚ) (days : ℤ) (s : Base) :
    Yields (Deletable (Removable files mediaPath s.store) s (outdated now days))
      (s.cleared (outdated now days)) (pruneOldMessages files now days s) := by
  unfold pruneOldMessages
  by_cases hd : days ≤ 0
  · rw [if_pos hd]
    exact yields_idle fun m _ => by simp [outdated,hd]
  rw [if_neg hd]
  let old : Message → Bool := fun m => m.timestamp.lt (cutoff now days)
  have ho : ∀ m, outdated now days m = old m := fun m => by
    simp [outdated,old,Int.not_le.mp hd]
  let p : Message → Bool := fun m => old m && m.mediaPath.isSome
  have h := (pruneLoop_yields files mediaPath p (s.store.messages.rows.length_filter_le p)).bind
    (f := fun s' => deleteMessages s' old) (deleteMessages_yields _ old)
  have hq : ∀ m ∈ s.store.messages.rows, (p m || old m) = outdated now days m := by
    intro m _
    rw [ho]
    cases hm : old m <;> simp [p,hm]
  -- The rows that the last statement deletes have no file.
  have hr : Deletable (fun m => s.store.threads.get? m.msgHash = none) (s.cleared p) old ↔
      Deletable (Removable files mediaPath s.store) (s.cleared p) old := by
    refine and_congr_left fun _ => forall₂_congr fun m hm => forall_congr' fun hom => ?_
    have hpm := (mem_cleared.mp hm).2
    have hn : m.mediaPath = none := by simpa [p,hom] using hpm
    simp [Removable,hn]
  rw [Base.cleared_cleared,Base.cleared_congr hq] at h
  exact h.congr ((and_congr_right' hr).trans (deletable_or.symm.trans (deletable_congr hq)))

lemma pruneExpiredMessages_yields (files : Files) (now : ℚ) (s : Base) :
    Yields (Deletable (Removable files filledPath s.store) s (expired now))
      (s.cleared (expired now)) (pruneExpiredMessages files now s) :=
  pruneLoop_yields files filledPath (expired now) (s.store.messages.rows.length_filter_le _)

lemma oldest_sub {limit : ℤ} {ch : String} (h : m ∈ oldest limit st ch) :
    m ∈ st.messages.rows ∧ m.channelId = ch := by
  have hs := mem_of_mem_take h
  rw [mem_insertionSort] at hs
  obtain ⟨hm,hch⟩ := mem_filter.mp hs
  exact ⟨hm,of_decide_eq_true hch⟩

lemma oldest_cleared {limit : ℤ} {ch : String}
    (h : ∀ m ∈ st.messages.rows, p m = true → m.channelId ≠ ch) :
    oldest limit (cleared st p) ch = oldest limit st ch := by
  have hs : (cleared st p).channelMessages ch = st.channelMessages ch := by
    simp only [Store.channelMessages,cleared,Table.select,filter_filter]
    refine filter_congr fun m hm => ?_
    cases hpm : p m with
    | false => simp
    | true => simp [h m hm hpm]
  simp [oldest,excess,hs]

/-- The rows over the limits of these channels. -/
def surplus (maxRetention : String → ℤ) (st : Store) (cs : List Channel) (m : Message) : Bool :=
  cs.any fun c => inBatch (oldest (maxRetention c.id) st c.id) m

lemma surplus_forall {maxRetention : String → ℤ} {cs : List Channel} :
    (∀ m ∈ st.messages.rows, surplus maxRetention st cs m = true → R m) ↔
      ∀ c ∈ cs, ∀ m ∈ oldest (maxRetention c.id) st c.id, R m := by
  have hs : ∀ (c : Channel), ∀ m ∈ oldest (maxRetention c.id) st c.id, m ∈ st.messages.rows :=
    fun c m hm => (oldest_sub hm).1
  simp only [surplus,any_eq_true]
  constructor
  · intro h c hc m hm
    exact h m (hs c m hm) ⟨c,hc,decide_eq_true (mem_map_of_mem hm)⟩
  · rintro h m hm ⟨c,hc,hb⟩
    exact h c hc m ((mem_batch_iff (hs c) hm).mp (of_decide_eq_true hb))

lemma pruneChannels_yields (files : Files) (maxRetention : String → ℤ) {cs : List Channel}
    (hn : (cs.map Channel.id).Nodup) (s : Base) :
    Yields (Deletable (Removable files filledPath s.store) s (surplus maxRetention s.store cs))
      (s.cleared (surplus maxRetention s.store cs)) (pruneChannels files maxRetention s cs) := by
  induction cs generalizing s with
  | nil => exact yields_idle fun _ _ => rfl
  | cons c cs ih =>
    obtain ⟨hne,hn⟩ := nodup_cons.mp hn
    have hs : ∀ m ∈ oldest (maxRetention c.id) s.store c.id, m ∈ s.store.messages.rows :=
      fun m hm => (oldest_sub hm).1
    let q := inBatch (oldest (maxRetention c.id) s.store c.id)
    have h := (pruneBatch_yields files filledPath hs).bind
      (f := fun s' => pruneChannels files maxRetention s' cs) (ih hn (s.cleared q))
    have ho : ∀ c' ∈ cs, oldest (maxRetention c'.id) (cleared s.store q) c'.id =
        oldest (maxRetention c'.id) s.store c'.id := by
      intro c' hc'
      refine oldest_cleared fun m hm hqm he => ?_
      have hid : c.id = c'.id :=
        (oldest_sub ((mem_batch_iff hs hm).mp (of_decide_eq_true hqm))).2.symm.trans he
      exact hne (hid ▸ mem_map_of_mem hc')
    have hq : ∀ m ∈ s.store.messages.rows, (q m || surplus maxRetention (s.cleared q).store cs m) =
          surplus maxRetention s.store (c :: cs) m := by
      intro m _
      refine congrArg (q m || ·) ?_
      rw [Bool.eq_iff_iff]
      simp only [surplus,any_eq_true]
      exact exists_congr fun c' => and_congr_right fun hc' => by
        rw [show oldest _ (s.cleared q).store _ = _ from ho c' hc']
    rw [Base.cleared_cleared,Base.cleared_congr hq] at h
    exact h.congr (deletable_or.symm.trans (deletable_congr hq))

lemma scrubMetadata_yields (now : ℚ) (days : ℤ) (s : Base) : ∃ s',
    Yields (0 < days → ∀ m ∈ s.store.messages.rows, reindexed now days m = true →
      s.fts.Covers [m]) s' (scrubMetadata now days s) := by
  unfold scrubMetadata
  by_cases hd : days ≤ 0
  · rw [if_pos hd]
    exact ⟨s,(Yields.pure s).congr (iff_of_true trivial fun h => absurd hd (Int.not_le.mpr h))⟩
  have hi : ((s.gone (reindexed now days)).all fun m => s.fts.Covers [m]) = true ↔
      ∀ m ∈ s.store.messages.rows, reindexed now days m = true → s.fts.Covers [m] := by
    simp only [Base.gone,all_eq_true,mem_filter,decide_eq_true_eq,and_imp]
  rw [if_neg hd]
  refine ⟨_,fun h => if_pos (hi.mpr (h (Int.not_le.mp hd))),fun h => ?_⟩
  rw [if_neg fun ha => h fun _ => hi.mp ha]
  exact ⟨_,rfl⟩

end Deletion

def remaining (cfg : Retention) (t : Clock) (st : Store) : Store :=
  cleared st fun m =>
    outdated t.pruneOld cfg.retentionDays m || expired t.pruneExpired m

/-- All rows that a tick deletes. -/
def pruned (cfg : Retention) (t : Clock) (st : Store) (m : Message) : Bool :=
  (outdated t.pruneOld cfg.retentionDays m || expired t.pruneExpired m) ||
    surplus cfg.maxRetention (remaining cfg t st) st.channels.rows m

structure Prunable (files : Files) (cfg : Retention) (t : Clock) (s : Base) : Prop where
  old : ∀ m ∈ s.store.messages.rows, outdated t.pruneOld cfg.retentionDays m = true →
    Removable files mediaPath s.store m
  lifetime : ∀ m ∈ s.store.messages.rows, outdated t.pruneOld cfg.retentionDays m = false →
    expired t.pruneExpired m = true → Removable files filledPath s.store m
  surplus : ∀ c ∈ s.store.channels.rows,
    ∀ m ∈ oldest (cfg.maxRetention c.id) (remaining cfg t s.store) c.id,
      Removable files filledPath s.store m
  indexed : s.fts.Covers (s.gone (pruned cfg t s.store))
  scrubbed : 0 < cfg.metadataScrubDays →
    ∀ m ∈ s.store.messages.rows, pruned cfg t s.store m = false →
      reindexed t.scrub cfg.metadataScrubDays m = true →
        (s.fts.without (s.gone (pruned cfg t s.store))).Covers [m]

lemma runMaintenance_completes (files : Files) (cfg : Retention) (t : Clock) (s : Tables) :
    (runMaintenance files cfg t s).2 = true ↔ Prunable files cfg t s.toBase := by
  let o := outdated t.pruneOld cfg.retentionDays
  let e := expired t.pruneExpired
  let s₂ := (s.toBase.cleared o).cleared e
  let l := surplus cfg.maxRetention s₂.store s₂.store.channels.rows
  have ho := pruneOldMessages_yields files t.pruneOld cfg.retentionDays s.toBase
  have he := pruneExpiredMessages_yields files t.pruneExpired (s.toBase.cleared o)
  have hc := pruneChannels_yields files cfg.maxRetention s₂.store.channels.keyed s₂
  obtain ⟨s₄,hs⟩ := scrubMetadata_yields t.scrub cfg.metadataScrubDays (s₂.cleared l)
  let finish (b : Base) : Tables := ⟨b,pruneExpiredInvites t.pruneInvites s.invites⟩
  have hp : Yields _ (finish s₄) (prune files cfg t s) :=
    ho.bind (he.bind (hc.bind (hs.bind (f := fun b => .ok (finish b)) (.pure (finish s₄)))))
  have hre : (runMaintenance files cfg t s).2 = true ↔ ∃ x, prune files cfg t s = .ok x := by
    unfold runMaintenance
    cases prune files cfg t s <;> simp
  have h₂ : s₂ = s.toBase.cleared fun m => o m || e m := Base.cleared_cleared ..
  have hl : s₂.cleared l = s.toBase.cleared (pruned cfg t s.store) := by
    simp only [l,h₂,Base.cleared_cleared]
    rfl
  -- What the index takes off in the three rounds is what it takes off for all pruned rows.
  have hco : s.fts.Covers (s.gone (pruned cfg t s.store)) ↔ s.fts.Covers (s.gone o) ∧
      (s.toBase.cleared o).fts.Covers ((s.toBase.cleared o).gone e) ∧
        s₂.fts.Covers (s₂.gone l) := by
    have hr := @covers_or s.fts s.store.messages.rows (fun m => o m || e m) l
    rw [@covers_or s.fts s.store.messages.rows o e,and_assoc] at hr
    refine Iff.trans ?_ (hr.trans (and_congr_right' (and_congr_right' ?_)))
    · simp only [l,h₂]
      rfl
    · simp only [h₂]
      rfl
  rw [hre,hp.isOk_iff,hl]
  constructor
  · rintro ⟨⟨h₁,c₁⟩,⟨h₂',c₂⟩,⟨h₃,c₃⟩,h₄,-⟩
    refine ⟨h₁,fun m hm hou => h₂' m (mem_cleared.mpr ⟨hm,hou⟩),?_,hco.mpr ⟨c₁,c₂,c₃⟩,
      fun hd m hm hpr => h₄ hd m (mem_cleared.mpr ⟨hm,hpr⟩)⟩
    rw [h₂] at h₃
    exact surplus_forall.mp h₃
  intro h
  obtain ⟨c₁,c₂,c₃⟩ := hco.mp h.indexed
  refine ⟨⟨h.old,c₁⟩,⟨fun m hm => h.lifetime m (mem_cleared.mp hm).1 (mem_cleared.mp hm).2,c₂⟩,
    ⟨?_,c₃⟩,fun hd m hm => h.scrubbed hd m (mem_cleared.mp hm).1 (mem_cleared.mp hm).2,trivial⟩
  rw [h₂]
  exact surplus_forall.mpr h.surplus

structure Site where
  node : NodeRuns.Node
  invites : Table Invite.tokenHash := .empty
  completed : Bool := true

inductive Label where
  | write (e : NodeRuns.Event)
  | maintain (cfg : Retention) (t : Clock) (fts : Totals)

def Site.tables (s : Site) (fts : Totals) : Tables := ⟨⟨s.node.store,fts⟩,s.invites⟩

def step (w : NodeRuns.Setting) (files : Files) (s : Site) : Label → Site
  | .write e => { s with node := NodeRuns.step w s.node e }
  | .maintain cfg t fts =>
    let r := runMaintenance files cfg t (s.tables fts)
    { node := { s.node with store := r.1.store }
      invites := r.1.invites
      completed := s.completed && r.2 }

def Sound (files : Files) (s : Site) : Label → Prop
  | .write _ => True
  | .maintain cfg t fts => Prunable files cfg t ⟨s.node.store,fts⟩

/-- Every tick of a run completes exactly when each finds a database in which everything to be
pruned can be deleted. -/
theorem maintenance_completes_iff (w : NodeRuns.Setting) (files : Files) (node : NodeRuns.Node)
    (ls : List Label) : (run (step w files) ⟨node,.empty,true⟩ ls).completed = true ↔
      Guarded (step w files) (Sound files) ⟨node,.empty,true⟩ ls := by
  have hs : ∀ s l, (step w files s l).completed = true ↔ s.completed = true ∧ Sound files s l := by
    intro s l
    cases l with
    | write e => exact (and_iff_left trivial).symm
    | maintain cfg t fts =>
      simp only [step,Sound,Bool.and_eq_true]
      rw [runMaintenance_completes]
      rfl
  exact (run_iff_guarded (G := fun s : Site => s.completed = true) hs).trans (and_iff_right rfl)

def sampleNode : NodeRuns.Node where
  store := { channels := .singleton { id := "board" } }

def sampleSetting : NodeRuns.Setting where
  prim := ⟨id,fun _ => "t",fun _ _ plaintext _ => plaintext⟩
  sig := ⟨fun _ => "",fun _ _ _ => true⟩
  config := {}

def openProcessor : MessageProcessor.Processor :=
  { permissionResolver := none, nodeIdentityHash := some "node", sealedManager := none }

def question : MessageProcessor.MessageEnvelope :=
  { channelId := "board", senderHash := "alice", timestamp := .fin 0, type := msgText,
    body := some "who is in?" }

def answer : MessageProcessor.MessageEnvelope :=
  { channelId := "board", senderHash := "bob", timestamp := .fin 5, type := msgThreadReply,
    body := some "me", replyTo := some (question.computeHash sampleSetting.prim) }

def posted (env : MessageProcessor.MessageEnvelope) : Label :=
  .write (.ingest openProcessor ⟨10,[]⟩ none env)

/-- The two entries of the posts below, with four tokens and one. -/
def fullIndex : Totals := ⟨fun text => if text = "me" then 1 else 4,2,5⟩

def tick (days : ℚ) : Label :=
  .maintain { retentionDays := 30 } ⟨days * 86400,days * 86400,days * 86400,days * 86400⟩ fullIndex

theorem old_thread_blocks :
    let s := run (step sampleSetting fun _ => .ok ()) ⟨sampleNode,.empty,true⟩
      [posted question, posted answer, tick 31]
    s.completed = false ∧ s.node.store.messages.rows.length = 2 := by
  decide +kernel

section Retained
variable {files : Files} {maxRetention : String → ℤ} {st : Store} {s : Base} {c : Channel}
  {m : Message}

/-- The rows of a channel in the order of the query, those without a number first. -/
def bySeq (st : Store) (channelId : String) : List Message :=
  (st.channelMessages channelId).insertionSort MessageRepo.seqLe

/-- Every channel is left with its newest messages, as many as it may keep. -/
def KeepsNewest (files : Files) (maxRetention : String → ℤ) (s : Base) : Prop :=
  ∃ s', pruneRetention files maxRetention s = .ok s' ∧ ∀ c ∈ s.store.channels.rows,
    ((s'.store.channelMessages c.id).length : ℤ) =
        min (maxRetention c.id) (s.store.channelMessages c.id).length ∧
      ∀ d ∈ s.store.channelMessages c.id, d ∉ s'.store.messages.rows →
        ∀ k ∈ s'.store.channelMessages c.id, d.receivedAt ≤ k.receivedAt

lemma mem_drop_iff {l : List Message} (h : l.Nodup) {n : ℕ} :
    m ∈ l.drop n ↔ m ∈ l ∧ m ∉ l.take n := by
  have hs := take_append_drop n l
  rw [← hs] at h
  refine ⟨fun hm => ⟨mem_of_mem_drop hm,fun ht => ?_⟩,fun ⟨hm,hn⟩ => ?_⟩
  · exact disjoint_of_nodup_append h ht hm
  · rw [← hs,mem_append] at hm
    exact hm.resolve_left hn

lemma mem_bySeq {ch : String} : m ∈ bySeq st ch ↔ m ∈ st.channelMessages ch := mem_insertionSort _

lemma length_bySeq (st : Store) (ch : String) :
    (bySeq st ch).length = (st.channelMessages ch).length :=
  length_insertionSort ..

lemma bySeq_nodup (st : Store) (ch : String) : (bySeq st ch).Nodup :=
  (perm_insertionSort ..).nodup_iff.mpr (st.messages.keyed.of_map.filter _)

lemma surplus_iff (hc : c ∈ st.channels.rows) (hm : m ∈ st.channelMessages c.id) :
    surplus maxRetention st st.channels.rows m = true ↔ m ∈ oldest (maxRetention c.id) st c.id := by
  obtain ⟨hr,hch⟩ := mem_filter.mp hm
  have hme : ∀ c' : Channel, m.msgHash ∈ (oldest (maxRetention c'.id) st c'.id).map msgHash ↔
      m ∈ oldest (maxRetention c'.id) st c'.id :=
    fun c' => mem_batch_iff (fun x hx => (oldest_sub hx).1) hr
  simp only [surplus,inBatch,any_eq_true,decide_eq_true_eq,hme]
  refine ⟨?_,fun h => ⟨c,hc,h⟩⟩
  rintro ⟨c',-,h⟩
  have hid : c'.id = c.id := (oldest_sub h).2.symm.trans (of_decide_eq_true hch)
  rwa [hid] at h

lemma kept_perm (hc : c ∈ st.channels.rows) :
    ((cleared st (surplus maxRetention st st.channels.rows)).channelMessages c.id).Perm
      ((bySeq st c.id).drop (excess (maxRetention c.id) st c.id)) := by
  refine (perm_ext_iff_of_nodup ((Table.keyed _).of_map.filter _)
    ((bySeq_nodup st c.id).sublist (drop_sublist ..))).mpr fun m => ?_
  have hl : m ∈ (cleared st (surplus maxRetention st st.channels.rows)).channelMessages c.id ↔
      m ∈ st.channelMessages c.id ∧ surplus maxRetention st st.channels.rows m = false := by
    simp only [Store.channelMessages,mem_filter,mem_cleared]
    exact and_right_comm
  rw [mem_drop_iff (bySeq_nodup st c.id),mem_bySeq]
  refine hl.trans (and_congr_right fun hm => ?_)
  rw [← Bool.not_eq_true]
  exact not_congr (surplus_iff hc hm)

lemma excess_eq {n : ℤ} {id : String} (h : 0 < n) :
    excess n st id = ((st.channelMessages id).length - n).toNat := if_neg h.not_ge

lemma keepsNewest_iff (hp : ∀ id, 0 < maxRetention id) :
    KeepsNewest files maxRetention s ↔ (∀ c ∈ s.store.channels.rows,
      (∀ d ∈ oldest (maxRetention c.id) s.store c.id,
        ∀ k ∈ (bySeq s.store c.id).drop (excess (maxRetention c.id) s.store c.id),
          d.receivedAt ≤ k.receivedAt) ∧
      ∀ m ∈ oldest (maxRetention c.id) s.store c.id, Removable files filledPath s.store m) ∧
      s.fts.Covers (s.gone (surplus maxRetention s.store s.store.channels.rows)) := by
  have hy := pruneChannels_yields files maxRetention s.store.channels.keyed s
  have hg : ∀ c ∈ s.store.channels.rows, ∀ d ∈ s.store.channelMessages c.id,
      d ∉ (cleared s.store (surplus maxRetention s.store s.store.channels.rows)).messages.rows ↔
        d ∈ oldest (maxRetention c.id) s.store c.id := by
    intro c hc d hd
    rw [mem_cleared,and_iff_right (mem_filter.mp hd).1,Bool.not_eq_false,surplus_iff hc hd]
  have ho : ∀ c, ∀ d ∈ oldest (maxRetention c) s.store c, d ∈ s.store.channelMessages c :=
    fun c d hd => mem_bySeq.mp (mem_of_mem_take hd)
  constructor
  · rintro ⟨s',hst,h⟩
    have hf := hy.isOk_iff.mp ⟨s',hst⟩
    obtain rfl := Except.ok.inj ((hy.done hf).symm.trans hst)
    refine ⟨fun c hc => ⟨fun d hd k hk => ?_,surplus_forall.mp hf.1 c hc⟩,hf.2⟩
    exact (h c hc).2 d (ho _ d hd) ((hg c hc d (ho _ d hd)).mpr hd) k
      ((kept_perm hc).mem_iff.mpr hk)
  rintro ⟨h,hco⟩
  refine ⟨_,hy.done ⟨surplus_forall.mpr fun c hc => (h c hc).2,hco⟩,
    fun c hc => ⟨?_,fun d hd hn k hk => ?_⟩⟩
  · have hk := (@kept_perm maxRetention s.store c hc).length_eq
    rw [length_drop,length_bySeq,excess_eq (hp c.id)] at hk
    rw [Base.cleared,hk]
    have := hp c.id
    omega
  · exact (h c hc).1 d ((hg c hc d hd).mp hn) k ((kept_perm hc).mem_iff.mp hk)

lemma oldest_subset (hp : 0 < maxRetention c.id) :
    oldest (maxRetention c.id) st c.id ⊆ oldest 1 st c.id := by
  refine take_subset_take_left _ ?_
  rw [excess_eq hp,excess_eq (by decide)]
  omega

/-- All rows of the channels but the last of each. -/
def allButNewest (st : Store) : Message → Bool := surplus (fun _ => 1) st st.channels.rows

end Retained

end Hokora.Maintenance
