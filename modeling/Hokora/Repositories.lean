import Mathlib.Data.List.Sort
import Hokora.Database

/-!
# Repositories, sequence assignment and the ban gate

One definition for each query. A flush that breaks a constraint is an error.
-/
namespace Hokora.Repositories
open BigEndian Database KeyedTable PyValue

namespace MessageRepo

def getByHash (st : Store) (msgHash : String) : Option Message := st.messages.get? msgHash

def insert (st : Store) (m : Message) : Py Store :=
  match st.channels.get? m.channelId, st.messages.insert? m with
  | some _, some messages => .ok { st with messages := messages }
  | _, _ => .error .integrityError

def update (st : Store) (msgHash : String) (f : Message → Message)
    (hf : ∀ m, (f m).msgHash = m.msgHash) : Store :=
  { st with messages := st.messages.update msgHash f hf }

def softDelete (st : Store) (msgHash deletedBy : String) : Store :=
  update st msgHash
    (fun m => { m with
      deleted := true, deletedBy := some deletedBy, body := none, mediaPath := none })
    fun _ => rfl

def setPinned (st : Store) (msgHash : String) (pinned : Bool) (now : ℚ) : Store :=
  update st msgHash
    (fun m => { m with pinned := pinned, pinnedAt := if pinned then some now else none })
    fun _ => rfl

def seqLe (a b : Message) : Prop := a.seq.getD 0 ≤ b.seq.getD 0

instance : DecidableRel seqLe := fun _ _ => inferInstanceAs (Decidable (_ ≤ _))

instance : Std.Total seqLe := ⟨fun _ _ => Nat.le_total _ _⟩

instance : IsTrans Message seqLe := ⟨fun _ _ _ => Nat.le_trans⟩

def getHistory (st : Store) (channelId : String) (sinceSeq : ℤ) (limit : ℕ) : List Message :=
  ((st.channelMessages channelId).filter
    (fun m => m.seq.any fun q : ℕ => sinceSeq < q)).insertionSort seqLe |>.take limit

end MessageRepo

namespace ChannelRepo

def getById (st : Store) (channelId : String) : Option Channel := st.channels.get? channelId

def bumpSeq (st : Store) (channelId : String) : Store :=
  { st with
    channels := st.channels.update channelId
      (fun c => { c with latestSeq := c.latestSeq + 1 }) fun _ => rfl }

def incrementSeq (st : Store) (channelId : String) : Py (ℕ × Store) :=
  match st.channels.get? channelId with
  | none => .error .noResultFound
  | some c => .ok (c.latestSeq + 1, bumpSeq st channelId)

end ChannelRepo

namespace IdentityRepo

def getByHash (st : Store) (identityHash : String) : Option Identity :=
  st.identities.get? identityHash

def isBlocked (st : Store) (identityHash : String) : Bool :=
  match getByHash st identityHash with
  | some ident => ident.blocked
  | none => false

def upsert (st : Store) (identityHash : String) (publicKey : Bytes) (now : ℚ) : Store :=
  match st.identities.insert?
      { hash := identityHash, publicKey := some publicKey, lastSeen := now } with
  | some identities => { st with identities := identities }
  | none => { st with
      identities := st.identities.update identityHash
        (fun i => { i with publicKey := some publicKey, lastSeen := now }) fun _ => rfl }

end IdentityRepo

namespace RoleRepo

def getByName (st : Store) (name : String) : Option Role :=
  st.roles.rows.find? fun r => r.name = name

def inScope (channelId : Option String) (strictChannelScope : Bool) (a : RoleAssignment) : Bool :=
  match channelId with
  | none => a.channelId = none
  | some c =>
    if c = "" then a.channelId = none
    else if strictChannelScope then a.channelId = some c
    else a.channelId = some c || a.channelId = none

def getIdentityRoles (st : Store) (identityHash : String) (channelId : Option String)
    (strictChannelScope : Bool := false) : List Role :=
  st.assignments.filterMap fun a =>
    if a.identityHash = identityHash && inScope channelId strictChannelScope a then
      st.roles.get? a.roleId
    else none

def getChannelOverride (st : Store) (channelId roleId : String) : Option ChannelOverride :=
  st.overrides.get? (channelId, roleId)

end RoleRepo

def AuditLogRepo.log (st : Store) (entry : AuditLog) : Store :=
  { st with auditLog := st.auditLog ++ [entry] }

namespace SequenceManager

def nextSeq (st : Store) (channelId : String) : Py (ℕ × Store) :=
  ChannelRepo.incrementSeq st channelId

def insertThread (st : Store) (t : Thread) : Py Store :=
  match st.messages.get? t.rootMsgHash, st.threads.insert? t with
  | some _, some threads => .ok { st with threads := threads }
  | _, _ => .error .integrityError

def updateThread (st : Store) (rootHash : String) (f : Thread → Thread)
    (hf : ∀ t, (f t).rootMsgHash = t.rootMsgHash) : Store :=
  { st with threads := st.threads.update rootHash f hf }

def nextThreadSeq (st : Store) (rootHash channelId : String) (now : ℚ) : Py (ℕ × Store) :=
  match st.threads.get? rootHash with
  | some t =>
    .ok (t.latestThreadSeq + 1, updateThread st rootHash
      (fun t => { t with latestThreadSeq := t.latestThreadSeq + 1 }) fun _ => rfl)
  | none => do
      let st' ← insertThread st
        { rootMsgHash := rootHash, channelId := channelId, latestThreadSeq := 1,
          lastActivity := now }
      pure (1, st')

end SequenceManager

namespace Ban

def isBlocked (st : Store) (identityHash : String) : Bool :=
  if identityHash = "" then false else IdentityRepo.isBlocked st identityHash

def checkNotBlocked (st : Store) (identityHash : String) : Py Unit :=
  if isBlocked st identityHash then
    .error (.hokora .permissionDenied
      ("Identity " ++ String.ofList (identityHash.toList.take 8) ++ "... is blocked"))
  else .ok ()

end Ban

def committed {A : Type} (st : Store) (outcome : Py (A × Store)) : Store :=
  match outcome with
  | .ok r => r.2
  | .error _ => st

variable {m : Message} {st st' : Store}

lemma MessageRepo.insert_ok (h : insert st m = .ok st') :
    (∃ c, st.channels.get? m.channelId = some c) ∧
      ∃ t, st.messages.insert? m = some t ∧ st' = { st with messages := t } := by
  unfold insert at h
  split at h
  next hc ht =>
    cases h
    exact ⟨⟨_,hc⟩,_,ht,rfl⟩
  · cases h

lemma MessageRepo.insert_of_fresh {c : Channel} (hc : st.channels.get? m.channelId = some c)
    (hf : getByHash st m.msgHash = none) :
    ∃ t, st.messages.insert? m = some t ∧ insert st m = .ok { st with messages := t } := by
  obtain ⟨t,ht⟩ := Table.insert?_isSome.mpr hf
  exact ⟨t,ht,by simp [insert,hc,ht]⟩

variable {k hash : String}

lemma MessageRepo.getByHash_insert {t : Table Message.msgHash}
    (h : st.messages.insert? m = some t) :
    getByHash { st with messages := t } k = if m.msgHash = k then some m else getByHash st k :=
  Table.get?_insert? h k

lemma MessageRepo.getByHash_update_ne {f : Message → Message}
    (hf : ∀ m, (f m).msgHash = m.msgHash) (h : k ≠ hash) :
    getByHash (update st hash f hf) k = getByHash st k :=
  Table.get?_update_ne hf h

lemma MessageRepo.getByHash_update_none (st : Store)
    (f : Message → Message) (hf : ∀ m, (f m).msgHash = m.msgHash) (h : getByHash st k = none) :
    getByHash (update st hash f hf) k = none :=
  Table.get?_update_none hf h

lemma MessageRepo.mem_getHistory {ch : String} {sinceSeq : ℤ} {limit : ℕ}
    (h : m ∈ getHistory st ch sinceSeq limit) :
    m ∈ st.channelMessages ch ∧ ∃ q, m.seq = some q ∧ sinceSeq < q := by
  have hs := List.mem_of_mem_take h
  rw [List.mem_insertionSort,List.mem_filter,Option.any_eq_true] at hs
  obtain ⟨hm,q,hq,hlt⟩ := hs
  exact ⟨hm,q,hq,of_decide_eq_true hlt⟩

lemma ChannelRepo.incrementSeq_ok {ch : String} {n : ℕ} : incrementSeq st ch = .ok (n, st') ↔
      ∃ c, getById st ch = some c ∧ n = c.latestSeq + 1 ∧ st' = bumpSeq st ch := by
  unfold incrementSeq getById
  cases st.channels.get? ch with
  | none => simp
  | some c => simp [eq_comm]

lemma ChannelRepo.getById_bumpSeq (st : Store) (ch k : String) : getById (bumpSeq st ch) k =
      if k = ch then (getById st k).map fun c => { c with latestSeq := c.latestSeq + 1 }
      else getById st k :=
  Table.get?_update _ _ _ (fun _ => by rfl) _

lemma SequenceManager.nextThreadSeq_messages {rootHash ch : String} {now : ℚ} {n : ℕ}
    (h : nextThreadSeq st rootHash ch now = .ok (n, st')) : st'.messages = st.messages := by
  unfold nextThreadSeq at h
  split at h
  · cases h
    rfl
  obtain ⟨st₁,h₁,h₂⟩ := bind_ok h
  unfold insertThread at h₁
  split at h₁
  · cases h₁
    cases h₂
    rfl
  · cases h₁

@[simp] lemma IdentityRepo.upsert_messages (i : String) (pk : Bytes) (now : ℚ) :
    (upsert st i pk now).messages = st.messages := by
  unfold upsert
  split <;> rfl

variable {i : String}

lemma RoleRepo.mem_getIdentityRoles {ch : Option String} {strict : Bool} {r : Role} :
    r ∈ getIdentityRoles st i ch strict ↔ ∃ a ∈ st.assignments, a.identityHash = i ∧
        inScope ch strict a = true ∧ st.roles.get? a.roleId = some r := by
  simp [getIdentityRoles,and_assoc]

lemma Ban.checkNotBlocked_ok : checkNotBlocked st i = .ok () ↔ isBlocked st i = false := by
  unfold checkNotBlocked
  split_ifs with h
  · simp [h]
  · simpa using h

end Hokora.Repositories
