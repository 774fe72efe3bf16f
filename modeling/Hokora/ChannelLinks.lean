import Hokora.BigEndian
import Hokora.KeyedTable
import Hokora.TransitionRuns

/-!
# The client's link table

Which link each channel of the client is mapped to, and which channels wait for a path. What
Reticulum knows (identities, paths, the status of links) comes in with each call and may differ from
call to call. Requests and resources on the links are not modelled.
-/
namespace Hokora.ChannelLinks
open BigEndian KeyedTable TransitionRuns
open Function (update)

inductive LinkStatus where
  | pending
  | active
  | closed
  deriving DecidableEq

structure Mapping where
  channel : String
  link : ℕ

structure ChannelBytes where
  channel : String
  bytes : Bytes

structure PendingPubkey where
  destinationHash : Bytes
  publicKey : Bytes

structure ChannelLinkManager where
  links : Table Mapping.channel := .empty
  status : ℕ → LinkStatus := fun _ => .pending
  opener : ℕ → String := fun _ => ""
  opened : ℕ := 0
  channelDestHashes : Table ChannelBytes.channel := .empty
  channelIdentities : Table ChannelBytes.channel := .empty
  pendingPubkeys : Table PendingPubkey.destinationHash := .empty
  pendingConnects : Table ChannelBytes.channel := .empty
  orphans : List String := []

structure RnsView where
  «recall» : Bytes → Option Bytes
  loads : Bytes → Bool
  hasPath : Bytes → Bool
  isConnectedToSharedInstance : Bool

namespace ChannelLinkManager
variable (s : ChannelLinkManager)

def identityFromInvite (env : RnsView) (destinationHash : Bytes) (channelId : String) :
    ChannelLinkManager × Option Bytes :=
  match s.pendingPubkeys.get? destinationHash with
  | none => (s, none)
  | some pending =>
    let s := { s with pendingPubkeys := s.pendingPubkeys.erase destinationHash }
    if pending.publicKey ≠ [] ∧ env.loads pending.publicKey then
      ({ s with channelIdentities := s.channelIdentities.set ⟨channelId,pending.publicKey⟩ },
        some pending.publicKey)
    else (s, none)

def destIdentity (env : RnsView) (destinationHash : Bytes) (channelId : String) :
    ChannelLinkManager × Option Bytes :=
  match s.channelIdentities.get? channelId with
  | some cached => (s, some cached.bytes)
  | none =>
    match env.recall destinationHash with
    | some identity => (s, some identity)
    | none => s.identityFromInvite env destinationHash channelId

def openLink (channelId : String) : ChannelLinkManager :=
  { s with
    links := s.links.set ⟨channelId,s.opened⟩
    status := update s.status s.opened .pending
    opener := update s.opener s.opened channelId
    opened := s.opened + 1
    pendingConnects := s.pendingConnects.erase channelId }

def defer (destinationHash : Bytes) (channelId : String) : ChannelLinkManager :=
  { s with pendingConnects := s.pendingConnects.set ⟨channelId,destinationHash⟩ }

def connectChannel (env : RnsView) (destinationHash : Bytes) (channelId : String) :
    ChannelLinkManager :=
  let s := { s with
    channelDestHashes := s.channelDestHashes.set ⟨channelId,destinationHash⟩ }
  match s.destIdentity env destinationHash channelId with
  | (s, none) => s.defer destinationHash channelId
  | (s, some _) =>
    if !env.hasPath destinationHash && !env.isConnectedToSharedInstance then
      s.defer destinationHash channelId
    else s.openLink channelId

def findActiveLink : Option ℕ :=
  (s.links.rows.find? fun m => s.status m.link = .active).map Mapping.link

def noteDestination (env : RnsView) (channelId : String) (destinationHash : Option Bytes)
    (identityPublicKey : Option Bytes) : ChannelLinkManager :=
  match destinationHash with
  | some (b :: bs) =>
    let s := { s with channelDestHashes := s.channelDestHashes.set ⟨channelId,b :: bs⟩ }
    match env.recall (b :: bs), identityPublicKey with
    | none, some (k :: ks) =>
      if env.loads (k :: ks) then
        { s with channelIdentities := s.channelIdentities.set ⟨channelId,k :: ks⟩ }
      else s
    | _, _ => s
  | _ => s

def registerChannel (env : RnsView) (channelId : String) (destinationHash : Option Bytes)
    (identityPublicKey : Option Bytes) : ChannelLinkManager :=
  let s := s.noteDestination env channelId destinationHash identityPublicKey
  if (s.links.get? channelId).isSome then s
  else
    match s.findActiveLink with
    | none => s
    | some link => { s with links := s.links.set ⟨channelId,link⟩ }

def disconnectChannel (channelId : String) : ChannelLinkManager :=
  match s.links.get? channelId with
  | none => s
  | some m =>
    { s with
      links := s.links.erase channelId
      status := update s.status m.link .closed }

def channelsOn (link : ℕ) : List String :=
  (s.links.rows.filter fun m => m.link = link).map Mapping.channel

def handleClosed (link : ℕ) : ChannelLinkManager :=
  { s with
    status := update s.status link .closed
    links := s.links.erase (s.opener link)
    orphans := s.channelsOn link ++ s.orphans }

def linkOf (channelId : String) : Option ℕ := (s.links.get? channelId).map Mapping.link

end ChannelLinkManager

inductive LinkEvent where
  | connect (env : RnsView) (destinationHash : Bytes) (channelId : String)
  | register (env : RnsView) (channelId : String) (destinationHash : Option Bytes)
      (identityPublicKey : Option Bytes)
  | disconnect (channelId : String)
  | established (link : ℕ)
  | closed (link : ℕ)

def step (s : ChannelLinkManager) : LinkEvent → ChannelLinkManager
  | .connect env destinationHash channelId => s.connectChannel env destinationHash channelId
  | .register env channelId destinationHash identityPublicKey =>
    s.registerChannel env channelId destinationHash identityPublicKey
  | .disconnect channelId => s.disconnectChannel channelId
  | .established link =>
    if link < s.opened then { s with status := update s.status link .active } else s
  | .closed link => if link < s.opened then s.handleClosed link else s

/-- What a step of the table should do. A closed link leaves no entry, and no other entry changes.
A channel that lost its link gets an active one when it is registered again, if there is one. -/
def Intact (s : ChannelLinkManager) (e : LinkEvent) : Prop :=
  match e with
  | .closed link => link < s.opened →
      (∀ c, (step s e).linkOf c ≠ some link) ∧
        ∀ c other, other ≠ link → ((step s e).linkOf c = some other ↔ s.linkOf c = some other)
  | .register _ channelId _ _ => channelId ∈ s.orphans → s.findActiveLink.isSome = true →
      ∃ link, (step s e).linkOf channelId = some link ∧ (step s e).status link = .active
  | _ => True

/-- The link closes with only the channel that opened it on it, and that channel is on no other
link; a channel that lost its link is registered while it has none, or one that is active. -/
def Solitary (s : ChannelLinkManager) : LinkEvent → Prop
  | .closed link => link < s.opened →
      (∀ c, s.linkOf c = some link → c = s.opener link) ∧
        ∀ other, s.linkOf (s.opener link) = some other → other = link
  | .register _ channelId _ _ => channelId ∈ s.orphans → s.findActiveLink.isSome = true →
      ∀ link, s.linkOf channelId = some link → s.status link = .active
  | _ => True

variable {dh ik : Option Bytes}

section Step
variable (s : ChannelLinkManager) {link : ℕ} {env : RnsView}

lemma linkOf_handleClosed {c : String} :
    (s.handleClosed link).linkOf c = if c = s.opener link then none else s.linkOf c := by
  simp only [ChannelLinkManager.linkOf,ChannelLinkManager.handleClosed,Table.get?_erase]
  split_ifs <;> rfl

lemma closed_intact_iff : Intact s (.closed link) ↔ Solitary s (.closed link) := by
  simp only [Intact,Solitary,step]
  refine forall_congr' fun ho => ?_
  simp only [if_pos ho,linkOf_handleClosed]
  apply and_congr
  · refine forall_congr' fun c => ?_
    by_cases hc : c = s.opener link
    · rw [if_pos hc]
      exact iff_of_true nofun fun _ => hc
    · rw [if_neg hc]
      exact ⟨fun h h' => absurd h' h,fun h h' => hc (h h')⟩
  constructor
  · intro h other hot
    by_contra hne
    have hg := (h (s.opener link) other hne).mpr hot
    rw [if_pos rfl] at hg
    cases hg
  intro h c other hne
  by_cases hc : c = s.opener link
  · rw [if_pos hc,hc]
    exact iff_of_false nofun fun h' => hne (h other h')
  · rw [if_neg hc]

lemma noteDestination_frame {ch : String} : (s.noteDestination env ch dh ik).links = s.links ∧
      (s.noteDestination env ch dh ik).status = s.status := by
  unfold ChannelLinkManager.noteDestination
  split
  · split
    · split_ifs <;> exact ⟨rfl,rfl⟩
    · exact ⟨rfl,rfl⟩
  · exact ⟨rfl,rfl⟩

lemma findActiveLink_active (h : s.findActiveLink = some link) : s.status link = .active := by
  obtain ⟨m,hm,rfl⟩ := Option.map_eq_some_iff.mp h
  have ha := List.find?_some hm
  exact of_decide_eq_true ha

lemma linkOf_registerChannel (env : RnsView) (ch : String) (dh ik : Option Bytes) :
    (s.registerChannel env ch dh ik).linkOf ch = (s.linkOf ch).or s.findActiveLink ∧
      (s.registerChannel env ch dh ik).status = s.status := by
  obtain ⟨hl,hs⟩ :=
    noteDestination_frame s
  have hf : (s.noteDestination env ch dh ik).findActiveLink = s.findActiveLink := by
    rw [ChannelLinkManager.findActiveLink,ChannelLinkManager.findActiveLink,hl,hs]
  simp only [ChannelLinkManager.registerChannel,hl,hf]
  cases hg : s.links.get? ch with
  | some m =>
    rw [Option.isSome_some,if_pos rfl]
    refine ⟨?_,hs⟩
    rw [ChannelLinkManager.linkOf,ChannelLinkManager.linkOf,hl,hg]
    rfl
  | none =>
    rw [Option.isSome_none,if_neg Bool.false_ne_true]
    cases s.findActiveLink with
    | none =>
      refine ⟨?_,hs⟩
      rw [ChannelLinkManager.linkOf,ChannelLinkManager.linkOf,hl,hg]
      rfl
    | some link =>
      refine ⟨?_,hs⟩
      rw [ChannelLinkManager.linkOf,ChannelLinkManager.linkOf,Table.get?_set,if_pos rfl,hg]
      rfl

lemma register_intact_iff {ch : String} : Intact s (.register env ch dh ik) ↔
      Solitary s (.register env ch dh ik) := by
  obtain ⟨hl,hs⟩ :=
    linkOf_registerChannel s env ch dh ik
  simp only [Intact,Solitary,step,hl,hs]
  refine forall_congr' fun _ => forall_congr' fun ha => ?_
  obtain ⟨first,hf⟩ := Option.isSome_iff_exists.mp ha
  cases hol : s.linkOf ch with
  | none =>
    rw [hf]
    exact iff_of_true ⟨first,rfl,findActiveLink_active s hf⟩ nofun
  | some link =>
    constructor
    · rintro ⟨found,hfo,hst⟩ other ho
      cases hfo
      cases ho
      exact hst
    · intro h
      exact ⟨link,rfl,h link rfl⟩

lemma intact_iff (e : LinkEvent) : Intact s e ↔ Solitary s e := by
  cases e with
  | closed link => exact closed_intact_iff s
  | register env channelId dh ik =>
    exact register_intact_iff s
  | connect env dh channelId => exact Iff.rfl
  | disconnect channelId => exact Iff.rfl
  | established link => exact Iff.rfl

end Step

/-- The table is intact through a run exactly if each link closes alone and no channel that lost
its link is registered while it is mapped to one that is not active. -/
theorem link_table_intact_iff (events : List LinkEvent) :
    Guarded step Intact {} events ↔ Guarded step Solitary {} events :=
  Guarded.congr intact_iff

def online : RnsView := ⟨fun _ => some [1],fun _ => true,fun _ => true,false⟩

def shared : ChannelLinkManager :=
  run step {} [.connect online [7] "a", .established 0, .register online "b" none none]

def reconnected : ChannelLinkManager :=
  run step shared [.closed 0, .connect online [7] "a", .established 1]

def replaced : ChannelLinkManager :=
  run step {} [.connect online [7] "a", .connect online [7] "a", .established 1]

theorem closed_link_breaks_table : (step shared (.closed 0)).linkOf "b" = some 0 ∧
      "b" ∈ reconnected.orphans ∧ reconnected.findActiveLink = some 1 ∧
      (step reconnected (.register online "b" none none)).linkOf "b" = some 0 ∧
      reconnected.status 0 = .closed ∧
      replaced.linkOf "a" = some 1 ∧ (step replaced (.closed 0)).linkOf "a" = none := by
  decide +kernel

namespace ChannelLinkManager

/-- One turn of the retry loop, with the channels resolved so far. The answers of `known` are those
of its own lookup, before the connect asks again. -/
def retryOne (known env : String → RnsView) (acc : ChannelLinkManager × List String)
    (p : ChannelBytes) : ChannelLinkManager × List String :=
  if (acc.1.links.get? p.channel).isSome then (acc.1, p.channel :: acc.2)
  else if (acc.1.channelIdentities.get? p.channel).isSome ||
      ((known p.channel).recall p.bytes).isSome then
    (acc.1.connectChannel (env p.channel) p.bytes p.channel, p.channel :: acc.2)
  else acc

/-- The loop over the channels that wait. It drops every channel it has called resolved, also one
that the connect has put back. -/
def retryPendingConnects (s : ChannelLinkManager) (known env : String → RnsView) :
    ChannelLinkManager :=
  let (s, resolved) := s.pendingConnects.rows.foldl (retryOne known env) (s, [])
  { s with pendingConnects := s.pendingConnects.select fun p => !resolved.contains p.channel }

end ChannelLinkManager

inductive ConnectCall where
  | connect (env : RnsView) (destinationHash : Bytes) (channelId : String)
  | retry (known env : String → RnsView)

def ConnectCall.perform (s : ChannelLinkManager) : ConnectCall → ChannelLinkManager
  | .connect env destinationHash channelId => s.connectChannel env destinationHash channelId
  | .retry known env => s.retryPendingConnects known env

/-- A channel that waits goes on waiting, or it has a link. -/
def Remembered (s s' : ChannelLinkManager) : Prop :=
  ∀ c, (s.pendingConnects.get? c).isSome ∨ (s.linkOf c).isSome →
    (s'.pendingConnects.get? c).isSome ∨ (s'.linkOf c).isSome

/-- Of the channels that wait, what the loop could look up the connect finds too, and the way there
is known. -/
def ConnectCall.Reaches (s : ChannelLinkManager) : ConnectCall → Prop
  | .connect .. => True
  | .retry known env => ∀ p ∈ s.pendingConnects.rows,
      (((known p.channel).recall p.bytes).isSome → ((env p.channel).recall p.bytes).isSome) ∧
        ((env p.channel).hasPath p.bytes ∨ (env p.channel).isConnectedToSharedInstance)

section Pending
open ChannelLinkManager
variable {s : ChannelLinkManager} {env : RnsView} {dest : Bytes} {ch c : String}

lemma destIdentity_frame (s : ChannelLinkManager) : (s.destIdentity env dest ch).1.links = s.links ∧
    (s.destIdentity env dest ch).1.pendingConnects = s.pendingConnects := by
  unfold destIdentity identityFromInvite
  repeat' split
  all_goals exact ⟨rfl,rfl⟩

lemma connectChannel_cases (s : ChannelLinkManager) (env : RnsView) (dest : Bytes) (ch : String) :
    ((s.connectChannel env dest ch).links = s.links ∧
      (s.connectChannel env dest ch).pendingConnects = s.pendingConnects.set ⟨ch,dest⟩ ∧
      ((s.channelIdentities.get? ch).isSome ∨ (env.recall dest).isSome →
        env.hasPath dest = false ∧ env.isConnectedToSharedInstance = false)) ∨
    ∃ link, (s.connectChannel env dest ch).links = s.links.set ⟨ch,link⟩ ∧
      (s.connectChannel env dest ch).pendingConnects = s.pendingConnects.erase ch := by
  simp only [connectChannel]
  obtain ⟨hl,hp⟩ := @destIdentity_frame env dest ch { s with
    channelDestHashes := s.channelDestHashes.set ⟨ch,dest⟩ }
  rcases hd : destIdentity _ env dest ch with ⟨s',_ | identity⟩ <;>
    simp only [hd] at hl hp
  · refine .inl ⟨hl,by simp [defer,hp],fun h => ?_⟩
    unfold destIdentity at hd
    rcases h with h | h
    · obtain ⟨cached,hc⟩ := Option.isSome_iff_exists.mp h
      simp [hc] at hd
    · obtain ⟨identity,hc⟩ := Option.isSome_iff_exists.mp h
      split at hd <;> simp [hc] at hd
  · split_ifs with h
    · exact .inl ⟨hl,by simp [defer,hp],fun _ => by simpa using h⟩
    · exact .inr ⟨s'.opened,by simp [openLink,hl],by simp [openLink,hp]⟩

lemma linkOf_set {s' : ChannelLinkManager} {link : ℕ} (h : s'.links = s.links.set ⟨ch,link⟩) :
    s'.linkOf c = if ch = c then some link else s.linkOf c := by
  simp only [linkOf,h,Table.get?_set]
  split_ifs <;> rfl

lemma linkOf_connectChannel (h : (s.linkOf c).isSome) :
    ((s.connectChannel env dest ch).linkOf c).isSome := by
  rcases connectChannel_cases s env dest ch with h' | ⟨_,hl,-⟩
  · rwa [linkOf,h'.1]
  rw [linkOf_set hl]
  split_ifs
  exacts [rfl, h]

lemma connectChannel_remembered : Remembered s (s.connectChannel env dest ch) := by
  rintro c (hc | hc)
  · rcases connectChannel_cases s env dest ch with ⟨-,hp,-⟩ | ⟨_,hl,hp⟩
    · left
      rw [hp,Table.get?_set]
      split_ifs
      exacts [rfl, hc]
    by_cases he : ch = c
    · right
      rw [linkOf_set hl,if_pos he]
      rfl
    · left
      rwa [hp,Table.get?_erase,if_neg (Ne.symm he)]
  · exact .inr (linkOf_connectChannel hc)

/-- What the loop keeps: all that waited is remembered, and what it calls resolved has a link. -/
def Resolves (s : ChannelLinkManager) (acc : ChannelLinkManager × List String) : Prop :=
  Remembered s acc.1 ∧ ∀ c ∈ acc.2, (acc.1.linkOf c).isSome

variable {known env : String → RnsView}

lemma Resolves.next {acc : ChannelLinkManager × List String} {p : ChannelBytes}
    (hr : ConnectCall.Reaches s (.retry known env)) (hp : p ∈ s.pendingConnects.rows)
    (h : Resolves s acc) :
    Resolves s (retryOne known env acc p) := by
  unfold retryOne
  split_ifs with hl hk
  · refine ⟨h.1,List.forall_mem_cons.mpr ⟨?_,h.2⟩⟩
    rwa [linkOf,Option.isSome_map]
  · refine ⟨fun c hc => connectChannel_remembered c (h.1 c hc),List.forall_mem_cons.mpr
      ⟨?_,fun c hc => linkOf_connectChannel (h.2 c hc)⟩⟩
    obtain ⟨hre,hpa⟩ := hr p hp
    have hid := (Bool.or_eq_true_iff.mp hk).imp_right hre
    -- the connect finds the identity and the way, so it does not defer again
    rcases connectChannel_cases acc.1 (env p.channel) p.bytes p.channel with ⟨-,-,hno⟩ | ⟨_,hl,-⟩
    · simp [hno hid] at hpa
    · rw [linkOf_set hl,if_pos rfl]
      rfl
  · exact h

lemma retry_remembered (hr : ConnectCall.Reaches s (.retry known env)) :
    Remembered s (s.retryPendingConnects known env) := by
  have hf : Resolves s (s.pendingConnects.rows.foldl (retryOne known env) (s, [])) :=
    List.foldlRecOn _ _ ⟨fun _ h => h,nofun⟩ fun acc h p hp => h.next hr hp
  intro c hc
  rcases hf.1 c hc with hp | hl
  · by_cases hm : c ∈ (s.pendingConnects.rows.foldl (retryOne known env) (s, [])).2
    · exact .inr (hf.2 c hm)
    obtain ⟨p,hp⟩ := Option.isSome_iff_exists.mp hp
    left
    simp [retryPendingConnects,Table.get?_select,hp,Table.get?_key hp,hm]
  · exact .inr hl

/-- As long as what the retries look up stays known and the way is known or shared, no channel that
waits for its path is forgotten, however often the calls come. -/
theorem pending_remembered (s : ChannelLinkManager) {calls : List ConnectCall}
    (h : Guarded ConnectCall.perform ConnectCall.Reaches s calls) :
    Remembered s (run ConnectCall.perform s calls) := by
  induction calls generalizing s with
  | nil => exact fun _ h => h
  | cons call calls ih =>
    obtain ⟨hcall,h⟩ := h
    have hone : Remembered s (call.perform s) := by
      cases call with
      | connect env dest ch => exact connectChannel_remembered
      | retry known env => exact retry_remembered hcall
    exact fun c hc => ih _ h c (hone c hc)

end Pending

def recalled (path : Bool) (_ : String) : RnsView := { online with hasPath := fun _ => path }

def deferred : ChannelLinkManager :=
  run ConnectCall.perform {} [.connect { online with «recall» := fun _ => none } [7] "a"]

theorem deferred_remembered : Remembered deferred
    (run ConnectCall.perform deferred [.retry (recalled true) (recalled true)]) :=
  pending_remembered deferred (by simp [Guarded,ConnectCall.Reaches,recalled,online])

/-- The identity is announced before the path is known: the retry forgets the channel. -/
theorem deferred_forgotten : (deferred.pendingConnects.get? "a").isSome ∧
    let s := run ConnectCall.perform deferred [.retry (recalled false) (recalled false)]
    s.pendingConnects.get? "a" = none ∧ s.linkOf "a" = none := by
  decide +kernel

end Hokora.ChannelLinks
