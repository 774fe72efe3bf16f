import Hokora.LiveSubscriptions
import Hokora.TransitionRuns
import Hokora.Windows

/-!
# The delivery of live events

Batches, dead links and the replay buffer. What the network does to a packet is given with the call.
-/
namespace Hokora.LiveDelivery
open BigEndian Constants Database KeyedTable List LiveSubscriptions PushReceive PyValue ReadHandlers
  TransitionRuns Windows

structure Push where
  channelId : String
  eventType : String
  data : Entry
  secret : Option String := none

structure LinkPushes (L : Type) where
  link : L
  pushes : List (ℚ × Push)

structure ZombieLinkPushBuffer (L : Type) where
  retentionS : ℚ := 300
  perLinkCap : ℕ := 500
  pushes : Table (@LinkPushes.link L) := .empty

variable {L : Type} [DecidableEq L]

namespace ZombieLinkPushBuffer

def recorded (b : ZombieLinkPushBuffer L) (link : L) : List (ℚ × Push) :=
  ((b.pushes.get? link).map LinkPushes.pushes).getD []

def record (b : ZombieLinkPushBuffer L) (link : L) (push : Push) (now : ℚ) :
    ZombieLinkPushBuffer L :=
  let capped := keepNewest b.perLinkCap (b.recorded link ++ [(now, push)])
  { b with
    pushes := b.pushes.set ⟨link,capped.dropWhile fun x => x.1 < now - b.retentionS⟩ }

def drain (b : ZombieLinkPushBuffer L) (link : L) : List (ℚ × Push) × ZombieLinkPushBuffer L :=
  (b.recorded link, { b with pushes := b.pushes.erase link })

end ZombieLinkPushBuffer

structure LinkIdentity (L : Type) where
  link : L
  identityHash : String

structure Batch (L : Type) where
  channelId : String
  link : L
  events : List (Push × ℚ)

def Batch.key (b : Batch L) : String × L := (b.channelId, b.link)

def maxBatchEvents : ℕ := 1000

inductive Via where
  | sent
  | batched
  | deferred (identityHash : String)
  | lxmf (identityHash : String)
  deriving DecidableEq

structure Delivered (L : Type) where
  link : L
  via : Via
  push : Push

structure LiveSubscriptionManager (L : Type) [DecidableEq L] where
  live : LiveManager L := {}
  linkIdentities : Table (@LinkIdentity.link L) := .empty
  batchBuffer : Table (@Batch.key L) := .empty
  pushBuffer : ZombieLinkPushBuffer L := {}
  deferHook : Bool := true
  journal : List (Delivered L) := []

structure Network (L : Type) where
  active : L → Bool
  sends : L → Bool
  now : ℚ

namespace LiveSubscriptionManager
variable (s : LiveSubscriptionManager L)

def identityOf (link : L) : Option String :=
  (s.linkIdentities.get? link).map LinkIdentity.identityHash

def subscribe (channelId : String) (link : L) (syncProfile : ℤ) (identityHash : Option String)
    (supportsSealedAtRest : Bool) : Option (LiveSubscriptionManager L) :=
  (s.live.subscribe channelId link syncProfile supportsSealedAtRest).map fun live =>
    { s with
      live := live
      linkIdentities :=
        if link ∈ (s.live.getSubscribers channelId).map Prod.fst then s.linkIdentities
        else match present identityHash with
          | some h => s.linkIdentities.set ⟨link,h⟩
          | none => s.linkIdentities }

def unsubscribe (channelId : String) (link : L) : LiveSubscriptionManager L :=
  { s with live := { s.live with
      subscriptions := s.live.subscriptions.filter fun x => ¬ (x.1 = channelId ∧ x.2.1 = link) } }

def unsubscribeAll (link : L) : LiveSubscriptionManager L :=
  { s with live := { s.live with
      subscriptions := s.live.subscriptions.filter fun x => x.2.1 ≠ link } }

def log (link : L) (via : Via) (push : Push) : LiveSubscriptionManager L :=
  { s with journal := s.journal ++ [⟨link,via,push⟩] }

def deferForDeadLink (link : L) (push : Push) : LiveSubscriptionManager L :=
  match s.deferHook, s.identityOf link with
  | true, some h => s.log link (.deferred h) push
  | _, _ => s

def batchEvents (channelId : String) (link : L) : List (Push × ℚ) :=
  ((s.batchBuffer.get? (channelId, link)).map Batch.events).getD []

def addToBatch (link : L) (push : Push) (now : ℚ) : LiveSubscriptionManager L :=
  let events := keepNewest maxBatchEvents (s.batchEvents push.channelId link ++ [(push, now)])
  let s' := { s with batchBuffer := s.batchBuffer.set ⟨push.channelId,link,events⟩ }
  s'.log link .batched push

def send (link : L) (push : Push) (now : ℚ) : LiveSubscriptionManager L :=
  let s' := { s with pushBuffer := s.pushBuffer.record link push now }
  s'.log link .sent push

end LiveSubscriptionManager

open LiveSubscriptionManager

def skips (push : Push) (x : L × ℤ) : Bool :=
  x.2 = cdspProfilePrioritized ∧ push.eventType ∈ prioritizedSkipEvents

def isDead (net : Network L) (push : Push) (x : L × ℤ) : Bool :=
  !net.active x.1 || (!skips push x && !decide (x.2 = cdspProfileBatched) && !net.sends x.1)

/-- One subscriber of `_push_to_subscribers`, with its profile. -/
def deliver (net : Network L) (push : Push) (s : LiveSubscriptionManager L) (x : L × ℤ) :
    LiveSubscriptionManager L :=
  if net.active x.1 = false then s.deferForDeadLink x.1 push
  else if skips push x then s
  else if x.2 = cdspProfileBatched then s.addToBatch x.1 push net.now
  else if net.sends x.1 then s.send x.1 push net.now
  else s.deferForDeadLink x.1 push

def pushToSubscribers (net : Network L) (push : Push) (s : LiveSubscriptionManager L)
    (subscribers : List (L × ℤ)) : LiveSubscriptionManager L :=
  run unsubscribeAll (run (deliver net push) s subscribers)
    ((subscribers.filter (isDead net push)).map Prod.fst)

def messagePush (prim : ReadPrimitives) (sealedManager : Option Keyring) (capable : Bool)
    (channelId : String) (m : Message) (senderPublicKey : Option Bytes) : Push where
  channelId := channelId
  eventType := "message"
  data := populateSenderPubkey (encodeMessageForWire prim sealedManager capable m) senderPublicKey
  secret := sealedManager.bind fun ring => plaintext prim ring m

def pushMessage (prim : ReadPrimitives) (sealedManager : Option Keyring) (net : Network L)
    (s : LiveSubscriptionManager L) (channelId : String) (m : Message)
    (senderPublicKey : Option Bytes) : LiveSubscriptionManager L :=
  let subscribers := s.live.getSubscribers channelId
  let push (capable : Bool) := messagePush prim sealedManager capable channelId m senderPublicKey
  match sealedManager, ciphertext m with
  | some _, some _ =>
    let capable (x : L × ℤ) : Bool := x.1 ∈ s.live.supportsSealedAtRest
    pushToSubscribers net (push true)
      (pushToSubscribers net (push false) s (subscribers.filter fun x => !capable x))
      (subscribers.filter capable)
  | _, _ => pushToSubscribers net (push false) s subscribers

def pushEvent (net : Network L) (s : LiveSubscriptionManager L) (push : Push) :
    LiveSubscriptionManager L :=
  pushToSubscribers net push s (s.live.getSubscribers push.channelId)

def updatePush (prim : ReadPrimitives) (sealedManager : Option Keyring) (channelId : String)
    (original : Message) : Push where
  channelId := channelId
  eventType := "message_updated"
  data := encodeMessageForWire prim sealedManager false original
  secret := sealedManager.bind fun ring => plaintext prim ring original

def handleLinkDeath (s : LiveSubscriptionManager L) (link : L) : LiveSubscriptionManager L :=
  let r := s.pushBuffer.drain link
  let replayed := run (fun s x => deferForDeadLink s link x.2) { s with pushBuffer := r.2 } r.1
  let s' := replayed.unsubscribeAll link
  { s' with
    linkIdentities := s'.linkIdentities.erase link
    live := { s'.live with
      supportsSealedAtRest := s'.live.supportsSealedAtRest.filter fun l => l ≠ link } }

def logAll (s : LiveSubscriptionManager L) (link : L) (via : Via) (events : List (Push × ℚ)) :
    LiveSubscriptionManager L :=
  run (fun s x => s.log link via x.1) s events

def flushBatch (net : Network L) (reachable : String → Bool) (s : LiveSubscriptionManager L)
    (b : Batch L) : LiveSubscriptionManager L :=
  let onLink := (s.live.getSubscribers b.channelId).any fun x =>
    x.1 = b.link && decide (x.2 = cdspProfileBatched) && net.active x.1 && net.sends x.1
  if onLink then logAll s b.link .sent b.events
  else match s.identityOf b.link with
    | some h => if reachable h then logAll s b.link (.lxmf h) b.events else s
    | none => s

def flushBatches (net : Network L) (reachable : String → Bool) (s : LiveSubscriptionManager L) :
    LiveSubscriptionManager L :=
  run (flushBatch net reachable) { s with batchBuffer := .empty } s.batchBuffer.rows

def handleSubscribeLive (ctx : SyncContext) (st : Store) (s : LiveSubscriptionManager L)
    (requested channelId requesterHash : Option String) (supportsSealedAtRest : Bool) (link : L) :
    Py (LiveSubscriptionManager L) := do
  let chId ← requireChannelId requested channelId "No channel_id for subscribe_live"
  let _ ← checkChannelRead ctx st chId requesterHash
  if (getSessionProfile ctx requesterHash).livePush = false then
    .error (syncError "Live subscriptions not available under current sync profile")
  else
    let sess := (present requesterHash).bind fun h => getActiveSession ctx.sessions (some h)
    let syncProfile := (sess.map Session.syncProfile).getD cdspProfileFull
    match s.subscribe chId link syncProfile requesterHash supportsSealedAtRest with
    | some s' => pure s'
    | none => .error (syncError "Subscription limit reached")

def handleUnsubscribe (s : LiveSubscriptionManager L) (requested channelId : Option String)
    (link : L) : LiveSubscriptionManager L :=
  match present (requested.or channelId) with
  | some chId => s.unsubscribe chId link
  | none => s.unsubscribeAll link

variable {s : LiveSubscriptionManager L} {supports : Bool}

lemma handleSubscribeLive_identity {ctx : SyncContext} {st : Store}
    {s' : LiveSubscriptionManager L} {requested ch rq : Option String}
    {link l : L} {h : String}
    (hok : handleSubscribeLive ctx st s requested ch rq supports link = .ok s')
    (hl : s'.identityOf l = some h) : s.identityOf l = some h ∨ present rq = some h ∧
        ∃ chId c, checkChannelRead ctx st chId rq = .ok c := by
  obtain ⟨chId,-,hok⟩ := bind_ok hok
  obtain ⟨c,hr,hok⟩ := bind_ok hok
  split_ifs at hok
  simp only at hok
  split at hok
  next hs =>
    cases hok
    obtain ⟨live,-,rfl⟩ := Option.map_eq_some_iff.mp hs
    simp only [identityOf] at hl ⊢
    split_ifs at hl
    · exact .inl hl
    split at hl
    next requester hp =>
      rw [Table.get?_set] at hl
      split_ifs at hl
      · obtain rfl := Option.some.inj hl
        exact .inr ⟨hp,chId,c,hr⟩
      · exact .inl hl
    · exact .inl hl
  · cases hok

/-- The event waits in a buffer of the link. -/
def Holds (s : LiveSubscriptionManager L) (link : L) (push : Push) : Prop :=
  (∃ b ∈ s.batchBuffer.rows, b.link = link ∧ ∃ t, (push, t) ∈ b.events) ∨
    ∃ b ∈ s.pushBuffer.pushes.rows, b.link = link ∧ ∃ t, (t, push) ∈ b.pushes

structure HandsOut (P : L → Push → Prop) (s s' : LiveSubscriptionManager L) : Prop where
  supports : s'.live.supportsSealedAtRest = s.live.supportsSealedAtRest
  journal : ∃ added, s'.journal = s.journal ++ added ∧ ∀ x ∈ added, P x.link x.push
  held : ∀ link push, Holds s' link push → Holds s link push ∨ P link push

section
variable {P : L → Push → Prop} {s s₁ s' : LiveSubscriptionManager L}

lemma HandsOut.refl (P : L → Push → Prop) (s : LiveSubscriptionManager L) : HandsOut P s s :=
  ⟨rfl,⟨[],(append_nil _).symm,fun _ hx => absurd hx not_mem_nil⟩,fun _ _ h => .inl h⟩

lemma HandsOut.trans (h₁ : HandsOut P s s₁) (h₂ : HandsOut P s₁ s') : HandsOut P s s' := by
  obtain ⟨xs,hxs,hP⟩ := h₁.journal
  obtain ⟨ys,hys,hQ⟩ := h₂.journal
  refine ⟨h₂.supports.trans h₁.supports,⟨xs ++ ys,?_,?_⟩,?_⟩
  · rw [hys,hxs,append_assoc]
  · intro x hx
    rcases mem_append.mp hx with hx | hx
    · exact hP x hx
    · exact hQ x hx
  · intro link push h
    rcases h₂.held link push h with h | h
    · exact h₁.held link push h
    · exact .inr h

lemma HandsOut.run {A : Type} {step : LiveSubscriptionManager L → A → LiveSubscriptionManager L}
    {as : List A} (hs : ∀ s, ∀ a ∈ as, HandsOut P s (step s a))
    (s : LiveSubscriptionManager L) : HandsOut P s (TransitionRuns.run step s as) :=
  run_invariant_mem (I := fun t => HandsOut P s t) (fun t a ha h => h.trans (hs t a ha)) (.refl P s)

variable {link : L} {net : Network L} {push : Push}

lemma HandsOut.log {via : Via} (h : P link push) (s : LiveSubscriptionManager L) :
    HandsOut P s (s.log link via push) := by
  refine ⟨rfl,⟨[⟨link,via,push⟩],rfl,?_⟩,fun _ _ h => .inl h⟩
  intro x hx
  rw [mem_singleton.mp hx]
  exact h

variable (s)

lemma HandsOut.unsubscribeAll (link : L) : HandsOut P s (s.unsubscribeAll link) :=
  ⟨rfl,⟨[],(append_nil _).symm,fun _ hx => absurd hx not_mem_nil⟩,fun _ _ h => .inl h⟩

lemma HandsOut.defer (h : P link push) (s : LiveSubscriptionManager L) :
    HandsOut P s (s.deferForDeadLink link push) := by
  unfold deferForDeadLink
  split
  · exact .log h s
  · exact .refl P s

lemma HandsOut.addToBatch (h : P link push) (s : LiveSubscriptionManager L) (now : ℚ) :
    HandsOut P s (s.addToBatch link push now) := by
  obtain ⟨-,hj,-⟩ : HandsOut P s (s.log link .batched push) := .log h s
  refine ⟨rfl,hj,?_⟩
  rintro l p (⟨b,hb,hl,t,ht⟩ | ho)
  · rcases Table.mem_set_rows hb with hb | rfl
    · exact .inl (.inl ⟨b,hb,hl,t,ht⟩)
    simp only at ht hl
    rcases mem_append.mp (mem_keepNewest ht) with ho | hn
    · unfold batchEvents at ho
      cases hg : s.batchBuffer.get? (push.channelId, link) with
      | none =>
        rw [hg] at ho
        cases ho
      | some old =>
        rw [hg] at ho
        have hk : old.key = (push.channelId, link) := Table.get?_key hg
        have hold_link : old.link = link := congrArg Prod.snd hk
        exact .inl (.inl ⟨old,Table.get?_mem hg,hold_link.trans hl,t,ho⟩)
    · cases mem_singleton.mp hn
      exact .inr (hl ▸ h)
  · exact .inl (.inr ho)

lemma mem_recorded {b : ZombieLinkPushBuffer L} {x : ℚ × Push} (h : x ∈ b.recorded link) :
    ∃ q ∈ b.pushes.rows, q.link = link ∧ x ∈ q.pushes := by
  unfold ZombieLinkPushBuffer.recorded at h
  cases hg : b.pushes.get? link with
  | none =>
    rw [hg] at h
    cases h
  | some q =>
    rw [hg] at h
    exact ⟨q,Table.get?_mem hg,Table.get?_key hg,h⟩

lemma HandsOut.send (h : P link push) (s : LiveSubscriptionManager L) (now : ℚ) :
    HandsOut P s (s.send link push now) := by
  obtain ⟨-,hj,-⟩ : HandsOut P s (s.log link .sent push) := .log h s
  refine ⟨rfl,hj,?_⟩
  rintro l p (ho | ⟨b,hb,hl,t,ht⟩)
  · exact .inl (.inl ho)
  rcases Table.mem_set_rows hb with hb | rfl
  · exact .inl (.inr ⟨b,hb,hl,t,ht⟩)
  have hm := mem_keepNewest ((dropWhile_sublist _).subset ht)
  rcases mem_append.mp hm with ho | hn
  · obtain ⟨q,hq,hql,hx⟩ := mem_recorded ho
    exact .inl (.inr ⟨q,hq,hql.trans hl,t,hx⟩)
  · cases mem_singleton.mp hn
    exact .inr (hl ▸ h)

lemma pushToSubscribers_handsOut {subs : List (L × ℤ)}
    (h : ∀ x ∈ subs, P x.1 push) (s : LiveSubscriptionManager L) :
    HandsOut P s (pushToSubscribers net push s subs) := by
  refine .trans (.run ?_ s) (.run (fun t l _ => .unsubscribeAll t l) _)
  intro t x hx
  unfold deliver
  split_ifs
  · exact .defer (h x hx) t
  · exact .refl P t
  · exact .addToBatch (h x hx) t net.now
  · exact .send (h x hx) t net.now
  · exact .defer (h x hx) t

lemma pushMessage_handsOut {prim : ReadPrimitives} {sm : Option Keyring}
    {ch : String} {m : Message} {pk : Option Bytes}
    (h : ∀ link capable, link ∈ (s.live.getSubscribers ch).map Prod.fst →
      (sm.isSome = true → (ciphertext m).isSome = true →
        capable = decide (link ∈ s.live.supportsSealedAtRest)) →
      P link (messagePush prim sm capable ch m pk)) :
    HandsOut P s (pushMessage prim sm net s ch m pk) := by
  unfold pushMessage
  split
  · refine .trans (pushToSubscribers_handsOut ?_ s) (pushToSubscribers_handsOut ?_ _)
    · intro x hx
      obtain ⟨hme,hno⟩ := mem_filter.mp hx
      refine h x.1 false (mem_map_of_mem hme) fun _ _ => ?_
      simpa using hno
    intro x hx
    obtain ⟨hme,hca⟩ := mem_filter.mp hx
    refine h x.1 true (mem_map_of_mem hme) fun _ _ => ?_
    simpa using hca
  next hn =>
    refine pushToSubscribers_handsOut ?_ s
    intro x hx
    refine h x.1 false (mem_map_of_mem hx) fun hm hci => ?_
    obtain ⟨ring,rfl⟩ := Option.isSome_iff_exists.mp hm
    obtain ⟨c,hc⟩ := Option.isSome_iff_exists.mp hci
    exact absurd hc (hn ring c rfl)

lemma handleLinkDeath_handsOut (link : L) (h : ∀ push, Holds s link push → P link push) :
    (∃ added, (handleLinkDeath s link).journal = s.journal ++ added ∧
        ∀ x ∈ added, P x.link x.push) ∧
      (∀ l push, Holds (handleLinkDeath s link) l push → Holds s l push) := by
  let drained := { s with pushBuffer := (s.pushBuffer.drain link).2 }
  have hh : ∀ l push, Holds drained l push → Holds s l push := by
    rintro l push (hba | ⟨b,hb,hre⟩)
    · exact .inl hba
    · exact .inr ⟨b,(mem_filter.mp hb).1,hre⟩
  have hr : HandsOut (fun l push => P l push ∧ Holds s l push) drained
      (run (fun s x => deferForDeadLink s link x.2) drained (s.pushBuffer.drain link).1) := by
    refine .run (fun t x hx => ?_) drained
    obtain ⟨q,hq,hql,hm⟩ := mem_recorded hx
    have hs : Holds s link x.2 := .inr ⟨q,hq,hql,x.1,hm⟩
    exact .defer ⟨h _ hs,hs⟩ t
  obtain ⟨added,hj,ha⟩ := hr.journal
  refine ⟨⟨added,hj,fun x hx => (ha x hx).1⟩,?_⟩
  intro l push haf
  rcases hr.held l push haf with ho | hn
  · exact hh l push ho
  · exact hn.2

lemma flushBatches_handsOut {re : String → Bool}
    (h : ∀ link push, Holds s link push → P link push) :
    HandsOut P s (flushBatches net re s) := by
  have hall : ∀ b ∈ s.batchBuffer.rows, ∀ via t, HandsOut P t (logAll t b.link via b.events) := by
    intro b hb via t
    refine .run (fun u x hx => ?_) t
    exact .log (h b.link x.1 (.inl ⟨b,hb,rfl,x.2,hx⟩)) u
  have hr : HandsOut P { s with batchBuffer := .empty } (flushBatches net re s) := by
    refine .run (fun t b hb => ?_) _
    unfold flushBatch
    simp only
    split_ifs
    · exact hall b hb .sent t
    split
    · split_ifs
      · exact hall b hb _ t
      · exact .refl P t
    · exact .refl P t
  refine ⟨hr.supports,hr.journal,?_⟩
  intro link push ha
  rcases hr.held link push ha with (⟨b,hb,-⟩ | hz) | hn
  · cases hb
  · exact .inl (.inr hz)
  · exact .inr hn

end

def Via.identity : Via → Option String
  | .sent => none
  | .batched => none
  | .deferred h => some h
  | .lxmf h => some h

structure Addressed (s s' : LiveSubscriptionManager L) : Prop where
  identities : ∀ l h, s'.identityOf l = some h → s.identityOf l = some h
  journal : ∃ added, s'.journal = s.journal ++ added ∧
    ∀ x ∈ added, ∀ h, x.via.identity = some h → s.identityOf x.link = some h

section
variable {s s₁ s' : LiveSubscriptionManager L}

lemma Addressed.silent (hid : ∀ l h, s'.identityOf l = some h → s.identityOf l = some h)
    (hj : s'.journal = s.journal) : Addressed s s' :=
  ⟨hid,[],by rw [hj,append_nil],fun _ hx => absurd hx not_mem_nil⟩

lemma Addressed.refl (s : LiveSubscriptionManager L) : Addressed s s :=
  .silent (fun _ _ h => h) rfl

lemma Addressed.trans (h₁ : Addressed s s₁) (h₂ : Addressed s₁ s') : Addressed s s' := by
  obtain ⟨xs,hxs,hx⟩ := h₁.journal
  obtain ⟨ys,hys,hy⟩ := h₂.journal
  refine ⟨fun l h hl => h₁.identities l h (h₂.identities l h hl),xs ++ ys,?_,?_⟩
  · rw [hys,hxs,append_assoc]
  intro x hm h hv
  rcases mem_append.mp hm with hm | hm
  · exact hx x hm h hv
  · exact h₁.identities x.link h (hy x hm h hv)

lemma Addressed.run {A : Type} {step : LiveSubscriptionManager L → A → LiveSubscriptionManager L}
    (hs : ∀ s a, Addressed s (step s a)) (s : LiveSubscriptionManager L) (as : List A) :
    Addressed s (TransitionRuns.run step s as) :=
  run_invariant (I := fun t => Addressed s t) (fun t a h => h.trans (hs t a)) (.refl s) as

lemma Addressed.entry {x : Delivered L} (hid : s'.linkIdentities = s.linkIdentities)
    (hj : s'.journal = s.journal ++ [x])
    (hv : ∀ h, x.via.identity = some h → s.identityOf x.link = some h) : Addressed s s' := by
  refine ⟨fun l h hl => ?_,[x],hj,?_⟩
  · unfold identityOf at hl ⊢
    rw [← hid]
    exact hl
  intro y hy
  rw [mem_singleton.mp hy]
  exact hv

lemma Addressed.defer (s : LiveSubscriptionManager L) (link : L) (push : Push) :
    Addressed s (s.deferForDeadLink link push) := by
  unfold deferForDeadLink
  split
  next h _ hid =>
    refine .entry rfl rfl fun k hk => ?_
    rw [hid]
    exact hk
  · exact .refl s

lemma Addressed.deliver (net : Network L) (push : Push) (s : LiveSubscriptionManager L)
    (x : L × ℤ) : Addressed s (deliver net push s x) := by
  unfold LiveDelivery.deliver
  split_ifs
  · exact .defer s x.1 push
  · exact .refl s
  · exact .entry (x := ⟨x.1,.batched,push⟩) rfl rfl fun _ hv => nomatch hv
  · exact .entry (x := ⟨x.1,.sent,push⟩) rfl rfl fun _ hv => nomatch hv
  · exact .defer s x.1 push

lemma Addressed.pushToSubscribers (net : Network L) (push : Push) (s : LiveSubscriptionManager L)
    (subs : List (L × ℤ)) : Addressed s (pushToSubscribers net push s subs) := by
  have hd : ∀ (t : LiveSubscriptionManager L) (link : L), Addressed t (t.unsubscribeAll link) :=
    fun _ _ => .silent (fun _ _ h => h) rfl
  exact .trans (.run (.deliver net push) s subs) (.run hd _ _)

lemma Addressed.pushMessage (prim : ReadPrimitives) (sm : Option Keyring)
    (net : Network L) (s : LiveSubscriptionManager L) (ch : String) (m : Message)
    (pk : Option Bytes) :
    Addressed s (pushMessage prim sm net s ch m pk) := by
  unfold LiveDelivery.pushMessage
  simp only
  split
  · exact .trans (.pushToSubscribers net _ s _) (.pushToSubscribers net _ _ _)
  · exact .pushToSubscribers net _ s _

lemma Addressed.handleLinkDeath (s : LiveSubscriptionManager L) (link : L) :
    Addressed s (handleLinkDeath s link) := by
  let drained := { s with pushBuffer := (s.pushBuffer.drain link).2 }
  have hd : ∀ (t : LiveSubscriptionManager L) (x : ℚ × Push),
      Addressed t (t.deferForDeadLink link x.2) := fun t x => .defer t link x.2
  have hr := Addressed.run hd drained (s.pushBuffer.drain link).1
  have hdr : Addressed s drained := .silent (fun _ _ h => h) rfl
  refine hdr.trans (hr.trans (.silent ?_ rfl))
  intro l h hl
  obtain ⟨row,hro,hid⟩ := Option.map_eq_some_iff.mp hl
  have hk := Table.get?_of_mem (mem_filter.mp (Table.get?_mem hro)).1
  rw [Table.get?_key hro] at hk
  exact Option.map_eq_some_iff.mpr ⟨row,hk,hid⟩

lemma Addressed.logAll {link : L} {via : Via}
    (hv : ∀ h, via.identity = some h → s.identityOf link = some h) (events : List (Push × ℚ)) :
    Addressed s (logAll s link via events) := by
  have hr : Addressed s (LiveDelivery.logAll s link via events) ∧
      (LiveDelivery.logAll s link via events).linkIdentities = s.linkIdentities := by
    refine run_invariant (I := fun t => Addressed s t ∧ t.linkIdentities = s.linkIdentities)
      (fun t x ht => ?_) ⟨.refl s,rfl⟩ events
    refine ⟨ht.1.trans (.entry rfl rfl fun h hh => ?_),ht.2⟩
    unfold identityOf
    rw [ht.2]
    exact hv h hh
  exact hr.1

lemma Addressed.flushBatches (net : Network L) (re : String → Bool)
    (s : LiveSubscriptionManager L) : Addressed s (flushBatches net re s) := by
  have he : Addressed s { s with batchBuffer := .empty } := .silent (fun _ _ h => h) rfl
  refine he.trans ?_
  refine .run (fun t b => ?_) _ _
  unfold flushBatch
  simp only
  split_ifs
  · have hs : ∀ h, Via.sent.identity = some h → t.identityOf b.link = some h :=
      fun _ hv => nomatch hv
    exact .logAll hs b.events
  split
  next h hid =>
    split_ifs
    · refine .logAll (fun k hk => ?_) b.events
      rw [hid]
      exact hk
    · exact .refl t
  · exact .refl t

end

end Hokora.LiveDelivery
