import Hokora.ReadHandlers

/-!
# Live subscriptions

Subscribers of a channel and what each of them is sent.
-/
namespace Hokora.LiveSubscriptions
open BigEndian Constants Database List PushReceive PyValue ReadHandlers

def maxSubscribersPerChannel : ℕ := 100
def maxTotalSubscribers : ℕ := 500

structure LiveManager (L : Type) where
  subscriptions : List (String × L × ℤ) := []
  supportsSealedAtRest : List L := []

variable {L : Type} [DecidableEq L]

namespace LiveManager

def getSubscribers (live : LiveManager L) (channelId : String) : List (L × ℤ) :=
  (live.subscriptions.filter fun x => x.1 = channelId).map Prod.snd

def subscribe (live : LiveManager L) (channelId : String) (link : L) (syncProfile : ℤ)
    (supportsSealedAtRest : Bool) : Option (LiveManager L) :=
  if syncProfile = cdspProfileMinimal then none
  else if link ∈ (live.getSubscribers channelId).map Prod.fst then
    -- Only the profile changes.
    some { live with
      subscriptions := live.subscriptions.map fun x =>
        if x.1 = channelId ∧ x.2.1 = link then (channelId, link, syncProfile) else x }
  else if maxSubscribersPerChannel ≤ (live.getSubscribers channelId).length then none
  else if maxTotalSubscribers ≤ live.subscriptions.length then none
  else
    some {
      subscriptions := live.subscriptions ++ [(channelId, link, syncProfile)]
      supportsSealedAtRest :=
        if supportsSealedAtRest then live.supportsSealedAtRest ++ [link]
        else live.supportsSealedAtRest }

end LiveManager

def handleSubscribeLive (ctx : SyncContext) (st : Store) (live : LiveManager L)
    (requested channelId requesterHash : Option String) (supportsSealedAtRest : Bool) (link : L) :
    Py (LiveManager L) := do
  let chId ← requireChannelId requested channelId "No channel_id for subscribe_live"
  let _ ← checkChannelRead ctx st chId requesterHash
  if (getSessionProfile ctx requesterHash).livePush = false then
    .error (syncError "Live subscriptions not available under current sync profile")
  else
    let sess := (present requesterHash).bind fun h => getActiveSession ctx.sessions (some h)
    let syncProfile := (sess.map Session.syncProfile).getD cdspProfileFull
    match live.subscribe chId link syncProfile supportsSealedAtRest with
    | some live' => pure live'
    | none => .error (syncError "Subscription limit reached")

def prioritizedSkipEvents : List String := ["typing", "presence", "status_update"]

def pushToSubscribers (active : L → Bool) (subscribers : List (L × ℤ)) (eventType : String)
    (data : Entry) : List (L × Entry) :=
  subscribers.filterMap fun x =>
    if active x.1 = false then none
    else if x.2 = cdspProfilePrioritized ∧ eventType ∈ prioritizedSkipEvents then none
    else some (x.1, data)

def pushMessage (prim : ReadPrimitives) (sealedManager : Option Keyring) (live : LiveManager L)
    (active : L → Bool) (m : Message) (senderPublicKey : Option Bytes) : List (L × Entry) :=
  let subscribers := live.getSubscribers m.channelId
  let data (capable : Bool) :=
    populateSenderPubkey (encodeMessageForWire prim sealedManager capable m) senderPublicKey
  match sealedManager, ciphertext m with
  | some _, some _ =>
    let capable := fun x : L × ℤ => decide (x.1 ∈ live.supportsSealedAtRest)
    pushToSubscribers active (subscribers.filter fun x => !capable x) "message" (data false) ++
      pushToSubscribers active (subscribers.filter capable) "message" (data true)
  | _, _ => pushToSubscribers active subscribers "message" (data false)

def pushMessageUpdated (prim : ReadPrimitives) (sealedManager : Option Keyring)
    (live : LiveManager L) (active : L → Bool) (m : Message) : List (L × Entry) :=
  pushToSubscribers active (live.getSubscribers m.channelId) "message_updated"
    (encodeMessageForWire prim sealedManager false m)

section
variable {active : L → Bool} {subscribers : List (L × ℤ)} {link : L} {e data : Entry}
omit [DecidableEq L]

lemma mem_pushToSubscribers {eventType : String}
    (h : (link, e) ∈ pushToSubscribers active subscribers eventType data) :
    link ∈ subscribers.map Prod.fst ∧ active link = true ∧ e = data := by
  obtain ⟨x,hx,hs⟩ := mem_filterMap.mp h
  split_ifs at hs with hd
  cases hs
  exact ⟨mem_map_of_mem hx,by simpa using hd,rfl⟩

lemma pushToSubscribers_mem {eventType : String} (he : eventType ∉ prioritizedSkipEvents)
    (hl : link ∈ subscribers.map Prod.fst) (ha : active link = true) :
    (link, data) ∈ pushToSubscribers active subscribers eventType data := by
  obtain ⟨x,hx,rfl⟩ := mem_map.mp hl
  refine mem_filterMap.mpr ⟨x,hx,?_⟩
  rw [if_neg (by simp [ha]),if_neg fun h => he h.2]

end

variable {live live' : LiveManager L} {link : L} {supports : Bool}

lemma mem_pushMessage {prim : ReadPrimitives} {sealedManager : Option Keyring}
    {active : L → Bool} {m : Message} {senderPublicKey : Option Bytes}
    {e : Entry}
    (h : (link, e) ∈ pushMessage prim sealedManager live active m senderPublicKey) :
    link ∈ (live.getSubscribers m.channelId).map Prod.fst ∧ active link = true ∧
      ∃ capable, e = populateSenderPubkey (encodeMessageForWire prim sealedManager capable m)
        senderPublicKey := by
  have hp : ∀ {p : L × ℤ → Bool} {capable : Bool},
      (link, e) ∈ pushToSubscribers active ((live.getSubscribers m.channelId).filter p) "message"
        (populateSenderPubkey (encodeMessageForWire prim sealedManager capable m) senderPublicKey) →
      link ∈ (live.getSubscribers m.channelId).map Prod.fst ∧ active link = true ∧
        ∃ capable, e = populateSenderPubkey (encodeMessageForWire prim sealedManager capable m)
          senderPublicKey := by
    intro p capable hm
    obtain ⟨hl,ha,he⟩ := mem_pushToSubscribers hm
    obtain ⟨x,hx,hxl⟩ := mem_map.mp hl
    exact ⟨mem_map.mpr ⟨x,(mem_filter.mp hx).1,hxl⟩,ha,capable,he⟩
  unfold pushMessage at h
  split at h
  · rcases mem_append.mp h with hle | hc
    · exact hp hle
    · exact hp hc
  · obtain ⟨hl,ha,he⟩ := mem_pushToSubscribers h
    exact ⟨hl,ha,false,he⟩

lemma subscribe_other {channelId k : String} {syncProfile : ℤ}
    (h : live.subscribe channelId link syncProfile supports = some live') (hk : k ≠ channelId) :
    live'.getSubscribers k = live.getSubscribers k := by
  unfold LiveManager.subscribe at h
  split_ifs at h
  · cases h
    have hs : ∀ subs : List (String × L × ℤ), (subs.map fun x =>
        if x.1 = channelId ∧ x.2.1 = link then (channelId, link, syncProfile) else x).filter
          (fun x => x.1 = k) = subs.filter fun x => x.1 = k := by
      intro subs
      induction subs with
      | nil => rfl
      | cons x subs ih =>
        by_cases hx : x.1 = channelId ∧ x.2.1 = link
        · simp [hx,ih,Ne.symm hk]
        · simp [hx,ih,filter_cons]
    rw [LiveManager.getSubscribers,LiveManager.getSubscribers,hs]
  · cases h
    simp [LiveManager.getSubscribers,Ne.symm hk]
  · cases h
    simp [LiveManager.getSubscribers,Ne.symm hk]

lemma handleSubscribeLive_unreadable {ctx : SyncContext} {st : Store}
    {requested channelId requesterHash : Option String}
    {k : String}
    (h : handleSubscribeLive ctx st live requested channelId requesterHash supports link =
      .ok live')
    (hk : ∀ c, checkChannelRead ctx st k requesterHash ≠ .ok c) :
    live'.getSubscribers k = live.getSubscribers k := by
  obtain ⟨chId,-,h⟩ := bind_ok h
  obtain ⟨c,hr,h⟩ := bind_ok h
  have hne : k ≠ chId := by
    rintro rfl
    exact hk c hr
  split_ifs at h
  simp only at h
  split at h
  next hs =>
    cases h
    exact subscribe_other hs hne
  · cases h

end Hokora.LiveSubscriptions
