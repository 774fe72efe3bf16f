import Hokora.LiveDelivery

/-!
# The recorded attributes of subscribers

What is recorded for a link against what its last subscription said.
-/
namespace Hokora.SubscriberAttributes
open BigEndian Constants Database KeyedTable List LiveDelivery LiveSubscriptions ReadHandlers
  TransitionRuns
open LiveSubscriptionManager (deferForDeadLink identityOf)

variable {L : Type} [DecidableEq L]

structure Attributes where
  identityHash : Option String
  supportsSealedAtRest : Bool
  deriving DecidableEq

structure Tracked (L : Type) [DecidableEq L] where
  manager : LiveSubscriptionManager L := {}
  latest : L → Option Attributes := fun _ => none

inductive Operation (L : Type) where
  | subscribe (channelId : String) (link : L) (syncProfile : ℤ) (identityHash : Option String)
      (supportsSealedAtRest : Bool)
  | unsubscribe (channelId : String) (link : L)
  | unsubscribeAll (link : L)
  | pushMessage (prim : ReadPrimitives) (sealedManager : Option Keyring) (net : Network L)
      (channelId : String) (m : Message) (senderPublicKey : Option Bytes)
  | pushEvent (net : Network L) (push : Push)
  | linkDeath (link : L)

def step (s : Tracked L) : Operation L → Tracked L
  | .subscribe channelId link syncProfile identityHash supports =>
    match s.manager.subscribe channelId link syncProfile identityHash supports with
    | none => s
    | some manager =>
      { manager := manager
        latest := Function.update s.latest link (some ⟨present identityHash,supports⟩) }
  | .unsubscribe channelId link => { s with manager := s.manager.unsubscribe channelId link }
  | .unsubscribeAll link => { s with manager := s.manager.unsubscribeAll link }
  | .pushMessage prim sealedManager net channelId m senderPublicKey =>
    { s with manager :=
        pushMessage prim sealedManager net s.manager channelId m senderPublicKey }
  | .pushEvent net push => { s with manager := pushEvent net s.manager push }
  | .linkDeath link => { s with manager := handleLinkDeath s.manager link }

section Maps
variable (m : LiveSubscriptionManager L)

def Subscribed (link : L) : Prop := ∃ x ∈ m.live.subscriptions, x.2.1 = link

def Blank (link : L) : Prop := m.identityOf link = none ∧ link ∉ m.live.supportsSealedAtRest

/-- The two entries of the link say this. -/
def Shows (link : L) (a : Attributes) : Prop :=
  m.identityOf link = a.identityHash ∧
    (link ∈ m.live.supportsSealedAtRest ↔ a.supportsSealedAtRest = true)

end Maps

structure Current (s : Tracked L) : Prop where
  only : ∀ l, ¬ Subscribed s.manager l → Blank s.manager l
  entry : ∀ l, Subscribed s.manager l → ∃ a, s.latest l = some a ∧ Shows s.manager l a

/-- A subscription that is not refused. -/
def accepts (m : LiveSubscriptionManager L) (channelId : String) (link : L) (syncProfile : ℤ) :
    Prop :=
  syncProfile ≠ cdspProfileMinimal ∧ (link ∈ (m.live.getSubscribers channelId).map Prod.fst ∨
    (m.live.getSubscribers channelId).length < maxSubscribersPerChannel ∧
      m.live.subscriptions.length < maxTotalSubscribers)

/-- A repeated subscription says what the entries say, and a first one for its channel takes
nothing back. A link whose last subscription ends has no entries. -/
def Keeps (s : Tracked L) : Operation L → Prop
  | .subscribe channelId link syncProfile identityHash supports =>
    accepts s.manager channelId link syncProfile →
      if link ∈ (s.manager.live.getSubscribers channelId).map Prod.fst then
        Shows s.manager link ⟨present identityHash,supports⟩
      else
        (present identityHash = none → s.manager.identityOf link = none) ∧
          (supports = false → link ∉ s.manager.live.supportsSealedAtRest)
  | .unsubscribe channelId link =>
    (∃ x ∈ s.manager.live.subscriptions, x.2.1 = link ∧ x.1 ≠ channelId) ∨ Blank s.manager link
  | .unsubscribeAll link => Blank s.manager link
  | .pushMessage prim sealedManager net channelId m senderPublicKey =>
    ∀ x ∈ s.manager.live.getSubscribers channelId,
      isDead net (messagePush prim sealedManager false channelId m senderPublicKey) x = true →
        Blank s.manager x.1
  | .pushEvent net push =>
    ∀ x ∈ s.manager.live.getSubscribers push.channelId, isDead net push x = true →
      Blank s.manager x.1
  | .linkDeath _ => True

variable {link : L} {dead : L → Prop} {sp : ℤ} {i : Option String}
  {ch : String} {supports : Bool}

section Operations
variable {s : Tracked L} {m m' m'' : LiveSubscriptionManager L}

lemma mem_getSubscribers : link ∈ (m.live.getSubscribers ch).map Prod.fst ↔
      ∃ x ∈ m.live.subscriptions, x.1 = ch ∧ x.2.1 = link := by
  simp [LiveManager.getSubscribers]

structure Drops (dead : L → Prop) (m m' : LiveSubscriptionManager L) : Prop where
  identities : m'.linkIdentities = m.linkIdentities
  supports : m'.live.supportsSealedAtRest = m.live.supportsSealedAtRest
  subscriptions : ∀ x, x ∈ m'.live.subscriptions ↔ x ∈ m.live.subscriptions ∧ ¬ dead x.2.1

lemma Drops.trans {dead' : L → Prop} (h : Drops dead m m') (h' : Drops dead' m' m'') :
    Drops (fun l => dead l ∨ dead' l) m m'' := by
  refine ⟨h'.identities.trans h.identities,h'.supports.trans h.supports,fun x => ?_⟩
  rw [h'.subscriptions,h.subscriptions,not_or,and_assoc]

lemma Drops.congr {dead' : L → Prop} (h : Drops dead m m') (he : ∀ l, dead l ↔ dead' l) :
    Drops dead' m m' :=
  ⟨h.identities,h.supports,fun x => by rw [h.subscriptions,he]⟩

lemma Drops.same (hid : m'.linkIdentities = m.linkIdentities) (hl : m'.live = m.live) :
    Drops (fun _ => False) m m' :=
  ⟨hid,by rw [hl],fun x => by rw [hl,not_false_eq_true,and_true]⟩

lemma Drops.unsubscribeAll (m : LiveSubscriptionManager L) (link : L) :
    Drops (fun l => l = link) m (m.unsubscribeAll link) := by
  refine ⟨rfl,rfl,fun x => ?_⟩
  simp [LiveSubscriptionManager.unsubscribeAll]

variable (prim : ReadPrimitives) (sealedManager : Option Keyring) (net : Network L) (push : Push)

lemma Drops.deliver (m : LiveSubscriptionManager L) (x : L × ℤ) :
    Drops (fun _ => False) m (deliver net push m x) := by
  have hd : Drops (fun _ => False) m (m.deferForDeadLink x.1 push) := by
    unfold deferForDeadLink
    split <;> exact .same rfl rfl
  unfold LiveDelivery.deliver
  split_ifs
  · exact hd
  · exact .same rfl rfl
  · exact .same rfl rfl
  · exact .same rfl rfl
  · exact hd

lemma Drops.run_silent {A : Type} {f : LiveSubscriptionManager L → A → LiveSubscriptionManager L}
    (hf : ∀ m a, Drops (fun _ => False) m (f m a)) (m : LiveSubscriptionManager L) (as : List A) :
    Drops (fun _ => False) m (run f m as) := by
  refine run_invariant (I := fun t => Drops (fun _ => False) m t) (fun t a h => ?_)
    (.same rfl rfl) as
  exact (h.trans (hf t a)).congr fun _ => or_self_iff

lemma Drops.run_unsubscribeAll (m : LiveSubscriptionManager L) (links : List L) :
    Drops (fun l => l ∈ links) m (run LiveSubscriptionManager.unsubscribeAll m links) := by
  induction links generalizing m with
  | nil => exact (Drops.same rfl rfl).congr fun l => by simp
  | cons link links ih =>
    exact ((Drops.unsubscribeAll m link).trans (ih _)).congr fun l => by simp

lemma Drops.pushToSubscribers (m : LiveSubscriptionManager L) (subs : List (L × ℤ)) :
    Drops (fun l => ∃ x ∈ subs, isDead net push x = true ∧ x.1 = l) m
      (pushToSubscribers net push m subs) := by
  have hd := Drops.run_silent (Drops.deliver net push) m subs
  refine (hd.trans (.run_unsubscribeAll _ _)).congr fun l => ?_
  simp only [false_or,mem_map,mem_filter,and_assoc]

omit [DecidableEq L] in
lemma isDead_messagePush (supports : Bool) (channelId : String) (msg : Message)
    (senderPublicKey : Option Bytes) (x : L × ℤ) :
    isDead net (messagePush prim sealedManager supports channelId msg senderPublicKey) x =
      isDead net (messagePush prim sealedManager false channelId msg senderPublicKey) x := by
  unfold isDead
  have hskips : skips (messagePush prim sealedManager supports channelId msg senderPublicKey) x =
      skips (messagePush prim sealedManager false channelId msg senderPublicKey) x := by
    unfold skips messagePush
    rfl
  rw [hskips]

lemma Drops.pushMessage (m : LiveSubscriptionManager L) (ch : String) (msg : Message)
    (pk : Option Bytes) : Drops (fun l => ∃ x ∈ m.live.getSubscribers ch, isDead net
        (messagePush prim sealedManager false ch msg pk) x = true ∧ x.1 = l) m
      (pushMessage prim sealedManager net m ch msg pk) := by
  unfold LiveDelivery.pushMessage
  simp only
  split
  · refine ((Drops.pushToSubscribers net _ m _).trans (.pushToSubscribers net _ _ _)).congr
      fun l => ?_
    simp only [mem_filter,isDead_messagePush prim _ net true]
    constructor
    · rintro (⟨x,hx,hd,rfl⟩ | ⟨x,hx,hd,rfl⟩)
      · exact ⟨x,hx.1,hd,rfl⟩
      · exact ⟨x,hx.1,hd,rfl⟩
    rintro ⟨x,hx,hd,rfl⟩
    by_cases hc : x.1 ∈ m.live.supportsSealedAtRest
    · exact .inr ⟨x,⟨hx,by simpa using hc⟩,hd,rfl⟩
    · exact .inl ⟨x,⟨hx,by simpa using hc⟩,hd,rfl⟩
  · exact .pushToSubscribers net _ m _

lemma Drops.current_iff (hd : Drops dead s.manager m') (hs : Current s) :
    Current { s with manager := m' } ↔ ∀ l, dead l → Blank s.manager l := by
  have hb : ∀ l, Blank m' l ↔ Blank s.manager l := by
    intro l
    simp [Blank,identityOf,hd.identities,hd.supports]
  have hsh : ∀ l a, Shows m' l a ↔ Shows s.manager l a := by
    intro l a
    simp [Shows,identityOf,hd.identities,hd.supports]
  have hsu : ∀ l, Subscribed m' l ↔ Subscribed s.manager l ∧ ¬ dead l := by
    intro l
    constructor
    · rintro ⟨x,hx,rfl⟩
      obtain ⟨hm,hal⟩ := (hd.subscriptions x).mp hx
      exact ⟨⟨x,hm,rfl⟩,hal⟩
    · rintro ⟨⟨x,hx,rfl⟩,hal⟩
      exact ⟨x,(hd.subscriptions x).mpr ⟨hx,hal⟩,rfl⟩
  constructor
  · intro hc l hl
    exact (hb l).mp (hc.only l fun h => ((hsu l).mp h).2 hl)
  intro hde
  refine ⟨fun l hl => (hb l).mpr ?_,fun l hl => ?_⟩
  · by_cases hw : Subscribed s.manager l
    · by_contra he
      exact hl ((hsu l).mpr ⟨hw,fun h => he (hde l h)⟩)
    · exact hs.only l hw
  · obtain ⟨a,ha,hsho⟩ := hs.entry l ((hsu l).mp hl).1
    exact ⟨a,ha,(hsh l a).mpr hsho⟩

lemma unsubscribe_current_iff (hs : Current s) :
    Current (step s (.unsubscribe ch link)) ↔ Keeps s (.unsubscribe ch link) := by
  have hm : ∀ x, x ∈ (s.manager.unsubscribe ch link).live.subscriptions ↔
      x ∈ s.manager.live.subscriptions ∧ ¬ (x.1 = ch ∧ x.2.1 = link) := by
    intro x
    simp only [LiveSubscriptionManager.unsubscribe,mem_filter,decide_eq_true_eq]
  have hr : ∀ l, Subscribed (s.manager.unsubscribe ch link) l → Subscribed s.manager l := by
    rintro l ⟨x,hx,hl⟩
    exact ⟨x,((hm x).mp hx).1,hl⟩
  have ho : ∀ l, l ≠ link → Subscribed s.manager l →
      Subscribed (s.manager.unsubscribe ch link) l := by
    rintro l hne ⟨x,hx,rfl⟩
    exact ⟨x,(hm x).mpr ⟨hx,fun h => hne h.2⟩,rfl⟩
  have hle : Subscribed (s.manager.unsubscribe ch link) link ↔
      ∃ x ∈ s.manager.live.subscriptions, x.2.1 = link ∧ x.1 ≠ ch := by
    constructor
    · rintro ⟨x,hx,hl⟩
      obtain ⟨hol,hne⟩ := (hm x).mp hx
      exact ⟨x,hol,hl,fun h => hne ⟨h,hl⟩⟩
    · rintro ⟨x,hx,hl,hne⟩
      exact ⟨x,(hm x).mpr ⟨hx,fun h => hne h.1⟩,hl⟩
  constructor
  · intro hc
    by_cases hk : Subscribed (s.manager.unsubscribe ch link) link
    · exact .inl (hle.mp hk)
    · exact .inr (hc.only link hk)
  intro hke
  refine ⟨fun l hl => ?_,fun l hl => hs.entry l (hr l hl)⟩
  by_cases hl' : l = link
  · subst hl'
    rcases hke with ho | hb
    · exact absurd (hle.mpr ho) hl
    · exact hb
  · exact hs.only l fun h => hl (ho l hl' h)

lemma subscribe_isSome : (∃ m', m.subscribe ch link sp i supports = some m') ↔
      accepts m ch link sp := by
  unfold LiveSubscriptionManager.subscribe LiveManager.subscribe accepts
  split_ifs with hm hin hp ht <;> simp_all

lemma subscribe_some (h : m.subscribe ch link sp i supports = some m') :
    (∀ l, Subscribed m' l ↔ Subscribed m l ∨ l = link) ∧
      (∀ l, l ≠ link → m'.identityOf l = m.identityOf l ∧
        (l ∈ m'.live.supportsSealedAtRest ↔ l ∈ m.live.supportsSealedAtRest)) ∧
      if link ∈ (m.live.getSubscribers ch).map Prod.fst then
        m'.identityOf link = m.identityOf link ∧
          m'.live.supportsSealedAtRest = m.live.supportsSealedAtRest
      else
        m'.identityOf link = (present i).or (m.identityOf link) ∧
          (link ∈ m'.live.supportsSealedAtRest ↔
            supports = true ∨ link ∈ m.live.supportsSealedAtRest) := by
  obtain ⟨live,hli,rfl⟩ := Option.map_eq_some_iff.mp h
  unfold LiveManager.subscribe at hli
  by_cases hm : sp = cdspProfileMinimal
  · rw [if_pos hm] at hli
    cases hli
  rw [if_neg hm] at hli
  by_cases hin : link ∈ (m.live.getSubscribers ch).map Prod.fst
  · rw [if_pos hin] at hli
    cases hli
    rw [if_pos hin,if_pos hin]
    obtain ⟨y,hy,-,hyl⟩ := mem_getSubscribers.mp hin
    have hlin : ∀ x : String × L × ℤ, (if x.1 = ch ∧ x.2.1 = link then (ch, link, sp) else x).2.1 =
          x.2.1 := by
      intro x
      split_ifs with hx
      · exact hx.2.symm
      · rfl
    refine ⟨fun l => ?_,fun l _ => ⟨rfl,Iff.rfl⟩,rfl,rfl⟩
    constructor
    · rintro ⟨x,hx,hl⟩
      obtain ⟨z,hz,rfl⟩ := mem_map.mp hx
      exact .inl ⟨z,hz,(hlin z).symm.trans hl⟩
    intro hor
    have hw : Subscribed m l := hor.elim id fun hl => ⟨y,hy,hyl.trans hl.symm⟩
    obtain ⟨z,hz,hl⟩ := hw
    exact ⟨_,mem_map_of_mem hz,(hlin z).trans hl⟩
  rw [if_neg hin] at hli
  by_cases hp : maxSubscribersPerChannel ≤ (m.live.getSubscribers ch).length
  · rw [if_pos hp] at hli
    cases hli
  rw [if_neg hp] at hli
  by_cases ht : maxTotalSubscribers ≤ m.live.subscriptions.length
  · rw [if_pos ht] at hli
    cases hli
  rw [if_neg ht] at hli
  cases hli
  rw [if_neg hin,if_neg hin]
  refine ⟨fun l => ?_,fun l hl => ⟨?_,?_⟩,?_,?_⟩
  · constructor
    · rintro ⟨x,hx,hl⟩
      rcases mem_append.mp hx with ho | hn
      · exact .inl ⟨x,ho,hl⟩
      · rw [mem_singleton.mp hn] at hl
        exact .inr hl.symm
    · rintro (⟨x,hx,hl⟩ | rfl)
      · exact ⟨x,mem_append_left _ hx,hl⟩
      · exact ⟨_,mem_append_right _ (mem_singleton_self _),rfl⟩
  · simp only [identityOf]
    split
    · rw [Table.get?_set,if_neg (Ne.symm hl)]
    · rfl
  · cases supports <;> simp [hl]
  · simp only [identityOf]
    split
    next hid =>
      rw [Table.get?_set,if_pos rfl,hid]
      rfl
    next hid =>
      rw [hid]
      rfl
  · cases supports <;> simp

lemma subscribe_current_iff (hs : Current s) : Current (step s (.subscribe ch link sp i supports)) ↔
      Keeps s (.subscribe ch link sp i supports) := by
  cases hsu : s.manager.subscribe ch link sp i supports with
  | none =>
    simp only [step,hsu]
    refine iff_of_true hs fun hac => ?_
    obtain ⟨m',hm'⟩ := subscribe_isSome.mpr hac
    rw [hsu] at hm'
    cases hm'
  | some m' =>
    have hac := subscribe_isSome.mp ⟨m',hsu⟩
    obtain ⟨hli,ho,he⟩ := subscribe_some hsu
    -- The other links are as before, so the entries of this one decide.
    have hsh : Current (step s (.subscribe ch link sp i supports)) ↔
        Shows m' link ⟨present i,supports⟩ := by
      simp only [step,hsu]
      constructor
      · intro hc
        obtain ⟨a,ha,hsh⟩ := hc.entry link ((hli link).mpr (.inr rfl))
        obtain rfl := Option.some.inj ((Function.update_self link _ s.latest).symm.trans ha)
        exact hsh
      intro hsh
      refine ⟨fun l hl => ?_,fun l hl => ?_⟩
      · rw [hli,not_or] at hl
        obtain ⟨hid,hsup⟩ := ho l hl.2
        obtain ⟨hn,hno⟩ := hs.only l hl.1
        exact ⟨hid.trans hn,fun h => hno (hsup.mp h)⟩
      by_cases hne : l = link
      · subst hne
        exact ⟨_,Function.update_self _ _ _,hsh⟩
      obtain ⟨a,ha,hid',hs'⟩ := hs.entry l (((hli l).mp hl).resolve_right hne)
      obtain ⟨hid,hsup⟩ := ho l hne
      exact ⟨a,(Function.update_of_ne hne _ _).trans ha,hid.trans hid',hsup.trans hs'⟩
    rw [hsh]
    simp only [Keeps,forall_const,hac]
    split_ifs at he ⊢ with hin
    · simp [Shows,he.1,he.2]
    · simp only [Shows,he.1,he.2]
      cases present i <;> cases supports <;> simp

lemma handleLinkDeath_current (hs : Current s) : Current (step s (.linkDeath link)) := by
  have hde : ∀ (m : LiveSubscriptionManager L) (x : ℚ × Push),
      Drops (fun _ => False) m (m.deferForDeadLink link x.2) := by
    intro m x
    unfold deferForDeadLink
    split <;> exact .same rfl rfl
  let drained := { s.manager with pushBuffer := (s.manager.pushBuffer.drain link).2 }
  let replayed := run (fun m x => deferForDeadLink m link x.2) drained
    (s.manager.pushBuffer.drain link).1
  have hr : Drops (fun _ => False) drained replayed := .run_silent hde drained _
  have hd : Drops (fun l => l = link) s.manager (replayed.unsubscribeAll link) := by
    have hdr : Drops (fun _ => False) s.manager drained := .same rfl rfl
    exact (hdr.trans (hr.trans (.unsubscribeAll _ link))).congr fun l => by simp
  -- The entries of the link go with its subscriptions.
  have hb : Blank (handleLinkDeath s.manager link) link := by
    refine ⟨?_,?_⟩
    · exact congrArg (Option.map _) ((Table.get?_erase _ _ _).trans (if_pos rfl))
    · simp [handleLinkDeath]
  have hsa : ∀ l, l ≠ link →
      (handleLinkDeath s.manager link).identityOf l = s.manager.identityOf l ∧
        (l ∈ (handleLinkDeath s.manager link).live.supportsSealedAtRest ↔
          l ∈ s.manager.live.supportsSealedAtRest) := by
    intro l hl
    constructor
    · have hg := (Table.get?_erase (replayed.unsubscribeAll link).linkIdentities link l).trans
        (if_neg hl)
      have hk : (replayed.unsubscribeAll link).linkIdentities.get? l =
          s.manager.linkIdentities.get? l := by rw [hd.identities]
      exact congrArg (Option.map _) (hg.trans hk)
    have hf : l ∈ (replayed.unsubscribeAll link).live.supportsSealedAtRest.filter
        (fun k => k ≠ link) ↔ l ∈ s.manager.live.supportsSealedAtRest := by
      rw [mem_filter,hd.supports]
      simp [hl]
    exact hf
  have hsub : ∀ l, Subscribed (handleLinkDeath s.manager link) l ↔
      Subscribed s.manager l ∧ l ≠ link := by
    intro l
    constructor
    · rintro ⟨x,hx,rfl⟩
      obtain ⟨hm,hne⟩ := (hd.subscriptions x).mp hx
      exact ⟨⟨x,hm,rfl⟩,hne⟩
    · rintro ⟨⟨x,hx,rfl⟩,hne⟩
      exact ⟨x,(hd.subscriptions x).mpr ⟨hx,hne⟩,rfl⟩
  refine ⟨fun l hl => ?_,fun l hl => ?_⟩
  · by_cases hne : l = link
    · rw [hne]
      exact hb
    obtain ⟨hid,hsu⟩ := hsa l hne
    obtain ⟨hn,hno⟩ := hs.only l fun h => hl ((hsub l).mpr ⟨h,hne⟩)
    exact ⟨hid.trans hn,fun h => hno (hsu.mp h)⟩
  · obtain ⟨hw,hne⟩ := (hsub l).mp hl
    obtain ⟨hid,hsu⟩ := hsa l hne
    obtain ⟨a,ha,hid',hs'⟩ := hs.entry l hw
    exact ⟨a,ha,hid.trans hid',hsu.trans hs'⟩

lemma step_current_iff (hs : Current s) {op : Operation L} : Current (step s op) ↔ Keeps s op := by
  cases op with
  | subscribe channelId link sp i supports =>
    exact subscribe_current_iff hs
  | unsubscribe channelId link => exact unsubscribe_current_iff hs
  | unsubscribeAll link =>
    exact ((Drops.unsubscribeAll s.manager link).current_iff hs).trans forall_eq
  | pushMessage prim sealedManager net channelId m pk =>
    have hdr := Drops.pushMessage prim sealedManager net s.manager channelId m pk
    refine (hdr.current_iff hs).trans ⟨fun h x hx hd => h x.1 ⟨x,hx,hd,rfl⟩,?_⟩
    rintro h l ⟨x,hx,hd,rfl⟩
    exact h x hx hd
  | pushEvent net push =>
    have hdr := Drops.pushToSubscribers net push s.manager
      (s.manager.live.getSubscribers push.channelId)
    refine (hdr.current_iff hs).trans ⟨fun h x hx hd => h x.1 ⟨x,hx,hd,rfl⟩,?_⟩
    rintro h l ⟨x,hx,hd,rfl⟩
    exact h x hx hd
  | linkDeath link => exact iff_of_true (handleLinkDeath_current hs) trivial

end Operations

lemma start_current : Current ({} : Tracked L) :=
  ⟨fun _ _ => ⟨rfl,not_mem_nil⟩,fun _ ⟨_,hx,_⟩ => absurd hx not_mem_nil⟩

/-- The maps are current in every state of exactly the runs in which no operation ends a link's
last subscription under its entries, and none subscribes it again with other attributes. -/
theorem attributes_current_iff (ops : List (Operation L)) :
    (∀ ks, ks <+: ops → Current (run step ({} : Tracked L) ks)) ↔
      Guarded step Keeps ({} : Tracked L) ops := by
  refine always_iff_guarded (I := Current) (A := fun _ => True) ?_ ?_ start_current start_current
    fun _ _ => trivial
  · exact fun s op _ hs hok => (step_current_iff hs).mpr hok
  · exact fun s op _ hs => step_current_iff hs

def aliceJoins : Operation ℕ := .subscribe "board" 1 cdspProfileFull (some "alice") true

theorem stale_attributes : ¬ Current (run step {} [aliceJoins, .unsubscribe "board" 1]) ∧
      ¬ Current (run step {} [aliceJoins, .unsubscribeAll 1]) ∧
      ¬ Current (run step {} [aliceJoins,
        .subscribe "board" 1 cdspProfileFull (some "bob") false]) := by
  refine ⟨fun h => ?_,fun h => ?_,fun h => ?_⟩
  · exact absurd (h.only 1 (by rintro ⟨x,hx,-⟩; cases hx)).1 (by decide +kernel)
  · exact absurd (h.only 1 (by rintro ⟨x,hx,-⟩; cases hx)).1 (by decide +kernel)
  obtain ⟨a,ha,hid,-⟩ := h.entry 1 ⟨("board", 1, cdspProfileFull),by decide +kernel,rfl⟩
  have hb : a = ⟨some "bob",false⟩ := Option.some.inj (ha.symm.trans (by decide +kernel))
  rw [hb] at hid
  exact absurd hid (by decide +kernel)

end Hokora.SubscriberAttributes
