import Hokora.LiveDelivery
import Hokora.LxmfIngestor
import Hokora.SealedReads

/-!
# Links that decrypt by themselves

A link may announce that it decrypts sealed messages itself. The runs are those of the subscription
manager together with the database that ingested and received messages are read from; what a link
was handed includes batches and deferred events. Keys and ciphertexts are those of the read
handlers.
-/
namespace Hokora.LiveCapability
open BigEndian Constants Database LiveDelivery LiveSubscriptions LxmfIngestor MessageProcessor
  PushedContent Pusher RateLimit ReadHandlers Repositories SealedReads TransitionRuns
open List (mem_append mem_filter mem_map)

structure LiveNode (L : Type) [DecidableEq L] where
  store : Store
  manager : LiveSubscriptionManager L

structure Setting (L : Type) where
  prim : Primitives
  read : ReadPrimitives
  sealedManager : Option Keyring
  net : Network L

inductive LiveAction (L : Type) where
  | subscribe (channelId : String) (link : L) (syncProfile : ℤ) (identityHash : Option String)
      (supportsSealedAtRest : Bool)
  | unsubscribe (channelId : String) (link : L)
  | unsubscribeAll (link : L)
  | ingest (w : Setting L) (mp : Processor) (m : Moment) (lim : Option RateLimiter)
      (env : MessageEnvelope)
  | received (w : Setting L) (store : Store) (channelId : String) (row : Message)
      (senderPublicKey : Option Bytes)
  | linkDeath (link : L)
  | flush (net : Network L) (reachable : String → Bool)

variable {L : Type} [DecidableEq L]

def ingestLive (w : Setting L) (mp : Processor) (m : Moment) (lim : Option RateLimiter)
    (env : MessageEnvelope) (n : LiveNode L) : LiveNode L :=
  match (ingest w.prim mp m lim n.store env).2 with
  | .error _ => n
  | .ok (message, st) =>
    { store := st
      manager :=
        if env.type ∈ updateTypes then
          match (present env.replyTo).bind (MessageRepo.getByHash st) with
          | some original =>
            pushEvent w.net n.manager (updatePush w.read w.sealedManager env.channelId original)
          | none => n.manager
        else
          pushMessage w.read w.sealedManager w.net n.manager env.channelId message
            env.senderPublicKey }

def act (n : LiveNode L) : LiveAction L → LiveNode L
  | .subscribe channelId link syncProfile identityHash supports =>
    { n with manager := (n.manager.subscribe channelId link syncProfile identityHash
        supports).getD n.manager }
  | .unsubscribe channelId link => { n with manager := n.manager.unsubscribe channelId link }
  | .unsubscribeAll link => { n with manager := n.manager.unsubscribeAll link }
  | .ingest w mp m lim env => ingestLive w mp m lim env n
  | .received w store channelId row senderPublicKey =>
    { store := store
      manager := pushMessage w.read w.sealedManager w.net n.manager channelId row senderPublicKey }
  | .linkDeath link => { n with manager := handleLinkDeath n.manager link }
  | .flush net reachable => { n with manager := flushBatches net reachable n.manager }

structure Watch (L : Type) [DecidableEq L] where
  node : LiveNode L
  announced : List L := []
  handed : List (L × Push) := []

def announcedAfter (s : Watch L) : LiveAction L → List L
  | .subscribe channelId link syncProfile identityHash true =>
    if (s.node.manager.subscribe channelId link syncProfile identityHash true).isSome then
      link :: s.announced
    else s.announced
  | .linkDeath link => s.announced.filter fun l => l ≠ link
  | _ => s.announced

def step (s : Watch L) (a : LiveAction L) : Watch L :=
  let n := act s.node a
  { node := n
    announced := announcedAfter s a
    handed := s.handed ++ ((n.manager.journal.drop s.node.manager.journal.length).filter fun x =>
      x.link ∈ s.announced).map fun x => (x.link, x.push) }

def reveals (push : Push) : Bool :=
  match push.secret, push.data.lookup "body" with
  | some text, some (.str body) => text ≠ "" && body = text
  | _, _ => false

/-- No event with a decrypted text went to a link that announced the capability. -/
def Honoured (s : Watch L) : Prop := ∀ x ∈ s.handed, reveals x.2 = false

instance (s : Watch L) : Decidable (Honoured s) := inferInstanceAs (Decidable (∀ x ∈ _, _))

def Fresh (s : LiveSubscriptionManager L) (link : L) : Prop :=
  (∀ x ∈ s.live.subscriptions, x.2.1 ≠ link) ∧ (∀ b ∈ s.batchBuffer.rows, b.link ≠ link) ∧
    ∀ b ∈ s.pushBuffer.pushes.rows, b.link ≠ link

/-- The row that a change refers to, as the change has left it. -/
def changedRow (w : Setting L) (mp : Processor) (m : Moment) (lim : Option RateLimiter)
    (env : MessageEnvelope) (st : Store) : Option Message :=
  (ingest w.prim mp m lim st env).2.toOption.bind fun r =>
    (present env.replyTo).bind (MessageRepo.getByHash r.2)

/-- The capability is announced with the link's first subscription, and a change of an encrypted row
is announced only where no link has the capability. -/
def Regular (s : Watch L) : LiveAction L → Prop
  | .subscribe _ link _ _ true =>
    link ∈ s.node.manager.live.supportsSealedAtRest ∨ Fresh s.node.manager link
  | .ingest w mp m lim env => env.type ∈ updateTypes →
      ∀ row ∈ changedRow w mp m lim env s.node.store, (ciphertext row).isSome →
        ∀ x ∈ s.node.manager.live.getSubscribers env.channelId,
          x.1 ∉ s.node.manager.live.supportsSealedAtRest
  | _ => True

instance (s : LiveSubscriptionManager L) (link : L) : Decidable (Fresh s link) :=
  inferInstanceAs (Decidable ((∀ x ∈ _, _) ∧ (∀ b ∈ _, _) ∧ ∀ b ∈ _, _))

instance (s : Watch L) : (a : LiveAction L) → Decidable (Regular s a)
  | .subscribe _ _ _ _ true => inferInstanceAs (Decidable (_ ∨ _))
  | .subscribe _ _ _ _ false | .unsubscribe _ _ | .unsubscribeAll _ => isTrue trivial
  | .ingest _ _ _ _ _ => inferInstanceAs (Decidable (_ → ∀ row ∈ _, _ → ∀ x ∈ _, _))
  | .received _ _ _ _ _ | .linkDeath _ | .flush _ _ => isTrue trivial

variable {pk : Option Bytes}

lemma messagePush_capable {prim : ReadPrimitives} {sm : Option Keyring}
    {ch : String} {m : Message} :
    reveals (messagePush prim sm true ch m pk) = false := by
  unfold reveals messagePush
  rw [lookup_populateSenderPubkey (by decide)]
  cases hs : sm.bind fun ring => plaintext prim ring m with
  | none => rfl
  | some text =>
    obtain ⟨ring,rfl,ht⟩ := Option.bind_eq_some_iff.mp hs
    obtain ⟨c,hc,-⟩ := Option.bind_eq_some_iff.mp ht
    have hb : (encodeMessageForWire prim (some ring) true m).lookup "body" = some (.str "") := by
      simp only [encodeMessageForWire,hc,if_true]
      rw [lookup_setItem_ne (by decide),lookup_setItem_ne (by decide),
        lookup_setItem_ne (by decide)]
      exact lookup_setItem
    rw [hb]
    simp only [Bool.and_eq_false_iff,decide_eq_false_iff_not,not_not]
    by_cases h : text = ""
    · exact .inl h
    · exact .inr (Ne.symm h)

variable {supports : Bool} {link : L} {a : LiveAction L} {m : Message}
  {sm : Option Keyring} {identityHash : Option String} {prim : ReadPrimitives}
  {s : Watch L} {syncProfile : ℤ}

lemma plaintext_none (h : ¬ (sm.isSome = true ∧ (ciphertext m).isSome = true)) :
    (sm.bind fun ring => plaintext prim ring m) = none := by
  cases hs : sm.bind fun ring => plaintext prim ring m with
  | none => rfl
  | some text =>
    obtain ⟨ring,hr,ht⟩ := Option.bind_eq_some_iff.mp hs
    obtain ⟨c,hc,-⟩ := Option.bind_eq_some_iff.mp ht
    exact absurd ⟨by rw [hr]; rfl,by rw [hc]; rfl⟩ h

lemma messagePush_plain (h : ¬ (sm.isSome = true ∧ (ciphertext m).isSome = true))
    {capable : Bool} {ch : String} :
    reveals (messagePush prim sm capable ch m pk) = false := by
  unfold reveals messagePush
  simp [plaintext_none h]

/-- The events for links with the capability show no decrypted text. -/
def Veiled (s : LiveSubscriptionManager L) (link : L) (push : Push) : Prop :=
  link ∈ s.live.supportsSealedAtRest → reveals push = false

lemma pushMessage_veiled {net : Network L} {ch : String} {s : LiveSubscriptionManager L} :
    HandsOut (Veiled s) s (pushMessage prim sm net s ch m pk) := by
  refine pushMessage_handsOut s ?_
  intro link capable _ hca hl
  by_cases hc : sm.isSome = true ∧ (ciphertext m).isSome = true
  · rw [hca hc.1 hc.2,decide_eq_true hl]
    exact messagePush_capable
  · exact messagePush_plain hc

structure Sound (s : Watch L) : Prop where
  recorded : ∀ link, link ∈ s.announced ↔ link ∈ s.node.manager.live.supportsSealedAtRest
  held : ∀ link push, link ∈ s.announced → Holds s.node.manager link push → reveals push = false
  honoured : Honoured s

lemma Sound.of_handsOut {s' : Watch L} (hs : Sound s) (ha : s'.announced = s.announced)
    (hou : HandsOut (Veiled s.node.manager) s.node.manager s'.node.manager)
    (hh : s'.handed = s.handed ++
      ((s'.node.manager.journal.drop s.node.manager.journal.length).filter fun x =>
        x.link ∈ s.announced).map fun x => (x.link, x.push)) : Sound s' := by
  obtain ⟨hsu,⟨added,hj,had⟩,hhe⟩ := hou
  refine ⟨?_,?_,?_⟩
  · rw [ha,hsu]
    exact hs.recorded
  · intro link push hl hp
    rw [ha] at hl
    rcases hhe link push hp with ho | hn
    · exact hs.held link push hl ho
    · exact hn ((hs.recorded link).mp hl)
  intro x hx
  rw [hh,hj,List.drop_left] at hx
  rcases mem_append.mp hx with ho | hn
  · exact hs.honoured x ho
  obtain ⟨d,hd,rfl⟩ := mem_map.mp hn
  obtain ⟨hd,hl⟩ := mem_filter.mp hd
  exact had d hd ((hs.recorded d.link).mp (of_decide_eq_true hl))

lemma Sound.quiet (hs : Sound s) (ha : announcedAfter s a = s.announced)
    (ho : HandsOut (Veiled s.node.manager) s.node.manager (act s.node a).manager) :
    Sound (step s a) :=
  hs.of_handsOut ha ho rfl

lemma ingestLive_veiled {w : Setting L} {mp : Processor} {m : Moment} {lim : Option RateLimiter}
    {env : MessageEnvelope} {n : LiveNode L}
    (h : env.type ∈ updateTypes → ∀ row ∈ changedRow w mp m lim env n.store,
      (ciphertext row).isSome → ∀ x ∈ n.manager.live.getSubscribers env.channelId,
        x.1 ∉ n.manager.live.supportsSealedAtRest) :
    HandsOut (Veiled n.manager) n.manager (ingestLive w mp m lim env n).manager := by
  unfold ingestLive
  split
  · exact .refl _ _
  next message st hst =>
    split_ifs with ht
    · split
      next original ho =>
        refine pushToSubscribers_handsOut ?_ _
        intro x hx hl
        by_cases hc : (ciphertext original).isSome = true
        · have hr : changedRow w mp m lim env n.store = some original := by
            rw [changedRow,hst,← ho]
            rfl
          exact absurd hl (h ht original hr hc x hx)
        · unfold reveals updatePush
          simp [plaintext_none fun hb => hc hb.2]
      · exact .refl _ _
    · exact pushMessage_veiled

section
variable {s s' : LiveSubscriptionManager L} {ch : String} {link : L} {syncProfile : ℤ}
  {identityHash : Option String} {supports : Bool}

lemma subscribe_frame (h : s.subscribe ch link syncProfile identityHash supports = some s') :
    s'.journal = s.journal ∧ (∀ l push, Holds s' l push ↔ Holds s l push) ∧
      (∀ l ∈ s.live.supportsSealedAtRest, l ∈ s'.live.supportsSealedAtRest) ∧
      ∀ l ∈ s'.live.supportsSealedAtRest,
        l ∈ s.live.supportsSealedAtRest ∨ l = link ∧ supports = true := by
  obtain ⟨live,hli,rfl⟩ := Option.map_eq_some_iff.mp h
  refine ⟨rfl,fun _ _ => Iff.rfl,?_⟩
  unfold LiveManager.subscribe at hli
  split_ifs at hli with hm hk hfu ht hf
  · cases hli
    exact ⟨fun _ hl => hl,fun _ hl => .inl hl⟩
  · cases hli
    refine ⟨fun _ hl => List.mem_append_left _ hl,fun l hl => ?_⟩
    rcases mem_append.mp hl with ho | hn
    · exact .inl ho
    · exact .inr ⟨List.mem_singleton.mp hn,hf⟩
  · cases hli
    exact ⟨fun _ hl => hl,fun _ hl => .inl hl⟩

lemma subscribe_fresh (h : s.subscribe ch link syncProfile identityHash true = some s')
    (hn : ∀ x ∈ s.live.subscriptions, x.2.1 ≠ link) :
    link ∈ s'.live.supportsSealedAtRest := by
  obtain ⟨live,hl,rfl⟩ := Option.map_eq_some_iff.mp h
  unfold LiveManager.subscribe at hl
  split_ifs at hl with hm hk hfu ht hf
  · obtain ⟨x,hx,hxl⟩ := mem_map.mp hk
    obtain ⟨y,hy,rfl⟩ := mem_map.mp hx
    exact absurd hxl (hn y (mem_filter.mp hy).1)
  · cases hl
    exact List.mem_append_right _ (List.mem_singleton.mpr rfl)
  · exact absurd rfl hf

lemma Fresh.not_holds (h : Fresh s link) (push : Push) : ¬ Holds s link push := by
  rintro (⟨b,hb,hl,-⟩ | ⟨b,hb,hl,-⟩)
  · exact h.2.1 b hb hl
  · exact h.2.2 b hb hl

end

lemma announcedAfter_subscribe {ch : String} {m : LiveSubscriptionManager L}
    (hs : s.node.manager.subscribe ch link syncProfile identityHash supports = some m)
    (l : L) : l ∈ announcedAfter s (.subscribe ch link syncProfile identityHash supports) ↔
      l ∈ s.announced ∨ l = link ∧ supports = true := by
  cases supports with
  | false => simp [announcedAfter]
  | true => simp [announcedAfter,hs,or_comm]

lemma subscribe_sound (hs : Sound s) {ch : String}
    (hok : Regular s (.subscribe ch link syncProfile identityHash supports)) :
    Sound (step s (.subscribe ch link syncProfile identityHash supports)) := by
  cases hsu : s.node.manager.subscribe ch link syncProfile identityHash supports with
  | none =>
    have ha : announcedAfter s
        (.subscribe ch link syncProfile identityHash supports) = s.announced := by
      cases supports with
      | false => rfl
      | true => simp [announcedAfter,hsu]
    refine hs.quiet ha ?_
    simp only [act,hsu,Option.getD_none]
    exact .refl _ _
  | some m =>
    obtain ⟨hj,hho,hke,had⟩ := subscribe_frame hsu
    have hm : (step s (.subscribe ch link syncProfile identityHash supports)).node.manager = m := by
      simp [step,act,hsu]
    have hh : (step s (.subscribe ch link syncProfile identityHash
        supports)).handed = s.handed := by
      simp [step,act,hsu,hj]
    have ha := announcedAfter_subscribe hsu
    refine ⟨fun l => ?_,fun l push hl hp => ?_,fun x hx => hs.honoured x (hh ▸ hx)⟩
    · rw [hm]
      constructor
      · intro hl
        rcases (ha l).mp hl with ho | ⟨rfl,rfl⟩
        · exact hke l ((hs.recorded l).mp ho)
        rcases hok with hk | hf
        · exact hke l hk
        · exact subscribe_fresh hsu hf.1
      · intro hl
        refine (ha l).mpr ?_
        rcases had l hl with ho | hn
        · exact .inl ((hs.recorded l).mpr ho)
        · exact .inr hn
    · rw [hm,hho] at hp
      rcases (ha l).mp hl with ho | ⟨rfl,rfl⟩
      · exact hs.held l push ho hp
      rcases hok with hk | hf
      · exact hs.held l push ((hs.recorded l).mpr hk) hp
      · exact absurd hp (hf.not_holds push)

lemma linkDeath_sound (hs : Sound s) : Sound (step s (.linkDeath link)) := by
  obtain ⟨⟨added,hj,ha⟩,hhe⟩ := handleLinkDeath_handsOut
    (P := fun l push => l ∈ s.announced → reveals push = false) s.node.manager link
    fun push hp hl => hs.held link push hl hp
  have hsu : (handleLinkDeath s.node.manager link).live.supportsSealedAtRest =
      s.node.manager.live.supportsSealedAtRest.filter fun l => l ≠ link := by
    have hr : HandsOut (fun _ _ => True)
        { s.node.manager with pushBuffer := (s.node.manager.pushBuffer.drain link).2 }
        (run (fun s x => s.deferForDeadLink link x.2)
          { s.node.manager with pushBuffer := (s.node.manager.pushBuffer.drain link).2 }
          (s.node.manager.pushBuffer.drain link).1) :=
      .run (fun t _ _ => .defer trivial t) _
    exact congrArg (List.filter fun l => decide (l ≠ link)) hr.supports
  refine ⟨fun l => ?_,fun l push hl hp => ?_,fun x hx => ?_⟩
  · show l ∈ s.announced.filter _ ↔
      l ∈ (handleLinkDeath s.node.manager link).live.supportsSealedAtRest
    rw [hsu,mem_filter,mem_filter,hs.recorded l]
  · exact hs.held l push (mem_filter.mp hl).1 (hhe l push hp)
  have hh : (step s (.linkDeath link)).handed = s.handed ++
      (added.filter fun x => x.link ∈ s.announced).map fun x => (x.link, x.push) := by
    simp [step,act,hj]
  rw [hh] at hx
  rcases mem_append.mp hx with ho | hn
  · exact hs.honoured x ho
  obtain ⟨d,hd,rfl⟩ := mem_map.mp hn
  obtain ⟨hd,hli⟩ := mem_filter.mp hd
  exact ha d hd (of_decide_eq_true hli)

lemma step_sound (hs : Sound s) (hok : Regular s a) : Sound (step s a) := by
  cases a with
  | subscribe ch link syncProfile identityHash supports => exact subscribe_sound hs hok
  | unsubscribe ch link =>
    refine hs.quiet rfl ⟨rfl,⟨[],(List.append_nil _).symm,?_⟩,fun _ _ h => .inl h⟩
    intro x hx
    cases hx
  | unsubscribeAll link => exact hs.quiet rfl (.unsubscribeAll _ link)
  | ingest w mp m lim env => exact hs.quiet rfl (ingestLive_veiled hok)
  | received w store ch row pk => exact hs.quiet rfl pushMessage_veiled
  | linkDeath link => exact linkDeath_sound hs
  | flush net reachable =>
    refine hs.quiet rfl (flushBatches_handsOut _ ?_)
    intro link push hp hl
    exact hs.held link push ((hs.recorded link).mpr hl) hp

/-- In a regular run from a start of the process, no link that announced the capability gets a
decrypted text. -/
theorem capability_honoured {st : Store} {as : List (LiveAction L)}
    (h : Guarded step Regular { node := { store := st, manager := {} } } as) :
    Honoured (run step { node := { store := st, manager := {} } } as) := by
  have hst : Sound ({ node := { store := st, manager := {} } } : Watch L) := by
    refine ⟨fun l => Iff.rfl,fun l _ hl => absurd hl List.not_mem_nil,fun x hx => ?_⟩
    cases hx
  exact (Guarded.invariant (fun _ _ hs hok => step_sound hs hok) hst h).honoured

/-! A post to the sealed channel of the samples, and changes of it. -/

def vaultRing : Keyring := { current := ⟨.singleton ⟨"vault",[1],1⟩⟩ }

def vaultLive : Setting ℕ where
  prim := vaultPrimitives
  read := vaultDecryption
  sealedManager := some vaultRing
  net := { active := fun _ => true, sends := fun _ => true, now := 1000 }

def posted (env : MessageEnvelope) : LiveAction ℕ :=
  .ingest vaultLive vaultProcessor ⟨1000,[9]⟩ none env

def capableReader : LiveAction ℕ := .subscribe "vault" 0 cdspProfileFull (some "alice") true

def legacyReader : LiveAction ℕ := .subscribe "vault" 0 cdspProfileFull (some "alice") false

def watched (as : List (LiveAction ℕ)) : Watch ℕ :=
  run step { node := { store := vaultStart, manager := {} } } as

theorem vaultPost_veiled :
    (watched [capableReader, posted vaultPost, .linkDeath 0]).handed.length = 2 ∧
      Honoured (watched [capableReader, posted vaultPost, .linkDeath 0]) :=
  ⟨by decide +kernel,capability_honoured (by decide +kernel)⟩

def change (type : ℤ) (body : Option String) : MessageEnvelope :=
  { vaultPost with
    type := type, body := body, replyTo := some (vaultPost.computeHash vaultPrimitives),
    timestamp := .fin 1001 }

theorem change_reveals_text :
    ¬ Honoured (watched [capableReader, posted vaultPost, posted (change msgPin none)]) ∧
      ¬ Honoured (watched [capableReader, posted vaultPost,
        posted (change msgReaction (some "x"))]) ∧
      ¬ Honoured (watched [capableReader, posted vaultPost, posted (change msgDelete none)]) ∧
      ¬ Honoured (watched [capableReader, posted vaultPost, posted (change msgEdit (some "new"))]) ∧
      ¬ Honoured (watched [legacyReader, capableReader, posted vaultPost]) := by
  decide +kernel

end Hokora.LiveCapability
